-- SUMMARY: Validity of the tree on disk as a B-tree: what insertions make of it, and when it survives them.
import Spfs.Btree.Exact
import Spfs.Btree.Map

/-!
# The tree as a B-tree

The nodes of the tree are the cells of a search tree. The block that becomes the
root is never written, so the tree is valid after an insertion exactly when that
block already was the root of a valid tree before, one that does not reach into the
block of the new record. Every later insertion has to hit an entry of that root.
-/

namespace Spfs

open EStateM (run_bind_of_ok run_bind_eq_ok)
open SearchTree (IsTree)

/-- The blocks reachable from `start` form a B-tree: nodes below the root hold 50 to
100 entries, no block is reached twice, and no id occurs twice. -/
structure BtreeAt (disk : ℕ → Block) (bSize start : ℕ) (blocks : List ℕ) : Prop where
  tree : ∃ depth entries,
    IsTree (entryNodeAt disk bSize) 0 50 depth none none 0 start blocks entries ∧
      (entries.map TreeEntry.id).Nodup
  blocks_nodup : blocks.Nodup

/-- The tree of a state is empty or a B-tree. -/
def ValidTree (w : World) : Prop :=
  w.sbi.tree.start = 0 ∨ ∃ blocks, BtreeAt w.disk w.bSize w.sbi.tree.start blocks

/-- All insertions of the run return, and the tree is valid before and after each. -/
def StaysValid (env : Env) (w : World) (seq : List SpfsInode) : Prop :=
  ∀ k ≤ seq.length, ∃ results w',
    (spfsBtreeInsertAll env (seq.take k)).run w = .ok results w' ∧ ValidTree w'

/-! ## Trees and the blocks they are made of -/

theorem entryNodeAt_congr {disk disk' : ℕ → Block} {bSize s : ℕ} (h : disk' s = disk s) :
    entryNodeAt disk' bSize s = entryNodeAt disk bSize s := by
  simp only [entryNodeAt, h]

theorem BtreeAt.congr {disk disk' : ℕ → Block} {bSize start : ℕ} {blocks : List ℕ}
    (h : BtreeAt disk bSize start blocks) (hsame : ∀ b ∈ blocks, disk' b = disk b) :
    BtreeAt disk' bSize start blocks := by
  obtain ⟨depth, entries, htree, hids⟩ := h.tree
  exact ⟨⟨depth, entries, htree.congr fun b hb => entryNodeAt_congr (hsame b hb), hids⟩, h.blocks_nodup⟩

theorem BtreeAt.start_mem {disk : ℕ → Block} {bSize start : ℕ} {blocks : List ℕ}
    (h : BtreeAt disk bSize start blocks) : start ∈ blocks := by
  obtain ⟨depth, entries, htree, -⟩ := h.tree
  exact htree.mem_self

theorem BtreeAt.zero_notMem {disk : ℕ → Block} {bSize start : ℕ} {blocks : List ℕ}
    (h : BtreeAt disk bSize start blocks) (hstart : start ≠ 0) : 0 ∉ blocks := by
  obtain ⟨depth, entries, htree, -⟩ := h.tree
  exact htree.null_notMem hstart

/-- The block of a record is not a node of a tree: its magic number is no length. -/
theorem BtreeAt.record_notMem {disk : ℕ → Block} {bSize start page : ℕ} {blocks : List ℕ}
    (h : BtreeAt disk bSize start blocks) (hmagic : recordMagic (disk page) = spookyFsBtreeMagic) :
    page ∉ blocks := by
  obtain ⟨depth, entries, htree, -⟩ := h.tree
  intro hmem
  have hsome := htree.isSome_of_mem hmem
  have hlen : ¬ nodeLength (disk page) ≤ 100 := by
    rw [show nodeLength (disk page) = recordMagic (disk page) from rfl, hmagic]
    decide
  simp [entryNodeAt, hlen] at hsome

/-! ## Insertions -/

section Runs

variable {env : Env} {w : World} {seq : List SpfsInode}

/-- Where all reads succeed, insertions into a tree with a root return exactly when
each of them is told to be a duplicate. -/
theorem spfsBtreeInsertAll_rooted_returns (seq : List SpfsInode) (hio : ∀ t s, env.ioOk t s = true)
    (hstart : w.sbi.tree.start ≠ 0) :
    (∃ results w', (spfsBtreeInsertAll env seq).run w = .ok results w') ↔
      ∀ in_ ∈ seq, Duplicate w.bSize (w.disk w.sbi.tree.start) in_.iIno := by
  induction seq generalizing w with
  | nil => simpa using ⟨[], w, rfl⟩
  | cons in_ seq ih =>
    have hcall := spfsBtreeInsert_rooted env in_ hstart
    rw [spfsBtreeInsertAll, List.forall_mem_cons]
    cases hrun : (spfsBtreeInsert env in_).run w with
    | error f w₁ =>
      rw [hrun] at hcall
      cases hcall with
      | stuck _ hdup _ =>
        rw [EStateM.run_bind_of_error hrun]
        simp [hdup]
    | ok res w₁ =>
      have hlogs : OnlyLogs w w₁ := by simpa [hrun] using hcall.onlyLogs
      have hdup : Duplicate w.bSize (w.disk w.sbi.tree.start) in_.iIno := by
        rw [hrun] at hcall
        cases hcall with
        | unread hfail _ => simp [hio] at hfail
        | duplicate _ hdup _ => exact hdup
      have hrest := ih (w := w₁) (by rw [hlogs.sbi]; exact hstart)
      rw [hlogs.bSize, hlogs.disk, hlogs.sbi] at hrest
      rw [run_bind_of_ok hrun, ← hrest]
      simp only [hdup, true_and, run_bind_eq_ok, EStateM.run_pure, EStateM.Result.ok.injEq]
      constructor
      · rintro ⟨_, _, rest, w₂, hrun₂, -, -⟩
        exact ⟨rest, w₂, hrun₂⟩
      · rintro ⟨rest, w₂, hrun₂⟩
        exact ⟨res :: rest, w₂, rest, w₂, hrun₂, rfl, rfl⟩

/-- A run is valid throughout when its first call returns and its rest stays valid. -/
theorem staysValid_cons {in_ : SpfsInode} :
    StaysValid env w (in_ :: seq) ↔ ValidTree w ∧ ∃ res w₁,
      (spfsBtreeInsert env in_).run w = .ok res w₁ ∧ StaysValid env w₁ seq := by
  constructor
  · intro h
    obtain ⟨_, _, hnil, hvalid⟩ := h 0 (Nat.zero_le _)
    cases hnil
    obtain ⟨_, _, hone, -⟩ := h 1 (by simp)
    obtain ⟨res, w₁, hfirst, -⟩ := run_bind_eq_ok.mp hone
    refine ⟨hvalid, res, w₁, hfirst, fun k hk => ?_⟩
    obtain ⟨_, w', hrun, hvalid'⟩ := h (k + 1) (by simpa using hk)
    rw [List.take_succ_cons, spfsBtreeInsertAll, run_bind_of_ok hfirst, run_bind_eq_ok] at hrun
    obtain ⟨rest, w'', hrest, hret⟩ := hrun
    cases hret
    exact ⟨rest, w', hrest, hvalid'⟩
  · rintro ⟨hvalid, res, w₁, hfirst, h⟩ k hk
    cases k with
    | zero => exact ⟨[], w, rfl, hvalid⟩
    | succ k =>
      obtain ⟨rest, w', hrest, hvalid'⟩ := h k (by simpa using hk)
      refine ⟨res :: rest, w', ?_, hvalid'⟩
      rw [List.take_succ_cons, spfsBtreeInsertAll, run_bind_of_ok hfirst, run_bind_of_ok hrest,
        EStateM.run_pure]

/-- With a root, a valid tree stays so as long as every insertion is a duplicate. -/
theorem staysValid_rooted (hio : ∀ t s, env.ioOk t s = true) (hstart : w.sbi.tree.start ≠ 0) :
    StaysValid env w seq ↔ (∃ blocks, BtreeAt w.disk w.bSize w.sbi.tree.start blocks) ∧
      ∀ in_ ∈ seq, Duplicate w.bSize (w.disk w.sbi.tree.start) in_.iIno := by
  have hvalid : ValidTree w ↔ ∃ blocks, BtreeAt w.disk w.bSize w.sbi.tree.start blocks :=
    or_iff_right hstart
  rw [← hvalid, ← spfsBtreeInsertAll_rooted_returns seq hio hstart]
  constructor
  · intro h
    obtain ⟨_, _, hnil, hvalid⟩ := h 0 (Nat.zero_le _)
    cases hnil
    obtain ⟨results, w', hrun, -⟩ := h seq.length le_rfl
    rw [List.take_length] at hrun
    exact ⟨hvalid, results, w', hrun⟩
  · rintro ⟨hvalid, results, w', hrun⟩ k -
    -- a prefix of the run returns as well, and it has left the tree alone
    have hdup := (spfsBtreeInsertAll_rooted_returns seq hio hstart).mp ⟨results, w', hrun⟩
    have hreturns := spfsBtreeInsertAll_rooted_returns (seq.take k) hio hstart
    obtain ⟨results', w₁, hrun₁⟩ := hreturns.mpr fun in_ hmem =>
      hdup in_ (List.mem_of_mem_take hmem)
    have hlogs := (spfsBtreeInsertAll_rootedFrame env _).of_ok hrun₁ hstart
    refine ⟨results', w₁, hrun₁, ?_⟩
    rw [ValidTree, hlogs.sbi, hlogs.disk, hlogs.bSize]
    exact hvalid

/-- The first insertion writes to block 0 and to the block of the record. So the new
root is a tree when it was one before that does not reach into the record. -/
theorem btreeAt_rooted_iff {in_ : SpfsInode} {b : Block} (hroot : rootPage w ≠ 0) :
    (∃ blocks, BtreeAt (rooted env in_ w b).disk w.bSize (rootPage w) blocks) ↔
      ∃ blocks, BtreeAt w.disk w.bSize (rootPage w) blocks ∧ recordPage w ∉ blocks := by
  have hsame : ∀ s, s ≠ 0 → s ≠ recordPage w → (rooted env in_ w b).disk s = w.disk s := by
    intro s hs hpage
    simp [rooted, recorded, hs, hpage]
  constructor
  · rintro ⟨blocks, hat⟩
    have hzero : 0 ∉ blocks := hat.zero_notMem hroot
    have hrecord : recordPage w ∉ blocks := by
      by_cases hpage : recordPage w = 0
      · rw [hpage]
        exact hzero
      · refine hat.record_notMem ?_
        simp [rooted, recorded, hpage]
    refine ⟨blocks, hat.congr fun s hs => (hsame s ?_ ?_).symm, hrecord⟩
    · exact ne_of_mem_of_not_mem hs hzero
    · exact ne_of_mem_of_not_mem hs hrecord
  · rintro ⟨blocks, hat, hrecord⟩
    refine ⟨blocks, hat.congr fun s hs => hsame s ?_ ?_⟩
    · exact ne_of_mem_of_not_mem hs (hat.zero_notMem hroot)
    · exact ne_of_mem_of_not_mem hs hrecord

/-- A run of insertions into the empty tree keeps it valid exactly when a block holds
the whole root node, the block that is allocated for the root happens to hold a valid
tree already, and all ids after the first are hit by the search of that root. -/
theorem spfsBtreeInsert_staysValid_iff (hio : ∀ t s, env.ioOk t s = true)
    (hstart : w.sbi.tree.start = 0) (hpage : recordPage w ≠ 0) (hroot : rootPage w ≠ 0)
    (hids : ∀ in_ ∈ seq, 1 ≤ in_.iIno ∧ in_.iIno < 2 ^ 32) :
    StaysValid env w seq ↔ seq = [] ∨ ∃ in_ rest, seq = in_ :: rest ∧ 1620 ≤ w.bSize ∧
      (∃ blocks, BtreeAt w.disk w.bSize (rootPage w) blocks ∧ recordPage w ∉ blocks) ∧
      ∀ i ∈ rest, Duplicate w.bSize (w.disk (rootPage w)) i.iIno := by
  cases seq with
  | nil =>
    simp only [true_or, iff_true]
    rintro k -
    exact ⟨[], w, by rw [List.take_nil]; rfl, .inl hstart⟩
  | cons in_ rest =>
    have hid : in_.iIno % 2 ^ 32 ≠ 0 := by
      have := hids in_ List.mem_cons_self
      omega
    have hfirst := spfsBtreeInsert_first env in_ hstart
    rw [staysValid_cons]
    simp only [reduceCtorEq, List.cons.injEq, false_or]
    generalize hrun : (spfsBtreeInsert env in_).run w = r at hfirst
    cases hfirst with
    | noPage h => exact absurd h hpage
    | pageUnread _ h => simp [hio] at h
    | zeroId _ _ h => exact absurd h hid
    | noRoot _ _ _ h => exact absurd h hroot
    | rootUnread _ _ _ _ h => simp [hio] at h
    | overrun _ _ _ _ _ hsmall =>
      constructor
      · rintro ⟨-, res, w₁, hok, -⟩
        cases hok
      · rintro ⟨_, _, -, hbig, -⟩
        omega
    | @inserted w₁ b _ _ _ _ _ hbig _ hevent =>
      have hlogs := hevent.onlyLogs
      have hstart₁ : w₁.sbi.tree.start = rootPage w := by
        rw [hlogs.sbi]
        rfl
      have hsize₁ : w₁.bSize = w.bSize := hlogs.bSize
      have hrest : StaysValid env w₁ rest ↔
          (∃ blocks, BtreeAt w.disk w.bSize (rootPage w) blocks ∧ recordPage w ∉ blocks) ∧
          ∀ i ∈ rest, Duplicate w.bSize (w.disk (rootPage w)) i.iIno := by
        rw [staysValid_rooted hio (by rw [hstart₁]; exact hroot), hstart₁, hsize₁, hlogs.disk,
          btreeAt_rooted_iff hroot]
        refine and_congr_right ?_
        rintro ⟨blocks, hat, hrecord⟩
        have hne : rootPage w ≠ recordPage w := ne_of_mem_of_not_mem hat.start_mem hrecord
        simp [rooted, recorded, hroot, hne]
      constructor
      · rintro ⟨-, res, w₂, hok, hstays⟩
        cases hok
        exact ⟨in_, rest, ⟨rfl, rfl⟩, hbig, hrest.mp hstays⟩
      · rintro ⟨_, _, ⟨rfl, rfl⟩, -, htree⟩
        exact ⟨.inl hstart, 0, w₁, rfl, hrest.mpr htree⟩

theorem spfsBtreeInsert_staysValid_iff_fresh :
    StaysValid (.calm 9) freshWorld [plainFile 1] ↔ [plainFile 1] = [] ∨ ∃ in_ rest,
      [plainFile 1] = in_ :: rest ∧ 1620 ≤ freshWorld.bSize ∧
      (∃ blocks, BtreeAt freshWorld.disk freshWorld.bSize (rootPage freshWorld) blocks ∧
        recordPage freshWorld ∉ blocks) ∧
      ∀ i ∈ rest, Duplicate freshWorld.bSize (freshWorld.disk (rootPage freshWorld)) i.iIno :=
  spfsBtreeInsert_staysValid_iff (fun _ _ => rfl) rfl (by decide) (by decide) (by decide)

/-- The second insertion does not return: the root is an empty block, and an insertion
into a node without entries is a bug. -/
theorem not_staysValid_fresh :
    freshWorld.sbi.tree.start = 0 ∧ (∀ t s, (Env.calm 9).ioOk t s = true) ∧
      recordPage freshWorld ≠ 0 ∧ rootPage freshWorld ≠ 0 ∧
      ¬ StaysValid (.calm 9) freshWorld [plainFile 1, plainFile 2] := by
  refine ⟨rfl, fun _ _ => rfl, by decide, by decide, fun h => ?_⟩
  obtain ⟨-, res, w₁, hfirst, hrest⟩ := staysValid_cons.mp h
  have hcases := spfsBtreeInsert_first (.calm 9) (plainFile 1) (w := freshWorld) rfl
  rw [hfirst] at hcases
  have hempty : nodeLength (freshWorld.disk (rootPage freshWorld)) = 0 := by decide
  cases hcases with
  | noPage h => exact absurd h (by decide)
  | pageUnread _ h => cases h
  | zeroId _ _ h => exact absurd h (by decide)
  | @inserted _ b _ _ _ _ _ _ _ hevent =>
    have hlogs := hevent.onlyLogs
    have hstart : w₁.sbi.tree.start = rootPage freshWorld := by
      rw [hlogs.sbi]
      rfl
    have hroot : w₁.sbi.tree.start ≠ 0 := by
      rw [hstart]
      decide
    have hdup := ((staysValid_rooted (fun _ _ => rfl) hroot).mp hrest).2 _
      (List.mem_singleton_self _)
    rw [hstart, hlogs.disk] at hdup
    exact hdup.1 hempty

end Runs

end Spfs
