-- SUMMARY: Searches in a well-formed tree: which of them come to the record of the tree, and which stay away from any.
import Spfs.Btree.Modify
import Spfs.Lib.SearchTree

/-!
# Searching a well-formed tree

The entries of a well-formed tree are the keys of a search tree whose cells are the
blocks. Its root has entries, so a walk never gets below it: whether a search is
exact is decided by the one place behind the table of the root at which the search
can hit the id (`spfsBtreeModify_exact_iff`).
-/

namespace Spfs

open SearchTree (IsTree)

/-- An entry of a tree: the id and the block of the record. -/
structure TreeEntry where
  id : ℕ
  offset : ℕ
deriving DecidableEq

/-- Entries are ordered by their ids. -/
instance : Preorder TreeEntry := Preorder.lift TreeEntry.id

theorem TreeEntry.lt_iff {e e' : TreeEntry} : e < e' ↔ e.id < e'.id := Iff.rfl

/-- The node in a block with the entries for keys. -/
def entryNodeAt (disk : ℕ → Block) (bSize s : ℕ) : Option (SearchTree.Node ℕ TreeEntry) :=
  let length := nodeLength (disk s)
  if length ≤ 100 ∧ childrenOff + (length + 1) * 8 ≤ bSize then
    some ⟨(List.range length).map fun i =>
        ⟨idAt (disk s) (bnodeGetEntry i), offsetAt (disk s) (bnodeGetEntry i)⟩,
      (List.range (length + 1)).map fun i => childAt (disk s) i⟩
  else
    none

/-- The tree from `start` on is well-formed and has the given entries: it is empty, or
each of its nodes has entries, and every entry names a record. -/
structure TreeOf (disk : ℕ → Block) (bSize start : ℕ) (entries : List TreeEntry) : Prop where
  tree : (start = 0 ∧ entries = []) ∨ (start ≠ 0 ∧ ∃ depth cells,
    IsTree (entryNodeAt disk bSize) 0 1 depth none none 1 start cells entries)
  records : ∀ e ∈ entries, e.offset ≠ 0 ∧ recordMagic (disk e.offset) = spookyFsBtreeMagic

/-- A callback that records the inodes it is called with, and answers with `f`. -/
def recording (f : SpfsInode → SpfsInode × Bool) : BtreeModifyCb (List SpfsInode) :=
  fun calls i => .ok (calls ++ [i], f i)

/-- Whatever the callback does: it is called once with the record of the id if the tree
has an entry of the id, otherwise not at all and the call fails, and no block changes
but that of the record, and only when the callback said so. -/
def ExactSearch (env : Env) (w : World) (ino : ℕ) (entries : List TreeEntry) : Prop :=
  ∀ f, ∃ res calls w', (spfsBtreeModify env ino [] (recording f)).run w = .ok (res, calls) w' ∧
    (∀ e ∈ entries, e.id = ino →
      ∃ t, calls = [parsedInode (env.junk t) (w.disk e.offset)]) ∧
    ((∀ e ∈ entries, e.id ≠ ino) → calls = [] ∧ res ≠ 0) ∧
    ∀ s, w'.disk s ≠ w.disk s →
      ∃ e ∈ entries, e.id = ino ∧ e.offset = s ∧ ∃ i ∈ calls, (f i).2 = true

/-- Where the walk from the root gets to: nowhere in an empty or unreadable tree that
does not have the id, or to a place at which the search hits the id. What stands there
is either the entry of the tree with a readable record, or the tree does not have the
id and there is no readable record either. -/
def SearchHits (env : Env) (w : World) (ino : ℕ) (entries : List TreeEntry) : Prop :=
  let start := w.sbi.tree.start
  let b := w.disk start
  (start = 0 ∨ env.ioOk w.time start = false) ∧ (∀ e ∈ entries, e.id ≠ ino) ∨
  start ≠ 0 ∧ env.ioOk w.time start = true ∧ ∃ j, HitAt w.bSize b ino j ∧
    probe (nodeLength b) j + 16 ≤ w.bSize ∧
    let offset := offsetAt b (probe (nodeLength b) j)
    (⟨ino, offset⟩ ∈ entries ∧ env.ioOk (w.time + 2) offset = true ∨
      (∀ e ∈ entries, e.id ≠ ino) ∧ (offset = 0 ∨ env.ioOk (w.time + 2) offset = false ∨
        recordMagic (w.disk offset) ≠ spookyFsBtreeMagic))

section Exact

variable {env : Env} {w : World} {ino : ℕ} {entries : List TreeEntry}

/-- A tree has one entry of an id at most. -/
theorem TreeOf.unique {disk : ℕ → Block} {bSize start : ℕ} (h : TreeOf disk bSize start entries)
    {e e' : TreeEntry} (he : e ∈ entries) (he' : e' ∈ entries) (hid : e.id = e'.id) : e = e' := by
  rcases h.tree with ⟨-, rfl⟩ | ⟨-, depth, cells, htree⟩
  · cases he
  · rcases htree.comparable he he' with heq | hlt | hgt
    · exact heq
    · rw [TreeEntry.lt_iff] at hlt
      omega
    · rw [TreeEntry.lt_iff] at hgt
      omega

/-- The root of a well-formed tree has entries. -/
theorem TreeOf.root_length {disk : ℕ → Block} {bSize start : ℕ}
    (h : TreeOf disk bSize start entries) (hstart : start ≠ 0) :
    1 ≤ nodeLength (disk start) ∧ nodeLength (disk start) ≤ 100 := by
  rcases h.tree with ⟨hzero, -⟩ | ⟨-, depth, cells, htree⟩
  · exact absurd hzero hstart
  have hnode : ∃ n, entryNodeAt disk bSize start = some n ∧ 1 ≤ n.keys.length := by
    cases depth with
    | zero =>
      obtain ⟨n, hn, -, hleast, -⟩ := htree
      exact ⟨n, hn, hleast⟩
    | succ depth =>
      obtain ⟨n, -, -, hn, -, hleast, -⟩ := htree
      exact ⟨n, hn, hleast⟩
  obtain ⟨n, hn, hleast⟩ := hnode
  simp only [entryNodeAt] at hn
  split at hn
  next hfits =>
    cases hn
    exact ⟨by simpa using hleast, hfits.1⟩
  next => cases hn

/-- A record that was stored with another mode is another record. -/
theorem withRecord_ne {b : Block} {stackAtStr : Name} {i : SpfsInode}
    (h : i.iMode % 2 ^ 16 ≠ beDecode (b.read 8 2)) : withRecord stackAtStr i b ≠ b := by
  intro heq
  have hmode : beDecode ((withRecord stackAtStr i b).read 8 2) = i.iMode % 256 ^ 2 :=
    number_withRecord 2 8 rfl rfl
  rw [heq] at hmode
  exact h hmode.symm

/-- A callback that changes the mode of the inode. -/
def bumpMode (i : SpfsInode) : SpfsInode × Bool := ({ i with iMode := i.iMode + 1 }, true)

theorem bumpMode_ne (env : Env) (t : ℕ) (stackAtStr : Name) (b : Block) :
    withRecord stackAtStr (bumpMode (parsedInode (env.junk t) b)).1 b ≠ b := by
  refine withRecord_ne ?_
  simp only [bumpMode, parsedInode]
  omega

/-- The outcome of a recorded visit. -/
theorem recording_visit (f : SpfsInode → SpfsInode × Bool) (offset : ℕ) (w₁ : World)
    (hne : offset ≠ 0) (hio : env.ioOk w₁.time offset = true)
    (hmagic : recordMagic (w₁.disk offset) = spookyFsBtreeMagic) :
    ∃ t stackAtStr w', (btreeVisitEntry env [] (recording f) offset).run w₁ =
        .ok (0, [parsedInode (env.junk t) (w₁.disk offset)]) w' ∧
      w'.disk = if (f (parsedInode (env.junk t) (w₁.disk offset))).2 then
        Function.update w₁.disk offset (withRecord stackAtStr
          (f (parsedInode (env.junk t) (w₁.disk offset))).1 (w₁.disk offset)) else w₁.disk := by
  have hvisit := btreeVisitEntry_visit env [] (recording f) offset w₁
  generalize (btreeVisitEntry env [] (recording f) offset).run w₁ = r at hvisit ⊢
  refine ⟨w₁.time + 1, env.stack (w₁.time + 1), ?_⟩
  cases hvisit with
  | none h => exact absurd h hne
  | unread _ h => simp [hio] at h
  | malformed _ _ h => exact absurd hmagic h
  | fault _ _ _ hcb => cases hcb
  | clean _ _ _ hcb =>
    simp only [recording, Except.ok.injEq, Prod.mk.injEq, List.nil_append] at hcb
    obtain ⟨rfl, hf⟩ := hcb
    refine ⟨_, rfl, ?_⟩
    simp [hf]
  | dirty _ _ _ hcb =>
    simp only [recording, Except.ok.injEq, Prod.mk.injEq, List.nil_append] at hcb
    obtain ⟨rfl, hf⟩ := hcb
    refine ⟨_, rfl, ?_⟩
    simp [hf]

/-- A visit of what is no readable record fails and does not call back. -/
theorem recording_noVisit (f : SpfsInode → SpfsInode × Bool) (offset : ℕ) (w₁ : World)
    (h : offset = 0 ∨ env.ioOk w₁.time offset = false ∨
      recordMagic (w₁.disk offset) ≠ spookyFsBtreeMagic) :
    ∃ res w', (btreeVisitEntry env [] (recording f) offset).run w₁ = .ok (res, []) w' ∧ res ≠ 0 ∧
      w'.disk = w₁.disk := by
  have hvisit := btreeVisitEntry_visit env [] (recording f) offset w₁
  generalize (btreeVisitEntry env [] (recording f) offset).run w₁ = r at hvisit ⊢
  have hcontra (hne : offset ≠ 0) (hio : env.ioOk w₁.time offset = true)
      (hmagic : recordMagic (w₁.disk offset) = spookyFsBtreeMagic) : False := by
    rcases h with h | h | h
    · exact hne h
    · simp [hio] at h
    · exact h hmagic
  cases hvisit with
  | none => exact ⟨_, _, rfl, by decide, rfl⟩
  | unread => exact ⟨_, _, rfl, by decide, rfl⟩
  | malformed => exact ⟨_, _, rfl, by decide, rfl⟩
  | fault hne hio hmagic => exact (hcontra hne hio hmagic).elim
  | clean hne hio hmagic => exact (hcontra hne hio hmagic).elim
  | dirty hne hio hmagic => exact (hcontra hne hio hmagic).elim

/-- A walk from the root of a well-formed tree, which has entries. -/
theorem rootStep {γ : Type} (ino : ℕ) (closure : γ) (cb : BtreeModifyCb γ) (hfuel : env.fuel ≠ 0)
    (hstart : w.sbi.tree.start ≠ 0) :
    ∃ fuel, WalkStep env ino closure cb fuel w.sbi.tree.start w
      ((spfsBtreeModify env ino closure cb).run w) := by
  obtain ⟨fuel, hfuel⟩ := Nat.exists_eq_succ_of_ne_zero hfuel
  refine ⟨fuel, ?_⟩
  rw [spfsBtreeModify, EStateM.run_bind_of_ok (EStateM.run_get w), hfuel]
  exact spfsBtreeModifyLit_step env ino closure cb fuel hstart w

/-- The search of the root hits an entry of `ino` that points to the record at `offset`. -/
structure HitsRecord (w : World) (ino offset : ℕ) : Prop where
  start : w.sbi.tree.start ≠ 0
  length : 1 ≤ nodeLength (w.disk w.sbi.tree.start) ∧ nodeLength (w.disk w.sbi.tree.start) ≤ 100
  hit : ∃ j, HitAt w.bSize (w.disk w.sbi.tree.start) ino j ∧
    probe (nodeLength (w.disk w.sbi.tree.start)) j + 16 ≤ w.bSize ∧
    offsetAt (w.disk w.sbi.tree.start) (probe (nodeLength (w.disk w.sbi.tree.start)) j) = offset
  offset_ne : offset ≠ 0
  magic : recordMagic (w.disk offset) = spookyFsBtreeMagic

theorem HitsRecord.congr {w' : World} {offset : ℕ} (h : HitsRecord w ino offset)
    (hstart : w'.sbi.tree.start = w.sbi.tree.start) (hbSize : w'.bSize = w.bSize)
    (hnode : w'.disk w.sbi.tree.start = w.disk w.sbi.tree.start)
    (hmagic : recordMagic (w'.disk offset) = spookyFsBtreeMagic) : HitsRecord w' ino offset := by
  rw [← hstart] at hnode
  have hnode' : w'.disk w'.sbi.tree.start = w.disk w.sbi.tree.start := by rw [hnode, hstart]
  refine ⟨hstart ▸ h.start, ?_, ?_, h.offset_ne, hmagic⟩
  · rw [hnode']
    exact h.length
  · rw [hnode', hbSize]
    exact h.hit

theorem HitsRecord.finds {offset : ℕ} (h : HitsRecord w ino offset) :
    ∃ j, Finds w.disk w.bSize w.sbi.tree.start ino offset w.sbi.tree.start j := by
  obtain ⟨j, hhit, -, hoffset⟩ := h.hit
  exact ⟨j, .here h.start (Nat.ne_of_gt h.length.1), h.length.2, hhit, hoffset, h.offset_ne⟩

/-- A walk that hits a record runs the callback on it. -/
theorem spfsBtreeModify_of_hit {γ : Type} {closure : γ} {cb : BtreeModifyCb γ} {offset : ℕ}
    (hio : ∀ t s, env.ioOk t s = true) (hfuel : env.fuel ≠ 0) (h : HitsRecord w ino offset)
    (hcb : ∀ junk, ∃ closure' cur dirty,
      cb closure (parsedInode junk (w.disk offset)) = .ok (closure', cur, dirty)) :
    ∃ closure' w', (spfsBtreeModify env ino closure cb).run w = .ok (0, closure') w' := by
  obtain ⟨j, hhit, hin, hoffset⟩ := h.hit
  obtain ⟨fuel, hstep⟩ := rootStep ino closure cb hfuel h.start
  generalize (spfsBtreeModify env ino closure cb).run w = r at hstep ⊢
  cases hstep with
  | unread hread => simp [hio] at hread
  | stuck _ hstuck =>
    rcases hstuck with hover | ⟨hempty, -⟩ | ⟨-, hmiss⟩
    · exact absurd h.length.2 (Nat.not_le.mpr hover)
    · exact absurd hempty (Nat.ne_of_gt h.length.1)
    · exact absurd hin (hmiss j hhit)
  | down _ hempty => exact absurd hempty (Nat.ne_of_gt h.length.1)
  | @hit j' _ _ _ hhit' =>
    obtain rfl := hhit'.unique hhit
    rw [hoffset]
    set w₁ := leaveNode w w.sbi.tree.start
    obtain ⟨closure', cur, dirty, hok⟩ := hcb (env.junk (w₁.time + 1))
    have hvisit := btreeVisitEntry_visit env closure cb offset w₁
    generalize (btreeVisitEntry env closure cb offset).run w₁ = r at hvisit ⊢
    cases hvisit with
    | none hzero => exact absurd hzero h.offset_ne
    | unread _ hread => simp [hio] at hread
    | malformed _ _ hmagic => exact absurd h.magic hmagic
    | fault _ _ _ hfault => exact absurd (hok.symm.trans hfault) nofun
    | clean => exact ⟨_, _, rfl⟩
    | dirty => exact ⟨_, _, rfl⟩

/-- A call that does not call back is exact when the tree does not have the id. -/
theorem exact_of_none {f : SpfsInode → SpfsInode × Bool} {w' : World} {res : ℤ}
    (hnone : ∀ e ∈ entries, e.id ≠ ino) (hres : res ≠ 0) (hdisk : w'.disk = w.disk) :
    (∀ e ∈ entries, e.id = ino →
      ∃ t, ([] : List SpfsInode) = [parsedInode (env.junk t) (w.disk e.offset)]) ∧
    ((∀ e ∈ entries, e.id ≠ ino) → ([] : List SpfsInode) = [] ∧ res ≠ 0) ∧
    ∀ s, w'.disk s ≠ w.disk s →
      ∃ e ∈ entries, e.id = ino ∧ e.offset = s ∧ ∃ i ∈ ([] : List SpfsInode), (f i).2 = true :=
  ⟨fun e he hid => absurd hid (hnone e he), fun _ => ⟨rfl, hres⟩,
    fun s hs => absurd (congrFun hdisk s) hs⟩

theorem SearchHits.exactSearch (hfuel : env.fuel ≠ 0)
    (htree : TreeOf w.disk w.bSize w.sbi.tree.start entries) (h : SearchHits env w ino entries) :
    ExactSearch env w ino entries := by
  intro f
  rcases h with ⟨hend, hnone⟩ | ⟨hstart, hio, j, hhit, hin, hplace⟩
  · by_cases hstart : w.sbi.tree.start = 0
    · exact ⟨1, [], w, spfsBtreeModify_empty hstart, exact_of_none hnone (by decide) rfl⟩
    · have hio := hend.resolve_left hstart
      obtain ⟨fuel, hstep⟩ := rootStep ino [] (recording f) hfuel hstart
      generalize (spfsBtreeModify env ino [] (recording f)).run w = r at hstep ⊢
      cases hstep with
      | unread => exact ⟨_, _, _, rfl, exact_of_none hnone (by decide) rfl⟩
      | stuck h => simp [hio] at h
      | down h => simp [hio] at h
      | hit h => simp [hio] at h
  obtain ⟨hlen, hcap⟩ := htree.root_length hstart
  obtain ⟨fuel, hstep⟩ := rootStep ino [] (recording f) hfuel hstart
  generalize (spfsBtreeModify env ino [] (recording f)).run w = r at hstep ⊢
  cases hstep with
  | unread h => simp [hio] at h
  | stuck _ h =>
    rcases h with h | ⟨h, -⟩ | ⟨-, h⟩
    · omega
    · omega
    · exact absurd hin (h j hhit)
  | down _ h => omega
  | @hit j' _ _ _ hhit' =>
    obtain rfl := hhit'.unique hhit
    set offset := offsetAt (w.disk w.sbi.tree.start)
      (probe (nodeLength (w.disk w.sbi.tree.start)) j') with hoffset
    rcases hplace with ⟨hmem, hread⟩ | ⟨hnone, hplace⟩
    · obtain ⟨hne, hmagic⟩ := htree.records _ hmem
      obtain ⟨t, stackAtStr, w', hrun, hdisk⟩ := recording_visit f offset
        (leaveNode w w.sbi.tree.start) hne hread hmagic
      have hleave : (leaveNode w w.sbi.tree.start).disk = w.disk := rfl
      rw [hleave] at hdisk
      refine ⟨0, _, w', hrun, fun e he hid => ?_, fun hnone => absurd rfl (hnone _ hmem), ?_⟩
      · rw [htree.unique he hmem hid]
        exact ⟨t, rfl⟩
      · intro s hs
        rw [hdisk] at hs
        by_cases hdirty : (f (parsedInode (env.junk t) (w.disk offset))).2 = true
        · refine ⟨_, hmem, rfl, ?_, _, List.mem_singleton_self _, hdirty⟩
          by_contra hne'
          exact hs (by rw [if_pos hdirty]; exact Function.update_of_ne (Ne.symm hne') _ _)
        · exact absurd (by rw [if_neg hdirty]) hs
    · obtain ⟨res, w', hrun, hres, hdisk⟩ := recording_noVisit f offset
        (leaveNode w w.sbi.tree.start) hplace
      exact ⟨res, [], w', hrun, exact_of_none hnone hres hdisk⟩

theorem ExactSearch.searchHits (hfuel : env.fuel ≠ 0)
    (htree : TreeOf w.disk w.bSize w.sbi.tree.start entries) (h : ExactSearch env w ino entries) :
    SearchHits env w ino entries := by
  -- a callback that changes every record it sees
  obtain ⟨res, calls, w', hrun, hcalled, hnone, hframe⟩ := h bumpMode
  have hwithout (hcalls : calls = []) : ∀ e ∈ entries, e.id ≠ ino := by
    intro e he hid
    obtain ⟨t, ht⟩ := hcalled e he hid
    simp [hcalls] at ht
  by_cases hstart : w.sbi.tree.start = 0
  · rw [spfsBtreeModify_empty hstart] at hrun
    cases hrun
    exact .inl ⟨.inl hstart, hwithout rfl⟩
  obtain ⟨hlen, hcap⟩ := htree.root_length hstart
  obtain ⟨fuel, hstep⟩ := rootStep ino [] (recording bumpMode) hfuel hstart
  rw [hrun] at hstep
  generalize hr : (EStateM.Result.ok (res, calls) w' : EStateM.Result Fault World _) = r at hstep
  cases hstep with
  | unread hio =>
    cases hr
    exact .inl ⟨.inr hio, hwithout rfl⟩
  | stuck => cases hr
  | down _ hempty => omega
  | @hit j hio _ _ hhit hin =>
    refine .inr ⟨hstart, hio, j, hhit, hin, ?_⟩
    set offset := offsetAt (w.disk w.sbi.tree.start)
      (probe (nodeLength (w.disk w.sbi.tree.start)) j) with hoffset
    have hvisit := btreeVisitEntry_visit env [] (recording bumpMode) offset
      (leaveNode w w.sbi.tree.start)
    rw [← hr] at hvisit
    generalize hr' : (EStateM.Result.ok (res, calls) w' : EStateM.Result Fault World _) = r'
      at hvisit
    cases hvisit with
    | none hzero =>
      cases hr'
      exact .inr ⟨hwithout rfl, .inl hzero⟩
    | unread _ hread =>
      cases hr'
      exact .inr ⟨hwithout rfl, .inr (.inl hread)⟩
    | malformed _ _ hmagic =>
      cases hr'
      exact .inr ⟨hwithout rfl, .inr (.inr hmagic)⟩
    | fault => cases hr'
    | clean _ _ _ hcb => cases hcb
    | dirty hne hread hmagic hcb =>
      cases hcb
      cases hr'
      -- the record changes, so it has to be the one of the id
      obtain ⟨e, he, hid, hat, -⟩ := hframe offset fun heq =>
        bumpMode_ne env _ _ (w.disk offset) ((Function.update_self _ _ _).symm.trans heq)
      left
      rw [← hat, ← hid]
      exact ⟨he, by rw [hat]; exact hread⟩

/-- A search in a well-formed tree is exact exactly when it hits what it should. -/
theorem spfsBtreeModify_exact_iff (hfuel : env.fuel ≠ 0)
    (htree : TreeOf w.disk w.bSize w.sbi.tree.start entries) :
    ExactSearch env w ino entries ↔ SearchHits env w ino entries :=
  ⟨fun h => h.searchHits hfuel htree, fun h => h.exactSearch hfuel htree⟩

/-- A device with a tree of one entry: the id 5 with its record in block 8. -/
def oneRecordWorld : World :=
  (oneEntryWorld.setBlock 8
    (withRecord spfsInodeInitOnce.name (plainFile 5) (fun _ => 0))).setTreeStart 7

theorem treeOf_oneRecordWorld :
    TreeOf oneRecordWorld.disk oneRecordWorld.bSize oneRecordWorld.sbi.tree.start [⟨5, 8⟩] where
  tree := by
    have hnode : entryNodeAt oneRecordWorld.disk oneRecordWorld.bSize 7 =
        some ⟨[⟨5, 8⟩], [0, 0]⟩ := by
      have hlen : nodeLength (oneRecordWorld.disk 7) = 1 := by decide
      have hid : idAt (oneRecordWorld.disk 7) (bnodeGetEntry 0) = 5 := by decide
      have hoffset : offsetAt (oneRecordWorld.disk 7) (bnodeGetEntry 0) = 8 := by decide
      have hchild : childAt (oneRecordWorld.disk 7) 0 = 0 ∧ childAt (oneRecordWorld.disk 7) 1 = 0 := by
        decide
      have hfits : childrenOff + (1 + 1) * 8 ≤ oneRecordWorld.bSize := by decide
      have hrange : List.range 2 = [0, 1] := rfl
      simp [entryNodeAt, hlen, hid, hoffset, hchild, hfits, hrange]
    refine .inr ⟨by decide, 0, [7], ⟨[⟨5, 8⟩], [0, 0]⟩, hnode, ⟨?_, ?_, rfl⟩, le_rfl, ?_, rfl, rfl⟩
    · exact List.pairwise_singleton _ _
    · simp [SearchTree.Between]
    · simp
  records := by
    intro e he
    rw [List.mem_singleton.mp he]
    exact ⟨by decide, recordMagic_withRecord _ _ _⟩

theorem spfsBtreeModify_exact_iff_oneRecord :
    ExactSearch (.calm 9) oneRecordWorld 5 [⟨5, 8⟩] ↔
      SearchHits (.calm 9) oneRecordWorld 5 [⟨5, 8⟩] :=
  spfsBtreeModify_exact_iff (by decide) treeOf_oneRecordWorld

/-- The only entry of a tree is not found. -/
theorem not_exactSearch_oneRecord :
    TreeOf oneRecordWorld.disk oneRecordWorld.bSize oneRecordWorld.sbi.tree.start [⟨5, 8⟩] ∧
      ¬ ExactSearch (.calm 9) oneRecordWorld 5 [⟨5, 8⟩] := by
  refine ⟨treeOf_oneRecordWorld, fun h => ?_⟩
  rcases h.searchHits (by decide) treeOf_oneRecordWorld with ⟨-, hnone⟩ | ⟨-, -, j, hhit, -⟩
  · exact hnone _ (List.mem_singleton_self _) rfl
  · exact not_hitAt_of_lt (by decide) j hhit

/-- A mounted device with an empty file in the cache. The search for its number looks
behind the table of the root, and there is the entry of its record. -/
def oneFileWorld : World :=
  ((((freshWorld.setFreeList ⟨92, [⟨10, 92⟩]⟩).setBlock 7
    ((nodeBlock ((1, 8) :: List.replicate 7 (0, 0) ++ [(1, 8)]) [0, 0]).write 0
      (beEncode 4 1))).setBlock 8
    (withRecord spfsInodeInitOnce.name (plainFile 1) fun _ => 0)).setTreeStart 7).setInode 1
    (plainFile 1)

theorem hitsRecord_oneFileWorld : HitsRecord oneFileWorld 1 8 where
  start := Nat.succ_ne_zero 6
  length := by
    have hlen : nodeLength (oneFileWorld.disk 7) = 1 := by decide
    exact ⟨hlen.ge, hlen.trans_le (by decide)⟩
  hit := by
    refine ⟨0, ⟨by simp, by decide, by decide⟩, by decide, by decide⟩
  offset_ne := by decide
  magic := recordMagic_withRecord _ _ _

end Exact

end Spfs
