-- SUMMARY: Insertions that cannot succeed: which of them leave every lookup as it was.
import Spfs.Btree.Exact
import Spfs.Btree.Frame

/-!
# Insertions that fail

An insertion of an id that the tree has, or one that runs out of blocks, should come to
nothing. It does in a tree with a root whose search hits the id, and in an empty tree
without a block for the record. Without a block for the root it is a bug
(`spfsBtreeInsert_harmless_iff`).
-/

namespace Spfs

open EStateM (run_bind_of_ok run_check_of_false)

/-! ## Lookups in two states -/

section Lookups

variable {env : Env} {ino : ℕ} {dest r : SpfsInode} {w w' w₁ : World}

/-- The nodes and the records are the same. -/
structure SameTree (w w' : World) : Prop where
  bSize : w'.bSize = w.bSize
  disk : w'.disk = w.disk
  start : w'.sbi.tree.start = w.sbi.tree.start

theorem SameTree.of_onlyLogs (h : OnlyLogs w w') : SameTree w w' :=
  ⟨h.bSize, h.disk, by rw [h.sbi]⟩

theorem SameTree.symm (h : SameTree w w') : SameTree w' w :=
  ⟨h.bSize.symm, h.disk.symm, h.start.symm⟩

/-- Whatever a lookup finds in the first state it finds in the second one too, and both
records are read from the same bytes. Every read succeeds in both. -/
def KeepsFound (w w' : World) : Prop :=
  ∀ env : Env, (∀ t s, env.ioOk t s = true) → ∀ ino dest r w₁,
    (spfsBtreeLookup env ino dest).run w = .ok (0, r) w₁ →
    ∃ b t t' w₂, r = parsedInode (env.junk t) b ∧
      (spfsBtreeLookup env ino dest).run w' = .ok (0, parsedInode (env.junk t') b) w₂

/-- No lookup finds the inode. -/
def NotFound (w : World) (ino : ℕ) : Prop :=
  ∀ env dest r w', (spfsBtreeLookup env ino dest).run w ≠ .ok (0, r) w'

theorem btreeVisitEntry_sameDisk {offset : ℕ} (hio : ∀ t s, env.ioOk t s = true)
    (hdisk : w'.disk = w.disk)
    (h : (btreeVisitEntry env dest spfsBtreeLookupCb offset).run w = .ok (0, r) w₁) :
    ∃ b t t' w₂, r = parsedInode (env.junk t) b ∧
      (btreeVisitEntry env dest spfsBtreeLookupCb offset).run w' =
        .ok (0, parsedInode (env.junk t') b) w₂ := by
  have hvisit := btreeVisitEntry_visit env dest spfsBtreeLookupCb offset w
  have hvisit' := btreeVisitEntry_visit env dest spfsBtreeLookupCb offset w'
  rw [h] at hvisit
  cases hvisit with
  | clean hne _ hmagic hcb =>
    cases hcb
    refine ⟨w.disk offset, w.time + 1, w'.time + 1, ?_⟩
    generalize (btreeVisitEntry env dest spfsBtreeLookupCb offset).run w' = r' at hvisit' ⊢
    rw [← hdisk] at hmagic
    cases hvisit' with
    | none hzero => exact absurd hzero hne
    | unread _ hread => simp [hio] at hread
    | malformed _ _ hmagic' => exact absurd hmagic hmagic'
    | fault _ _ _ hcb => cases hcb
    | clean _ _ _ hcb =>
      cases hcb
      rw [hdisk]
      exact ⟨_, rfl, rfl⟩
    | dirty _ _ _ hcb => cases hcb
  | dirty _ _ _ hcb => cases hcb

/-- The walks through two states with the same nodes go the same way. -/
theorem spfsBtreeModifyLit_sameDisk {fuel start : ℕ} (hio : ∀ t s, env.ioOk t s = true)
    (hdisk : w'.disk = w.disk) (hbSize : w'.bSize = w.bSize)
    (h : (spfsBtreeModifyLit env ino dest spfsBtreeLookupCb fuel start).run w = .ok (0, r) w₁) :
    ∃ b t t' w₂, r = parsedInode (env.junk t) b ∧
      (spfsBtreeModifyLit env ino dest spfsBtreeLookupCb fuel start).run w' =
        .ok (0, parsedInode (env.junk t') b) w₂ := by
  induction fuel generalizing start w w' with
  | zero => cases start <;> cases h
  | succ fuel ih =>
    by_cases hs : start = 0
    · subst hs
      cases h
    have hstep := spfsBtreeModifyLit_step env ino dest spfsBtreeLookupCb fuel hs w
    have hstep' := spfsBtreeModifyLit_step env ino dest spfsBtreeLookupCb fuel hs w'
    generalize (spfsBtreeModifyLit env ino dest spfsBtreeLookupCb (fuel + 1) start).run w = r₁
      at h hstep
    generalize (spfsBtreeModifyLit env ino dest spfsBtreeLookupCb (fuel + 1) start).run w' = r₂
      at hstep' ⊢
    have hleave : (leaveNode w' start).disk = (leaveNode w start).disk := hdisk
    cases hstep with
    | unread => cases h
    | stuck => cases h
    | down _ hempty hin =>
      rw [← hdisk] at hempty h
      cases hstep' with
      | unread hread => simp [hio] at hread
      | stuck _ hstuck =>
        rw [hbSize] at hstuck
        rcases hstuck with hover | ⟨-, hout⟩ | ⟨hlen, -⟩
        · omega
        · exact absurd hin hout
        · omega
      | down => exact ih hleave hbSize h
      | hit _ hlen => omega
    | @hit j _ hlen hcap hhit hin =>
      rw [← hdisk] at hlen hcap hhit hin h
      rw [← hbSize] at hhit hin
      cases hstep' with
      | unread hread => simp [hio] at hread
      | stuck _ hstuck =>
        rcases hstuck with hover | ⟨hempty, -⟩ | ⟨-, hmiss⟩
        · omega
        · omega
        · exact absurd hin (hmiss j hhit)
      | down _ hempty => omega
      | hit _ _ _ hhit' =>
        obtain rfl := hhit'.unique hhit
        exact btreeVisitEntry_sameDisk hio hleave h

theorem SameTree.keepsFound (h : SameTree w w') : KeepsFound w w' := by
  intro env hio ino dest r w₁ hrun
  rw [spfsBtreeLookup, spfsBtreeModify, run_bind_of_ok (EStateM.run_get w)] at hrun
  rw [← h.start] at hrun
  obtain ⟨b, t, t', w₂, hr, hrun'⟩ := spfsBtreeModifyLit_sameDisk hio h.disk h.bSize hrun
  refine ⟨b, t, t', w₂, hr, ?_⟩
  rw [spfsBtreeLookup, spfsBtreeModify, run_bind_of_ok (EStateM.run_get w')]
  exact hrun'

/-- Nothing is found in the empty tree. -/
theorem notFound_of_empty (hstart : w.sbi.tree.start = 0) (ino : ℕ) : NotFound w ino := by
  intro env dest r w' hrun
  rw [spfsBtreeLookup, spfsBtreeModify_empty hstart] at hrun
  cases hrun

end Lookups

/-! ## Insertions -/

section Insertions

variable {env : Env} {in_ : SpfsInode} {w : World}

/-- No block is left for the tree. -/
def NoBlock (w : World) : Prop := (spfsFreeAlloc w.sbi.freeList w.sbi.tree.blocks).1 = 0

/-- What `btree_insert` returns to `spfs_btree_insert`, and the state then. -/
inductive Descent (env : Env) (in_ : SpfsInode) (w : World) (r : InsertResult) : World → Prop where
  | empty {w₁ : World} : w.sbi.tree.start = 0 → (btreeInsertNew env in_).run w = .ok r w₁ →
      Descent env in_ w r w₁
  | below {w₁ : World} : w.sbi.tree.start ≠ 0 →
      (btreeInsert env in_ env.fuel w.sbi.tree.start).run
        (w.addEvent (.bread w.sbi.tree.start true)) = .ok r w₁ →
      Descent env in_ w r ((w₁.addEvent (.dirty w.sbi.tree.start)).addEvent (.brelse w.sbi.tree.start))

/-- `spfs_free_alloc` returns 0 to the insertion. -/
inductive RunsOut (env : Env) (in_ : SpfsInode) (w : World) : Prop where
  /-- for the record -/
  | record : w.sbi.tree.start = 0 → NoBlock w → RunsOut env in_ w
  /-- for the right half of a node, when something comes back from a child of it -/
  | split {levels child : ℕ} {r : InsertResult} {w₁ w₂ : World} : w.sbi.tree.start ≠ 0 →
      (btreeInsert env in_ levels child).run w₁ = .ok r w₂ → bubbleIsActive r.bubble = true →
      NoBlock w₂ → RunsOut env in_ w
  /-- for the root, when something comes back from the top -/
  | root {r : InsertResult} {w₁ : World} :
      Descent env in_ w r w₁ → bubbleIsActive r.bubble = true → NoBlock w₁ → RunsOut env in_ w

/-- The tree has an entry of the id. -/
def IsStored (w : World) (ino : ℕ) : Prop :=
  ∃ offset, HasEntry w.disk w.sbi.tree.start ino offset

/-- The call fails and nothing else: every record is still there and still found, and the
new inode is not. -/
def Harmless (env : Env) (in_ : SpfsInode) (w : World) : Prop :=
  ∃ res w', (spfsBtreeInsert env in_).run w = .ok res w' ∧ res ≠ 0 ∧
    (∀ ino offset, HasEntry w.disk w.sbi.tree.start ino offset →
      HasEntry w'.disk w'.sbi.tree.start ino offset ∧ w'.disk offset = w.disk offset) ∧
    KeepsFound w w' ∧ (¬ IsStored w in_.iIno → NotFound w' in_.iIno)

/-- The insertion fails before it can do harm: the empty tree gets no block for the record,
or the root cannot be read, or the search of the root hits the id. -/
def FailsEarly (env : Env) (in_ : SpfsInode) (w : World) : Prop :=
  w.sbi.tree.start = 0 ∧ recordPage w = 0 ∨
    w.sbi.tree.start ≠ 0 ∧ (env.ioOk w.time w.sbi.tree.start = false ∨
      Duplicate w.bSize (w.disk w.sbi.tree.start) in_.iIno)

theorem SameTree.entries {w' : World} (h : SameTree w w') {ino offset : ℕ}
    (hentry : HasEntry w.disk w.sbi.tree.start ino offset) :
    HasEntry w'.disk w'.sbi.tree.start ino offset ∧ w'.disk offset = w.disk offset := by
  rw [h.disk, h.start]
  exact ⟨hentry, rfl⟩

theorem Harmless.of_sameTree {res : ℤ} {w' : World}
    (hrun : (spfsBtreeInsert env in_).run w = .ok res w') (hres : res ≠ 0) (h : SameTree w w')
    (hnew : ¬ IsStored w in_.iIno → NotFound w' in_.iIno) : Harmless env in_ w :=
  ⟨res, w', hrun, hres, fun _ _ hentry => h.entries hentry, h.keepsFound, hnew⟩

/-- Nothing comes back from a node of the tree. -/
theorem not_bubbleIsActive_below {levels s : ℕ} {r : InsertResult} {w' : World}
    (h : (btreeInsert env in_ levels s).run w = .ok r w') : bubbleIsActive r.bubble = false := by
  rcases btreeInsert_cases env in_ levels s w with ⟨-, out, hrun⟩ | ⟨-, f, -, hrun⟩
  · rw [hrun] at h
    cases h
    rfl
  · rw [hrun] at h
    cases h

/-- In a tree with a root the insertion does not get as far as an allocation. -/
theorem RunsOut.start_eq (h : RunsOut env in_ w) : w.sbi.tree.start = 0 := by
  cases h with
  | record hstart => exact hstart
  | split _ hrun hactive => simp [not_bubbleIsActive_below hrun] at hactive
  | root hdescent hactive =>
    cases hdescent with
    | empty hstart => exact hstart
    | below _ hrun => simp [not_bubbleIsActive_below hrun] at hactive

/-- What is left for the root of the first insertion. -/
theorem RunsOut.rootPage_eq (h : RunsOut env in_ w) (hpage : recordPage w ≠ 0) :
    env.ioOk (w.time + 1) (recordPage w) = true ∧ in_.iIno % 2 ^ 32 ≠ 0 ∧ rootPage w = 0 := by
  cases h with
  | record _ hnone => exact absurd hnone hpage
  | split _ hrun hactive => simp [not_bubbleIsActive_below hrun] at hactive
  | root hdescent hactive hnone =>
    cases hdescent with
    | below _ hrun => simp [not_bubbleIsActive_below hrun] at hactive
    | empty _ hrun =>
      by_cases hio : env.ioOk (w.time + 1) (recordPage w) = true
      · rw [run_btreeInsertNew hpage hio] at hrun
        cases hrun
        exact ⟨hio, (bubbleIsActive_make _ _ _).mp hactive, hnone⟩
      · rw [run_btreeInsertNew_unread hpage (Bool.eq_false_iff.mpr hio)] at hrun
        cases hrun
        cases hactive

/-- An insertion that meets a stored id or runs out of blocks is harmless exactly when it
fails early. -/
theorem spfsBtreeInsert_harmless_iff (hfails : IsStored w in_.iIno ∨ RunsOut env in_ w) :
    Harmless env in_ w ↔ FailsEarly env in_ w := by
  by_cases hstart : w.sbi.tree.start = 0
  · have hout : RunsOut env in_ w := by
      refine hfails.resolve_left ?_
      rintro ⟨offset, hentry⟩
      exact not_hasEntry_of_empty hstart hentry
    by_cases hpage : recordPage w = 0
    · -- no block for the record
      refine ⟨fun _ => .inl ⟨hstart, hpage⟩, fun _ => ?_⟩
      have hfirst := spfsBtreeInsert_first env in_ hstart
      generalize hrun : (spfsBtreeInsert env in_).run w = r at hfirst
      cases hfirst with
      | noPage _ hlogs =>
        have hsame : SameTree w _ := ⟨hlogs.bSize, hlogs.disk, by rw [hlogs.sbi]; rfl⟩
        refine .of_sameTree hrun (by decide) hsame fun _ => ?_
        exact notFound_of_empty (hsame.start.trans hstart) _
      | pageUnread hne => exact absurd hpage hne
      | zeroId hne => exact absurd hpage hne
      | noRoot hne => exact absurd hpage hne
      | rootUnread hne => exact absurd hpage hne
      | overrun hne => exact absurd hpage hne
      | inserted hne => exact absurd hpage hne
    · -- no block for the root
      obtain ⟨hread, hid, hroot⟩ := hout.rootPage_eq hpage
      constructor
      · rintro ⟨res, w', hrun, -⟩
        have hfirst := spfsBtreeInsert_first env in_ hstart
        rw [hrun] at hfirst
        cases hfirst with
        | noPage hnone => exact absurd hnone hpage
        | pageUnread _ hunread => simp [hread] at hunread
        | zeroId _ _ hzero => exact absurd hzero hid
        | inserted _ _ _ hne => exact absurd hroot hne
      · rintro (⟨-, hnone⟩ | ⟨hne, -⟩)
        · exact absurd hnone hpage
        · exact absurd hstart hne
  · have hstored : IsStored w in_.iIno :=
      hfails.resolve_right fun hout => hstart hout.start_eq
    have hrooted := spfsBtreeInsert_rooted env in_ hstart
    generalize hrun : (spfsBtreeInsert env in_).run w = r at hrooted
    cases hrooted with
    | unread hread hlogs =>
      refine ⟨fun _ => .inr ⟨hstart, .inl hread⟩, fun _ => ?_⟩
      exact .of_sameTree hrun (by decide) (.of_onlyLogs hlogs) fun hnew => absurd hstored hnew
    | duplicate hread hdup hlogs =>
      refine ⟨fun _ => .inr ⟨hstart, .inr hdup⟩, fun _ => ?_⟩
      exact .of_sameTree hrun (by decide) (.of_onlyLogs hlogs) fun hnew => absurd hstored hnew
    | stuck hread hdup hlogs =>
      constructor
      · rintro ⟨res, w', hok, -⟩
        rw [hrun] at hok
        cases hok
      · rintro (⟨hzero, -⟩ | ⟨-, hunread | hhit⟩)
        · exact absurd hzero hstart
        · simp [hread] at hunread
        · exact absurd hhit hdup

/-- A mounted device with one block to hand out. -/
def oneBlockWorld : World := freshWorld.setFreeList ⟨2, [⟨10, 2⟩]⟩

theorem runsOut_oneBlockWorld : RunsOut (.calm 9) (plainFile 1) oneBlockWorld :=
  .root (.empty rfl (run_btreeInsertNew (by decide) rfl)) (by decide)
    (show rootPage oneBlockWorld = 0 by decide)

theorem spfsBtreeInsert_harmless_iff_oneBlock :
    Harmless (.calm 9) (plainFile 1) oneBlockWorld ↔ FailsEarly (.calm 9) (plainFile 1) oneBlockWorld :=
  spfsBtreeInsert_harmless_iff (.inr runsOut_oneBlockWorld)

/-- The record of the first inode gets the last block, and there is none for the root. -/
theorem not_harmless_oneBlock :
    ReachedByInserts (.calm 9) oneBlockWorld oneBlockWorld ∧
      RunsOut (.calm 9) (plainFile 1) oneBlockWorld ∧
      ¬ Harmless (.calm 9) (plainFile 1) oneBlockWorld := by
  refine ⟨.init, runsOut_oneBlockWorld, ?_⟩
  rintro ⟨res, w', hrun, -⟩
  have hfirst := spfsBtreeInsert_first (w := oneBlockWorld) (.calm 9) (plainFile 1) rfl
  rw [hrun] at hfirst
  cases hfirst with
  | noPage hnone => exact absurd hnone (by decide)
  | pageUnread _ hunread => cases hunread
  | zeroId _ _ hzero => exact absurd hzero (by decide)
  | inserted _ _ _ hne => exact hne (by decide)

end Insertions

end Spfs
