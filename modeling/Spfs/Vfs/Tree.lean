-- SUMMARY: No run of calls stores more than one inode, and the device on which one was stored is never mounted again.
import Spfs.Vfs
import Spfs.Vfs.Space

/-!
# What a file system can hold

The first inode that is stored gives the tree a root, and that root is built over the
super block. From then on nothing can be created, whatever is called, and no call brings the
super block back.
-/

namespace Spfs

open EStateM (Within)

/-! ## Created inodes -/

/-- The number of the inode that a call created: it returned 0, and filled in the dentry. -/
def VfsCall.creates (call : VfsCall) (env : Env) (w : World) : Option ℕ :=
  match (call.run env).run w with
  | .ok (.created 0 dentry) _ => dentry.dInode
  | _ => none

/-- The inodes that are created in a run, in order. -/
def createdIn : World → List (Env × VfsCall) → List ℕ
  | _, [] => []
  | w, call :: calls =>
    (call.2.creates call.1 w).toList ++ createdIn ((call.2.run call.1).run w).final calls

theorem runCalls_cons (w : World) (call : Env × VfsCall) (calls : List (Env × VfsCall)) :
    runCalls w (call :: calls) = runCalls ((call.2.run call.1).run w).final calls := rfl

/-- The tree has a root. -/
def Rooted (w : World) : Prop := w.sbi.tree.start ≠ 0

/-- A root is never taken away. -/
instance : Service (EStateM.Keeps Rooted) where
  addEvent _ _ _ := id
  cache _ _ _ := id
  dirty _ _ := id
  freeAlloc blocks w h := by
    rw [run_freeAlloc]
    by_cases hr : (spfsFreeAlloc w.sbi.freeList blocks).1 ≠ 0
    · simp only [if_pos hr]
      exact h
    · simp only [if_neg hr]
      exact h
  setBlock _ _ _ := id
  setTreeStart _ _ hs _ := hs
  setId _ _ := id

section Calls

variable {env : Env} {call : VfsCall} {w : World} {id : ℕ}

/-- A call that creates is one of the two that do, and it returns. -/
theorem VfsCall.creates_eq_some (h : call.creates env w = some id) :
    ∃ op parent dentry mode dentry' w', call = .create op parent dentry mode ∧
      (op.run env parent dentry mode).run w = .ok (0, dentry') w' ∧
      ((call.run env).run w).final = w' ∧ dentry'.dInode = some id := by
  rw [VfsCall.creates] at h
  split at h
  · next dentry' w' hrun =>
    cases call with
    | create op parent dentry mode =>
      obtain ⟨⟨res, dentry''⟩, w₁, hop, hreturn⟩ := EStateM.run_bind_eq_ok.mp hrun
      cases hreturn
      exact ⟨op, parent, dentry, mode, _, _, rfl, hop, by rw [hrun]; rfl, h⟩
    | lookup | iterate | read | write | writeInode | iput | freeInode =>
      obtain ⟨r, w₁, -, hreturn⟩ := EStateM.run_bind_eq_ok.mp hrun
      cases hreturn
  · cases h

/-- The number of an inode that was created is the one that was next, and it was the first. -/
theorem VfsCall.creates_next (h : call.creates env w = some id) :
    w.sbi.tree.start = 0 ∧ id = w.sbi.id ∧ (id % 2 ^ 32 ≠ 0 → Overwritten ((call.run env).run w).final) := by
  obtain ⟨op, parent, dentry, mode, dentry', w', rfl, hrun, hfinal, hid⟩ := creates_eq_some h
  obtain ⟨hstart, hover⟩ := createOp_overwrites hrun
  obtain ⟨dir, hp, hsb⟩ := createOp_parent hrun
  have hend := op.run_ends env dentry mode hp hsb
  rw [hrun] at hend
  have hnumber : id = w.sbi.id := by
    cases hend with
    | refused _ _ _ _ hres => exact absurd rfl hres
    | added => exact (Option.some.inj hid).symm
  refine ⟨hstart, hnumber, fun hne => ?_⟩
  rw [hfinal]
  exact hover (by rwa [← hnumber])

end Calls

/-! ## The super block stays lost -/

/-- The tree has a root, and block 0 is no super block. -/
structure Lost (w : World) : Prop where
  start : w.sbi.tree.start ≠ 0
  magic : recordMagic (w.disk 0) ≠ spookyFsSuperMagic

theorem Overwritten.lost {w : World} (h : Overwritten w) : Lost w := by
  have hone : recordMagic (w.disk 0) = 1 := h.root
  refine ⟨h.start, ?_⟩
  rw [hone]
  decide

theorem Lost.storedSuper {w : World} (h : Lost w) : (storedSuper w.device).magic ≠ spookyFsSuperMagic := by
  rw [Spfs.storedSuper, ← parsedSuper_device]
  exact h.magic

theorem Lost.of_onlyLogs {w w' : World} (h : Lost w) (hlogs : OnlyLogs w w') : Lost w' := by
  refine ⟨?_, ?_⟩
  · rw [hlogs.sbi]
    exact h.start
  · rw [hlogs.disk]
    exact h.magic

instance : Reading (EStateM.Keeps Lost) where
  addEvent _ _ _ h := ⟨h.start, h.magic⟩
  cache _ _ _ h := ⟨h.start, h.magic⟩

/-- Block 0 is written only as a record, which it is not. -/
instance : IgnoresWrites (EStateM.Keeps Lost) where
  addEvent _ _ h := ⟨h.start, h.magic⟩
  setFreeList _ _ h := ⟨h.start, h.magic⟩
  setBlock w s b hs h := by
    have hne : s ≠ 0 := by
      rintro rfl
      exact hs.elim (fun hs => hs rfl) h.magic
    refine ⟨h.start, ?_⟩
    rw [World.setBlock_disk, Function.update_of_ne hne.symm]
    exact h.magic

section Lost

variable (env : Env)

theorem VfsCall.within_lost (call : VfsCall) : Within (EStateM.Keeps Lost) (call.run env) := by
  have hput (w : World) (p : ℕ) (i : SpfsInode) : EStateM.Keeps Lost w (w.setInode p i) :=
    fun h => ⟨h.start, h.magic⟩
  cases call with
  | create op parent dentry mode =>
    have hinsert (i : SpfsInode) : Within (EStateM.Keeps Lost) (spfsBtreeInsert env i) := fun w h =>
      h.of_onlyLogs (spfsBtreeInsert_rootedFrame env i w h.start)
    have hadd (child : ℕ) : Within (EStateM.Keeps Lost) (spfsAddChild env parent child) :=
      within_spfsAddChild (fun w i => hput w parent i) env child
    exact (createOp_reading env (fun _ _ h => ⟨h.start, h.magic⟩) hinsert hadd op dentry mode).bind fun _ =>
      Within.pure _
  | write p inBuf ppos =>
    exact (within_spfsWrite_ignored (fun w i => hput w p i) env inBuf ppos).bind fun _ => Within.pure _
  | writeInode p =>
    refine Within.bind ?_ fun _ => Within.pure _
    unfold spfsWriteInode
    refine (within_getInode p).bind fun i => (within_superOf i).bind fun _ => ?_
    exact (within_spfsBtreeModify env i.iIno () spfsModInodeCb).bind fun r => Within.pure _
  | lookup | iterate | read | iput | freeInode => exact VfsCall.within_reading env rfl

theorem runCalls_lost {w : World} (h : Lost w) (calls : List (Env × VfsCall)) : Lost (runCalls w calls) :=
  (runCalls_within w calls fun call _ => call.2.within_lost call.1) h

/-- A tree with a root takes no inode. -/
theorem createdIn_of_rooted {w : World} (h : Rooted w) (calls : List (Env × VfsCall)) : createdIn w calls = [] := by
  induction calls generalizing w with
  | nil => rfl
  | cons call calls ih =>
    have hnone : call.2.creates call.1 w = none := by
      by_contra hsome
      obtain ⟨id, hid⟩ := Option.ne_none_iff_exists'.mp hsome
      exact h (VfsCall.creates_next hid).1
    have hwithin : Within (EStateM.Keeps Rooted) (call.2.run call.1) := VfsCall.within call.1 call.2
    have hrooted : Rooted ((call.2.run call.1).run w).final := hwithin w h
    rw [createdIn, hnone, ih hrooted]
    rfl

/-- An inode whose number is not taken for none is the last one that is created. -/
theorem createdIn_pairwise (w : World) (calls : List (Env × VfsCall)) :
    (createdIn w calls).Pairwise fun id _ => id % 2 ^ 32 = 0 := by
  induction calls generalizing w with
  | nil => exact .nil
  | cons call calls ih =>
    rw [createdIn]
    cases hid : call.2.creates call.1 w with
    | none => exact ih _
    | some id =>
      refine List.Pairwise.cons (fun later hlater => ?_) (ih _)
      by_contra hne
      rw [createdIn_of_rooted ((VfsCall.creates_next hid).2.2 hne).start] at hlater
      cases hlater

theorem lost_of_mem_createdIn {w : World} {calls : List (Env × VfsCall)} {id : ℕ}
    (hmem : id ∈ createdIn w calls) (hid : id % 2 ^ 32 ≠ 0) : Lost (runCalls w calls) := by
  induction calls generalizing w with
  | nil => cases hmem
  | cons call calls ih =>
    rw [runCalls_cons]
    rcases List.mem_append.mp hmem with hhere | hlater
    · have hcreates := Option.mem_toList.mp hhere
      exact runCalls_lost ((VfsCall.creates_next hcreates).2.2 hid).lost calls
    · exact ih hlater

end Lost

end Spfs
