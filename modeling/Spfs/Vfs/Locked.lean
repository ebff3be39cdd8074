-- SUMMARY: Files whose lock a call has kept: nobody reads or writes them before their object is dropped.
import Spfs.File.WritePath
import Spfs.Inode.Reuse
import Spfs.Vfs

/-!
# Files that stay locked

The first write to a file keeps the lock, and so do reads and writes that fail. No other call
gives it back: who wants the lock waits, and who finds the object in the cache leaves the lock
alone. So until the object is dropped, which its user does, every read of the file waits, and
every write waits for a signal.
-/

namespace Spfs

open EStateM (Within run_bind_of_ok run_bind_of_error)

/-! ## Objects in use -/

/-- A regular file in use, whose lock is held. -/
structure SpfsInode.Stuck (i : SpfsInode) : Prop where
  isReg : sIsReg i.iMode = true
  sb : i.iSb = .sb
  locked : i.lock = true
  used : 1 ≤ i.iCount
  old : i.iNew = false

def StuckAt (p : ℕ) (w : World) : Prop := ∃ i, w.inodes p = some i ∧ i.Stuck

section Frames

variable {p q : ℕ} {w w' : World}

theorem StuckAt.held (h : StuckAt p w) : HeldFile p w := by
  obtain ⟨i, hp, hi⟩ := h
  exact ⟨i, hp, hi.isReg, hi.sb, hi.locked⟩

theorem stuckAt_of_onlyInode (hq : q ≠ p) (h : OnlyInode q w w') : EStateM.Keeps (StuckAt p) w w' := by
  rintro ⟨i, hp, hi⟩
  exact ⟨i, (h p hq.symm).trans hp, hi⟩

theorem stuckAt_of_onlyObject (hq : q ≠ p) (h : OnlyObject q w w') : EStateM.Keeps (StuckAt p) w w' :=
  stuckAt_of_onlyInode hq h.others

theorem stuckAt_of_sameInodes (h : SameInodes w w') : EStateM.Keeps (StuckAt p) w w' := by
  rintro ⟨i, hp, hi⟩
  exact ⟨i, by rw [h, hp], hi⟩

/-- A change of the object that leaves it stuck. -/
theorem stuckAt_modifyInode (q : ℕ) {f : SpfsInode → SpfsInode} (hf : ∀ i : SpfsInode, i.Stuck → (f i).Stuck) :
    Within (EStateM.Keeps (StuckAt p)) (modifyInode q f) := by
  intro w
  by_cases hq : q = p
  · rintro ⟨i, hp, hi⟩
    rw [hq, run_modifyInode_of hp]
    exact ⟨f i, Function.update_self _ _ _, hf i hi⟩
  · exact stuckAt_of_onlyObject hq (within_modifyObject q f w)

theorem stuckAt_modifyInode_ne (hq : q ≠ p) (f : SpfsInode → SpfsInode) :
    Within (EStateM.Keeps (StuckAt p)) (modifyInode q f) :=
  (within_modifyObject q f).mono fun _ _ => stuckAt_of_onlyObject hq

instance : IgnoresReads (EStateM.Keeps (StuckAt p)) where
  addEvent _ _ _ h := h

end Frames

/-! ## Calls -/

section Calls

variable (env : Env) {p : ℕ}

/-- A stuck object that is looked up is found, or the search does not return. -/
theorem igetLocked_stuck {w : World} {i : SpfsInode} (hp : w.inodes p = some i) (hi : i.Stuck) :
    (igetLocked env p).run w = .error .nullDeref w ∨
      (igetLocked env p).run w = .ok (some p) ((w.setInode p { i with iCount := i.iCount + 1 }).addEvent (.iget p)) := by
  by_cases hcached : i.isCached p = true
  · exact .inr (run_igetLocked_some hp hcached hi.old)
  · left
    rw [igetLocked, run_bind_of_ok (EStateM.run_get w), hp]
    simp only [hcached]
    rfl

theorem SpfsInode.Stuck.counted {i : SpfsInode} (h : i.Stuck) (n : ℕ) :
    SpfsInode.Stuck { i with iCount := i.iCount + n } :=
  ⟨h.isReg, h.sb, h.locked, Nat.le_add_right_of_le h.used, h.old⟩

theorem stuckAt_spfsInodeById (needle : ℕ) : Within (EStateM.Keeps (StuckAt p)) (spfsInodeById env needle) := by
  intro w
  by_cases hneedle : needle = p
  · rintro ⟨i, hp, hi⟩
    rw [hneedle, spfsInodeById]
    rcases igetLocked_stuck env hp hi with hget | hget
    · rw [run_bind_of_error hget]
      exact ⟨i, hp, hi⟩
    · set w₁ := (w.setInode p { i with iCount := i.iCount + 1 }).addEvent (.iget p)
      have hp₁ : w₁.inodes p = some { i with iCount := i.iCount + 1 } := Function.update_self _ _ _
      rw [run_bind_of_ok hget]
      dsimp only
      rw [run_bind_of_ok (run_getInode_of hp₁), if_pos (by simp [hi.old])]
      exact ⟨_, hp₁, hi.counted 1⟩
  · exact stuckAt_of_onlyObject hneedle (within_spfsInodeById env needle w)

/-- The last step of an attempt to take the number of a stuck object again: it loses its place in
the hash table, but it is in use. -/
theorem stuckAt_igetFailed {w : World} {i : SpfsInode} (hp : w.inodes p = some i) (hi : i.Stuck)
    (hcount : 2 ≤ i.iCount) : StuckAt p ((igetFailed env p).run w).final := by
  rw [run_igetFailed hp, if_neg (by omega)]
  refine ⟨{ i.failed env w.time with iCount := i.iCount - 1 }, Function.update_self _ _ _, ?_⟩
  exact ⟨(by decide : sIsReg S_IFREG = true), hi.sb, hi.locked, Nat.le_sub_one_of_lt hcount, rfl⟩

theorem stuckAt_spfsNewInode (parent : Option ℕ) (mode : ℕ) :
    Within (EStateM.Keeps (StuckAt p)) (spfsNewInode env parent mode) := by
  intro w
  rw [spfsNewInode, run_bind_of_ok (EStateM.run_get w)]
  set needle := w.sbi.id
  have hset : (modify (·.setId ((needle + 1) % 2 ^ 64)) : Kernel Unit).run w =
      .ok () (w.setId ((needle + 1) % 2 ^ 64)) := rfl
  rw [run_bind_of_ok hset]
  set w₁ := w.setId ((needle + 1) % 2 ^ 64)
  have hid : EStateM.Keeps (StuckAt p) w w₁ := fun h => h
  refine trans_of (EStateM.Keeps (StuckAt p)) hid ?_
  by_cases hneedle : needle = p
  · rintro ⟨i, hp, hi⟩
    rw [hneedle]
    rcases igetLocked_stuck env hp hi with hget | hget
    · rw [run_bind_of_error hget]
      exact ⟨i, hp, hi⟩
    · set w₂ := (w₁.setInode p { i with iCount := i.iCount + 1 }).addEvent (.iget p)
      have hp₂ : w₂.inodes p = some { i with iCount := i.iCount + 1 } := Function.update_self _ _ _
      rw [run_bind_of_ok hget]
      dsimp only
      rw [run_bind_of_ok (run_getInode_of hp₂), if_neg (by simp [hi.old])]
      have hfailed := stuckAt_igetFailed env hp₂ (hi.counted 1) (Nat.succ_le_succ hi.used)
      cases hrun : (igetFailed env p).run w₂ with
      | ok _ w₃ =>
        rw [run_bind_of_ok hrun]
        rwa [hrun] at hfailed
      | error f w₃ =>
        rw [run_bind_of_error hrun]
        rwa [hrun] at hfailed
  · -- another object is set up, or given up
    have hobject {α : Type} {m : Kernel α} (h : Within (OnlyObject needle) m) : Within (EStateM.Keeps (StuckAt p)) m :=
      h.mono fun _ _ => stuckAt_of_onlyObject hneedle
    have hsetup : Within (EStateM.Keeps (StuckAt p)) (setUpNewInode env needle) := by
      refine Within.get.bind fun w => (hobject (within_modifyObject needle _)).bind fun _ => ?_
      refine (hobject (within_spfsSetupInodeFp needle)).bind fun _ => ?_
      exact (hobject (within_modifyObject needle _)).bind fun _ => Within.pure _
    refine Within.bind_of_returned (hobject (within_igetLocked env needle)) (fun obj w₂ w₃ hget => ?_) w₁
    cases obj with
    | none => exact Within.pure _
    | some q =>
      obtain rfl : q = needle := igetLocked_pointer env hget
      refine (within_getInode _).bind fun i => Within.ite (fun _ => ?_) fun _ => ?_
      · cases parent with
        | none => exact (hobject (within_modifyObject _ _)).bind fun _ => hsetup
        | some parent =>
          exact (within_getInode parent).bind fun dir => (hobject (within_modifyObject _ _)).bind fun _ => hsetup
      · exact (hobject (within_igetFailed env _)).bind fun _ => Within.pure _

theorem stuckAt_incNlink (q : ℕ) : Within (EStateM.Keeps (StuckAt p)) (incNlink q) := by
  intro w
  by_cases hq : q = p
  · rintro ⟨i, hp, hi⟩
    have hput (w : World) : StuckAt p (w.setInode p { i with iNlink := (i.iNlink + 1) % 2 ^ 32 }) :=
      ⟨_, Function.update_self _ _ _, hi.isReg, hi.sb, hi.locked, hi.used, hi.old⟩
    rw [hq, incNlink, run_bind_of_ok (run_getInode_of hp)]
    by_cases hlink : i.iNlink = 0
    · rw [if_pos hlink, run_bind_of_ok (run_followSb hi.sb w)]
      exact hput w
    · rw [if_neg hlink]
      exact hput w
  · exact stuckAt_of_onlyObject hq (within_incNlink q w)

/-- A traversal of the file itself does not begin, and one of a directory touches the file as one
of the children at most. -/
theorem stuckAt_spfsForAllChildren {γ : Type} {f : ForAllCb γ}
    (hf : ∀ closure child, Within (EStateM.Keeps (StuckAt p)) (f closure child)) (q : ℕ) (closure : γ) :
    Within (EStateM.Keeps (StuckAt p)) (spfsForAllChildren env f q closure) := by
  by_cases hq : q = p
  · rintro w ⟨i, hp, hi⟩
    rw [hq, spfsForAllChildren, run_bind_of_ok (run_getInode_of hp), run_bind_of_ok (run_superOf hi.sb w)]
    split
    · exact ⟨i, hp, hi⟩
    · rw [run_bind_of_error (run_mutexLock_held hp hi.locked)]
      exact ⟨i, hp, hi⟩
  · have hput (w : World) (i : SpfsInode) : EStateM.Keeps (StuckAt p) w (w.setInode q i) :=
      stuckAt_of_onlyObject hq (onlyObject_setInode w q i)
    have hlock : Within (EStateM.Keeps (StuckAt p)) (mutexLock q) := by
      unfold mutexLock
      refine (within_getInode q).bind fun i => Within.ite (fun _ => Within.throw _) fun _ => ?_
      exact Within.bind (fun w => hput w _) fun _ => emit_reading rfl
    have hunlock : Within (EStateM.Keeps (StuckAt p)) (mutexUnlock q) := by
      unfold mutexUnlock
      exact (stuckAt_modifyInode_ne hq _).bind fun _ => emit_reading rfl
    exact spfsForAllChildren_within env (stuckAt_spfsInodeById env) hf hlock hunlock closure

theorem stuckAt_spfsLookup (parent : ℕ) (dentry : Dentry) :
    Within (EStateM.Keeps (StuckAt p)) (spfsLookup env parent dentry) := by
  unfold spfsLookup
  refine (within_getInode parent).bind fun dir => (within_bugOn _).bind fun _ => ?_
  refine Within.bind ?_ fun inode => by cases inode <;> exact Within.pure _
  exact (stuckAt_spfsForAllChildren env (spfsInodeByNameCb_reading _) parent none).bind fun r => Within.pure _

theorem stuckAt_spfsIterate (file : DirFile) (ctx : DirContext) :
    Within (EStateM.Keeps (StuckAt p)) (spfsIterate env file ctx) := by
  unfold spfsIterate
  refine (within_getInode _).bind fun parent => Within.ite (fun _ => Within.pure _) fun _ => ?_
  refine Within.ite (fun _ => Within.pure _) fun _ => ?_
  exact (stuckAt_spfsForAllChildren env (fun closure child => within_spfsIterateCb closure child) _ _).bind
    fun r => Within.pure _

theorem stuckAt_spfsRead (q inLen ppos : ℕ) : Within (EStateM.Keeps (StuckAt p)) (spfsRead env q inLen ppos) := by
  intro w
  by_cases hq : q = p
  · intro h
    rw [hq, run_spfsRead_held h.held]
    split <;> exact h
  · exact stuckAt_of_onlyInode hq (within_spfsRead env q inLen ppos w)

theorem stuckAt_spfsWrite (q : ℕ) (inBuf : List UInt8) (ppos : ℕ) :
    Within (EStateM.Keeps (StuckAt p)) (spfsWrite env q inBuf ppos) := by
  intro w
  by_cases hq : q = p
  · rintro ⟨i, hp, hi⟩
    rw [hq, run_spfsWrite_held hp hi.isReg hi.locked]
    exact ⟨i, hp, hi⟩
  · exact stuckAt_of_onlyInode hq (within_spfsWrite env q inBuf ppos w)

theorem stuckAt_spfsAddChild (q child : ℕ) : Within (EStateM.Keeps (StuckAt p)) (spfsAddChild env q child) := by
  intro w
  by_cases hq : q = p
  · rintro ⟨i, hp, hi⟩
    rw [hq, spfsAddChild, run_bind_of_error (run_mutexLock_held hp hi.locked)]
    exact ⟨i, hp, hi⟩
  · exact stuckAt_of_onlyInode hq (within_spfsAddChild (fun w i => onlyInode_setInode w q i) env child w)

theorem stuckAt_createOp (op : CreateOp) (parent : ℕ) (dentry : Dentry) (mode : ℕ) :
    Within (EStateM.Keeps (StuckAt p)) (op.run env parent dentry mode) := by
  have hlink : Within (EStateM.Keeps (StuckAt p)) (op.link parent) := by
    cases op with
    | create => exact Within.pure _
    | mkdir => exact stuckAt_incNlink parent
  have hinsert (i : SpfsInode) : Within (EStateM.Keeps (StuckAt p)) (spfsBtreeInsert env i) :=
    (within_spfsBtreeInsert env i).mono fun _ _ => stuckAt_of_sameInodes
  have hgeneric : Within (EStateM.Keeps (StuckAt p)) (spfsGenericCreate env parent dentry mode) := by
    unfold spfsGenericCreate
    refine (within_getInode parent).bind fun dir => (within_superOf dir).bind fun _ => ?_
    split
    · refine (stuckAt_spfsNewInode env _ mode).bind fun inode => ?_
      cases inode with
      | error e => exact Within.throw _
      | ok inode =>
        refine Within.bind (stuckAt_modifyInode inode ?_) fun _ => (within_getInode inode).bind fun i => ?_
        · exact fun i hi => ⟨hi.isReg, hi.sb, hi.locked, hi.used, hi.old⟩
        · exact (hinsert i).bind fun res => Within.ite (fun _ => Within.pure _) fun _ => Within.pure _
    · exact Within.pure _
  unfold CreateOp.run
  refine (within_bugOn _).bind fun _ => (within_getInode parent).bind fun dir => (within_bugOn _).bind fun _ => ?_
  refine hgeneric.bind fun r => Within.ite (fun _ => Within.pure _) fun _ => ?_
  split
  · exact Within.throw _
  · refine hlink.bind fun _ => (within_getInode _).bind fun child => ?_
    exact (stuckAt_spfsAddChild env _ _).bind fun _ => Within.pure _

theorem stuckAt_spfsWriteInode (q : ℕ) : Within (EStateM.Keeps (StuckAt p)) (spfsWriteInode env q) := by
  unfold spfsWriteInode
  refine (within_getInode q).bind fun i => (within_superOf i).bind fun _ => Within.bind ?_ fun r => Within.pure _
  exact (within_spfsBtreeModify (R := SameInodes) env _ _ _).mono fun _ _ => stuckAt_of_sameInodes

/-- The user of the inode gives it up, or the kernel takes its memory. -/
def VfsCall.drops (p : ℕ) : VfsCall → Bool
  | iput q | freeInode q => q == p
  | create _ _ _ _ | lookup _ _ | iterate _ _ | read _ _ _ | write _ _ _ | writeInode _ => false

theorem VfsCall.stuckAt {call : VfsCall} (h : call.drops p = false) :
    Within (EStateM.Keeps (StuckAt p)) (call.run env) := by
  cases call with
  | create op parent dentry mode => exact (stuckAt_createOp env op parent dentry mode).bind fun _ => Within.pure _
  | lookup parent dentry => exact (stuckAt_spfsLookup env parent dentry).bind fun _ => Within.pure _
  | iterate file ctx => exact (stuckAt_spfsIterate env file ctx).bind fun _ => Within.pure _
  | read q inLen ppos => exact (stuckAt_spfsRead env q inLen ppos).bind fun _ => Within.pure _
  | write q inBuf ppos => exact (stuckAt_spfsWrite env q inBuf ppos).bind fun _ => Within.pure _
  | writeInode q => exact (stuckAt_spfsWriteInode env q).bind fun _ => Within.pure _
  | iput q =>
    have hq : q ≠ p := by simpa [VfsCall.drops] using h
    refine Within.bind ?_ fun _ => Within.pure _
    exact (within_iput q).mono fun _ _ => stuckAt_of_onlyObject hq
  | freeInode q =>
    have hq : q ≠ p := by simpa [VfsCall.drops] using h
    refine Within.bind (Within.modify fun w => ?_) fun _ => Within.pure _
    exact stuckAt_of_onlyObject hq (onlyObject_evict w q)

end Calls

/-! ## Calls that keep the lock -/

/-- The object stays in use as it is. -/
def SameUse (p : ℕ) (w w' : World) : Prop :=
  ∀ i, w.inodes p = some i → ∃ j, w'.inodes p = some j ∧ j.iCount = i.iCount ∧ j.iNew = i.iNew

instance (p : ℕ) : IsPreorder World (SameUse p) where
  refl _ i hp := ⟨i, hp, rfl, rfl⟩
  trans := by
    intro w w₁ w' h h' i hp
    obtain ⟨j, hj, hcount, hnew⟩ := h i hp
    obtain ⟨k, hk, hcount', hnew'⟩ := h' j hj
    exact ⟨k, hk, hcount'.trans hcount, hnew'.trans hnew⟩

instance (p : ℕ) : IgnoresStore (SameUse p) where
  addEvent _ _ i hp := ⟨i, hp, rfl, rfl⟩
  setBlock _ _ _ i hp := ⟨i, hp, rfl, rfl⟩
  setFreeList _ _ i hp := ⟨i, hp, rfl, rfl⟩
  setTreeStart _ _ i hp := ⟨i, hp, rfl, rfl⟩

section Locks

variable {env : Env} {w w' : World} {p : ℕ} {i : SpfsInode} {buf : List UInt8}

theorem sameUse_modifyInode {f : SpfsInode → SpfsInode}
    (hf : ∀ i, (f i).iCount = i.iCount ∧ (f i).iNew = i.iNew) : Within (SameUse p) (modifyInode p f) := by
  intro w i hp
  rw [run_modifyInode_of hp]
  exact ⟨f i, Function.update_self _ _ _, hf i⟩

theorem sameUse_mutexLockInterruptible : Within (SameUse p) (mutexLockInterruptible env p) := by
  intro w i hp
  cases hlock : i.lock with
  | false =>
    rw [run_mutexLockInterruptible_of hp hlock]
    exact ⟨{ i with lock := true }, Function.update_self _ _ _, rfl, rfl⟩
  | true =>
    rw [run_mutexLockInterruptible_held hp hlock]
    split <;> exact ⟨i, hp, rfl, rfl⟩

theorem sameUse_spfsWrite (env : Env) (p : ℕ) (buf : List UInt8) (pos : ℕ) :
    Within (SameUse p) (spfsWrite env p buf pos) := by
  have hensure (pos len : ℕ) : Within (SameUse p) (spfsEnsureCapacity env p pos len) := by
    refine within_spfsEnsureCapacity env p pos len fun f hf => sameUse_modifyInode fun i => ?_
    obtain ⟨start, capacity, hfi⟩ := hf i
    rw [hfi]
    exact ⟨rfl, rfl⟩
  unfold spfsWrite
  refine Within.ite (fun _ => Within.pure _) fun _ => (within_getInode p).bind fun inode => ?_
  refine Within.ite (fun _ => Within.pure _) fun _ => sameUse_mutexLockInterruptible.bind fun intr => ?_
  refine Within.ite (fun _ => Within.pure _) fun _ => (hensure _ _).bind fun r => ?_
  refine Within.ite (fun _ => Within.pure _) fun _ => (within_getInode p).bind fun inode => ?_
  refine (within_spfsWriteLit env _ _ _ _ _).bind fun r => ?_
  rcases r with res | ⟨written, rest, extra⟩
  · exact Within.pure _
  refine (within_bugOn _).bind fun _ => (within_bugOn _).bind fun _ => ?_
  refine Within.bind (sameUse_modifyInode fun i => ⟨rfl, rfl⟩) fun _ => ?_
  unfold mutexUnlock
  refine Within.bind ?_ fun _ => Within.pure _
  exact Within.bind (sameUse_modifyInode fun i => ⟨rfl, rfl⟩) fun _ => within_emit _

/-- A call on a file that takes its lock and ends without giving it back: a read or a write that
fails, and a write to an empty file, however it ends. -/
inductive LeavesLocked (env : Env) (p : ℕ) (w : World) (i : SpfsInode) : World → Prop
  | read {inLen ppos ppos' : ℕ} {res : ℤ} {bytes : List UInt8} {w' : World}
      (hrun : (spfsRead env p inLen ppos).run w = .ok (res, ppos', bytes) w') (hres : res < 0) :
      LeavesLocked env p w i w'
  | write {buf : List UInt8} {pos pos' : ℕ} {res : ℤ} {w' : World} (hsize : w.sbi.blockSize = w.bSize)
      (hrun : (spfsWrite env p buf pos).run w = .ok (res, pos') w') (hres : res ≠ 0) : LeavesLocked env p w i w'
  | first {buf : List UInt8} {pos : ℕ} (hi : EmptyFile i) (hbuf : buf ≠ []) :
      LeavesLocked env p w i ((spfsWrite env p buf pos).run w).final

/-- A regular file in use, whose lock is free. -/
structure SpfsInode.Ready (i : SpfsInode) : Prop where
  isReg : sIsReg i.iMode = true
  sb : i.iSb = .sb
  free : i.lock = false
  used : 1 ≤ i.iCount
  old : i.iNew = false

theorem SpfsInode.Ready.stuck (h : i.Ready) : SpfsInode.Stuck { i with lock := true } :=
  ⟨h.isReg, h.sb, rfl, h.used, h.old⟩

theorem HeldFile.stuckAt (h : HeldFile p w') (hp : w.inodes p = some i) (hi : i.Ready) (huse : SameUse p w w') :
    StuckAt p w' := by
  obtain ⟨j, hj, hreg, hsb, hlock⟩ := h
  obtain ⟨j', hj', hcount, hnew⟩ := huse i hp
  obtain rfl := Option.some.inj (hj'.symm.trans hj)
  exact ⟨j', hj', hreg, hsb, hlock, hcount ▸ hi.used, hnew.trans hi.old⟩

theorem LeavesLocked.stuckAt (h : LeavesLocked env p w i w') (hp : w.inodes p = some i) (hi : i.Ready) :
    StuckAt p w' := by
  cases h with
  | @read inLen ppos ppos' res bytes w' hrun hres =>
    by_cases hlen : inLen = 0
    · rw [spfsRead, if_pos hlen] at hrun
      cases hrun
      exact absurd hres (by decide)
    rw [spfsRead, if_neg hlen, run_bind_of_ok (run_getInode_of hp), if_neg (by rw [hi.isReg]; decide),
      run_bind_of_ok (run_superOf hi.sb w), run_bind_of_ok (run_mutexLock_of hp hi.free)] at hrun
    obtain ⟨r, w₁, hlit, hrun₁⟩ := EStateM.run_bind_eq_ok.mp hrun
    have hp₁ : w₁.inodes p = some { i with lock := true } := by
      rw [((within_spfsReadLit env _ _ _ _ _).of_ok hlit).inodes]
      exact Function.update_self _ _ _
    cases r with
    | error res' =>
      cases hrun₁
      exact ⟨_, hp₁, hi.stuck⟩
    | ok read =>
      dsimp only at hrun₁
      rw [run_bind_of_ok (run_mutexUnlock_of hp₁)] at hrun₁
      cases hrun₁
      exact absurd hres (Int.not_lt.mpr (Int.natCast_nonneg _))
  | @write buf pos pos' res w' hsize hrun hres =>
    have huse : SameUse p w w' := (sameUse_spfsWrite env p buf pos).of_ok hrun
    by_cases hbuf : buf = []
    · rw [spfsWrite, if_pos (by rw [hbuf]; rfl)] at hrun
      cases hrun
      exact absurd rfl hres
    have hend := spfsWrite_ends hsize hp hi.isReg hi.free hbuf hrun
    cases hend with
    | refused _ hheld => exact hheld.stuckAt hp hi huse
    | failed hheld => exact hheld.stuckAt hp hi huse
    | done => exact absurd rfl hres
  | first hempty hbuf => exact (spfsWrite_held hp hempty hbuf _).stuckAt hp hi (sameUse_spfsWrite env p _ _ w)

/-- Reads of the file wait for its lock, and so do writes until a signal arrives. -/
structure LockedOut (p : ℕ) (w : World) : Prop where
  read : ∀ env inLen ppos, inLen ≠ 0 → (spfsRead env p inLen ppos).run w = .error .blocked w
  write : ∀ (env : Env) buf ppos, buf ≠ [] → (spfsWrite env p buf ppos).run w =
    if env.signal w.time then .ok (- EINTR, ppos) w else .error .blocked w

theorem StuckAt.lockedOut (h : StuckAt p w) : LockedOut p w where
  read env inLen ppos hlen := by rw [run_spfsRead_held h.held, if_neg hlen]
  write env buf ppos hbuf := by
    obtain ⟨i, hp, hi⟩ := h
    have hlen : buf.length ≠ 0 := fun h => hbuf (List.length_eq_zero_iff.mp h)
    have hheld : (mutexLockInterruptible env p).run w =
        if env.signal w.time then .ok true w else .error .blocked w :=
      run_mutexLockInterruptible_held hp hi.locked
    rw [spfsWrite, if_neg hlen, run_bind_of_ok (run_getInode_of hp), if_neg (by rw [hi.isReg]; decide)]
    by_cases hsignal : env.signal w.time = true
    · rw [if_pos hsignal] at hheld ⊢
      rw [run_bind_of_ok hheld]
      rfl
    · rw [if_neg hsignal] at hheld ⊢
      rw [run_bind_of_error hheld]

/-- Once a call on a file has kept its lock, the file is out of reach for as long as its object is in
use: after any run of calls of anybody, in any environments, every read of it waits, and every
write waits for a signal. -/
theorem leavesLocked_lockedOut (hp : w.inodes p = some i) (hi : i.Ready) (hleaves : LeavesLocked env p w i w')
    {calls : List (Env × VfsCall)} (hcalls : ∀ call ∈ calls, call.2.drops p = false) :
    LockedOut p (runCalls w' calls) := by
  have hstuck : StuckAt p (runCalls w' calls) :=
    runCalls_within w' calls (fun call hcall => VfsCall.stuckAt call.1 (hcalls call hcall)) (hleaves.stuckAt hp hi)
  exact hstuck.lockedOut

end Locks

/-- An empty file that somebody has opened. -/
def openFile : SpfsInode := { plainFile 1 with iCount := 1 }

def openFileWorld : World := oneFileWorld.setInode 1 openFile

/-- A write, and then other calls on the file and on others. -/
theorem leavesLocked_lockedOut_openFile :
    LockedOut 1 (runCalls ((spfsWrite (.calm 9) 1 [65] 0).run openFileWorld).final
      [(.calm 9, .write 1 [66] 0), (.calm 9, .writeInode 1), (.calm 9, .freeInode 2)]) := by
  have hp : openFileWorld.inodes 1 = some openFile := rfl
  have hready : openFile.Ready := ⟨by decide, rfl, rfl, le_rfl, rfl⟩
  have hempty : EmptyFile openFile := ⟨by decide, rfl, rfl, rfl, rfl, rfl⟩
  have hfirst : LeavesLocked (.calm 9) 1 openFileWorld openFile ((spfsWrite (.calm 9) 1 [65] 0).run openFileWorld).final :=
    .first hempty (List.cons_ne_nil 65 [])
  exact leavesLocked_lockedOut hp hready hfirst (by decide)

end Spfs
