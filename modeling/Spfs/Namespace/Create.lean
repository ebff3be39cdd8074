-- SUMMARY: What spfs_create and spfs_mkdir come to: the new inode, its record in the tree, and its place in the directory.
import Spfs.Btree.InsertFailure
import Spfs.Dir.Failure
import Spfs.Namespace

/-!
# Creating an inode

A call takes the next id for an object of the cache, stores the record of the object in the
tree, and adds the id to the directory.
-/

namespace Spfs

open EStateM (run_bind_of_ok run_bind_of_error)

/-! ## The new inode -/

theorem sIsReg_or (mode : ℕ) : sIsReg (mode ||| S_ISGID) = sIsReg mode := by
  have hdiv : (mode ||| S_ISGID) / 2 ^ 12 = mode / 2 ^ 12 := by
    rw [← Nat.shiftRight_eq_div_pow, Nat.shiftRight_or_distrib, Nat.shiftRight_eq_div_pow]
    exact Nat.or_zero _
  rw [sIsReg, hdiv]
  rfl

theorem sIsDir_or (mode : ℕ) : sIsDir (mode ||| S_ISGID) = sIsDir mode := by
  have hdiv : (mode ||| S_ISGID) / 2 ^ 12 = mode / 2 ^ 12 := by
    rw [← Nat.shiftRight_eq_div_pow, Nat.shiftRight_or_distrib, Nat.shiftRight_eq_div_pow]
    exact Nat.or_zero _
  rw [sIsDir, hdiv]
  rfl

/-- The type of an inode is that of its mode, whoever owns the parent. -/
theorem kind_inodeInitOwner (env : Env) (dir i : SpfsInode) (mode : ℕ) :
    sIsReg (inodeInitOwner env dir mode i).iMode = sIsReg mode ∧
      sIsDir (inodeInitOwner env dir mode i).iMode = sIsDir mode := by
  unfold inodeInitOwner
  split
  · dsimp only
    split
    · exact ⟨sIsReg_or mode, sIsDir_or mode⟩
    · exact ⟨rfl, rfl⟩
  · exact ⟨rfl, rfl⟩

/-- The object of a new inode, made from an object of the slab at a time. -/
def bornInode (env : Env) (dir : SpfsInode) (mode t ino : ℕ) (obj : SpfsInode) : SpfsInode :=
  { inodeInitOwner env dir mode (newObject ino obj) with
    iCtime := env.now t
    iAtime := env.now t
    iMtime := env.now t
    iNlink := if sIsDir mode then 2 else 1
    iNew := false }

/-- The state with a new inode, made from the object `k` of the slab. -/
def bornWorld (w : World) (k : ℕ) (i : SpfsInode) : World :=
  ((({ w.setId ((w.sbi.id + 1) % 2 ^ 64) with slab := w.slab.eraseIdx k } : World)).addEvent
    (.iget w.sbi.id)).setInode w.sbi.id i

section NewInode

variable {env : Env} {p k mode : ℕ} {w : World} {dir : SpfsInode}

theorem run_spfsSetupInodeFp {i : SpfsInode} (hp : w.inodes p = some i)
    (hkind : sIsReg i.iMode = true ∨ sIsDir i.iMode = true) (hnlink : i.iNlink = 1) :
    (spfsSetupInodeFp p).run w =
      .ok () (w.setInode p { i with iNlink := if sIsDir i.iMode then 2 else 1 }) := by
  rw [spfsSetupInodeFp, run_bind_of_ok (run_getInode_of hp)]
  by_cases hreg : sIsReg i.iMode = true
  · have hdir : sIsDir i.iMode = false := by
      simp only [sIsReg, sIsDir, beq_iff_eq, beq_eq_false_iff_ne] at hreg ⊢
      omega
    rw [if_pos hreg, hdir, if_neg (by simp), ← hnlink, World.setInode_self hp]
    rfl
  · have hdir := hkind.resolve_left hreg
    rw [if_neg hreg, if_pos hdir, if_pos hdir, incNlink, run_bind_of_ok (run_getInode_of hp),
      if_neg (by rw [hnlink]; decide), hnlink]
    rfl

/-- The object of a new inode once it is set up. -/
def SpfsInode.born (env : Env) (t : ℕ) (i : SpfsInode) : SpfsInode :=
  { i with
    iCtime := env.now t
    iAtime := env.now t
    iMtime := env.now t
    iNlink := if sIsDir i.iMode then 2 else 1
    iNew := false }

theorem bornWorld_inode (w : World) (k : ℕ) (i : SpfsInode) : (bornWorld w k i).inodes w.sbi.id = some i :=
  Function.update_self _ _ _

theorem run_modifyInode_born (f : SpfsInode → SpfsInode) (i : SpfsInode) :
    (modifyInode w.sbi.id f).run (bornWorld w k i) = .ok () (bornWorld w k (f i)) := by
  rw [run_modifyInode_of (bornWorld_inode w k i), bornWorld, World.setInode_setInode]
  rfl

/-- What is done to every new inode when it has its mode. -/
theorem run_newInode_rest {i : SpfsInode} (hkind : sIsReg i.iMode = true ∨ sIsDir i.iMode = true)
    (hnlink : i.iNlink = 1) :
    (do
      let now := env.now (← get).time
      modifyInode w.sbi.id fun i => { i with iCtime := now, iAtime := now, iMtime := now }
      spfsSetupInodeFp w.sbi.id
      unlockNewInode w.sbi.id
      return .ok w.sbi.id : Kernel (Except ℤ ℕ)).run (bornWorld w k i) =
        .ok (.ok w.sbi.id) (bornWorld w k (i.born env (w.time + 1))) := by
  set i₁ : SpfsInode := { i with
    iCtime := env.now (w.time + 1), iAtime := env.now (w.time + 1), iMtime := env.now (w.time + 1) } with hi₁
  have hsetup : (spfsSetupInodeFp w.sbi.id).run (bornWorld w k i₁) =
      .ok () (bornWorld w k { i₁ with iNlink := if sIsDir i₁.iMode then 2 else 1 }) := by
    rw [run_spfsSetupInodeFp (bornWorld_inode w k i₁) hkind hnlink, bornWorld, World.setInode_setInode]
    rfl
  rw [run_bind_of_ok (EStateM.run_get _), show (bornWorld w k i).time = w.time + 1 from rfl,
    run_bind_of_ok (run_modifyInode_born _ _), run_bind_of_ok hsetup, unlockNewInode,
    run_bind_of_ok (run_modifyInode_born _ _)]
  rfl

/-- The new object is in the cache, and the rest is up to the mode. -/
theorem run_spfsNewInode_born (parent : Option ℕ) (hfree : w.inodes w.sbi.id = none)
    (hpick : env.slabPick w.time = some k) :
    (spfsNewInode env parent mode).run w = (do
      match parent with
      | some parent => do
        let dir ← getInode parent
        modifyInode w.sbi.id (inodeInitOwner env dir mode)
      | none => modifyInode w.sbi.id fun i => { i with iMode := mode }
      let now := env.now (← get).time
      modifyInode w.sbi.id fun i => { i with iCtime := now, iAtime := now, iMtime := now }
      spfsSetupInodeFp w.sbi.id
      unlockNewInode w.sbi.id
      return .ok w.sbi.id : Kernel (Except ℤ ℕ)).run
        (bornWorld w k (newObject w.sbi.id (w.slab[k]?.getD spfsInodeInitOnce))) := by
  set obj := w.slab[k]?.getD spfsInodeInitOnce
  set w₁ := w.setId ((w.sbi.id + 1) % 2 ^ 64)
  have hget : (igetLocked env w.sbi.id).run w₁ =
      .ok (some w.sbi.id) (bornWorld w k (newObject w.sbi.id obj)) := by
    have hfree' : w₁.inodes w.sbi.id = none := hfree
    rw [run_igetLocked_none w.sbi.id hfree', show w₁.time = w.time from rfl, hpick]
    rfl
  rw [spfsNewInode, run_bind_of_ok (EStateM.run_get w),
    run_bind_of_ok (show (modify (·.setId ((w.sbi.id + 1) % 2 ^ 64)) : Kernel PUnit).run w = .ok () w₁ from rfl),
    run_bind_of_ok hget]
  have hnew : (newObject w.sbi.id obj).iNew = true := rfl
  exact (run_bind_of_ok (run_getInode_of (bornWorld_inode w k _))).trans (congrArg (EStateM.run · _) (if_pos hnew))

theorem run_spfsNewInode_noMemory (parent : Option ℕ) (hfree : w.inodes w.sbi.id = none)
    (hpick : env.slabPick w.time = none) :
    (spfsNewInode env parent mode).run w =
      .ok (.error (-ENOMEM)) ((w.setId ((w.sbi.id + 1) % 2 ^ 64)).addEvent (.iget w.sbi.id)) := by
  set w₁ := w.setId ((w.sbi.id + 1) % 2 ^ 64)
  have hget : (igetLocked env w.sbi.id).run w₁ = .ok none (w₁.addEvent (.iget w.sbi.id)) := by
    have hfree' : w₁.inodes w.sbi.id = none := hfree
    rw [run_igetLocked_none w.sbi.id hfree', show w₁.time = w.time from rfl, hpick]
  rw [spfsNewInode, run_bind_of_ok (EStateM.run_get w),
    run_bind_of_ok (show (modify (·.setId ((w.sbi.id + 1) % 2 ^ 64)) : Kernel PUnit).run w = .ok () w₁ from rfl),
    run_bind_of_ok hget]
  rfl

/-- The number is free and the slab has an object. -/
theorem run_spfsNewInode (hp : w.inodes p = some dir) (hfree : w.inodes w.sbi.id = none)
    (hpick : env.slabPick w.time = some k) (hkind : sIsReg mode = true ∨ sIsDir mode = true) :
    (spfsNewInode env (some p) mode).run w = .ok (.ok w.sbi.id) (bornWorld w k
      (bornInode env dir mode (w.time + 1) w.sbi.id (w.slab[k]?.getD spfsInodeInitOnce))) := by
  set obj := w.slab[k]?.getD spfsInodeInitOnce
  have hne : p ≠ w.sbi.id := by
    rintro rfl
    rw [hp] at hfree
    cases hfree
  have hparent : (bornWorld w k (newObject w.sbi.id obj)).inodes p = some dir := by
    rw [← hp]
    exact Function.update_of_ne hne _ _
  obtain ⟨hreg, hdir⟩ := kind_inodeInitOwner env dir (newObject w.sbi.id obj) mode
  have hnlink : (inodeInitOwner env dir mode (newObject w.sbi.id obj)).iNlink = 1 := by
    unfold inodeInitOwner
    split <;> rfl
  rw [run_spfsNewInode_born (some p) hfree hpick]
  dsimp only
  rw [run_bind_of_ok (run_getInode_of hparent), run_bind_of_ok (run_modifyInode_born _ _),
    run_newInode_rest (by rw [hreg, hdir]; exact hkind) hnlink, SpfsInode.born, hdir]
  rfl

/-- The same for the root, which has no parent. -/
theorem run_spfsNewInode_root (hfree : w.inodes w.sbi.id = none) (hpick : env.slabPick w.time = some k)
    (hkind : sIsReg mode = true ∨ sIsDir mode = true) :
    (spfsNewInode env none mode).run w = .ok (.ok w.sbi.id) (bornWorld w k
      (SpfsInode.born env (w.time + 1) { newObject w.sbi.id (w.slab[k]?.getD spfsInodeInitOnce) with
        iMode := mode })) := by
  rw [run_spfsNewInode_born none hfree hpick]
  dsimp only
  rw [run_bind_of_ok (run_modifyInode_born _ _), run_newInode_rest hkind rfl]

end NewInode

/-! ## The call -/

/-- There is no new inode to be had: the next number is taken, or the slab has no object. -/
def NoNewInode (env : Env) (w : World) : Prop :=
  match w.inodes w.sbi.id with
  | some j => j.isCached w.sbi.id = false ∨ j.iNew = false
  | none => env.slabPick w.time = none

/-- What the parent is when the child is added to it. -/
def CreateOp.linked : CreateOp → SpfsInode → SpfsInode
  | create, dir => dir
  | mkdir, dir => { dir with iNlink := (dir.iNlink + 1) % 2 ^ 32 }

/-- The call gets the object `k` of the slab for a new inode. -/
structure GetsInode (op : CreateOp) (env : Env) (mode : ℕ) (w : World) (k : ℕ) : Prop where
  kind : op.isKind mode = true
  free : w.inodes w.sbi.id = none
  pick : env.slabPick w.time = some k

/-- The new inode with its name. -/
def createdInode (env : Env) (dir : SpfsInode) (mode : ℕ) (w : World) (k : ℕ) (name : List UInt8)
    (h : name.length ≤ spookyFsNameMax) : SpfsInode :=
  { bornInode env dir mode (w.time + 1) w.sbi.id (w.slab[k]?.getD spfsInodeInitOnce) with
    name := nameArray name h }

/-- The state in which the new inode is given to the tree. -/
def createdWorld (env : Env) (dir : SpfsInode) (mode : ℕ) (w : World) (k : ℕ) (name : List UInt8)
    (h : name.length ≤ spookyFsNameMax) : World :=
  bornWorld w k (createdInode env dir mode w k name h)

/-- Every way a call can end. -/
inductive CreateEnd (op : CreateOp) (env : Env) (p : ℕ) (dir : SpfsInode) (subject : Dentry)
    (mode : ℕ) (w : World) : EStateM.Result Fault World (ℤ × Dentry) → Prop where
  | wrongKind {w' : World} : op.isKind mode = false →
      CreateEnd op env p dir subject mode w (.error .bug w')
  | tooLong : op.isKind mode = true → spookyFsNameMax < subject.name.length →
      CreateEnd op env p dir subject mode w (.ok (-ENAMETOOLONG, subject) w)
  | busy {w' : World} : ¬ NoNewInode env w → w.inodes w.sbi.id ≠ none →
      CreateEnd op env p dir subject mode w (.error .blocked w')
  | noInode {w' : World} : op.isKind mode = true → subject.name.length ≤ spookyFsNameMax →
      NoNewInode env w → CreateEnd op env p dir subject mode w (.error .nullDeref w')
  | refused {k : ℕ} {res : ℤ} {w' : World} (h : subject.name.length ≤ spookyFsNameMax)
      (fl : FreeList) : GetsInode op env mode w k →
      ¬ TakesIn env (createdInode env dir mode w k subject.name h)
        (createdWorld env dir mode w k subject.name h) →
      res ≠ 0 → OnlyLogs ((createdWorld env dir mode w k subject.name h).setFreeList fl) w' →
      CreateEnd op env p dir subject mode w (.ok (res, subject) w')
  | insertFault {k : ℕ} {f : Fault} {w' : World} (h : subject.name.length ≤ spookyFsNameMax) :
      GetsInode op env mode w k →
      ¬ TakesIn env (createdInode env dir mode w k subject.name h)
        (createdWorld env dir mode w k subject.name h) →
      f = .bug ∨ f = .oob → CreateEnd op env p dir subject mode w (.error f w')
  | held {k : ℕ} {w' : World} : GetsInode op env mode w k → dir.lock = true →
      CreateEnd op env p dir subject mode w (.error .blocked w')
  | added {k : ℕ} {res : ℤ} {w₁ w' : World} (h : subject.name.length ≤ spookyFsNameMax) :
      GetsInode op env mode w k →
      TakesIn env (createdInode env dir mode w k subject.name h)
        (createdWorld env dir mode w k subject.name h) →
      TakenIn env (createdInode env dir mode w k subject.name h)
        (createdWorld env dir mode w k subject.name h) w₁ →
      dir.lock = false →
      AddCall p w.sbi.id (op.linked dir) (w₁.setInode p (op.linked dir))
        (placeIn env (w₁.setInode p (op.linked dir)) (op.linked dir)) (.ok res w') →
      CreateEnd op env p dir subject mode w
        (.ok (res, { subject with dInode := some w.sbi.id }) w')
  | addFault {k : ℕ} {f : Fault} {w₁ w' : World} (h : subject.name.length ≤ spookyFsNameMax) :
      GetsInode op env mode w k →
      TakenIn env (createdInode env dir mode w k subject.name h)
        (createdWorld env dir mode w k subject.name h) w₁ →
      AddCall p w.sbi.id (op.linked dir) (w₁.setInode p (op.linked dir))
        (placeIn env (w₁.setInode p (op.linked dir)) (op.linked dir)) (.error f w') →
      CreateEnd op env p dir subject mode w (.error f w')

section Calls

variable {env : Env} {op : CreateOp} {p k mode : ℕ} {w : World} {dir : SpfsInode} {subject : Dentry}

theorem CreateOp.kind {op : CreateOp} (h : op.isKind mode = true) :
    sIsReg mode = true ∨ sIsDir mode = true := by
  cases op with
  | create => exact .inl h
  | mkdir => exact .inr h

theorem CreateOp.linked_lock (op : CreateOp) (dir : SpfsInode) : (op.linked dir).lock = dir.lock := by
  cases op <;> rfl

theorem CreateOp.run_link (op : CreateOp) (hp : w.inodes p = some dir) (hsb : dir.iSb = .sb) :
    (op.link p).run w = .ok () (w.setInode p (op.linked dir)) := by
  cases op with
  | create =>
    rw [linked, World.setInode_self hp]
    rfl
  | mkdir =>
    rw [link, incNlink, run_bind_of_ok (run_getInode_of hp)]
    split
    · rw [run_bind_of_ok (run_followSb hsb w)]
      rfl
    · rfl

/-- A number that is taken, or no object: an error pointer, or not even that. -/
theorem run_spfsNewInode_none (h : NoNewInode env w) :
    (∃ e w', (spfsNewInode env (some p) mode).run w = .ok (.error e) w') ∨
      ∃ w', (spfsNewInode env (some p) mode).run w = .error .nullDeref w' := by
  unfold NoNewInode at h
  set id := w.sbi.id
  cases hat : w.inodes id with
  | none =>
    rw [hat] at h
    exact .inl ⟨_, _, run_spfsNewInode_noMemory (some p) hat h⟩
  | some j =>
    rw [hat] at h
    set w₁ := w.setId ((id + 1) % 2 ^ 64)
    rw [spfsNewInode, run_bind_of_ok (EStateM.run_get w),
      run_bind_of_ok (show (modify (·.setId ((id + 1) % 2 ^ 64)) : Kernel PUnit).run w = .ok () w₁ from rfl)]
    have hat₁ : w₁.inodes id = some j := hat
    by_cases hcached : j.isCached id = true
    · have hnew : j.iNew = false := by
        rcases h with h | h
        · rw [hcached] at h
          cases h
        · exact h
      rw [run_bind_of_ok (run_igetLocked_some hat₁ hcached hnew)]
      set w₂ := (w₁.setInode id { j with iCount := j.iCount + 1 }).addEvent (.iget id)
      have hat₂ : w₂.inodes id = some { j with iCount := j.iCount + 1 } := Function.update_self _ _ _
      dsimp only
      obtain ⟨w₃, hfailed⟩ := igetFailed_returns hat₂
      rw [run_bind_of_ok (run_getInode_of hat₂), hnew, if_neg (by simp), run_bind_of_ok hfailed]
      exact .inl ⟨_, _, rfl⟩
    · have hget : (igetLocked env id).run w₁ = .error .nullDeref w₁ := by
        rw [igetLocked, run_bind_of_ok (EStateM.run_get w₁), hat₁]
        simp only [hcached]
        rfl
      rw [run_bind_of_error hget]
      exact .inr ⟨_, rfl⟩

theorem run_spfsGenericCreate_long (hp : w.inodes p = some dir) (hsb : dir.iSb = .sb)
    (hlong : spookyFsNameMax < subject.name.length) :
    (spfsGenericCreate env p subject mode).run w = .ok (-ENAMETOOLONG, subject) w := by
  rw [spfsGenericCreate, run_bind_of_ok (run_getInode_of hp), run_bind_of_ok (run_superOf hsb w),
    dif_neg (Nat.not_le.mpr hlong)]
  rfl

/-- An error pointer is followed to the name. -/
theorem run_spfsGenericCreate_noInode (hp : w.inodes p = some dir) (hsb : dir.iSb = .sb)
    (h : subject.name.length ≤ spookyFsNameMax) (hnone : NoNewInode env w) :
    ∃ w', (spfsGenericCreate env p subject mode).run w = .error .nullDeref w' := by
  rw [spfsGenericCreate, run_bind_of_ok (run_getInode_of hp), run_bind_of_ok (run_superOf hsb w),
    dif_pos h]
  rcases run_spfsNewInode_none hnone with ⟨e, w', hrun⟩ | ⟨w', hrun⟩
  · rw [run_bind_of_ok hrun]
    exact ⟨w', rfl⟩
  · rw [run_bind_of_error hrun]
    exact ⟨w', rfl⟩

/-- The number belongs to an inode that is still set up. -/
theorem run_spfsGenericCreate_busy (hp : w.inodes p = some dir) (hsb : dir.iSb = .sb)
    (h : subject.name.length ≤ spookyFsNameMax) {j : SpfsInode} (hat : w.inodes w.sbi.id = some j)
    (hcached : j.isCached w.sbi.id = true) (hnew : j.iNew = true) :
    ∃ w', (spfsGenericCreate env p subject mode).run w = .error .blocked w' := by
  set id := w.sbi.id
  set w₁ := w.setId ((id + 1) % 2 ^ 64)
  have hat₁ : w₁.inodes id = some j := hat
  have hget : (igetLocked env id).run w₁ = .error .blocked w₁ := by
    rw [igetLocked, run_bind_of_ok (EStateM.run_get w₁), hat₁]
    simp only [hcached, hnew]
    rfl
  have hrun : (spfsNewInode env (some p) mode).run w = .error .blocked w₁ := by
    rw [spfsNewInode, run_bind_of_ok (EStateM.run_get w),
      run_bind_of_ok (show (modify (·.setId ((id + 1) % 2 ^ 64)) : Kernel PUnit).run w = .ok () w₁ from rfl),
      run_bind_of_error hget]
  rw [spfsGenericCreate, run_bind_of_ok (run_getInode_of hp), run_bind_of_ok (run_superOf hsb w),
    dif_pos h, run_bind_of_error hrun]
  exact ⟨w₁, rfl⟩

theorem createdInode_iIno (h : subject.name.length ≤ spookyFsNameMax) :
    (createdInode env dir mode w k subject.name h).iIno = w.sbi.id := by
  rw [createdInode, bornInode]
  unfold inodeInitOwner
  split <;> rfl

/-- The record of a new inode is given to the tree. -/
theorem run_spfsGenericCreate (hp : w.inodes p = some dir) (hsb : dir.iSb = .sb)
    (h : subject.name.length ≤ spookyFsNameMax) (hgets : GetsInode op env mode w k) :
    (spfsGenericCreate env p subject mode).run w =
      (do
        let res ← spfsBtreeInsert env (createdInode env dir mode w k subject.name h)
        if res ≠ 0 then
          return (res, subject)
        return (0, { subject with dInode := some w.sbi.id }) : Kernel (ℤ × Dentry)).run
        (createdWorld env dir mode w k subject.name h) := by
  set id := w.sbi.id
  have hnew := run_spfsNewInode hp hgets.free hgets.pick (CreateOp.kind hgets.kind)
  set i := bornInode env dir mode (w.time + 1) id (w.slab[k]?.getD spfsInodeInitOnce)
  have hat : (bornWorld w k i).inodes id = some i := Function.update_self _ _ _
  have hname : (modifyInode id fun i => { i with name := nameArray subject.name h }).run
      (bornWorld w k i) = .ok () (createdWorld env dir mode w k subject.name h) := by
    rw [run_modifyInode_of hat, bornWorld, World.setInode_setInode]
    rfl
  have hat₁ : (createdWorld env dir mode w k subject.name h).inodes id =
      some (createdInode env dir mode w k subject.name h) := Function.update_self _ _ _
  rw [spfsGenericCreate, run_bind_of_ok (run_getInode_of hp), run_bind_of_ok (run_superOf hsb w),
    dif_pos h, run_bind_of_ok hnew]
  dsimp only
  rw [run_bind_of_ok hname, run_bind_of_ok (run_getInode_of hat₁)]

/-- What is done once the tree has the inode. -/
theorem run_create_of_taken {w₁ : World} {j : SpfsInode}
    (hkind : op.isKind mode = true) (hp : w.inodes p = some dir) (hsb : dir.iSb = .sb)
    (hgeneric : (spfsGenericCreate env p subject mode).run w =
      .ok (0, { subject with dInode := some w.sbi.id }) w₁)
    (hp₁ : w₁.inodes p = some dir) (hid : (w₁.setInode p (op.linked dir)).inodes w.sbi.id = some j) :
    (op.run env p subject mode).run w =
      (do
        let res ← spfsAddChild env p j.iIno
        return (res, { subject with dInode := some w.sbi.id }) : Kernel (ℤ × Dentry)).run
        (w₁.setInode p (op.linked dir)) := by
  rw [CreateOp.run, run_bind_of_ok (by rw [run_bugOn, hkind]; rfl), run_bind_of_ok (run_getInode_of hp),
    run_bind_of_ok (by rw [run_bugOn, hsb]; rfl), run_bind_of_ok hgeneric]
  dsimp only
  rw [if_neg (not_not.mpr rfl), run_bind_of_ok (op.run_link hp₁ hsb),
    run_bind_of_ok (run_getInode_of hid)]

/-- What a call returns when no inode was stored. -/
theorem run_create_of_generic (hkind : op.isKind mode = true) (hp : w.inodes p = some dir)
    (hsb : dir.iSb = .sb) :
    (∀ f w', (spfsGenericCreate env p subject mode).run w = .error f w' →
      (op.run env p subject mode).run w = .error f w') ∧
    ∀ res w', res ≠ 0 → (spfsGenericCreate env p subject mode).run w = .ok (res, subject) w' →
      (op.run env p subject mode).run w = .ok (res, subject) w' := by
  have hbug : (bugOn (op.isKind mode = false)).run w = .ok () w := by rw [run_bugOn, hkind]; rfl
  have hnull : (bugOn (dir.iSb = .null)).run w = .ok () w := by rw [run_bugOn, hsb]; rfl
  unfold CreateOp.run
  rw [run_bind_of_ok hbug, run_bind_of_ok (run_getInode_of hp), run_bind_of_ok hnull]
  refine ⟨fun f w' hrun => run_bind_of_error hrun, fun res w' hres hrun => ?_⟩
  rw [run_bind_of_ok hrun]
  dsimp only
  rw [if_pos hres]
  rfl

theorem CreateOp.run_ends (op : CreateOp) (env : Env) (subject : Dentry) (mode : ℕ)
    (hp : w.inodes p = some dir) (hsb : dir.iSb = .sb) :
    CreateEnd op env p dir subject mode w ((op.run env p subject mode).run w) := by
  cases hkind : op.isKind mode with
  | false =>
    rw [CreateOp.run, run_bind_of_error (by rw [run_bugOn, hkind]; rfl)]
    exact .wrongKind hkind
  | true =>
  obtain ⟨hfault, hrefused⟩ := @run_create_of_generic env op p mode w dir subject hkind hp hsb
  rcases Nat.lt_or_ge spookyFsNameMax subject.name.length with hlong | h
  · rw [hrefused _ _ (by decide) (run_spfsGenericCreate_long hp hsb hlong)]
    exact .tooLong hkind hlong
  by_cases hnone : NoNewInode env w
  · obtain ⟨w', hrun⟩ : ∃ w', (spfsGenericCreate env p subject mode).run w = .error .nullDeref w' :=
      run_spfsGenericCreate_noInode hp hsb h hnone
    rw [hfault _ _ hrun]
    exact .noInode hkind h hnone
  cases hat : w.inodes w.sbi.id with
  | some j =>
    have hbusy : j.isCached w.sbi.id = true ∧ j.iNew = true := by
      rw [NoNewInode, hat] at hnone
      simpa using hnone
    obtain ⟨w', hrun⟩ : ∃ w', (spfsGenericCreate env p subject mode).run w = .error .blocked w' :=
      run_spfsGenericCreate_busy hp hsb h hat hbusy.1 hbusy.2
    rw [hfault _ _ hrun]
    exact .busy hnone (by rw [hat]; simp)
  | none =>
    obtain ⟨k, hpick⟩ : ∃ k, env.slabPick w.time = some k := by
      rw [NoNewInode, hat] at hnone
      exact Option.ne_none_iff_exists'.mp hnone
    have hgets : GetsInode op env mode w k := ⟨hkind, hat, hpick⟩
    have hgeneric := run_spfsGenericCreate hp hsb h hgets
    set i := createdInode env dir mode w k subject.name h
    set w₀ := createdWorld env dir mode w k subject.name h
    have hend := spfsBtreeInsert_ends env i w₀
    generalize hinsert : (spfsBtreeInsert env i).run w₀ = r at hend
    cases hend with
    | fault htakes hf =>
      rw [run_bind_of_error hinsert] at hgeneric
      rw [hfault _ _ hgeneric]
      exact .insertFault h hgets htakes hf
    | refused fl htakes hres hlogs =>
      rw [run_bind_of_ok hinsert, if_pos hres] at hgeneric
      rw [hrefused _ _ hres hgeneric]
      exact .refused h fl hgets htakes hres hlogs
    | @taken w₁ htakes htaken =>
      rw [run_bind_of_ok hinsert, if_neg (not_not.mpr rfl)] at hgeneric
      have hne : p ≠ w.sbi.id := by
        rintro rfl
        rw [hp] at hat
        cases hat
      have hp₁ : w₁.inodes p = some dir := by
        rw [htaken.inodes, ← hp]
        exact Function.update_of_ne hne _ _
      have hid : (w₁.setInode p (op.linked dir)).inodes w.sbi.id = some i := by
        rw [World.setInode_inodes, Function.update_of_ne hne.symm, htaken.inodes]
        exact Function.update_self _ _ _
      rw [run_create_of_taken hkind hp hsb hgeneric hp₁ hid, createdInode_iIno h]
      set w₂ := w₁.setInode p (op.linked dir)
      have hp₂ : w₂.inodes p = some (op.linked dir) := Function.update_self _ _ _
      cases hlock : dir.lock with
      | true =>
        have hheld : (op.linked dir).lock = true := (op.linked_lock dir).trans hlock
        have hblocked : (spfsAddChild env p w.sbi.id).run w₂ = .error .blocked w₂ := by
          rw [spfsAddChild, run_bind_of_error (run_mutexLock_held hp₂ hheld)]
        rw [run_bind_of_error hblocked]
        exact .held hgets hlock
      | false =>
        have hcall := spfsAddChild_call env w.sbi.id hp₂ ((op.linked_lock dir).trans hlock)
        cases hrun : (spfsAddChild env p w.sbi.id).run w₂ with
        | ok res w' =>
          rw [hrun] at hcall
          rw [run_bind_of_ok hrun]
          exact .added h hgets htakes htaken hlock hcall
        | error f w' =>
          rw [hrun] at hcall
          rw [run_bind_of_error hrun]
          exact .addFault h hgets htaken hcall

end Calls

end Spfs
