-- SUMMARY: sp.c: the cache of inode objects, new inodes, inodes loaded by their id, and their write-back.
import Spfs.Btree.Modify

/-!
# Inodes

`spfs_new_inode`, `spfs_inode_by_id` and `spfs_write_inode`, over the part of the kernel's
inode cache that they use. The slab hands out freed objects with the content they had
when they were freed; `inode_init_always` resets the fields of `struct inode` that it
knows, and nothing resets the lock, the capacity, the start and the name. A loaded record
is copied over the whole object.
-/

namespace Spfs

/-! ## The cache -/

/-- Drop the object from the cache. Its memory goes back to the slab as it is. -/
def World.evict (w : World) (p : ℕ) : World :=
  match w.inodes p with
  | some i => { w with inodes := Function.update w.inodes p none, slab := i :: w.slab }
  | none => w

def World.setId (w : World) (id : ℕ) : World :=
  { w with sbi := { w.sbi with id := id } }

/-- `spfs_alloc_inode`: a freed object, or a new one from the constructor. -/
def spfsAllocInode (env : Env) : Kernel (Option SpfsInode) := do
  let w ← get
  match env.slabPick w.time with
  | none => return none
  | some k =>
    set { w with slab := w.slab.eraseIdx k }
    return some (w.slab[k]?.getD spfsInodeInitOnce)

/-- `inode_init_always` of the kernel. The mode and the times stay. -/
def inodeInitAlways (i : SpfsInode) : SpfsInode :=
  { i with iSb := .sb, iCount := 1, iNlink := 1, iUid := 0, iGid := 0, iSize := 0 }

/-- The object that is put in the cache for a number that is not there. -/
def newObject (ino : ℕ) (i : SpfsInode) : SpfsInode :=
  { inodeInitAlways i with iIno := ino, iNew := true, iDirty := false, iHashed := true }

/-- A search of the cache for the number meets the object: it is in the hash table, and
its number and super block are those that it was put there with. -/
def SpfsInode.isCached (ino : ℕ) (i : SpfsInode) : Bool :=
  i.iHashed && i.iSb == .sb && i.iIno == ino

/-- `iget_locked` of the kernel: the object with that number, or a new one with `I_NEW`
set; `none` when there is no memory. A search that comes through an object whose linkage
was overwritten follows a wild pointer. -/
def igetLocked (env : Env) (ino : ℕ) : Kernel (Option ℕ) := do
  match (← get).inodes ino with
  | some i =>
    if !i.isCached ino then throw .nullDeref
    if i.iNew then throw .blocked
    putInode ino { i with iCount := i.iCount + 1 }
    emit (.iget ino)
    return some ino
  | none =>
    let obj ← spfsAllocInode env
    emit (.iget ino)
    match obj with
    | none => return none
    | some i =>
      putInode ino (newObject ino i)
      return some ino

def unlockNewInode (p : ℕ) : Kernel Unit :=
  modifyInode p fun i => { i with iNew := false }

/-- `iput` of the kernel. The last reference frees an object that is unlinked or not in
the hash table; another one stays in the cache. -/
def iput (p : ℕ) : Kernel Unit := do
  let i ← getInode p
  if i.iCount ≤ 1 ∧ (i.iNlink = 0 ∨ i.iHashed = false) then
    modify (·.evict p)
  else
    putInode p { i with iCount := i.iCount - 1 }

/-- `iget_failed` of the kernel. -/
def igetFailed (env : Env) (p : ℕ) : Kernel Unit := do
  let now := env.now (← get).time
  modifyInode p fun i => { i with
    iHashed := false, iMode := S_IFREG, iAtime := now, iMtime := now, iCtime := now }
  unlockNewInode p
  iput p

/-- `inc_nlink` of the kernel: from 0 on it also counts in the super block. -/
def incNlink (p : ℕ) : Kernel Unit := do
  let i ← getInode p
  if i.iNlink = 0 then
    let _ ← followSb i
  putInode p { i with iNlink := (i.iNlink + 1) % 2 ^ 32 }

/-- `inode_init_owner` of the kernel. -/
def inodeInitOwner (env : Env) (dir : SpfsInode) (mode : ℕ) (i : SpfsInode) : SpfsInode :=
  if dir.iMode &&& S_ISGID ≠ 0 then
    { i with
      iUid := env.fsuid, iGid := dir.iGid,
      iMode := if sIsDir mode then mode ||| S_ISGID else mode }
  else
    { i with iUid := env.fsuid, iGid := env.fsgid, iMode := mode }

/-! ## The functions of the source -/

def spfsSetupInodeFp (p : ℕ) : Kernel Unit := do
  let i ← getInode p
  if sIsReg i.iMode then
    return
  else if sIsDir i.iMode then
    incNlink p
  else
    throw .bug

/-- A new inode below `parent`, or an error pointer. -/
def spfsNewInode (env : Env) (parent : Option ℕ) (mode : ℕ) : Kernel (Except ℤ ℕ) := do
  let needle := (← get).sbi.id
  modify (·.setId ((needle + 1) % 2 ^ 64))
  match ← igetLocked env needle with
  | none => return .error (-ENOMEM)
  | some p =>
    if (← getInode p).iNew then
      match parent with
      | some parent => do
        let dir ← getInode parent
        modifyInode p (inodeInitOwner env dir mode)
      | none => modifyInode p fun i => { i with iMode := mode }
      let now := env.now (← get).time
      modifyInode p fun i => { i with iCtime := now, iAtime := now, iMtime := now }
      spfsSetupInodeFp p
      unlockNewInode p
      return .ok p
    else
      igetFailed env p
      return .error (-ENOMEM)

/-- The inode with an id, from the cache or from the tree; the null pointer when there is
none, or an error pointer. -/
def spfsInodeById (env : Env) (needle : ℕ) : Kernel (Except ℤ (Option ℕ)) := do
  match ← igetLocked env needle with
  | none => return .error (-ENOMEM)
  | some p =>
    let result ← getInode p
    if !result.iNew then
      return .ok (some p)
    let (res, result) ← spfsBtreeLookup env needle result
    if res ≠ 0 then
      igetFailed env p
      return .ok none
    putInode p result
    spfsSetupInodeFp p
    unlockNewInode p
    return .ok (some p)

/-- Says that the record is dirty, whatever is in it. -/
def spfsModInodeCb : BtreeModifyCb Unit := fun _ entry => .ok ((), entry, true)

def spfsWriteInode (env : Env) (p : ℕ) : Kernel ℤ := do
  let inode ← getInode p
  let _ ← superOf inode
  let (res, _) ← spfsBtreeModify env inode.iIno () spfsModInodeCb
  return res

/-! ## What the cache functions do -/

section Runs

variable {env : Env} {w w' : World} {p : ℕ} {i : SpfsInode}

/-- The state after the object `k` of the slab was put in the cache for a number. -/
def withNewObject (w : World) (ino k : ℕ) : World :=
  ((({ w with slab := w.slab.eraseIdx k } : World)).addEvent (.iget ino)).setInode ino
    (newObject ino (w.slab[k]?.getD spfsInodeInitOnce))

theorem run_igetLocked_none (ino : ℕ) (h : w.inodes ino = none) :
    (igetLocked env ino).run w =
      match env.slabPick w.time with
      | none => .ok none (w.addEvent (.iget ino))
      | some k => .ok (some ino) (withNewObject w ino k) := by
  rw [igetLocked, EStateM.run_bind_of_ok (EStateM.run_get w), h]
  cases hpick : env.slabPick w.time with
  | none =>
    have halloc : (spfsAllocInode env).run w = .ok none w := by
      rw [spfsAllocInode, EStateM.run_bind_of_ok (EStateM.run_get w), hpick]
      rfl
    simp only [EStateM.run_bind_of_ok halloc]
    rfl
  | some k =>
    have halloc : (spfsAllocInode env).run w = .ok (some (w.slab[k]?.getD spfsInodeInitOnce))
        { w with slab := w.slab.eraseIdx k } := by
      rw [spfsAllocInode, EStateM.run_bind_of_ok (EStateM.run_get w), hpick]
      rfl
    simp only [EStateM.run_bind_of_ok halloc]
    rfl

/-- An object of the cache is found and gets one more reference. -/
theorem run_igetLocked_some {ino : ℕ} (h : w.inodes ino = some i) (hcached : i.isCached ino = true)
    (hnew : i.iNew = false) :
    (igetLocked env ino).run w =
      .ok (some ino) ((w.setInode ino { i with iCount := i.iCount + 1 }).addEvent (.iget ino)) := by
  rw [igetLocked, EStateM.run_bind_of_ok (EStateM.run_get w), h]
  simp only [hcached, hnew]
  rfl

/-- Otherwise the search of the cache does not return. -/
theorem igetLocked_present {ino : ℕ} (h : w.inodes ino = some i) {r : Option ℕ}
    (hrun : (igetLocked env ino).run w = .ok r w') : i.isCached ino = true ∧ i.iNew = false := by
  rw [igetLocked, EStateM.run_bind_of_ok (EStateM.run_get w), h] at hrun
  dsimp only at hrun
  split at hrun
  · cases hrun
  split at hrun
  · cases hrun
  next hcached hnew => exact ⟨by simpa using hcached, by simpa using hnew⟩

theorem run_unlockNewInode (h : w.inodes p = some i) :
    (unlockNewInode p).run w = .ok () (w.setInode p { i with iNew := false }) :=
  run_modifyInode_of h

/-- An object that is not to be found any more. -/
def SpfsInode.failed (env : Env) (t : ℕ) (i : SpfsInode) : SpfsInode :=
  { i with
    iHashed := false
    iMode := S_IFREG
    iAtime := env.now t
    iMtime := env.now t
    iCtime := env.now t
    iNew := false }

/-- The last reference drops the object. -/
theorem run_igetFailed (hp : w.inodes p = some i) :
    (igetFailed env p).run w = .ok () (if i.iCount ≤ 1 then (w.setInode p (i.failed env w.time)).evict p
      else w.setInode p { i.failed env w.time with iCount := i.iCount - 1 }) := by
  rw [igetFailed, EStateM.run_bind_of_ok (EStateM.run_get w),
    EStateM.run_bind_of_ok (run_modifyInode_of hp),
    EStateM.run_bind_of_ok (run_unlockNewInode (Function.update_self _ _ _)), World.setInode_setInode, iput,
    EStateM.run_bind_of_ok (run_getInode_of (Function.update_self _ _ _))]
  by_cases hlast : i.iCount ≤ 1
  · rw [if_pos hlast, if_pos ⟨hlast, .inr rfl⟩]
    rfl
  · rw [if_neg hlast, if_neg fun h => hlast h.1, run_putInode, World.setInode_setInode]
    rfl

theorem igetFailed_returns (hp : w.inodes p = some i) : ∃ w', (igetFailed env p).run w = .ok () w' :=
  ⟨_, run_igetFailed hp⟩

theorem World.setInode_self (h : w.inodes p = some i) : w.setInode p i = w := by
  rw [World.setInode, ← h, Function.update_eq_self]

/-- Setting up an inode counts a link of a directory at most. -/
theorem spfsSetupInodeFp_ok (hp : w.inodes p = some i)
    (h : (spfsSetupInodeFp p).run w = .ok () w') :
    ∃ nlink, w' = w.setInode p { i with iNlink := nlink } := by
  rw [spfsSetupInodeFp, EStateM.run_bind_of_ok (run_getInode_of hp)] at h
  split at h
  · cases h
    exact ⟨i.iNlink, (World.setInode_self hp).symm⟩
  split at h
  · rw [incNlink, EStateM.run_bind_of_ok (run_getInode_of hp)] at h
    split at h
    · obtain ⟨_, w₁, hsb, hrun₁⟩ := EStateM.run_bind_eq_ok.mp h
      have hsame : w₁ = w := by
        rw [followSb] at hsb
        split at hsb <;> cases hsb
        rfl
      subst hsame
      cases hrun₁
      exact ⟨_, rfl⟩
    · cases h
      exact ⟨_, rfl⟩
  · cases h

/-! ### What they leave alone -/

/-- The device and the mounted super block are the same. -/
structure SameStore (w w' : World) : Prop where
  disk : w'.disk = w.disk
  bSize : w'.bSize = w.bSize
  sbi : w'.sbi = w.sbi

instance : IsPreorder World SameStore where
  refl _ := ⟨rfl, rfl, rfl⟩
  trans _ _ _ h h' := ⟨h'.disk.trans h.disk, h'.bSize.trans h.bSize, h'.sbi.trans h.sbi⟩

instance : IgnoresLog SameStore where
  addEvent _ _ := ⟨rfl, rfl, rfl⟩

theorem OnlyLogs.sameStore (h : OnlyLogs w w') : SameStore w w' := ⟨h.disk, h.bSize, h.sbi⟩

theorem sameStore_setInode (w : World) (p : ℕ) (i : SpfsInode) : SameStore w (w.setInode p i) :=
  ⟨rfl, rfl, rfl⟩

theorem sameStore_withNewObject (w : World) (ino k : ℕ) : SameStore w (withNewObject w ino k) :=
  ⟨rfl, rfl, rfl⟩

theorem sameStore_evict (w : World) (p : ℕ) : SameStore w (w.evict p) := by
  unfold World.evict
  split <;> exact ⟨rfl, rfl, rfl⟩

theorem World.evict_inodes (w : World) (q : ℕ) : (w.evict q).inodes = Function.update w.inodes q none := by
  unfold World.evict
  split
  · rfl
  · next hnone => rw [← hnone, Function.update_eq_self]

theorem World.evict_slab {w : World} {p : ℕ} {i : SpfsInode} (hp : w.inodes p = some i) :
    (w.evict p).slab = i :: w.slab := by
  unfold World.evict
  rw [hp]

/-- The store is the same, and so are all objects but the one with that number. -/
structure OnlyObject (p : ℕ) (w w' : World) : Prop where
  store : SameStore w w'
  others : ∀ q ≠ p, w'.inodes q = w.inodes q

instance (p : ℕ) : IsPreorder World (OnlyObject p) where
  refl w := ⟨refl_of SameStore w, fun _ _ => rfl⟩
  trans _ _ _ h h' :=
    ⟨trans_of SameStore h.store h'.store, fun q hq => (h'.others q hq).trans (h.others q hq)⟩

instance (p : ℕ) : IgnoresLog (OnlyObject p) where
  addEvent w e := ⟨IgnoresLog.addEvent w e, fun _ _ => rfl⟩

theorem OnlyLogs.onlyObject (h : OnlyLogs w w') (p : ℕ) : OnlyObject p w w' :=
  ⟨h.sameStore, fun q _ => by rw [h.inodes]⟩

theorem onlyObject_setInode (w : World) (p : ℕ) (i : SpfsInode) : OnlyObject p w (w.setInode p i) :=
  ⟨sameStore_setInode w p i, fun _ hq => Function.update_of_ne hq _ _⟩

theorem onlyObject_evict (w : World) (p : ℕ) : OnlyObject p w (w.evict p) := by
  refine ⟨sameStore_evict w p, fun q hq => ?_⟩
  rw [World.evict_inodes]
  exact Function.update_of_ne hq _ _

section Within

open EStateM (Within)

variable (env)

theorem within_modifyObject (p : ℕ) (f : SpfsInode → SpfsInode) :
    Within (OnlyObject p) (modifyInode p f) := by
  unfold modifyInode
  exact (within_getInode p).bind fun i => Within.modify fun w => onlyObject_setInode w p _

theorem within_spfsAllocInode (p : ℕ) : Within (OnlyObject p) (spfsAllocInode env) := by
  intro w
  rw [spfsAllocInode, EStateM.run_bind_of_ok (EStateM.run_get w)]
  split
  · exact refl_of (OnlyObject p) w
  · exact ⟨⟨rfl, rfl, rfl⟩, fun _ _ => rfl⟩

/-- The pointer that `iget_locked` returns is the number that it was given. -/
theorem igetLocked_pointer {ino p : ℕ} (h : (igetLocked env ino).run w = .ok (some p) w') :
    p = ino := by
  cases hcached : w.inodes ino with
  | none =>
    rw [run_igetLocked_none ino hcached] at h
    split at h
    · cases h
    · cases h
      rfl
  | some i =>
    rw [igetLocked, EStateM.run_bind_of_ok (EStateM.run_get w), hcached] at h
    dsimp only at h
    split at h
    · cases h
    split at h
    · cases h
    cases h
    rfl

/-- The pointer that `spfs_inode_by_id` returns is the id that it was given. -/
theorem spfsInodeById_pointer {needle q : ℕ}
    (h : (spfsInodeById env needle).run w = .ok (.ok (some q)) w') : q = needle := by
  unfold spfsInodeById at h
  obtain ⟨obj, w₁, hget, hrun₁⟩ := EStateM.run_bind_eq_ok.mp h
  cases obj with
  | none => cases hrun₁
  | some p =>
    obtain rfl : p = needle := igetLocked_pointer env hget
    obtain ⟨result, w₂, -, hrun₂⟩ := EStateM.run_bind_eq_ok.mp hrun₁
    split at hrun₂
    · cases hrun₂
      rfl
    obtain ⟨⟨res, r⟩, w₃, -, hrun₃⟩ := EStateM.run_bind_eq_ok.mp hrun₂
    dsimp only at hrun₃
    split at hrun₃
    · obtain ⟨_, w₄, -, hrun₄⟩ := EStateM.run_bind_eq_ok.mp hrun₃
      cases hrun₄
    · obtain ⟨_, w₄, -, hrun₄⟩ := EStateM.run_bind_eq_ok.mp hrun₃
      obtain ⟨_, w₅, -, hrun₅⟩ := EStateM.run_bind_eq_ok.mp hrun₄
      obtain ⟨_, w₆, -, hrun₆⟩ := EStateM.run_bind_eq_ok.mp hrun₅
      cases hrun₆
      rfl

theorem within_igetLocked (ino : ℕ) : Within (OnlyObject ino) (igetLocked env ino) := by
  unfold igetLocked
  refine Within.get.bind fun w => ?_
  split
  · refine Within.ite (fun _ => Within.throw _) fun _ => Within.ite (fun _ => Within.throw _) fun _ => ?_
    refine Within.bind (Within.modify fun w => onlyObject_setInode w ino _) fun _ => ?_
    exact (within_emit _).bind fun _ => Within.pure _
  · refine (within_spfsAllocInode env ino).bind fun obj => (within_emit _).bind fun _ => ?_
    split
    · exact Within.pure _
    · exact Within.bind (Within.modify fun w => onlyObject_setInode w ino _) fun _ => Within.pure _

theorem within_iput (p : ℕ) : Within (OnlyObject p) (iput p) := by
  unfold iput
  refine (within_getInode p).bind fun i => Within.ite (fun _ => ?_) fun _ => ?_
  · exact Within.modify fun w => onlyObject_evict w p
  · exact Within.modify fun w => onlyObject_setInode w p _

theorem within_igetFailed (p : ℕ) : Within (OnlyObject p) (igetFailed env p) := by
  unfold igetFailed
  refine Within.get.bind fun w => (within_modifyObject p _).bind fun _ => ?_
  exact (within_modifyObject p _).bind fun _ => within_iput p

theorem within_incNlink (p : ℕ) : Within (OnlyObject p) (incNlink p) := by
  unfold incNlink
  refine (within_getInode p).bind fun i => Within.ite (fun _ => ?_) fun _ => ?_
  · exact (within_followSb i).bind fun _ => Within.modify fun w => onlyObject_setInode w p _
  · exact Within.modify fun w => onlyObject_setInode w p _

theorem within_spfsSetupInodeFp (p : ℕ) : Within (OnlyObject p) (spfsSetupInodeFp p) := by
  unfold spfsSetupInodeFp
  refine (within_getInode p).bind fun i => Within.ite (fun _ => Within.pure _) fun _ => ?_
  exact Within.ite (fun _ => within_incNlink p) fun _ => Within.throw _

/-- Looking an inode up by its id touches no other object, and nothing in the store. -/
theorem within_spfsInodeById (needle : ℕ) : Within (OnlyObject needle) (spfsInodeById env needle) := by
  unfold spfsInodeById
  refine Within.bind_of_returned (within_igetLocked env needle) fun obj w w' hget => ?_
  split
  · exact Within.pure _
  · next p =>
    obtain rfl : p = needle := igetLocked_pointer env hget
    refine (within_getInode p).bind fun result => Within.ite (fun _ => Within.pure _) fun _ => ?_
    refine Within.bind ?_ fun r => Within.ite (fun _ => ?_) fun _ => ?_
    · exact (spfsBtreeLookup_onlyLogs env p result).mono fun _ _ h => h.onlyObject p
    · exact (within_igetFailed env p).bind fun _ => Within.pure _
    · refine Within.bind (Within.modify fun w => onlyObject_setInode w p _) fun _ => ?_
      refine (within_spfsSetupInodeFp p).bind fun _ => ?_
      exact (within_modifyObject p _).bind fun _ => Within.pure _

end Within

/-! ### Loading -/

/-- The places that a record has for fields agree, except for the name. -/
structure SameFields (i j : SpfsInode) : Prop where
  mode : i.iMode = j.iMode
  uid : i.iUid = j.iUid
  gid : i.iGid = j.iGid
  atime : i.iAtime = j.iAtime
  mtime : i.iMtime = j.iMtime
  ctime : i.iCtime = j.iCtime
  capacity : i.capacity = j.capacity
  start : i.start = j.start

/-- An inode that was not in the cache and is loaded is the temporary with the persistent
fields of the record, and was set up. -/
theorem spfsInodeById_loads {q : ℕ} (hp : w.inodes p = none)
    (h : (spfsInodeById env p).run w = .ok (.ok (some q)) w') :
    q = p ∧ ∃ offset s k nlink, Finds w.disk w.bSize w.sbi.tree.start p offset s k ∧
      w'.inodes p = some { parsedInode (env.junk (w'.time - 1)) (w.disk offset) with
        iNlink := nlink, iNew := false } := by
  rw [spfsInodeById, EStateM.run_bind_match, run_igetLocked_none p hp] at h
  cases hpick : env.slabPick w.time with
  | none =>
    rw [hpick] at h
    cases h
  | some k =>
    rw [hpick] at h
    dsimp only at h
    set w₁ := withNewObject w p k
    have hp₁ : w₁.inodes p = some (newObject p (w.slab[k]?.getD spfsInodeInitOnce)) :=
      Function.update_self _ _ _
    rw [EStateM.run_bind_of_ok (run_getInode_of hp₁)] at h
    have hnew : (newObject p (w.slab[k]?.getD spfsInodeInitOnce)).iNew = true := rfl
    rw [hnew] at h
    obtain ⟨⟨res, r⟩, w₂, hlookup, hrun₂⟩ := EStateM.run_bind_eq_ok.mp h
    dsimp only at hrun₂
    split at hrun₂
    · obtain ⟨_, w₃, -, hrun₃⟩ := EStateM.run_bind_eq_ok.mp hrun₂
      cases hrun₃
    next hres =>
    obtain rfl : res = 0 := not_not.mp hres
    obtain ⟨offset, s, j, t, hfinds, -, hr, htime⟩ := spfsBtreeLookup_zero hlookup
    obtain ⟨_, w₃, hput, hrun₃⟩ := EStateM.run_bind_eq_ok.mp hrun₂
    cases hput
    have hp₃ : (w₂.setInode p r).inodes p = some r := Function.update_self _ _ _
    obtain ⟨_, w₄, hsetup, hrun₄⟩ := EStateM.run_bind_eq_ok.mp hrun₃
    obtain ⟨nlink, rfl⟩ := spfsSetupInodeFp_ok hp₃ hsetup
    have hp₄ : ((w₂.setInode p r).setInode p { r with iNlink := nlink }).inodes p =
        some { r with iNlink := nlink } := Function.update_self _ _ _
    rw [EStateM.run_bind_of_ok (run_unlockNewInode hp₄)] at hrun₄
    cases hrun₄
    have htime' : w₂.time - 1 = t := by omega
    refine ⟨rfl, offset, s, j, nlink, hfinds, ?_⟩
    rw [World.setInode_inodes, Function.update_self, hr]
    show _ = some { parsedInode (env.junk (w₂.time - 1)) (w.disk offset) with iNlink := nlink, iNew := false }
    rw [htime']
    rfl

/-- It has the fields and the name of the record, and its size is what was on the stack. -/
theorem spfsInodeById_loaded {q : ℕ} (hp : w.inodes p = none)
    (h : (spfsInodeById env p).run w = .ok (.ok (some q)) w') :
    q = p ∧ ∃ offset s k j, Finds w.disk w.bSize w.sbi.tree.start p offset s k ∧
      w'.inodes p = some j ∧ SameFields j (parsedInode j (w.disk offset)) ∧
      j.name = (w.disk offset).readBytes 38 256 ∧
      j.iSize = (env.junk (w'.time - 1)).iSize := by
  obtain ⟨hq, offset, s, k, nlink, hfinds, hobj⟩ := spfsInodeById_loads hp h
  exact ⟨hq, offset, s, k, _, hfinds, hobj, ⟨rfl, rfl, rfl, rfl, rfl, rfl, rfl, rfl⟩, rfl, rfl⟩

end Runs

end Spfs
