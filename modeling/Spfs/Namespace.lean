-- SUMMARY: sp.c: creating files and directories, and finding a child by its name.
import Spfs.Btree.Insert
import Spfs.Dir

/-!
# The namespace

`spfs_create` and `spfs_mkdir` store the record of a new inode in the tree and then add its
id to the directory. `spfs_inode_by_name` looks at the children of a directory one after the
other and compares their names.
-/

namespace Spfs

/-- `struct dentry`: the bytes of `d_name`, without the zero behind them, and the inode. -/
structure Dentry where
  name : List UInt8
  dInode : Option ℕ
deriving DecidableEq

/-! ## Creating -/

/-- The name array after `memset` and `memcpy`. -/
def nameArray (name : List UInt8) (h : name.length ≤ spookyFsNameMax) : Name :=
  ⟨name ++ List.replicate (spookyFsNameMax - name.length) 0, by
    rw [List.length_append, List.length_replicate, Nat.add_sub_cancel' h]
    rfl⟩

/-- The result, and the dentry with the new inode. The error pointer of `spfs_new_inode` is
not the null pointer, so it is taken for an inode. -/
def spfsGenericCreate (env : Env) (parent : ℕ) (dentry : Dentry) (mode : ℕ) :
    Kernel (ℤ × Dentry) := do
  let dir ← getInode parent
  let _ ← superOf dir
  if h : dentry.name.length ≤ spookyFsNameMax then
    match ← spfsNewInode env (some parent) mode with
    | .error _ => throw .nullDeref
    | .ok inode =>
      modifyInode inode fun i => { i with name := nameArray dentry.name h }
      let res ← spfsBtreeInsert env (← getInode inode)
      if res ≠ 0 then
        return (res, dentry)
      return (0, { dentry with dInode := some inode })
  else
    return (-ENAMETOOLONG, dentry)

/-- The two calls that create an inode. -/
inductive CreateOp where
  | create
  | mkdir
deriving DecidableEq

/-- The `BUG_ON` for the mode. -/
def CreateOp.isKind : CreateOp → ℕ → Bool
  | create => sIsReg
  | mkdir => sIsDir

/-- What is done to the parent before the child is added to it. -/
def CreateOp.link : CreateOp → ℕ → Kernel Unit
  | create, _ => return
  | mkdir, parent => incNlink parent

def CreateOp.run (op : CreateOp) (env : Env) (parent : ℕ) (subject : Dentry) (mode : ℕ) :
    Kernel (ℤ × Dentry) := do
  bugOn (op.isKind mode = false)
  let dir ← getInode parent
  bugOn (dir.iSb = .null)
  let (res, subject) ← spfsGenericCreate env parent subject mode
  if res ≠ 0 then
    return (res, subject)
  match subject.dInode with
  | none => throw .bug
  | some inode =>
    op.link parent
    let child ← getInode inode
    return (← spfsAddChild env parent child.iIno, subject)

def spfsCreate : Env → ℕ → Dentry → ℕ → Kernel (ℤ × Dentry) := CreateOp.create.run

def spfsMkdir : Env → ℕ → Dentry → ℕ → Kernel (ℤ × Dentry) := CreateOp.mkdir.run

/-! ## Finding -/

/-- `strcmp` of a name array with a string that ends in a zero. A comparison that does not
end in the array goes on behind it. -/
def strcmp : List UInt8 → List UInt8 → Except Fault ℤ
  | [], _ => .error .oob
  | c :: _, [] => .ok (if c = 0 then 0 else 1)
  | c :: cs, d :: ds =>
    if c ≠ d then .ok (if c < d then -1 else 1)
    else if c = 0 then .ok 0
    else strcmp cs ds

/-- The closure is the result so far. The child may be the null pointer. -/
def spfsInodeByNameCb (name : List UInt8) : ForAllCb (Option ℕ) := fun result cur => do
  match cur with
  | none => throw .nullDeref
  | some cur =>
    let i ← getInode cur
    match strcmp i.name.val name with
    | .error f => throw f
    | .ok 0 => return (some cur, false)
    | .ok _ => return (result, true)

def spfsInodeByName (env : Env) (parent : ℕ) (child : Dentry) : Kernel (Option ℕ) := do
  let (_, result) ← spfsForAllChildren env (spfsInodeByNameCb child.name) parent none
  return result

/-- The dentry with the inode of its name, or the null pointer. -/
def spfsLookup (env : Env) (parent : ℕ) (dentry : Dentry) : Kernel (Option Dentry) := do
  let dir ← getInode parent
  bugOn (dir.iSb = .null)
  match ← spfsInodeByName env parent dentry with
  | some inode => return some { dentry with dInode := some inode }
  | none => return none

end Spfs
