-- SUMMARY: Constants and records of the source's headers: free list, tree, super block, and inode.
import Spfs.Lib.Bytes

/-!
# Shared records

The records of `spfs.h`, `shared.h`, `sp.h`, `btree.h` and `free_list.h`.
Machine integers are natural numbers; the functions that work on them reduce
modulo the width of the C type where a result can leave it.
-/

namespace Spfs

/-! ## Constants of `spfs.h` -/

def spookyFsSuperMagic : ℕ := 0xDEADBEEF
def spookyFsFlMagic : ℕ := 0xDEADBEEF
def spookyFsBtreeMagic : ℕ := 0xDEADBEEF
def spookyFsFileBlockMagic : ℕ := 0xDEADBEEF
def spookyFsDirBlockMagic : ℕ := 0xDEADBEEF

def spookyFsInitialBlockSize : ℕ := 512

def spookyFsNameMax : ℕ := 256

def spfsRootInodeNo : ℕ := 1

/-! ## Error numbers -/

def ENOENT : ℤ := 2
def EINTR : ℤ := 4
def EIO : ℤ := 5
def ENOMEM : ℤ := 12
def EINVAL : ℤ := 22
def ENAMETOOLONG : ℤ := 36

/-! ## File modes -/

/-- `S_ISREG`: the file type bits say regular file. -/
def sIsReg (mode : ℕ) : Bool := mode / 2 ^ 12 % 16 == 8

/-- `S_ISDIR`: the file type bits say directory. -/
def sIsDir (mode : ℕ) : Bool := mode / 2 ^ 12 % 16 == 4

def S_IFREG : ℕ := 8 * 2 ^ 12
def S_IFDIR : ℕ := 4 * 2 ^ 12
def S_IRWXU : ℕ := 0o700
def S_IRWXG : ℕ := 0o070
def S_IRWXO : ℕ := 0o007
def S_ISGID : ℕ := 0o2000

/-! ## Free list -/

/-- `struct spfs_free_node`: the blocks `[start, start + blocks)` are free. -/
structure FreeNode where
  start : ℕ
  blocks : ℕ
deriving DecidableEq, Repr

/-- `struct spfs_free_list`: the nodes in list order, and the 32-bit running total. -/
structure FreeList where
  blocks : ℕ
  root : List FreeNode
deriving DecidableEq, Repr

/-! ## Tree and super block -/

/-- `struct spfs_btree` without its pointers and lock. -/
structure Btree where
  blockSize : ℕ
  blocks : ℕ
  start : ℕ
deriving DecidableEq, Repr

/-- `struct spfs_super_block` without its locks. -/
structure SuperBlock where
  version : ℕ
  magic : ℕ
  blockSize : ℕ
  btreeOffset : ℕ
  freeListOffset : ℕ
  id : ℕ
  rootId : ℕ
  tree : Btree
  freeList : FreeList
deriving DecidableEq, Repr

/-! ## Inode -/

/-- The name array of an inode, `char name[SPOOKY_FS_NAME_MAX]`. -/
abbrev Name := Bytes 256

/-- An `i_sb` pointer: null, the super block of this file system, or an address
that is neither. -/
inductive SbPtr where
  | null
  | sb
  | wild
deriving DecidableEq, Repr

/-- `struct spfs_inode` with the fields of `struct inode` that the code uses.
`iNew` and `iDirty` are the `I_NEW` and `I_DIRTY` bits of `i_state`, `iHashed` is
the hash linkage, and `lock` says whether the mutex is held. -/
structure SpfsInode where
  iIno : ℕ
  iMode : ℕ
  iUid : ℕ
  iGid : ℕ
  iAtime : ℕ
  iMtime : ℕ
  iCtime : ℕ
  iSize : ℕ
  iNlink : ℕ
  iCount : ℕ
  iNew : Bool
  iDirty : Bool
  iHashed : Bool
  iSb : SbPtr
  lock : Bool
  capacity : ℕ
  start : ℕ
  name : Name
deriving DecidableEq

/-- `spfs_inode_init_once`, the constructor of the slab: everything is zero. -/
def spfsInodeInitOnce : SpfsInode where
  iIno := 0
  iMode := 0
  iUid := 0
  iGid := 0
  iAtime := 0
  iMtime := 0
  iCtime := 0
  iSize := 0
  iNlink := 0
  iCount := 0
  iNew := false
  iDirty := false
  iHashed := false
  iSb := .null
  lock := false
  capacity := 0
  start := 0
  name := ⟨List.replicate 256 0, List.length_replicate⟩

end Spfs
