-- SUMMARY: mkfs.spfs.h and the system calls of the two user-space programs on an open image.
import Spfs.Kernel

/-!
# User-space programs

`mkfs` and `fsck` work on an open file. Every write completes in full and a read
is short only at the end of the file.
-/

namespace Spfs

/-- `struct spfs_super_block_wire` without its member `dummy`. -/
structure SuperBlockWire where
  magic : ℕ
  version : ℕ
  blockSize : ℕ
  id : ℕ
  rootId : ℕ
  btreeOffset : ℕ
  freeListOffset : ℕ
  blocks : ℕ
deriving DecidableEq, Repr

/-- An open file: its content and size, the block size that `fstat` reports, the
file offset, and the free entries that the program printed, newest first. -/
structure OpenFile where
  data : Block
  size : ℕ
  blksize : ℕ
  pos : ℕ
  printed : List FreeNode

abbrev User := EStateM Fault OpenFile

namespace OpenFile

def seek (fd : OpenFile) (pos : ℕ) : OpenFile := { fd with pos := pos }

def print (fd : OpenFile) (entry : FreeNode) : OpenFile :=
  { fd with printed := entry :: fd.printed }

def append (fd : OpenFile) (l : List UInt8) : OpenFile :=
  { fd with
    data := fd.data.write fd.pos l
    size := max fd.size (fd.pos + l.length)
    pos := fd.pos + l.length }

@[simp] theorem seek_data (fd : OpenFile) (pos : ℕ) : (fd.seek pos).data = fd.data := rfl
@[simp] theorem seek_size (fd : OpenFile) (pos : ℕ) : (fd.seek pos).size = fd.size := rfl
@[simp] theorem seek_pos (fd : OpenFile) (pos : ℕ) : (fd.seek pos).pos = pos := rfl
@[simp] theorem seek_printed (fd : OpenFile) (pos : ℕ) : (fd.seek pos).printed = fd.printed := rfl
@[simp] theorem seek_seek (fd : OpenFile) (pos pos' : ℕ) :
    (fd.seek pos).seek pos' = fd.seek pos' := rfl

@[simp] theorem print_data (fd : OpenFile) (e : FreeNode) : (fd.print e).data = fd.data := rfl
@[simp] theorem print_size (fd : OpenFile) (e : FreeNode) : (fd.print e).size = fd.size := rfl
@[simp] theorem print_pos (fd : OpenFile) (e : FreeNode) : (fd.print e).pos = fd.pos := rfl
@[simp] theorem print_printed (fd : OpenFile) (e : FreeNode) :
    (fd.print e).printed = e :: fd.printed := rfl

@[simp] theorem append_data (fd : OpenFile) (l : List UInt8) :
    (fd.append l).data = fd.data.write fd.pos l := rfl
@[simp] theorem append_pos (fd : OpenFile) (l : List UInt8) :
    (fd.append l).pos = fd.pos + l.length := rfl
@[simp] theorem append_blksize (fd : OpenFile) (l : List UInt8) :
    (fd.append l).blksize = fd.blksize := rfl

@[simp] theorem append_nil (fd : OpenFile) (h : fd.pos ≤ fd.size) : fd.append [] = fd := by
  simp [append, h]

/-- Two writes one after the other are one. -/
theorem append_append (fd : OpenFile) (l l' : List UInt8) :
    (fd.append l).append l' = fd.append (l ++ l') := by
  simp only [append, ← Block.write_append, List.length_append, Nat.add_assoc]
  congr 1
  omega

/-- A write that ends inside the file does not change its size. -/
theorem append_size {fd : OpenFile} {l : List UInt8} (h : fd.pos + l.length ≤ fd.size) :
    (fd.append l).size = fd.size :=
  Nat.max_eq_left h

end OpenFile

/-- `lseek` with `SEEK_SET`. -/
def lseekSet (pos : ℕ) : User Unit :=
  modify (·.seek pos)

@[simp] theorem run_lseekSet (pos : ℕ) (fd : OpenFile) :
    (lseekSet pos).run fd = .ok () (fd.seek pos) := rfl

/-- `lseek` by 0 with `SEEK_CUR`. -/
def lseekCur : User ℕ :=
  return (← get).pos

@[simp] theorem run_lseekCur (fd : OpenFile) : lseekCur.run fd = .ok fd.pos fd := rfl

/-- `write`: the number of bytes written. -/
def write (l : List UInt8) : User ℕ := do
  modify (·.append l)
  return l.length

@[simp] theorem run_write (l : List UInt8) (fd : OpenFile) :
    (write l).run fd = .ok l.length (fd.append l) := rfl

/-- `read`: at most `len` bytes, fewer at the end of the file. -/
def read (len : ℕ) : User (List UInt8) := do
  let fd ← get
  let l := fd.data.read fd.pos (min len (fd.size - fd.pos))
  set (fd.seek (fd.pos + l.length))
  return l

theorem run_read {len : ℕ} {fd : OpenFile} (h : fd.pos + len ≤ fd.size) :
    (read len).run fd = .ok (fd.data.read fd.pos len) (fd.seek (fd.pos + len)) := by
  have hmin : min len (fd.size - fd.pos) = len := by omega
  rw [read, EStateM.run_bind_of_ok (EStateM.run_get _), hmin]
  simp only [Block.length_read]
  rfl

theorem run_read_short {len : ℕ} {fd : OpenFile} (h : fd.size < fd.pos + len) (hlen : 0 < len) :
    ∃ l pos, l.length < len ∧ (read len).run fd = .ok l (fd.seek pos) := by
  refine ⟨_, _, ?_, rfl⟩
  rw [Block.length_read]
  omega

end Spfs
