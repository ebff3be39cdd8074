-- SUMMARY: mkfs.spfs.c: the program, and the image that it writes to a device.
import Spfs.Wire

/-!
# mkfs

`mkfs` writes the super block over all of block 0 and a free list block with one
entry to the start of block 1. Everything else on the device stays what it was.
`mkfsMain` is the program, `mkfs` the image cut into blocks; `mkfsMain_image`
connects the two.
-/

namespace Spfs

/-! ## The program -/

def mkfsBytesOf (s : OpenFile) (blocks : ℕ) : ℕ := s.blksize * blocks

/-- `mkfs_block_size`: the geometry of the device; `none` where the source returns 1.
The size of a file is not negative, which the source checks too. -/
def mkfsBlockSize (super : SuperBlockWire) : User (Option SuperBlockWire) := do
  let headerBlocks := 2
  let s ← get
  let blockSize := s.blksize % 2 ^ 32
  let start := mkfsBytesOf s headerBlocks
  if s.size < start then
    return none
  let length := s.size - start
  if blockSize = 0 then
    throw .sigfpe
  let blocks := length / blockSize
  if blocks = 0 then
    return none
  return some { super with blockSize := blockSize, blocks := blocks }

def zeroFill : ℕ → User ℤ
  | 0 => return 0
  | bytes + 1 => do
    let ret ← write [0]
    if ret ≠ 1 then
      return ret
    zeroFill bytes

/-- `mkfs_write_u32`; the buffer is the bytes written to it so far. -/
def mkfsWriteU32 (buffer : List UInt8) (value : ℕ) : List UInt8 :=
  buffer ++ beEncode 4 value

def superBlock (super : SuperBlockWire) : User ℤ := do
  let buffer := mkfsWriteU32 [] super.magic
  let buffer := mkfsWriteU32 buffer super.version
  let buffer := mkfsWriteU32 buffer super.blockSize
  let buffer := mkfsWriteU32 buffer super.id
  let buffer := mkfsWriteU32 buffer super.rootId
  let buffer := mkfsWriteU32 buffer super.btreeOffset
  let buffer := mkfsWriteU32 buffer super.freeListOffset
  let ret ← write buffer
  if ret ≠ buffer.length then
    return ret
  let zeroLen := (super.blockSize + 2 ^ 64 - buffer.length) % 2 ^ 64
  zeroFill zeroLen

/-- `mkfs_write_free_list_header` with the magic, the entries and the next of a header. -/
def mkfsWriteFreeListHeader (buffer : List UInt8) (magic entries next : ℕ) : List UInt8 :=
  mkfsWriteU32 (mkfsWriteU32 (mkfsWriteU32 buffer magic) entries) next

def mkfsWriteFreeEntry (buffer : List UInt8) (entry : FreeNode) : List UInt8 :=
  mkfsWriteU32 (mkfsWriteU32 buffer entry.start) entry.blocks

def freeList (super : SuperBlockWire) : User ℤ := do
  let entry : FreeNode := { start := 2, blocks := super.blocks % 2 ^ 32 }
  let buffer := mkfsWriteFreeListHeader [] spookyFsFlMagic 1 0
  let buffer := mkfsWriteFreeEntry buffer entry
  let cur ← lseekCur
  if cur ≠ super.blockSize then
    return 1
  let wres ← write buffer
  if wres ≠ buffer.length then
    return 1
  return 0

/-- The super block that `main` starts from. -/
def mkfsSuper : SuperBlockWire where
  version := 1
  magic := spookyFsSuperMagic
  blockSize := 0
  id := spfsRootInodeNo
  rootId := spfsRootInodeNo
  btreeOffset := 0
  freeListOffset := 1
  blocks := 0

/-- `main` on the opened device. -/
def mkfsMain : User ℤ := do
  let some super ← mkfsBlockSize mkfsSuper | return 1
  if (← superBlock super) ≠ 0 then
    return 1
  if (← freeList super) ≠ 0 then
    return 1
  return 0

/-! ## The image -/

/-- The fields that `super_block` writes: magic, version, block size, id, root id,
tree, and free list. -/
def mkfsSuperBlockFields (blksize : ℕ) : List (List UInt8) :=
  [beEncode 4 spookyFsSuperMagic, beEncode 4 1, beEncode 4 blksize, beEncode 4 spfsRootInodeNo,
    beEncode 4 spfsRootInodeNo, beEncode 4 0, beEncode 4 1]

/-- `super_block`: the fields, and zeros up to the end of the block. -/
def mkfsSuperBlock (blksize : ℕ) (old : Block) : Block :=
  (old.write 0 (List.replicate blksize 0)).write 0 (mkfsSuperBlockFields blksize).flatten

/-- The fields that `free_list` writes: magic, entries, and next of the header, start
and length of the only entry. -/
def mkfsFreeListFields (blocks : ℕ) : List (List UInt8) :=
  [beEncode 4 spookyFsFlMagic, beEncode 4 1, beEncode 4 0, beEncode 4 2, beEncode 4 blocks]

def mkfsFreeList (blocks : ℕ) (old : Block) : Block :=
  old.write 0 (mkfsFreeListFields blocks).flatten

/-- The device after `mkfs`, cut into blocks of its size. -/
def mkfs (blksize blocks : ℕ) (device : ℕ → Block) : ℕ → Block := fun s =>
  if s = 0 then mkfsSuperBlock blksize (device 0)
  else if s = 1 then mkfsFreeList blocks (device 1)
  else device s

/-- The bytes of a super block: the fields and the zeros behind them. -/
def superBlockBytes (blksize : ℕ) : List UInt8 :=
  (mkfsSuperBlockFields blksize).flatten ++ List.replicate (blksize - 28) 0

theorem length_superBlockBytes {blksize : ℕ} (h : 512 ≤ blksize) :
    (superBlockBytes blksize).length = blksize := by
  simp [superBlockBytes, mkfsSuperBlockFields]
  omega

/-- Zeros over the whole block and then the fields are the fields and zeros behind them. -/
theorem mkfsSuperBlock_eq {blksize : ℕ} (h : 512 ≤ blksize) (old : Block) :
    mkfsSuperBlock blksize old = old.write 0 (superBlockBytes blksize) := by
  have hlen : (mkfsSuperBlockFields blksize).flatten.length = 28 := by simp [mkfsSuperBlockFields]
  have hzero : List.replicate blksize (0 : UInt8) =
      List.replicate 28 0 ++ List.replicate (blksize - 28) 0 := by
    rw [List.replicate_append_replicate]
    congr 1
    omega
  rw [mkfsSuperBlock, superBlockBytes, hzero, Block.write_append_write (by simp [hlen])]

theorem run_zeroFill (n : ℕ) (fd : OpenFile) (h : fd.pos ≤ fd.size) :
    (zeroFill n).run fd = .ok 0 (fd.append (List.replicate n 0)) := by
  induction n generalizing fd with
  | zero => rw [List.replicate_zero, OpenFile.append_nil fd h]; rfl
  | succ n ih =>
    have hpos : (fd.append [0]).pos ≤ (fd.append [0]).size := Nat.le_max_right _ _
    rw [zeroFill, EStateM.run_bind_of_ok (run_write _ _), if_neg (by simp), ih _ hpos,
      OpenFile.append_append]
    rfl

/-- The super block that is written on a device of the given geometry. -/
def superFor (blksize blocks : ℕ) : SuperBlockWire :=
  { mkfsSuper with blockSize := blksize, blocks := blocks }

theorem run_mkfsBlockSize {fd fd' : OpenFile} {super : SuperBlockWire}
    (hblk : fd.blksize < 2 ^ 32) (h : (mkfsBlockSize mkfsSuper).run fd = .ok (some super) fd') :
    fd' = fd ∧ 2 * fd.blksize ≤ fd.size ∧ fd.blksize ≠ 0 ∧
      (fd.size - 2 * fd.blksize) / fd.blksize ≠ 0 ∧
      super = superFor fd.blksize ((fd.size - 2 * fd.blksize) / fd.blksize) := by
  rw [mkfsBlockSize, EStateM.run_bind_of_ok (EStateM.run_get _)] at h
  simp only [mkfsBytesOf, Nat.mod_eq_of_lt hblk, Nat.mul_comm fd.blksize 2] at h
  split at h
  · cases h
  split at h
  · cases h
  simp only [EStateM.run_ite] at h
  split at h
  · cases h
  cases h
  exact ⟨rfl, by omega, ‹_›, ‹_›, rfl⟩

theorem run_superBlock {blksize blocks : ℕ} {fd : OpenFile}
    (hblk : 512 ≤ blksize) (hblk' : blksize < 2 ^ 32) :
    (superBlock (superFor blksize blocks)).run fd = .ok 0 (fd.append (superBlockBytes blksize)) := by
  have hbuf : mkfsWriteU32 (mkfsWriteU32 (mkfsWriteU32 (mkfsWriteU32 (mkfsWriteU32
      (mkfsWriteU32 (mkfsWriteU32 [] spookyFsSuperMagic) 1) blksize) spfsRootInodeNo)
      spfsRootInodeNo) 0) 1 = (mkfsSuperBlockFields blksize).flatten := by
    simp [mkfsWriteU32, mkfsSuperBlockFields]
  have hlen : (mkfsSuperBlockFields blksize).flatten.length = 28 := by simp [mkfsSuperBlockFields]
  have hzero : (blksize + 2 ^ 64 - 28) % 2 ^ 64 = blksize - 28 := by omega
  simp only [superBlock, superFor, mkfsSuper, hbuf]
  rw [EStateM.run_bind_of_ok (run_write _ _), if_neg (by simp), hlen, hzero,
    run_zeroFill _ _ (Nat.le_max_right _ _), OpenFile.append_append]
  rfl

theorem run_freeList {blksize blocks : ℕ} {fd : OpenFile} (hpos : fd.pos = blksize) :
    (freeList (superFor blksize blocks)).run fd =
      .ok 0 (fd.append (mkfsFreeListFields blocks).flatten) := by
  have hbuf : mkfsWriteFreeEntry (mkfsWriteFreeListHeader [] spookyFsFlMagic 1 0)
      ⟨2, blocks % 2 ^ 32⟩ = (mkfsFreeListFields blocks).flatten := by
    have hcut : beEncode 4 (blocks % 2 ^ 32) = beEncode 4 blocks := beEncode_mod 4 blocks
    simp only [mkfsWriteFreeEntry, mkfsWriteFreeListHeader, mkfsWriteU32, mkfsFreeListFields, hcut]
    simp
  simp only [freeList, superFor, hbuf]
  rw [EStateM.run_bind_of_ok (run_lseekCur _), if_neg (by simp [hpos]),
    EStateM.run_bind_of_ok (run_write _ _), if_neg (by simp)]
  rfl

/-- A device of three blocks is large enough. -/
theorem mkfsMain_exits_zero (fd : OpenFile) (hpos : fd.pos = 0) (hblk : 512 ≤ fd.blksize)
    (hblk' : fd.blksize < 2 ^ 32) (hsize : 3 * fd.blksize ≤ fd.size) :
    ∃ fd', mkfsMain.run fd = .ok 0 fd' := by
  have hblocks : (fd.size - 2 * fd.blksize) / fd.blksize ≠ 0 := by
    have : 0 < (fd.size - 2 * fd.blksize) / fd.blksize := Nat.div_pos (by omega) (by omega)
    omega
  have hgeometry : (mkfsBlockSize mkfsSuper).run fd =
      .ok (some (superFor fd.blksize ((fd.size - 2 * fd.blksize) / fd.blksize))) fd := by
    rw [mkfsBlockSize, EStateM.run_bind_of_ok (EStateM.run_get _)]
    simp only [mkfsBytesOf, Nat.mod_eq_of_lt hblk', Nat.mul_comm fd.blksize 2]
    rw [if_neg (by omega), if_neg (by omega)]
    simp only [EStateM.run_ite]
    rw [if_neg hblocks]
    rfl
  have hpos' : (fd.append (superBlockBytes fd.blksize)).pos = fd.blksize := by
    simp [hpos, length_superBlockBytes hblk]
  rw [mkfsMain, EStateM.run_bind_of_ok hgeometry]
  dsimp only
  rw [EStateM.run_bind_of_ok (run_superBlock hblk hblk'), if_neg (by simp),
    EStateM.run_bind_of_ok (run_freeList hpos'), if_neg (by simp)]
  exact ⟨_, rfl⟩

/-- A run that exits with 0 wrote the super block and the free list and nothing else. -/
theorem run_mkfsMain {fd fd' : OpenFile} (hpos : fd.pos = 0) (hblk : 512 ≤ fd.blksize)
    (hblk' : fd.blksize < 2 ^ 32) (h : mkfsMain.run fd = .ok 0 fd') :
    3 * fd.blksize ≤ fd.size ∧ fd'.size = fd.size ∧
      fd'.data = (fd.data.write 0 (superBlockBytes fd.blksize)).write fd.blksize
        (mkfsFreeListFields ((fd.size - 2 * fd.blksize) / fd.blksize)).flatten := by
  obtain ⟨super, fd₁, h₁, h⟩ := EStateM.run_bind_eq_ok.mp h
  cases super with
  | none => cases h
  | some super =>
    obtain ⟨rfl, hsize, hne, hblocks, rfl⟩ := run_mkfsBlockSize hblk' h₁
    have hthree : 3 * fd₁.blksize ≤ fd₁.size := by
      have := Nat.pos_of_ne_zero hblocks
      have := (Nat.one_le_div_iff (Nat.pos_of_ne_zero hne)).mp this
      omega
    have hlen := length_superBlockBytes hblk
    have hflen : ∀ blocks, (mkfsFreeListFields blocks).flatten.length = 20 := by
      simp [mkfsFreeListFields]
    have hpos' : (fd₁.append (superBlockBytes fd₁.blksize)).pos = fd₁.blksize := by
      simp [hpos, hlen]
    simp only at h
    rw [EStateM.run_bind_of_ok (run_superBlock hblk hblk'), if_neg (by simp),
      EStateM.run_bind_of_ok (run_freeList hpos'), if_neg (by simp)] at h
    cases h
    refine ⟨hthree, ?_, ?_⟩
    · rw [OpenFile.append_size, OpenFile.append_size]
      · rw [hpos, hlen]
        omega
      · rw [OpenFile.append_size (by rw [hpos, hlen]; omega), hpos', hflen]
        omega
    · rw [OpenFile.append_data, OpenFile.append_data, hpos', hpos]

/-- The image that the program leaves, block by block. -/
theorem mkfsMain_image {fd fd' : OpenFile} (hpos : fd.pos = 0) (hblk : 512 ≤ fd.blksize)
    (hblk' : fd.blksize < 2 ^ 32) (h : mkfsMain.run fd = .ok 0 fd') (s i : ℕ)
    (hi : i < fd.blksize) :
    cut fd.blksize fd'.data s i =
      mkfs fd.blksize ((fd.size - 2 * fd.blksize) / fd.blksize) (cut fd.blksize fd.data) s i := by
  obtain ⟨-, -, hdata⟩ := run_mkfsMain hpos hblk hblk' h
  have hflen : (mkfsFreeListFields ((fd.size - 2 * fd.blksize) / fd.blksize)).flatten.length = 20 := by
    simp [mkfsFreeListFields]
  have hlen := length_superBlockBytes hblk
  rw [cut, hdata]
  match s with
  | 0 =>
    rw [Nat.zero_mul, Nat.zero_add, Block.write_apply_of_lt hi, mkfs, if_pos rfl,
      mkfsSuperBlock_eq hblk]
    have hin : i < (superBlockBytes fd.blksize).length := by omega
    rw [Block.write_zero_apply hin, Block.write_zero_apply hin]
  | 1 =>
    rw [mkfs, if_neg (by decide), if_pos rfl, mkfsFreeList, Nat.one_mul]
    rcases Nat.lt_or_ge i 20 with hin | hin
    · have hin' := Nat.lt_of_lt_of_eq hin hflen.symm
      rw [Block.write_apply hin', Block.write_zero_apply hin']
    · rw [Block.write_apply_of_ge (by omega), Block.write_apply_of_ge (by omega),
        Block.write_apply_of_ge (by omega), cut, Nat.one_mul]
  | s + 2 =>
    have hfar : 2 * fd.blksize ≤ (s + 2) * fd.blksize := Nat.mul_le_mul_right _ (by omega)
    rw [mkfs, if_neg (by omega), if_neg (by omega), cut, Block.write_apply_of_ge (by omega),
      Block.write_apply_of_ge (by omega)]

/-- A mounted device of 100 data blocks that was zeroed and given to `mkfs`, before
anything was stored on it. -/
def freshWorld : World where
  bSize := 4096
  bSize_bounds := by decide
  disk := mkfs 4096 100 fun _ _ => 0
  log := []
  sbi :=
    { version := 1
      magic := spookyFsSuperMagic
      blockSize := 4096
      btreeOffset := 0
      freeListOffset := 1
      id := 1
      rootId := spfsRootInodeNo
      tree := ⟨4096, 1, 0⟩
      freeList := ⟨100, [⟨2, 100⟩]⟩ }
  inodes := fun _ => none
  slab := []

/-- A regular file with the given id. -/
def plainFile (ino : ℕ) : SpfsInode :=
  { spfsInodeInitOnce with iIno := ino, iMode := 8 * 2 ^ 12, iSb := .sb }

end Spfs
