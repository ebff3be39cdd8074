-- SUMMARY: sp.c: the super block on the device, how it is decoded and checked, and the change of the block size.
import Spfs.Util

/-!
# Super block

`spfs_read_super_block`, `spfs_super_block_init` and `spfs_set_blocksize`. The
super block is read while the device has blocks of the initial size.
-/

namespace Spfs

/-- `kzalloc` of a super block. -/
def SuperBlock.zero : SuperBlock where
  version := 0
  magic := 0
  blockSize := 0
  btreeOffset := 0
  freeListOffset := 0
  id := 0
  rootId := 0
  tree := ⟨0, 0, 0⟩
  freeList := ⟨0, []⟩

/-- `none` where the source returns `-EINVAL`. A super block that was filled in part
is dropped by the caller. -/
def spfsReadSuperBlock (super : SuperBlock) (bSize : ℕ) (b : Block) :
    EStateM Fault ℕ (Option SuperBlock) := do
  let some magic ← spfsSbReadU32 bSize b | return none
  let some version ← spfsSbReadU32 bSize b | return none
  let some blockSize ← spfsSbReadU32 bSize b | return none
  let some id ← spfsSbReadIno bSize b | return none
  let some rootId ← spfsSbReadIno bSize b | return none
  let some btreeOffset ← spfsSbReadSector bSize b | return none
  let some freeListOffset ← spfsSbReadSector bSize b | return none
  return some { super with
    magic := magic, version := version, blockSize := blockSize, id := id, rootId := rootId,
    btreeOffset := btreeOffset, freeListOffset := freeListOffset }

/-- The super block `super` with its persistent fields from the block. -/
def parsedSuper (super : SuperBlock) (b : Block) : SuperBlock :=
  { super with
    magic := beDecode (b.read 0 4)
    version := beDecode (b.read 4 4)
    blockSize := beDecode (b.read 8 4)
    id := beDecode (b.read 12 4)
    rootId := beDecode (b.read 16 4)
    btreeOffset := beDecode (b.read 20 4)
    freeListOffset := beDecode (b.read 24 4) }

theorem run_spfsReadSuperBlock {super : SuperBlock} {bSize : ℕ} {b : Block} (h : 512 ≤ bSize) :
    (spfsReadSuperBlock super bSize b).run 0 = .ok (some (parsedSuper super b)) 28 := by
  simp (disch := omega) only [spfsReadSuperBlock, EStateM.run_bind_match, run_spfsSbReadU32,
    run_spfsSbReadIno, run_spfsSbReadSector, Nat.zero_add, Nat.reduceAdd]
  rfl

def setSuper (super : SuperBlock) : Kernel Unit :=
  modify fun w => { w with sbi := super }

@[simp] theorem run_setSuper (super : SuperBlock) (w : World) :
    (setSuper super).run w = .ok () { w with sbi := super } := rfl

/-- `spfs_super_block_init` on the super block of the mount. -/
def spfsSuperBlockInit (env : Env) (start : ℕ) : Kernel ℤ := do
  if !(← sbBread env start) then
    return - EIO
  let (super, _) ← parseBuf start 0 (spfsReadSuperBlock (← get).sbi)
  let some super := super | do brelse start; return -EINVAL
  setSuper super
  if super.magic ≠ spookyFsSuperMagic then
    brelse start
    return -EINVAL
  if super.blockSize < spookyFsInitialBlockSize then
    brelse start
    return -EINVAL
  brelse start
  return 0

/-- The result of the checks of `spfs_super_block_init`. -/
def superCheck (super : SuperBlock) : ℤ :=
  if super.magic = spookyFsSuperMagic ∧ spookyFsInitialBlockSize ≤ super.blockSize then 0
  else -EINVAL

theorem run_spfsSuperBlockInit {env : Env} (start : ℕ) {w : World}
    (hio : env.ioOk w.time start = true) :
    ∃ w', (spfsSuperBlockInit env start).run w =
        .ok (superCheck (parsedSuper w.sbi (w.disk start))) w' ∧
      OnlyLogs { w with sbi := parsedSuper w.sbi (w.disk start) } w' := by
  have hle := w.le_bSize
  have hparse : (parseBuf start 0 (spfsReadSuperBlock w.sbi)).run (w.addEvent (.bread start true)) =
      .ok (some (parsedSuper w.sbi (w.disk start)), 28) (w.addEvent (.bread start true)) := by
    rw [run_parseBuf]
    simp only [World.addEvent_bSize, World.addEvent_disk, run_spfsReadSuperBlock hle]
  refine ⟨_, ?_, [.brelse start, .bread start true], rfl⟩
  rw [spfsSuperBlockInit, EStateM.run_check_of_true (run_sbBread_ok hio),
    EStateM.run_bind_of_ok (EStateM.run_get _), World.addEvent_sbi, EStateM.run_bind_of_ok hparse]
  simp only [superCheck]
  rw [EStateM.run_bind_of_ok (run_setSuper _ _)]
  by_cases hmagic : (parsedSuper w.sbi (w.disk start)).magic = spookyFsSuperMagic
  · rw [if_neg (not_not.mpr hmagic)]
    by_cases hsize : (parsedSuper w.sbi (w.disk start)).blockSize < spookyFsInitialBlockSize
    · rw [if_pos hsize, if_neg fun h => absurd hsize (Nat.not_lt.mpr h.2)]
      rfl
    · rw [if_neg hsize, if_pos ⟨hmagic, Nat.not_lt.mp hsize⟩]
      rfl
  · rw [if_pos hmagic, if_neg fun h => hmagic h.1]
    rfl

/-- The state once the device is seen in blocks of another size. -/
def World.recut (w : World) (blockSize : ℕ)
    (h : spookyFsInitialBlockSize ≤ blockSize ∧ blockSize < 2 ^ 32) : World :=
  { w with
    bSize := blockSize
    bSize_bounds := h
    disk := cut blockSize fun a => w.disk (a / w.bSize) (a % w.bSize) }

/-- `spfs_set_blocksize`. The kernel takes no size that is smaller than a sector or
larger than a page. -/
def spfsSetBlocksize (env : Env) (blockSize : ℕ) : Kernel ℤ := do
  if h : spookyFsInitialBlockSize ≤ blockSize ∧ blockSize < 2 ^ 32 then
    if env.blocksizeOk blockSize then
      modify (·.recut blockSize h)
      return 0
  return -EINVAL

end Spfs
