-- SUMMARY: sp.c: file extents, and reading and writing of regular files.
import Spfs.Btree.Modify
import Spfs.FreeList

/-!
# Files

The data of a file lies in a chain of extents, each of which starts with a header.
`spfs_write` makes room with at most one new extent and then walks the chain;
`spfs_read` walks the chain too. The bytes that a caller passes are a list, and its
length is `in_len`; what `spfs_read` copies to the caller is part of the result.
-/

namespace Spfs

/-- `struct spfs_file_extent`: the sector of the next extent, the number of blocks and
the number of bytes in use. -/
structure FileExtent where
  next : ℕ
  capacity : ℕ
  length : ℕ
deriving DecidableEq, Repr

def spfsParseFileExtent (bSize : ℕ) (b : Block) : EStateM Fault ℕ (Except ℤ FileExtent) := do
  let some magic ← spfsSbReadU32 bSize b | return .error (-EINVAL)
  let some next ← spfsSbReadSector bSize b | return .error (-EINVAL)
  let some capacity ← spfsSbReadU32 bSize b | return .error (-EINVAL)
  let some length ← spfsSbReadU32 bSize b | return .error (-EINVAL)
  if magic ≠ spookyFsFileBlockMagic then
    return .error (-EINVAL)
  return .ok ⟨next, capacity, length⟩

def spfsMakeFileExtent (in_ : FileExtent) (bSize : ℕ) : EStateM Fault Buf ℤ := do
  if !(← spfsSbWriteU32 bSize spookyFsFileBlockMagic) then return 1
  if !(← spfsSbWriteU32 bSize in_.next) then return 1
  if !(← spfsSbWriteU32 bSize in_.capacity) then return 1
  if !(← spfsSbWriteU32 bSize in_.length) then return 1
  return 0

def spfsSizeofFileExtentHeader : ℕ := 4 + 4 + 4 + 4

/-- The difference is taken in `size_t`. -/
def spfsFileExtentDataBytes (sbi : SuperBlock) (blocks : ℕ) : Kernel ℕ := do
  bugOn (blocks = 0)
  let bytes := blocks * sbi.blockSize % 2 ^ 64
  return (bytes + 2 ^ 64 - spfsSizeofFileExtentHeader) % 2 ^ 64

/-! ## Reading -/

/-- What `spfs_read_file_extent` has left to do: the bytes to skip and to copy, and
those that it copied. -/
structure ReadRest where
  pos : ℕ
  inLen : ℕ
  read : List UInt8

/-- The `do` loop of `spfs_read_file_extent` from the block at `start` on, with
`length` bytes of the extent still unseen. The buffer of `start` was read. -/
def spfsReadFileExtentDo (env : Env) : ℕ → ℕ → ℕ → ℕ → ReadRest → Kernel (ℤ × ReadRest)
  | 0, _, _, _, _ => throw .fuel
  | fuel + 1, start, bhPos, length, rest => do
    let w ← get
    let remaining ← spfsSbRemaining w.bSize bhPos
    let con := min rest.pos (min remaining length)
    let bhPos := bhPos + con
    let rest := { rest with pos := rest.pos - con }
    let length := length - con
    let (length, rest) ← do
      if rest.pos = 0 then
        let remaining ← spfsSbRemaining w.bSize bhPos
        let con := min rest.inLen (min remaining length)
        pure (length - con, { rest with
          inLen := rest.inLen - con
          read := rest.read ++ (w.disk start).read bhPos con })
      else
        pure (length, rest)
    brelse start
    if length > 0 then
      let start := start + 1
      if !(← sbBread env start) then
        return (- EIO, rest)
      spfsReadFileExtentDo env fuel start 0 length rest
    else
      return (rest.read.length, rest)

/-- The result, the sector of the next extent, and what is left to read. The result
counts the bytes of this extent only, so `rest.read` is empty at the call. -/
def spfsReadFileExtent (env : Env) (start : ℕ) (rest : ReadRest) :
    Kernel (ℤ × ℕ × ReadRest) := do
  if !(← sbBread env start) then
    return (- EIO, 0, rest)
  match ← parseBuf start 0 spfsParseFileExtent with
  | (.error res, _) => return (res, 0, rest)
  | (.ok header, bhPos) =>
    let (res, rest) ← spfsReadFileExtentDo env env.fuel start bhPos header.length rest
    return (res, header.next, rest)

/-- The loop `Lit` of `spfs_read`: an error, or the bytes read. -/
def spfsReadLit (env : Env) : ℕ → ℕ → ℕ → ℕ → List UInt8 → Kernel (Except ℤ (List UInt8))
  | _, 0, _, _, read => return .ok read
  | 0, _, _, _, _ => throw .fuel
  | fuel + 1, start, inLen, pos, read => do
    let (res, next, rest) ← spfsReadFileExtent env start ⟨pos, inLen, []⟩
    if res < 0 then
      return .error res
    let read := read ++ rest.read
    if rest.inLen > 0 then
      spfsReadLit env fuel next rest.inLen rest.pos read
    else
      return .ok read

/-- `spfs_read` of file `p`: the result, `*ppos` after the call, and the bytes copied
to the caller. -/
def spfsRead (env : Env) (p inLen ppos : ℕ) : Kernel (ℤ × ℕ × List UInt8) := do
  if inLen = 0 then
    return (0, ppos, [])
  let inode ← getInode p
  if !sIsReg inode.iMode then
    return (-EINVAL, ppos, [])
  let _ ← superOf inode
  mutexLock p
  match ← spfsReadLit env env.fuel inode.start inLen ppos [] with
  | .error res => return (res, ppos, [])
  | .ok read =>
    mutexUnlock p
    return (read.length, ppos + read.length, read)

/-! ## Writing -/

/-- `struct spfs_modify_start`. -/
structure ModifyStart where
  start : ℕ
  capacity : ℕ
deriving DecidableEq, Repr

/-- The capacity of an inode has 32 bits. -/
def spfsModifyStartCb : BtreeModifyCb ModifyStart := fun ctx inode =>
  if !sIsReg inode.iMode then .error .bug
  else .ok (ctx, { inode with start := ctx.start, capacity := ctx.capacity % 2 ^ 32 }, true)

def spfsFileExtentAlloc (env : Env) (blocks : ℕ) : Kernel ℕ := do
  let result ← freeAlloc blocks
  if result ≠ 0 then
    let desc : FileExtent := { next := 0, capacity := blocks % 2 ^ 32, length := 0 }
    bugOn (!(← sbBread env result))
    let (res, _) ← makeBuf result 0 (spfsMakeFileExtent desc)
    if res ≠ 0 then
      return 0
    markBufferDirty result
    brelse result
  return result

/-- The bytes still to be written and how many of the bytes before them are to be
skipped. -/
structure WriteRest where
  buf : List UInt8
  pos : ℕ

/-- `spfs_do_write` into the buffer of sector `s`: the number of bytes written. -/
def spfsDoWrite (s bhPos : ℕ) (rest : WriteRest) : Kernel (ℕ × WriteRest) := do
  let w ← get
  let remaining ← spfsSbRemaining w.bSize bhPos
  let con := min rest.pos remaining
  let pos := rest.pos - con
  let bhPos := bhPos + con
  if pos = 0 then
    let remaining ← spfsSbRemaining w.bSize bhPos
    let con := min rest.buf.length remaining
    modify fun w => w.setBlock s ((w.disk s).write bhPos (rest.buf.take con))
    return (con, ⟨rest.buf.drop con, pos⟩)
  return (0, { rest with pos := pos })

def spfsInSector (sbi : SuperBlock) (pos : ℕ) : Bool := pos < sbi.blockSize

/-- What `spfs_write_file_extent` carries through an extent: the header, whether the
block of the header is dirty, and what is left to write. -/
structure ExtentWrite where
  header : FileExtent
  headDirty : Bool
  rest : WriteRest

/-- `header->length += res` in 32 bits. -/
def FileExtent.grow (header : FileExtent) (n : ℕ) : FileExtent :=
  { header with length := (header.length + n) % 2 ^ 32 }

/-- The `while` loop over the `n` blocks of the extent from `it` on; an error when a
block cannot be read. -/
def spfsWriteFileExtentBlocks (env : Env) : ℕ → ℕ → ExtentWrite → Kernel (Except ℤ ExtentWrite)
  | 0, _, e => return .ok e
  | n + 1, it, e => do
    if e.rest.buf = [] then
      return .ok e
    if spfsInSector (← get).sbi e.rest.pos then
      if !(← sbBread env it) then
        return .error (- EIO)
      let (res, rest) ← spfsDoWrite it 0 e.rest
      if res > 0 then
        markBufferDirty it
      brelse it
      spfsWriteFileExtentBlocks env n (it + 1)
        ⟨e.header.grow res, e.headDirty || decide (res > 0), rest⟩
    else
      let blockSize := (← get).sbi.blockSize
      bugOn (e.rest.pos < blockSize)
      spfsWriteFileExtentBlocks env n (it + 1)
        { e with rest := { e.rest with pos := e.rest.pos - blockSize } }

/-- The result, the header, what is left to write, and what is left of `extra`. The
result counts the bytes in the first block only. -/
def spfsWriteFileExtent (env : Env) (start : ℕ) (rest : WriteRest) (extra : ℕ) :
    Kernel (ℤ × FileExtent × WriteRest × ℕ) := do
  if !(← sbBread env start) then
    return (- EIO, ⟨0, 0, 0⟩, rest, extra)
  match ← parseBuf start 0 spfsParseFileExtent with
  | (.error res, _) => return (res, ⟨0, 0, 0⟩, rest, extra)
  | (.ok header, headPos) =>
    let link := header.next = 0 ∧ extra ≠ 0
    let header := if link then { header with next := extra } else header
    let extra := if link then 0 else extra
    let (written, rest) ← spfsDoWrite start headPos rest
    match ← spfsWriteFileExtentBlocks env (header.capacity - 1) (start + 1)
        ⟨header.grow written, decide link || decide (written > 0), rest⟩ with
    | .error res => return (res, header, rest, extra)
    | .ok e =>
      if e.headDirty then
        let (res, _) ← makeBuf start 0 (spfsMakeFileExtent e.header)
        bugOn (res ≠ 0)
        markBufferDirty start
      brelse start
      return (written, e.header, e.rest, extra)

/-- `spfs_blocks_for`. The block size is not 0. -/
def spfsBlocksFor (blockSize bytes : ℕ) : ℕ :=
  if h : bytes = 0 ∨ blockSize = 0 then 0
  else spfsBlocksFor blockSize (bytes - min bytes blockSize) + 1
termination_by bytes
decreasing_by omega

/-- The sums and the difference are taken in `size_t`. -/
def spfsCalcExtraBlocks (blockSize capacity inPos inLen : ℕ) : ℕ :=
  let end_ := (inPos + inLen) % 2 ^ 64
  if end_ ≤ capacity then 0
  else
    let extraBytes := (end_ - capacity + spfsSizeofFileExtentHeader) % 2 ^ 64
    spfsBlocksFor blockSize extraBytes

/-- The result, and the new extent when it is not the first one. -/
def spfsEnsureCapacity (env : Env) (p inPos inLen : ℕ) : Kernel (ℤ × ℕ) := do
  let inode ← getInode p
  let sbi ← followSb inode
  let extraBlocks := spfsCalcExtraBlocks sbi.blockSize inode.capacity inPos inLen
  if extraBlocks = 0 then
    return (0, 0)
  let extra ← spfsFileExtentAlloc env extraBlocks
  if extra = 0 then
    return (- EIO, extra)
  let start := if inode.start = 0 then extra else inode.start
  let extra := if inode.start = 0 then 0 else extra
  modifyInode p fun i => { i with start := start }
  let bytes ← spfsFileExtentDataBytes sbi extraBlocks
  modifyInode p fun i => { i with capacity := (i.capacity + bytes) % 2 ^ 32 }
  let inode ← getInode p
  let ctx : ModifyStart := { start := inode.start, capacity := inode.capacity }
  let (res, _) ← spfsBtreeModify env inode.iIno ctx spfsModifyStartCb
  return (res, extra)

/-- The loop `Lit` of `spfs_write`: an error, or the number of bytes written and what is
left of the bytes and of `extra`. -/
def spfsWriteLit (env : Env) : ℕ → ℕ → WriteRest → ℕ → ℤ →
    Kernel (Except ℤ (ℤ × WriteRest × ℕ))
  | _, 0, rest, extra, written => return .ok (written, rest, extra)
  | 0, _, _, _, _ => throw .fuel
  | fuel + 1, start, rest, extra, written => do
    let (ires, header, rest, extra) ← spfsWriteFileExtent env start rest extra
    if ires ≠ 0 then
      return .error (- EIO)
    let written := written + ires
    if rest.buf ≠ [] then
      spfsWriteLit env fuel header.next rest extra written
    else
      return .ok (written, rest, extra)

/-- `spfs_write` to file `p`: the result, and `*ppos` after the call. The lock is still
held when the call returns early. -/
def spfsWrite (env : Env) (p : ℕ) (inBuf : List UInt8) (ppos : ℕ) : Kernel (ℤ × ℕ) := do
  if inBuf.length = 0 then
    return (0, ppos)
  let inode ← getInode p
  if !sIsReg inode.iMode then
    return (-EINVAL, ppos)
  if ← mutexLockInterruptible env p then
    return (- EINTR, ppos)
  let origFileSz := inode.iSize
  let ppos := if ppos > origFileSz then origFileSz else ppos
  let (res, extra) ← spfsEnsureCapacity env p ppos inBuf.length
  if res ≠ 0 then
    return (res, ppos)
  let inode ← getInode p
  match ← spfsWriteLit env env.fuel inode.start ⟨inBuf, ppos⟩ extra 0 with
  | .error res => return (res, ppos)
  | .ok (written, rest, extra) =>
    bugOn (extra ≠ 0)
    bugOn (rest.buf ≠ [])
    modifyInode p fun i => { i with iSize := (origFileSz + written).toNat }
    mutexUnlock p
    return (written, (ppos + written).toNat)

end Spfs
