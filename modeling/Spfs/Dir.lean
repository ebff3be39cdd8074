-- SUMMARY: sp.c: directory blocks, adding a child to a directory, and the traversal of its children.
import Spfs.FreeList
import Spfs.Inode

/-!
# Directories

A directory is a chain of blocks, each with a header and the ids of children behind it.
The writer gives a child 8 bytes and fills in 4 of them. The reader takes every 4 bytes
that are not zero for a child.
-/

namespace Spfs

/-- `struct spfs_dir_block`: the sector of the next block and the number of children. -/
structure DirBlock where
  next : ℕ
  children : ℕ
deriving DecidableEq, Repr

/-- One of the errors is positive. -/
def spfsParseDirBlock (bSize : ℕ) (b : Block) : EStateM Fault ℕ (Except ℤ DirBlock) := do
  let some magic ← spfsSbReadU32 bSize b | return .error (-EINVAL)
  let some next ← spfsSbReadSector bSize b | return .error (-EINVAL)
  let some children ← spfsSbReadU32 bSize b | return .error EINVAL
  if magic ≠ spookyFsDirBlockMagic then
    return .error (-EINVAL)
  return .ok ⟨next, children⟩

def spfsMakeDirBlock (block : DirBlock) (bSize : ℕ) : EStateM Fault Buf ℤ := do
  if !(← spfsSbWriteU32 bSize spookyFsDirBlockMagic) then return -EINVAL
  if !(← spfsSbWriteU32 bSize block.next) then return -EINVAL
  if !(← spfsSbWriteU32 bSize block.children) then return EINVAL
  return 0

def spfsDirIsFull (block : DirBlock) : Bool := block.children == 100

/-! ## Adding a child -/

/-- Write the id to slot `idx` of the block `s`. -/
def spfsDirWriteChild (s start idx child : ℕ) : Kernel ℤ := do
  let sz := 8
  let offset := start + idx * sz
  let remaining ← spfsSbRemaining (← get).bSize offset
  if remaining < sz then
    return - EIO
  let (ok, _) ← makeBuf s offset fun bSize => spfsSbWriteU32 bSize child
  if !ok then
    return - EIO
  return 0

/-- A new block and the position behind its header; sector 0 when there is none. A block
whose buffer cannot be had is lost. -/
def spfsDirBlockAlloc (env : Env) : Kernel (ℕ × ℕ) := do
  let result ← freeAlloc 1
  if result ≠ 0 then
    if !(← sbBread env result) then
      return (0, 0)
    let (res, bhPos) ← makeBuf result 0 (spfsMakeDirBlock ⟨0, 0⟩)
    if res ≠ 0 then
      return (0, bhPos)
    return (result, bhPos)
  return (0, 0)

/-- Put the child in the next slot and count it in the header. Neither result is used. -/
def addToBlock (s bhPos : ℕ) (block : DirBlock) (child : ℕ) : Kernel Unit := do
  let _ ← spfsDirWriteChild s bhPos block.children child
  let _ ← makeBuf s 0 (spfsMakeDirBlock { block with children := (block.children + 1) % 2 ^ 32 })
  markBufferDirty s

/-- The loop `Lit` of `spfs_add_child`. A new block becomes the start of the directory,
whatever the start was. -/
def spfsAddChildLit (env : Env) (p child : ℕ) : ℕ → ℕ → Kernel ℤ
  | _, 0 => do
    let (start, bhPos) ← spfsDirBlockAlloc env
    modifyInode p fun i => { i with start := start }
    if start = 0 then
      return -EINVAL
    addToBlock start bhPos ⟨0, 0⟩ child
    brelse start
    return 0
  | 0, _ => throw .fuel
  | fuel + 1, start => do
    if !(← sbBread env start) then
      return - EIO
    match ← parseBuf start 0 spfsParseDirBlock with
    | (.error _, _) => return -EINVAL
    | (.ok block, bhPos) =>
      if !spfsDirIsFull block then
        addToBlock start bhPos block child
        brelse start
        return 0
      brelse start
      spfsAddChildLit env p child fuel block.next

/-- `spfs_add_child` to directory `p`. The child is given by its id, which is all that is
used of it. -/
def spfsAddChild (env : Env) (p child : ℕ) : Kernel ℤ := do
  mutexLock p
  modifyInode p fun i => { i with capacity := (i.capacity + 1) % 2 ^ 32 }
  markInodeDirty p
  let parent ← getInode p
  let res ← spfsAddChildLit env p child env.fuel parent.start
  mutexUnlock p
  return res

/-! ## The traversal -/

/-- `for_all_cb`: it gets the closure and a child, which may be the null pointer, and
says whether to go on. -/
abbrev ForAllCb (γ : Type) := γ → Option ℕ → Kernel (γ × Bool)

section Traversal

variable {γ : Type} (env : Env) (f : ForAllCb γ)

/-- The `while` loop over the words of block `s`, with a result where the source jumps to
`Lunlock`. A round moves on by 4 bytes, so as many rounds as there are bytes are enough. -/
def spfsForAllChildrenWhile (s children : ℕ) : ℕ → ℕ → ℕ → γ → Kernel (Option ℤ × γ)
  | 0, _, _, _ => throw .fuel
  | n + 1, i, bhPos, closure => do
    if i < children then
      match ← parseBuf s bhPos spfsSbReadIno with
      | (none, _) => return (some (-EINVAL), closure)
      | (some curIno, bhPos) =>
        if curIno = 0 then
          spfsForAllChildrenWhile s children n i bhPos closure
        else
          match ← spfsInodeById env curIno with
          | .error _ => spfsForAllChildrenWhile s children n (i + 1) bhPos closure
          | .ok curChild =>
            let (closure, more) ← f closure curChild
            if !more then
              brelse s
              return (some 0, closure)
            spfsForAllChildrenWhile s children n (i + 1) bhPos closure
    else
      return (none, closure)

/-- The loop `Lit` over the blocks of the directory. -/
def spfsForAllChildrenLit : ℕ → ℕ → γ → Kernel (ℤ × γ)
  | _, 0, closure => return (0, closure)
  | 0, _, _ => throw .fuel
  | fuel + 1, childList, closure => do
    if !(← sbBread env childList) then
      return (- EIO, closure)
    match ← parseBuf childList 0 spfsParseDirBlock with
    | (.error res, _) => return (res, closure)
    | (.ok block, bhPos) =>
      let w ← get
      match ← spfsForAllChildrenWhile env f childList block.children w.bSize 0 bhPos closure with
      | (some res, closure) => return (res, closure)
      | (none, closure) =>
        brelse childList
        spfsForAllChildrenLit fuel block.next closure

theorem spfsForAllChildrenLit_zero (fuel : ℕ) (closure : γ) :
    spfsForAllChildrenLit env f fuel 0 closure = pure (0, closure) := by
  cases fuel <;> rfl

/-- `spfs_for_all_children` of directory `p`, with the closure after it. -/
def spfsForAllChildren (p : ℕ) (closure : γ) : Kernel (ℤ × γ) := do
  let parent ← getInode p
  let _ ← superOf parent
  if !sIsDir parent.iMode then
    return (-EINVAL, closure)
  mutexLock p
  let r ← spfsForAllChildrenLit env f env.fuel parent.start closure
  mutexUnlock p
  return r

end Traversal

/-! ## Headers -/

def dirMagic (b : Block) : ℕ := beDecode (b.read 0 4)

/-- The header that a block starts with. -/
def parsedDir (b : Block) : DirBlock := ⟨beDecode (b.read 4 4), beDecode (b.read 8 4)⟩

/-- The fields of a header in the order of their places. -/
def dirFields (block : DirBlock) : List (List UInt8) :=
  [beEncode 4 spookyFsDirBlockMagic, beEncode 4 block.next, beEncode 4 block.children]

/-- The block `b` after the header was written to it. -/
def withDir (block : DirBlock) (b : Block) : Block := b.write 0 (dirFields block).flatten

/-- The header as the words that are stored. -/
def DirBlock.words (block : DirBlock) : List ℕ := [spookyFsDirBlockMagic, block.next, block.children]

/-- The fields of a header have the width of their places. -/
structure DirBlock.Fits (block : DirBlock) : Prop where
  next : block.next < 2 ^ 32
  children : block.children < 2 ^ 32

/-- The block starts with the header. -/
structure DirAt (b : Block) (block : DirBlock) : Prop where
  magic : dirMagic b = spookyFsDirBlockMagic
  eq : parsedDir b = block

section Headers

variable {bSize : ℕ} {b : Block} {block : DirBlock}

theorem dirAt_iff : DirAt b block ↔ dirMagic b = spookyFsDirBlockMagic ∧ parsedDir b = block :=
  ⟨fun h => ⟨h.magic, h.eq⟩, fun h => ⟨h.1, h.2⟩⟩

theorem run_spfsParseDirBlock_of_le (h : 12 ≤ bSize) :
    (spfsParseDirBlock bSize b).run 0 =
      .ok (if dirMagic b = spookyFsDirBlockMagic then .ok (parsedDir b) else .error (-EINVAL)) 12 := by
  simp (disch := omega) only [spfsParseDirBlock, EStateM.run_bind_match, run_spfsSbReadU32,
    run_spfsSbReadSector, Nat.zero_add, Nat.reduceAdd, EStateM.run_ite]
  by_cases hmagic : dirMagic b = spookyFsDirBlockMagic
  · have heq : ¬ beDecode (b.read 0 4) ≠ spookyFsDirBlockMagic := not_not.mpr hmagic
    rw [if_neg heq, if_pos hmagic]
    rfl
  · have hne : beDecode (b.read 0 4) ≠ spookyFsDirBlockMagic := hmagic
    rw [if_pos hne, if_neg hmagic]
    rfl

theorem run_spfsParseDirBlock (h : 512 ≤ bSize) :
    (spfsParseDirBlock bSize b).run 0 =
      .ok (if dirMagic b = spookyFsDirBlockMagic then .ok (parsedDir b) else .error (-EINVAL)) 12 :=
  run_spfsParseDirBlock_of_le (le_trans (by decide) h)

/-- A buffer that is too short for a header is refused at the sector or in front of it. -/
theorem run_spfsParseDirBlock_short (h : bSize < 12) :
    ∃ pos, (spfsParseDirBlock bSize b).run 0 = .ok (.error (-EINVAL)) pos := by
  rw [spfsParseDirBlock]
  by_cases hmagic : 4 ≤ bSize
  · have hin : 0 + 4 ≤ bSize := hmagic
    rw [EStateM.run_bind_of_ok (run_spfsSbReadU32 hin)]
    dsimp only
    rw [EStateM.run_bind_of_ok (run_spfsSbReadSector_short (Nat.lt_of_lt_of_le h (by decide)) hin)]
    exact ⟨_, rfl⟩
  · have hout : bSize < 0 + 4 := Nat.lt_of_not_le hmagic
    rw [EStateM.run_bind_of_ok (run_spfsSbReadU32_short hout (Nat.zero_le _))]
    exact ⟨_, rfl⟩

theorem run_spfsMakeDirBlock_of_le (h : 12 ≤ bSize) :
    (spfsMakeDirBlock block bSize).run ⟨b, 0⟩ = .ok 0 ⟨withDir block b, 12⟩ := by
  refine (EStateM.run_check_of_true (run_spfsSbWriteU32 (by omega))).trans ?_
  refine (EStateM.run_check_of_true (run_spfsSbWriteU32 (by omega))).trans ?_
  refine (EStateM.run_check_of_true (run_spfsSbWriteU32 (by omega))).trans ?_
  simp only [withDir, dirFields, List.flatten_cons, List.flatten_nil, List.append_nil,
    Block.write_append, length_beEncode, Nat.zero_add, Nat.reduceAdd, EStateM.run_pure]

theorem run_spfsMakeDirBlock (h : 512 ≤ bSize) :
    (spfsMakeDirBlock block bSize).run ⟨b, 0⟩ = .ok 0 ⟨withDir block b, 12⟩ :=
  run_spfsMakeDirBlock_of_le (le_trans (by decide) h)

theorem withDir_eq_writeWords : withDir block b = b.writeWords 0 block.words := rfl

theorem dirAt_iff_words : DirAt b block ↔ b.words 0 3 = block.words := by
  have hwords : b.words 0 3 = [dirMagic b, (parsedDir b).next, (parsedDir b).children] := rfl
  rw [hwords]
  constructor
  · rintro ⟨hmagic, rfl⟩
    rw [hmagic]
    rfl
  · intro h
    obtain ⟨next, children⟩ := block
    simp only [DirBlock.words, List.cons.injEq, and_true] at h
    obtain ⟨hmagic, rfl, rfl⟩ := h
    exact ⟨hmagic, rfl⟩

theorem DirBlock.Fits.words_lt (h : block.Fits) : ∀ w ∈ block.words, w < 2 ^ 32 := by
  simp only [DirBlock.words, List.forall_mem_cons]
  exact ⟨by decide, h.next, h.children, fun _ hw => absurd hw List.not_mem_nil⟩

theorem dirAt_withDir (b : Block) (hnext : block.next < 2 ^ 32) (hchildren : block.children < 2 ^ 32) :
    DirAt (withDir block b) block := by
  have hfits : block.Fits := ⟨hnext, hchildren⟩
  rw [dirAt_iff_words, withDir_eq_writeWords]
  exact b.words_writeWords_of_lt 0 hfits.words_lt

/-- The parser accepts the buffers that hold a header. -/
theorem spfsParseDirBlock_eq_ok {pos : ℕ} :
    (spfsParseDirBlock bSize b).run 0 = .ok (.ok block) pos ↔ 12 ≤ bSize ∧ pos = 12 ∧ DirAt b block := by
  rw [parse_eq_ok_iff run_spfsParseDirBlock_of_le run_spfsParseDirBlock_short, dirAt_iff]

/-- A header survives writes behind it. -/
theorem DirAt.write (h : DirAt b block) {pos : ℕ} (hpos : 12 ≤ pos) (l : List UInt8) :
    DirAt (b.write pos l) block := by
  rw [dirAt_iff_words, b.words_write_of_le hpos, ← dirAt_iff_words]
  exact h

/-- Writing a header does not touch what is behind it. -/
theorem read_withDir {pos len : ℕ} (hpos : 12 ≤ pos) :
    (withDir block b).read pos len = b.read pos len :=
  Block.read_write_of_disjoint (.inr (by simpa [dirFields] using hpos))

theorem DirAt.run_parse {s : ℕ} {w : World} (h : DirAt (w.disk s) block) :
    (parseBuf s 0 spfsParseDirBlock).run w = .ok (.ok block, 12) w := by
  rw [run_parseBuf, run_spfsParseDirBlock w.le_bSize, if_pos h.magic, h.eq]

theorem run_parse_of_not_dir {s : ℕ} {w : World} (h : dirMagic (w.disk s) ≠ spookyFsDirBlockMagic) :
    (parseBuf s 0 spfsParseDirBlock).run w = .ok (.error (-EINVAL), 12) w := by
  rw [run_parseBuf, run_spfsParseDirBlock w.le_bSize, if_neg h]

theorem run_makeDir (s : ℕ) (w : World) :
    (makeBuf s 0 (spfsMakeDirBlock block)).run w =
      .ok (0, 12) (w.setBlock s (withDir block (w.disk s))) := by
  rw [run_makeBuf, run_spfsMakeDirBlock w.le_bSize]

/-- The fields of a header that was parsed have 32 bits. -/
theorem DirAt.bounds (h : DirAt b block) : block.next < 2 ^ 32 ∧ block.children < 2 ^ 32 := by
  rw [← h.eq]
  exact ⟨b.decode_read_lt 4 4, b.decode_read_lt 8 4⟩

end Headers

/-- A directory with the given id and no children. -/
def plainDir (ino : ℕ) : SpfsInode :=
  { spfsInodeInitOnce with iIno := ino, iMode := S_IFDIR, iSb := .sb, iHashed := true, iCount := 1 }

end Spfs
