-- SUMMARY: free_list.c: loading the free list from its chain of blocks and allocating from it.
import Spfs.Util

/-!
# Free list

`free_list.c`. The loader walks a chain of blocks, each of which holds a header
and a sequence of entries, and pushes every entry on the list. The allocator cuts
blocks from the end of the first node that has enough of them.
-/

namespace Spfs

/-! ## Loading -/

/-- `none` where the source returns 1. -/
def spfsReadEntry (bSize : ℕ) (b : Block) : EStateM Fault ℕ (Option FreeNode) := do
  let some start ← spfsSbReadSector bSize b | return none
  let some blocks ← spfsSbReadU32 bSize b | return none
  return some ⟨start, blocks⟩

/-- A new list node read from the buffer of sector `s` at `pos`, with the position
after it; `none` stands for the null pointer. -/
def spfsInitFreeListEntry (env : Env) (s pos : ℕ) : Kernel (Option FreeNode × ℕ) := do
  let ok := env.kzallocOk (← get).time
  emit .kzalloc
  if !ok then
    return (none, pos)
  parseBuf s pos spfsReadEntry

/-- The entry count and the next sector of a free list block, or an error. -/
def spfsReadHeader (bSize : ℕ) (b : Block) : EStateM Fault ℕ (Except ℤ (ℕ × ℕ)) := do
  let some magic ← spfsSbReadU32 bSize b | return .error (-EINVAL)
  let some length ← spfsSbReadU32 bSize b | return .error (-EINVAL)
  let some next ← spfsSbReadSector bSize b | return .error (-EINVAL)
  if magic ≠ spookyFsFlMagic then
    return .error (-EINVAL)
  return .ok (length, next)

/-- Push a node on the list and add its blocks to the 32-bit total. -/
def FreeList.push (fl : FreeList) (node : FreeNode) : FreeList :=
  { blocks := (fl.blocks + node.blocks) % 2 ^ 32, root := node :: fl.root }

def setFreeList (fl : FreeList) : Kernel Unit :=
  modify (·.setFreeList fl)

@[simp] theorem run_setFreeList (fl : FreeList) (w : World) :
    (setFreeList fl).run w = .ok () (w.setFreeList fl) := rfl

/-- The `for` loop over the entries still to be read; `false` when one of them
could not be made into a node. -/
def spfsFreeInitEntries (env : Env) (s : ℕ) : ℕ → ℕ → Kernel Bool
  | 0, _ => return true
  | length + 1, pos => do
    match ← spfsInitFreeListEntry env s pos with
    | (none, _) => return false
    | (some node, pos) =>
      setFreeList ((← get).sbi.freeList.push node)
      spfsFreeInitEntries env s length pos

/-- The loop `Lit` over the blocks of the chain. A block that fails is not
released. -/
def spfsFreeInitLit (env : Env) : ℕ → ℕ → Kernel ℤ
  | _, 0 => return 0
  | 0, _ => throw .fuel
  | fuel + 1, head => do
    if !(← sbBread env head) then
      return 1
    match ← parseBuf head 0 spfsReadHeader with
    | (.error res, _) => return res
    | (.ok (freeLength, freeNext), pos) =>
      if !(← spfsFreeInitEntries env head freeLength pos) then
        return 1
      brelse head
      spfsFreeInitLit env fuel freeNext

def spfsFreeInit (env : Env) (head : ℕ) : Kernel ℤ := do
  setFreeList ⟨0, []⟩
  spfsFreeInitLit env env.fuel head

/-! ## Allocating -/

/-- The loop `Lit` over the nodes: the sector taken and the list after it. The
loaded sectors are below `2 ^ 32`, so the sum does not overflow a `sector_t`. -/
def allocLit (blocks : ℕ) : List FreeNode → Option (ℕ × List FreeNode)
  | [] => none
  | node :: next =>
    if node.blocks ≥ blocks then
      let left := node.blocks - blocks
      some (node.start + left, { node with blocks := left } :: next)
    else
      (allocLit blocks next).map fun (result, next) => (result, node :: next)

/-- The first sector of `blocks` free blocks, or 0, and the list after the call.
Both subtractions are guarded, so none of them wraps. -/
def spfsFreeAlloc (freeList : FreeList) (blocks : ℕ) : ℕ × FreeList :=
  if freeList.blocks > blocks then
    match allocLit blocks freeList.root with
    | some (result, root) => (result, ⟨freeList.blocks - blocks, root⟩)
    | none => (0, freeList)
  else
    (0, freeList)

/-- `spfs_free_alloc` on the mounted free list. A sector handed out is logged. -/
def freeAlloc (blocks : ℕ) : Kernel ℕ := do
  let w ← get
  let (result, fl) := spfsFreeAlloc w.sbi.freeList blocks
  setFreeList fl
  if result ≠ 0 then
    emit (.alloc result blocks)
  return result

theorem run_freeAlloc (blocks : ℕ) (w : World) :
    (freeAlloc blocks).run w =
      let r := spfsFreeAlloc w.sbi.freeList blocks
      .ok r.1 (if r.1 ≠ 0 then (w.setFreeList r.2).addEvent (.alloc r.1 blocks)
        else w.setFreeList r.2) := by
  simp only [freeAlloc, EStateM.run_bind_match, EStateM.run_get, run_setFreeList]
  by_cases h : (spfsFreeAlloc w.sbi.freeList blocks).1 ≠ 0
  · rw [if_pos h, if_pos h, EStateM.run_bind_of_ok (run_emit _ _), EStateM.run_pure]
  · rw [if_neg h, if_neg h, EStateM.run_pure]

/-- An allocation does not touch the blocks. -/
theorem freeAlloc_disk {blocks result : ℕ} {w w' : World}
    (h : (freeAlloc blocks).run w = .ok result w') : w'.disk = w.disk ∧ w'.bSize = w.bSize := by
  rw [run_freeAlloc] at h
  by_cases hr : (spfsFreeAlloc w.sbi.freeList blocks).1 ≠ 0
  · simp only [if_pos hr] at h
    cases h
    exact ⟨rfl, rfl⟩
  · simp only [if_neg hr] at h
    cases h
    exact ⟨rfl, rfl⟩

/-- `spfs_free_dealloc` gives nothing back. -/
def spfsFreeDealloc (_root _blocks : ℕ) : Kernel ℤ :=
  return 0

end Spfs
