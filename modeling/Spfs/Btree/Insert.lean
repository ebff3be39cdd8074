-- SUMMARY: btree.c: insertion into the tree, from the descent to the leaves over splits to a new root.
import Spfs.Btree.Modify
import Spfs.FreeList

/-!
# Inserting

`spfs_btree_insert` descends to the place of a new entry and carries a bubble back
up: an entry that the node above has to take in, by splitting when it is full. What
leaves the old root becomes the only entry of a new one.
-/

namespace Spfs

/-- A `struct spfs_bentry *`: an address in the node of a block, or the entry of the
bubble of the running insertion. -/
inductive EntryPtr where
  | node (s addr : ℕ)
  | bubble
deriving DecidableEq

namespace EntryPtr

/-- `be32_to_cpu(ptr->id)`. -/
def id (bubble : BtreeBubble) : EntryPtr → Kernel ℕ
  | node s addr => bentryId s addr
  | .bubble => return be32ToCpu bubble.entry.id

def load (bubble : BtreeBubble) : EntryPtr → Kernel Bentry
  | node s addr => bentryLoad s addr
  | .bubble => return bubble.entry

/-- `bnode_index_of` in the node of block `s`. An entry that is not in the block lies
before it or at least a block further on, beyond the capacity. -/
def indexOf (s : ℕ) : EntryPtr → ℕ
  | node s' addr => if s' = s then bnodeIndexOf addr else bnodeCapacity
  | .bubble => bnodeCapacity

@[simp] theorem run_id_bubble (bubble : BtreeBubble) (w : World) :
    (id bubble .bubble).run w = .ok (be32ToCpu bubble.entry.id) w := rfl

@[simp] theorem run_load_bubble (bubble : BtreeBubble) (w : World) :
    (load bubble .bubble).run w = .ok bubble.entry w := rfl

end EntryPtr

/-! ## Into a node with room -/

/-- The bytes to move up: `idx` counts bytes, and the difference is taken in 64 bits. -/
def bnodeShift (length idx : ℕ) : ℕ := (length + 2 ^ 64 - idx) % 2 ^ 64 * sizeofBentry % 2 ^ 64

/-- `memmove(dest, src, n)` inside of a block. -/
def memMove (s dest src n : ℕ) : Kernel Unit := do
  memWrite s dest (← memRead s src n)

/-- The entry that the new one goes before: one with a greater id, or the first one. -/
def bnodeFindPlace (s : ℕ) (in_ : EntryPtr) (bubble : BtreeBubble) : Kernel ℕ := do
  let needle ← in_.id bubble
  match ← bnodeBinFindGte s needle with
  | some gte =>
    bugOn ((← bentryId s gte) = needle)
    return gte
  | none => return entriesOff

/-- Move the entries from `gte` on up by one, store the new one and the child after
it. -/
def bnodeInsertAt (s gte : ℕ) (in_ : EntryPtr) (bubble : BtreeBubble) (gt : ℕ) : Kernel Unit := do
  let idx := bnodeIndexOf gte
  bugOn (idx = bnodeCapacity)
  let length ← bnodeLength s
  memMove s (gte + sizeofBentry) gte (bnodeShift length idx)
  bnodeSetEntry s idx (← in_.load bubble)
  let length ← bnodeSetLength s (length + 1)
  bnodeSetChild s length gt
  bugOn (length ≠ (← bnodeLength s))

/-- Where the entry went; `none` when the node is full. -/
def bnodeBinInsert (s : ℕ) (in_ : EntryPtr) (bubble : BtreeBubble) (gt : ℕ) :
    Kernel (Option ℕ) := do
  if ← bnodeIsFull s then
    return none
  if (← bnodeChildLength s) = 0 then
    bnodeSetChild s 0 0
  let gte ← bnodeFindPlace s in_ bubble
  bnodeInsertAt s gte in_ bubble gt
  return some gte

def bnodeBinInsertB (s : ℕ) (bubble : BtreeBubble) : Kernel (Option ℕ) :=
  bnodeBinInsert s .bubble bubble bubble.greater

/-! ## Splitting a full node -/

/-- The middle of the entries of the node and the one of the bubble. -/
def bnodeMedian (s : ℕ) (bubble : BtreeBubble) : Kernel EntryPtr := do
  bugOn ((← bnodeIsFull s) = false)
  let mid := ((← bnodeLength s) + 1) / 2
  bugOn (mid = 0)
  let extra := be32ToCpu bubble.entry.id
  let midEntry := bnodeGetEntry mid
  if extra > (← bentryId s midEntry) then
    return .node s midEntry
  let midPrivEntry := midEntry - sizeofBentry
  if extra > (← bentryId s midPrivEntry) then
    return .bubble
  return .node s midPrivEntry

/-- Copy the `i`-th entry and the child after it to the node `to_`. -/
def bnodePartitionMove (from_ to_ i : ℕ) (bubble : BtreeBubble) : Kernel Unit := do
  let srcGt ← bnodeGetChild from_ (i + 1)
  let res ← bnodeBinInsert to_ (.node from_ (bnodeGetEntry i)) bubble srcGt
  bugOn (res = none)

/-- The loop over the entries behind a pivot in the node: the number moved. The
length of the node bounds it by the capacity, which is the first argument. -/
def bnodePartitionBehind (from_ to_ : ℕ) (bubble : BtreeBubble) : ℕ → ℕ → ℕ → Kernel ℕ
  | 0, _, drop => return drop
  | n + 1, i, drop => do
    if i < (← bnodeLength from_) then
      bnodePartitionMove from_ to_ i bubble
      bnodePartitionBehind from_ to_ bubble n (i + 1) (drop + 1)
    else
      return drop

/-- The loop over all entries for a pivot outside of the node: whether entries were
moved, and how many. -/
def bnodePartitionGreater (from_ to_ : ℕ) (pivot : EntryPtr) (bubble : BtreeBubble) :
    ℕ → ℕ → Bool → ℕ → Kernel (Bool × ℕ)
  | 0, _, move, drop => return (move, drop)
  | n + 1, i, move, drop => do
    if i < (← bnodeLength from_) then
      if (← bentryId from_ (bnodeGetEntry i)) > (← pivot.id bubble) then
        bnodePartitionMove from_ to_ i bubble
        bnodePartitionGreater from_ to_ pivot bubble n (i + 1) true (drop + 1)
      else
        bugOn move
        bnodePartitionGreater from_ to_ pivot bubble n (i + 1) move drop
    else
      return (move, drop)

/-- Move what is greater than the pivot from one node to the other. -/
def bnodePartition (from_ : ℕ) (pivot : EntryPtr) (to_ : ℕ) (bubble : BtreeBubble) :
    Kernel Unit := do
  let idx := pivot.indexOf from_
  let drop ← do
    if idx ≠ bnodeCapacity then
      bnodePartitionBehind from_ to_ bubble bnodeCapacity (idx + 1) 0
    else
      let (move, drop) ← bnodePartitionGreater from_ to_ pivot bubble bnodeCapacity 0 false 0
      bugOn (move = false)
      pure drop
  let length ← bnodeLength from_
  bugOn (drop > length)
  let _ ← bnodeSetLength from_ (length - drop)

/-- The index of the last entry, in 32 bits. -/
def bnodeLastIndex (length : ℕ) : ℕ := (length + 2 ^ 32 - 1) % 2 ^ 32

/-- Take the median out of the node into the bubble. -/
def bnodeExtract (s : ℕ) (needle : EntryPtr) (bubble : BtreeBubble) (right : ℕ) :
    Kernel BtreeBubble := do
  let length ← bnodeLength s
  let idx := needle.indexOf s
  bugOn (idx = bnodeCapacity)
  bugOn (idx ≠ bnodeLastIndex length)
  let entry ← bentryLoad s (bnodeGetEntry idx)
  let gt ← bnodeGetChild s (idx + 1)
  let _ ← bnodeSetLength s (length - 1)
  bugOn ((← bnodeIsEmpty right) = true)
  bugOn ((← bnodeGetChild right 0) ≠ 0)
  bnodeSetChild right 0 gt
  return { bubble with entry := entry }

section Insert

variable (env : Env)

/-- Take the bubble into the node, or split the node around the median. -/
def btreeFixup (s : ℕ) (bubble : BtreeBubble) : Kernel (ℤ × BtreeBubble) := do
  bugOn (bubbleIsActive bubble = false)
  if !(← bnodeIsFull s) then
    let res ← bnodeBinInsertB s bubble
    bugOn (res = none)
    return (0, bubble)
  let med ← bnodeMedian s bubble
  let right ← freeAlloc (← get).sbi.tree.blocks
  bugOn (right = 0)
  if !(← sbBread env right) then
    return (- EIO, bubble)
  bnodeMake right
  bnodePartition s med right bubble
  let bubble ← do
    if med ≠ .bubble then
      let res ← do
        if be32ToCpu bubble.entry.id > (← med.id bubble) then
          bnodeBinInsertB right bubble
        else
          bnodeBinInsertB s bubble
      bugOn (res = none)
      bnodeExtract s med bubble right
    else
      bugOn ((← bnodeGetChild right 0) ≠ 0)
      bnodeSetChild right 0 bubble.greater
      pure bubble
  markBufferDirty right
  brelse right
  return (0, { bubble with greater := right })

/-! ## The descent -/

/-- What `btree_insert` returns, and what it leaves in `bubble` and `out`. -/
structure InsertResult where
  res : ℤ
  bubble : BtreeBubble
  out : ℕ

/-- `btree_insert` without a node: store the record in a block of its own. -/
def btreeInsertNew (in_ : SpfsInode) : Kernel InsertResult := do
  let page ← freeAlloc (← get).sbi.tree.blocks
  if page = 0 then
    return ⟨1, bubbleZero, 0⟩
  if !(← sbBread env page) then
    return ⟨- EIO, bubbleZero, 0⟩
  let stackAtStr := env.stack (← get).time
  let (res, _) ← makeBuf page 0 (spfsInodeMake stackAtStr in_)
  if res ≠ 0 then
    return ⟨res, bubbleZero, 0⟩
  markBufferDirty page
  brelse page
  return ⟨0, bubbleMake in_.iIno page 0, page⟩

/-- Insert below a child of the node `s` and take in what comes back. `descend` is
the recursive call. -/
def btreeInsertChild (descend : ℕ → Kernel InsertResult) (s child : ℕ) :
    Kernel InsertResult := do
  if !(← sbBread env child) then
    return ⟨- EIO, bubbleZero, 0⟩
  let r ← descend child
  markBufferDirty child
  brelse child
  if bubbleIsActive r.bubble then
    let (res, bubble) ← btreeFixup env s r.bubble
    return ⟨res, bubble, r.out⟩
  return r

/-- `btree_insert` at the node `s`. -/
def btreeInsertNode (descend : ℕ → Kernel InsertResult) (in_ : SpfsInode) (s : ℕ) :
    Kernel InsertResult := do
  match ← bnodeBinFindGte s in_.iIno with
  | some gte =>
    if (← bentryId s gte) = in_.iIno then
      return ⟨1, bubbleZero, ← bentryOffset s gte⟩
    let index := bnodeIndexOf gte
    bugOn (index = bnodeCapacity)
    btreeInsertChild env descend s (← bnodeGetChild s index)
  | none =>
    bugOn ((← bnodeChildLength s) = 0)
    bugOn ((← bnodeLength s) = 0)
    bugOn ((← bnodeIsEmpty s) = true)
    btreeInsertChild env descend s (← bnodeGetChild s (← bnodeLength s))

/-- `btree_insert` at a node, for at most so many levels below it. -/
def btreeInsert (in_ : SpfsInode) : ℕ → ℕ → Kernel InsertResult
  | 0 => btreeInsertNode env (fun _ => throw .fuel) in_
  | levels + 1 => btreeInsertNode env (btreeInsert in_ levels) in_

/-! ## A new root -/

def setTreeStart (s : ℕ) : Kernel Unit :=
  modify (·.setTreeStart s)

@[simp] theorem run_setTreeStart (s : ℕ) (w : World) :
    (setTreeStart s).run w = .ok () (w.setTreeStart s) := rfl

/-- The new node is built in the buffer of the old root, `self->start`, not in the
one of the block `root` that was allocated for it. -/
def bnodeAllocRoot (bubble : BtreeBubble) : Kernel ℤ := do
  let less := (← get).sbi.tree.start
  let root ← freeAlloc (← get).sbi.tree.blocks
  if root = 0 then
    return -ENOMEM
  if !(← sbBread env less) then
    return - EIO
  bnodeMake less
  setTreeStart root
  let res ← bnodeChildAddBack less less
  bugOn (res ≠ 0)
  let ires ← bnodeBinInsertB less bubble
  bugOn (ires = none)
  bugOn ((← bnodeLength less) = 0)
  bugOn ((← bnodeChildLength less) = 0)
  bugOn ((← bnodeIsEmpty less) = true)
  markBufferDirty less
  brelse less
  return 0

def spfsBtreeInsert (in_ : SpfsInode) : Kernel ℤ := do
  let start := (← get).sbi.tree.start
  if start ≠ 0 then
    if !(← sbBread env start) then
      return - EIO
    let r ← btreeInsert env in_ env.fuel start
    markBufferDirty start
    brelse start
    insertRoot r
  else
    insertRoot (← btreeInsertNew env in_)
where
  /-- What is still active at the top becomes a new root. -/
  insertRoot (r : InsertResult) : Kernel ℤ := do
    if bubbleIsActive r.bubble then
      let nres ← bnodeAllocRoot env r.bubble
      bugOn (nres ≠ 0)
    return r.res

end Insert

end Spfs
