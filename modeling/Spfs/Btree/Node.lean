-- SUMMARY: btree.c: the layout of a node in its block, and the accessors of its length, entries, and children.
import Spfs.Kernel

/-!
# Tree nodes

A node lies in a block as `length`, a table of 100 entries, and a table of 101
children. The functions that take a `struct spfs_bnode *` take the sector of its
block here, and a pointer into the node is an offset from the start of the block,
a 64-bit number. Memory is copied without any regard to the end of the block, so
an access that leaves the block is a fault.
-/

namespace Spfs

/-! ## Memory -/

/-- Copy `len` bytes from `b_data + off`. -/
def memRead (s off len : ℕ) : Kernel (List UInt8) := do
  let w ← get
  if off + len ≤ w.bSize then
    return (w.disk s).read off len
  throw .oob

/-- Copy bytes to `b_data + off`. -/
def memWrite (s off : ℕ) (l : List UInt8) : Kernel Unit := do
  let w ← get
  if off + l.length ≤ w.bSize then
    set (w.setBlock s ((w.disk s).write off l))
  else
    throw .oob

/-- `memset(b_data, 0, b_size)`. -/
def memZero (s : ℕ) : Kernel Unit := do
  let w ← get
  memWrite s 0 (List.replicate w.bSize 0)

section Memory

variable {s off len : ℕ} {l : List UInt8} {w : World}

theorem run_memRead (h : off + len ≤ w.bSize) :
    (memRead s off len).run w = .ok ((w.disk s).read off len) w := by
  simp [memRead, h]

theorem run_memRead_oob (h : ¬ off + len ≤ w.bSize) :
    (memRead s off len).run w = .error .oob w := by
  simp [memRead, h]

theorem run_memWrite (h : off + l.length ≤ w.bSize) :
    (memWrite s off l).run w = .ok () (w.setBlock s ((w.disk s).write off l)) := by
  simp [memWrite, h]

theorem run_memWrite_oob (h : ¬ off + l.length ≤ w.bSize) :
    (memWrite s off l).run w = .error .oob w := by
  simp [memWrite, h]

@[simp] theorem run_memZero (s : ℕ) (w : World) :
    (memZero s).run w =
      .ok () (w.setBlock s ((w.disk s).write 0 (List.replicate w.bSize 0))) := by
  simp [memZero, run_memWrite]

end Memory

/-! ## Entries -/

/-- `struct spfs_bentry`: two 64-bit words that hold the result of `cpu_to_be32`. -/
structure Bentry where
  id : Bytes 8
  offset : Bytes 8
deriving DecidableEq

/-- `cpu_to_be32` stored in a 64-bit word of a little-endian machine. -/
def cpuToBe32 (n : ℕ) : Bytes 8 := ⟨beEncode 4 n ++ [0, 0, 0, 0], by simp⟩

/-- `be32_to_cpu` of a 64-bit word, which it truncates to its first four bytes. -/
def be32ToCpu (b : Bytes 8) : ℕ := beDecode (b.val.take 4)

@[simp] theorem be32ToCpu_cpuToBe32 (n : ℕ) : be32ToCpu (cpuToBe32 n) = n % 2 ^ 32 := by
  have h : ((cpuToBe32 n).val).take 4 = beEncode 4 n := by
    simp [cpuToBe32]
  rw [be32ToCpu, h, beDecode_beEncode]
  rfl

def sizeofBentry : ℕ := 16

/-- `struct btree_bubble`: an entry on its way up, and the child greater than it. -/
structure BtreeBubble where
  entry : Bentry
  greater : ℕ
deriving DecidableEq

/-- `bubble_is_active`: the word `id` is not zero. -/
def bubbleIsActive (bubble : BtreeBubble) : Bool := bubble.entry.id != cpuToBe32 0

def bubbleMake (id page gt : ℕ) : BtreeBubble := ⟨⟨cpuToBe32 id, cpuToBe32 page⟩, gt⟩

/-- The bubble after `memset(bubble, 0, sizeof(*bubble))`. -/
def bubbleZero : BtreeBubble := ⟨⟨cpuToBe32 0, cpuToBe32 0⟩, 0⟩

@[simp] theorem bubbleIsActive_zero : bubbleIsActive bubbleZero = false := rfl

theorem cpuToBe32_inj {m n : ℕ} : cpuToBe32 m = cpuToBe32 n ↔ m % 2 ^ 32 = n % 2 ^ 32 := by
  simp [cpuToBe32, beEncode_inj]

/-- A bubble made for an id is active unless the id is zero in its 32 bits. -/
theorem bubbleIsActive_make (id page gt : ℕ) :
    bubbleIsActive (bubbleMake id page gt) = true ↔ id % 2 ^ 32 ≠ 0 := by
  simp [bubbleIsActive, bubbleMake, cpuToBe32_inj]

/-! ## The parts of a node -/

def bnodeCapacity : ℕ := 100

/-- The offset of the table of entries, 4. -/
def entriesOff : ℕ := 4

/-- The offset of the table of children, 1604. -/
def childrenOff : ℕ := entriesOff + bnodeCapacity * sizeofBentry

/-- `bnode_make`: clear the block. Parsing a node only computes pointers. -/
def bnodeMake (s : ℕ) : Kernel Unit := memZero s

def bnodeLength (s : ℕ) : Kernel ℕ := do
  let result := beDecode (← memRead s 0 4)
  bugOn (result > bnodeCapacity)
  return result

def bnodeSetLength (s length : ℕ) : Kernel ℕ := do
  bugOn (length > bnodeCapacity)
  memWrite s 0 (beEncode 4 length)
  return length

def bnodeChildLength (s : ℕ) : Kernel ℕ := do
  let elems ← bnodeLength s
  return if elems = 0 then 0 else elems + 1

def bnodeIsFull (s : ℕ) : Kernel Bool := do
  return (← bnodeLength s) == bnodeCapacity

def bnodeIsEmpty (s : ℕ) : Kernel Bool := do
  return (← bnodeLength s) == 0

def bnodeSetChild (s index child : ℕ) : Kernel Unit :=
  memWrite s (childrenOff + index * 8) (cpuToBe32 child).val

def bnodeGetChild (s index : ℕ) : Kernel ℕ := do
  bugOn (index > (← bnodeLength s))
  let result ← memRead s (childrenOff + index * 8) 8
  return beDecode (result.take 4)

/-- `bnode_child_add_back`: the child after the last one. -/
def bnodeChildAddBack (s child : ℕ) : Kernel ℤ := do
  bnodeSetChild s (← bnodeLength s) child
  return 0

/-- The address of an entry of the table. -/
def bnodeGetEntry (idx : ℕ) : ℕ := entriesOff + idx * sizeofBentry

def bnodeSetEntry (s idx : ℕ) (src : Bentry) : Kernel Unit :=
  memWrite s (bnodeGetEntry idx) (src.id.val ++ src.offset.val)

/-- The id of the entry at an address, as the comparisons of the source read it. -/
def bentryId (s addr : ℕ) : Kernel ℕ := do
  let id ← memRead s addr 8
  return beDecode (id.take 4)

/-- `bentry_offset` of the entry at an address. -/
def bentryOffset (s addr : ℕ) : Kernel ℕ := do
  let offset ← memRead s (addr + 8) 8
  return beDecode (offset.take 4)

/-- The 16 bytes of the entry at an address. -/
def bentryLoad (s addr : ℕ) : Kernel Bentry := do
  let w ← get
  if addr + sizeofBentry ≤ w.bSize then
    return ⟨(w.disk s).readBytes addr 8, (w.disk s).readBytes (addr + 8) 8⟩
  throw .oob

/-! ## What the accessors read -/

/-- The length field of a node, before the check against the capacity. -/
def nodeLength (b : Block) : ℕ := beDecode (b.read 0 4)

/-- The id field of the entry at an address. -/
def idAt (b : Block) (addr : ℕ) : ℕ := beDecode (b.read addr 4)

/-- The offset field of the entry at an address. -/
def offsetAt (b : Block) (addr : ℕ) : ℕ := beDecode (b.read (addr + 8) 4)

/-- A child pointer of a node. -/
def childAt (b : Block) (index : ℕ) : ℕ := beDecode (b.read (childrenOff + index * 8) 4)

/-- The entry of the table with an index. -/
def bentryAt (b : Block) (i : ℕ) : Bentry :=
  ⟨b.readBytes (bnodeGetEntry i) 8, b.readBytes (bnodeGetEntry i + 8) 8⟩

/-- A cleared block with a node of the given entries, as ids and offsets, and children. -/
def nodeBlock (entries : List (ℕ × ℕ)) (children : List ℕ) : Block :=
  ((Block.write (fun _ => 0) 0 (beEncode 4 entries.length)).write entriesOff
    (entries.flatMap fun e => (cpuToBe32 e.1).val ++ (cpuToBe32 e.2).val)).write childrenOff
    (children.flatMap fun c => (cpuToBe32 c).val)

theorem take_read (b : Block) (pos : ℕ) : (b.read pos 8).take 4 = b.read pos 4 := by
  rw [show (8 : ℕ) = 4 + 4 from rfl, Block.read_add]
  exact List.take_left' (Block.length_read _ _ _)

section Accessors

variable {s addr index : ℕ} {w : World}

theorem run_bnodeLength (h : nodeLength (w.disk s) ≤ 100) :
    (bnodeLength s).run w = .ok (nodeLength (w.disk s)) w := by
  have hfits : 0 + 4 ≤ w.bSize := by
    have := w.le_bSize
    omega
  have hlen : ¬ beDecode ((w.disk s).read 0 4) > bnodeCapacity := Nat.not_lt.mpr h
  simp only [bnodeLength, EStateM.run_bind_match, run_memRead hfits, run_bugOn, if_neg hlen,
    EStateM.run_pure, nodeLength]

theorem run_bnodeLength_over (h : 100 < nodeLength (w.disk s)) :
    (bnodeLength s).run w = .error .bug w := by
  have hfits : 0 + 4 ≤ w.bSize := by
    have := w.le_bSize
    omega
  have hlen : beDecode ((w.disk s).read 0 4) > bnodeCapacity := h
  simp only [bnodeLength, EStateM.run_bind_match, run_memRead hfits, run_bugOn, if_pos hlen]

theorem run_bentryId (h : addr + 8 ≤ w.bSize) :
    (bentryId s addr).run w = .ok (idAt (w.disk s) addr) w := by
  simp only [bentryId, EStateM.run_bind_match, run_memRead h, EStateM.run_pure, take_read, idAt]

theorem run_bentryId_oob (h : ¬ addr + 8 ≤ w.bSize) :
    (bentryId s addr).run w = .error .oob w := by
  simp only [bentryId, EStateM.run_bind_match, run_memRead_oob h]

theorem run_bentryOffset (h : addr + 8 + 8 ≤ w.bSize) :
    (bentryOffset s addr).run w = .ok (offsetAt (w.disk s) addr) w := by
  simp only [bentryOffset, EStateM.run_bind_match, run_memRead h, EStateM.run_pure, take_read, offsetAt]

theorem run_bentryOffset_oob (h : ¬ addr + 8 + 8 ≤ w.bSize) :
    (bentryOffset s addr).run w = .error .oob w := by
  simp only [bentryOffset, EStateM.run_bind_match, run_memRead_oob h]

theorem run_bnodeGetChild (hlen : nodeLength (w.disk s) ≤ 100)
    (hindex : index ≤ nodeLength (w.disk s)) (h : childrenOff + index * 8 + 8 ≤ w.bSize) :
    (bnodeGetChild s index).run w = .ok (childAt (w.disk s) index) w := by
  simp only [bnodeGetChild, EStateM.run_bind_match, run_bnodeLength hlen, run_bugOn,
    if_neg (Nat.not_lt.mpr hindex), run_memRead h, EStateM.run_pure, take_read, childAt]

theorem run_bnodeGetChild_oob (hlen : nodeLength (w.disk s) ≤ 100)
    (hindex : index ≤ nodeLength (w.disk s)) (h : ¬ childrenOff + index * 8 + 8 ≤ w.bSize) :
    (bnodeGetChild s index).run w = .error .oob w := by
  simp only [bnodeGetChild, EStateM.run_bind_match, run_bnodeLength hlen, run_bugOn,
    if_neg (Nat.not_lt.mpr hindex), run_memRead_oob h]

end Accessors

end Spfs
