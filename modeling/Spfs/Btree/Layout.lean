-- SUMMARY: The fields of a node do not overlap, and they fit the block exactly when it has at least 2412 bytes.
import Spfs.Btree.Node
import Spfs.Super

/-!
# The layout of a node

`bnode_parse` lays the length, 100 entries and 101 children out behind each other, whatever
the size of the block. A field is its range of bytes, an accessor reads one field and a
setter writes one field, so everything here follows from where the fields lie.
-/

namespace Spfs

/-! ## Fields -/

inductive NodeField where
  | length
  | entry (i : ℕ)
  | child (i : ℕ)
deriving DecidableEq

namespace NodeField

def InNode : NodeField → Prop
  | .length => True
  | .entry i => i < bnodeCapacity
  | .child i => i ≤ bnodeCapacity

def off : NodeField → ℕ
  | .length => 0
  | .entry i => bnodeGetEntry i
  | .child i => childrenOff + i * 8

def len : NodeField → ℕ
  | .length => 4
  | .entry _ => sizeofBentry
  | .child _ => 8

/-- Two fields of a node share no byte. -/
theorem disjoint {f g : NodeField} (hf : f.InNode) (hg : g.InNode) (hne : f ≠ g) :
    f.off + f.len ≤ g.off ∨ g.off + g.len ≤ f.off := by
  cases f <;> cases g <;>
    simp only [InNode, off, len, bnodeGetEntry, childrenOff, entriesOff, bnodeCapacity, sizeofBentry, ne_eq,
      entry.injEq, child.injEq, not_true] at * <;>
    omega

/-- The last child ends the node. -/
theorem end_le {f : NodeField} (h : f.InNode) : f.off + f.len ≤ 2412 := by
  cases f <;>
    simp only [InNode, off, len, bnodeGetEntry, childrenOff, entriesOff, bnodeCapacity, sizeofBentry] at * <;>
    omega

/-- Read the field as the source does, through `bnode_length`, `bnode_get_entry` or
`bnode_get_child`. -/
def get (s : ℕ) : NodeField → Kernel (ℕ ⊕ Bentry)
  | .length => do return .inl (← bnodeLength s)
  | .entry i => do return .inr (← bentryLoad s (bnodeGetEntry i))
  | .child i => do return .inl (← bnodeGetChild s i)

/-- The assertions of the accessor hold. -/
def Guarded (b : Block) : NodeField → Prop
  | .length => nodeLength b ≤ bnodeCapacity
  | .entry _ => True
  | .child i => nodeLength b ≤ bnodeCapacity ∧ i ≤ nodeLength b

/-- The value of the field in a block. -/
def valueAt (b : Block) : NodeField → ℕ ⊕ Bentry
  | .length => .inl (nodeLength b)
  | .entry i => .inr (bentryAt b i)
  | .child i => .inl (childAt b i)

theorem run_get {f : NodeField} {s : ℕ} {w : World} (hfits : f.off + f.len ≤ w.bSize)
    (hguard : f.Guarded (w.disk s)) : (f.get s).run w = .ok (f.valueAt (w.disk s)) w := by
  cases f with
  | length => exact EStateM.run_bind_of_ok (run_bnodeLength hguard)
  | entry i =>
    have hload : (bentryLoad s (bnodeGetEntry i)).run w = .ok (bentryAt (w.disk s) i) w := by
      have hin : bnodeGetEntry i + sizeofBentry ≤ w.bSize := hfits
      rw [bentryLoad, EStateM.run_bind_of_ok (EStateM.run_get w), if_pos hin]
      rfl
    exact EStateM.run_bind_of_ok hload
  | child i => exact EStateM.run_bind_of_ok (run_bnodeGetChild hguard.1 hguard.2 hfits)

/-- The value of a field is in its bytes. -/
theorem valueAt_congr {f : NodeField} {b b' : Block} (h : b.read f.off f.len = b'.read f.off f.len) :
    f.valueAt b = f.valueAt b' := by
  cases f with
  | length =>
    have hbytes : b.read 0 4 = b'.read 0 4 := h
    simp only [valueAt, nodeLength, hbytes]
  | entry i =>
    have hbytes : b.read (bnodeGetEntry i) (8 + 8) = b'.read (bnodeGetEntry i) (8 + 8) := h
    rw [Block.read_add, Block.read_add] at hbytes
    obtain ⟨hid, hoffset⟩ := List.append_inj hbytes (by simp)
    simp only [valueAt, bentryAt, Block.readBytes, hid, hoffset]
  | child i =>
    have hbytes : b.read (childrenOff + i * 8) (4 + 4) = b'.read (childrenOff + i * 8) (4 + 4) := h
    rw [Block.read_add, Block.read_add] at hbytes
    simp only [valueAt, childAt, (List.append_inj hbytes (by simp)).1]

end NodeField

/-! ## Writes -/

/-- A call of `bnode_set_length`, `bnode_set_entry` or `bnode_set_child`. -/
inductive NodeWrite where
  | length (n : ℕ)
  | entry (i : ℕ) (e : Bentry)
  | child (i : ℕ) (v : ℕ)

namespace NodeWrite

def field : NodeWrite → NodeField
  | .length _ => .length
  | .entry i _ => .entry i
  | .child i _ => .child i

/-- The length, the entry index or the child index is one of a node. -/
def Admitted : NodeWrite → Prop
  | .length n => n ≤ bnodeCapacity
  | .entry i _ => i < bnodeCapacity
  | .child i _ => i ≤ bnodeCapacity

def run (s : ℕ) : NodeWrite → Kernel Unit
  | .length n => do
    let _ ← bnodeSetLength s n
  | .entry i e => bnodeSetEntry s i e
  | .child i v => bnodeSetChild s i v

def data : NodeWrite → List UInt8
  | .length n => beEncode 4 n
  | .entry _ e => e.id.val ++ e.offset.val
  | .child _ v => (cpuToBe32 v).val

def value : NodeWrite → ℕ ⊕ Bentry
  | .length n => .inl n
  | .entry _ e => .inr e
  | .child _ v => .inl v

/-- The value fits the 32 bits that a child has. -/
def Fits : NodeWrite → Prop
  | .child _ v => v < 2 ^ 32
  | _ => True

/-- `bnode_get_child` refuses a child past the length, so a new length keeps the children
up to it. -/
def Keeps : NodeWrite → NodeField → Prop
  | .length n, .child i => i ≤ n
  | _, _ => True

variable {op : NodeWrite} {s : ℕ} {w w' : World}

theorem inNode (h : op.Admitted) : op.field.InNode := by
  cases op with
  | length n => trivial
  | entry i e => exact h
  | child i v => exact h

@[simp] theorem length_data (op : NodeWrite) : op.data.length = op.field.len := by
  cases op with
  | length n => exact length_beEncode 4 n
  | entry i e => simp [data, field, NodeField.len, sizeofBentry, e.id.2, e.offset.2]
  | child i v => exact (cpuToBe32 v).2

/-- A write lays its bytes over its field when the field lies in the block. -/
theorem run_eq (hadm : op.Admitted) (hfits : op.field.off + op.field.len ≤ w.bSize) :
    (op.run s).run w = .ok () (w.setBlock s ((w.disk s).write op.field.off op.data)) := by
  cases op with
  | length n =>
    have hcap : ¬ n > bnodeCapacity := Nat.not_lt.mpr hadm
    have hin : 0 + (beEncode 4 n).length ≤ w.bSize := by
      rw [length_beEncode]
      exact hfits
    have hset : (bnodeSetLength s n).run w = .ok n (w.setBlock s ((w.disk s).write 0 (beEncode 4 n))) := by
      simp only [bnodeSetLength, EStateM.run_bind_match, run_bugOn, if_neg hcap, run_memWrite hin,
        EStateM.run_pure]
    exact EStateM.run_bind_of_ok hset
  | entry i e =>
    have hin : bnodeGetEntry i + (e.id.val ++ e.offset.val).length ≤ w.bSize := by
      rw [List.length_append, e.id.2, e.offset.2]
      exact hfits
    exact run_memWrite hin
  | child i v =>
    have hin : childrenOff + i * 8 + (cpuToBe32 v).val.length ≤ w.bSize := by
      rw [(cpuToBe32 v).2]
      exact hfits
    exact run_memWrite hin

/-- The last child of a node is out of a block that ends before it. -/
theorem run_lastChild_oob (h : ¬ 2412 ≤ w.bSize) : ((NodeWrite.child 100 0).run s).run w = .error .oob w := by
  have hin : ¬ childrenOff + 100 * 8 + (cpuToBe32 0).val.length ≤ w.bSize := h
  exact run_memWrite_oob hin

/-- The bytes of a write give its value back. -/
theorem valueAt_write (hadm : op.Admitted) (hfits : op.Fits) (b : Block) :
    op.field.valueAt (b.write op.field.off op.data) = op.value := by
  have hread : (b.write op.field.off op.data).read op.field.off op.field.len = op.data :=
    Block.read_write_same op.length_data
  cases op with
  | length n =>
    have hn : n < 256 ^ 4 := lt_of_le_of_lt hadm (by decide)
    have hbytes : (b.write 0 (beEncode 4 n)).read 0 4 = beEncode 4 n := hread
    change Sum.inl (nodeLength (b.write 0 (beEncode 4 n))) = Sum.inl n
    rw [nodeLength, hbytes, beDecode_beEncode, Nat.mod_eq_of_lt hn]
  | entry i e =>
    have hbytes : (b.write (bnodeGetEntry i) (e.id.val ++ e.offset.val)).read (bnodeGetEntry i) (8 + 8) =
        e.id.val ++ e.offset.val := hread
    rw [Block.read_add] at hbytes
    obtain ⟨hid, hoffset⟩ := List.append_inj hbytes (by simp [e.id.2])
    exact congrArg Sum.inr (congrArg₂ Bentry.mk (Subtype.ext hid) (Subtype.ext hoffset))
  | child i v =>
    have hv : v < 256 ^ 4 := hfits
    have hbytes : (b.write (childrenOff + i * 8) (cpuToBe32 v).val).read (childrenOff + i * 8) (4 + 4) =
        beEncode 4 v ++ [0, 0, 0, 0] := hread
    rw [Block.read_add] at hbytes
    obtain ⟨hfront, -⟩ := List.append_inj hbytes (by simp)
    change Sum.inl (childAt (b.write (childrenOff + i * 8) (cpuToBe32 v).val) i) = Sum.inl v
    rw [childAt, hfront, beDecode_beEncode, Nat.mod_eq_of_lt hv]

/-- The other fields keep their bytes. -/
theorem read_write {f : NodeField} (hadm : op.Admitted) (hf : f.InNode) (hne : f ≠ op.field) (b : Block) :
    (b.write op.field.off op.data).read f.off f.len = b.read f.off f.len := by
  apply Block.read_write_of_disjoint
  rw [op.length_data]
  exact NodeField.disjoint hf (op.inNode hadm) hne

/-- The assertions of an accessor go on to hold. -/
theorem guarded_write {f : NodeField} {b : Block} (hadm : op.Admitted) (hne : f ≠ op.field) (hkeep : op.Keeps f)
    (hguard : f.Guarded b) : f.Guarded (b.write op.field.off op.data) := by
  have hlength (h : NodeField.length ≠ op.field) : nodeLength (b.write op.field.off op.data) = nodeLength b :=
    congrArg beDecode (read_write (f := .length) hadm trivial h b)
  cases f with
  | length =>
    change nodeLength _ ≤ bnodeCapacity
    rw [hlength hne]
    exact hguard
  | entry i => trivial
  | child i =>
    change nodeLength _ ≤ bnodeCapacity ∧ i ≤ nodeLength _
    cases op with
    | length n =>
      have hn : nodeLength (b.write 0 (beEncode 4 n)) = n := Sum.inl.inj (valueAt_write hadm trivial b)
      change nodeLength (b.write 0 (beEncode 4 n)) ≤ bnodeCapacity ∧ i ≤ nodeLength (b.write 0 (beEncode 4 n))
      rw [hn]
      exact ⟨hadm, hkeep⟩
    | entry j e =>
      rw [hlength nofun]
      exact hguard
    | child j v =>
      rw [hlength nofun]
      exact hguard

end NodeWrite

/-! ## The layout is sound -/

/-- Every write to the node in a block stays inside the block, keeps the other fields, to
the byte and as the accessors read them, and is read back. -/
structure LayoutSound (s : ℕ) (w : World) : Prop where
  inside : ∀ op : NodeWrite, op.Admitted → ∃ w', (op.run s).run w = .ok () w'
  apart : ∀ (op : NodeWrite) (f : NodeField) (w' : World), op.Admitted → f.InNode → f ≠ op.field →
    (op.run s).run w = .ok () w' → (w'.disk s).read f.off f.len = (w.disk s).read f.off f.len
  unchanged : ∀ (op : NodeWrite) (f : NodeField) (w' : World), op.Admitted → f.InNode → f ≠ op.field →
    op.Keeps f → f.Guarded (w.disk s) → (op.run s).run w = .ok () w' →
    ∃ v, (f.get s).run w = .ok v w ∧ (f.get s).run w' = .ok v w'
  back : ∀ (op : NodeWrite) (w' : World), op.Admitted → op.Fits → (op.run s).run w = .ok () w' →
    op.field.Guarded (w'.disk s) → (op.field.get s).run w' = .ok op.value w'

theorem LayoutSound.of_le {s : ℕ} {w : World} (h : 2412 ≤ w.bSize) : LayoutSound s w := by
  have hfits {f : NodeField} (hf : f.InNode) : f.off + f.len ≤ w.bSize := le_trans (NodeField.end_le hf) h
  have hrun {op : NodeWrite} (hadm : op.Admitted) := NodeWrite.run_eq (s := s) hadm (hfits (op.inNode hadm))
  have hafter {op : NodeWrite} {w' : World} (hadm : op.Admitted) (hok : (op.run s).run w = .ok () w') :
      w'.bSize = w.bSize ∧ w'.disk s = (w.disk s).write op.field.off op.data := by
    rw [hrun hadm] at hok
    obtain rfl := (EStateM.Result.ok.inj hok).2
    exact ⟨rfl, Function.update_self ..⟩
  refine ⟨fun op hadm => ⟨_, hrun hadm⟩, ?_, ?_, ?_⟩
  · intro op f w' hadm hf hne hok
    rw [(hafter hadm hok).2]
    exact NodeWrite.read_write hadm hf hne _
  · intro op f w' hadm hf hne hkeep hguard hok
    obtain ⟨hsize, hdisk⟩ := hafter hadm hok
    have hguard' : f.Guarded (w'.disk s) := by
      rw [hdisk]
      exact NodeWrite.guarded_write hadm hne hkeep hguard
    have hsame : f.valueAt (w'.disk s) = f.valueAt (w.disk s) := by
      rw [hdisk]
      exact NodeField.valueAt_congr (NodeWrite.read_write hadm hf hne _)
    have hafter' := NodeField.run_get (hsize ▸ hfits hf) hguard'
    rw [hsame] at hafter'
    exact ⟨f.valueAt (w.disk s), NodeField.run_get (hfits hf) hguard, hafter'⟩
  · intro op w' hadm hv hok hguard
    obtain ⟨hsize, hdisk⟩ := hafter hadm hok
    have hback := NodeField.run_get (hsize ▸ hfits (op.inNode hadm)) hguard
    rw [hdisk, NodeWrite.valueAt_write hadm hv] at hback
    exact hback

/-- The layout is sound in the blocks of at least 2412 bytes, of which
`spfs_super_block_init` knows nothing. -/
theorem bnodeLayout_sound_iff (s : ℕ) (w : World) : LayoutSound s w ↔ 2412 ≤ w.bSize := by
  constructor
  · intro h
    by_contra hsmall
    have hadm : (NodeWrite.child 100 0).Admitted := Nat.le_refl bnodeCapacity
    obtain ⟨w', hok⟩ := h.inside _ hadm
    rw [NodeWrite.run_lastChild_oob hsmall] at hok
    cases hok
  · exact LayoutSound.of_le

/-- A device of 512-byte blocks. -/
def smallBlocks : World where
  bSize := 512
  bSize_bounds := World.bounds_512
  disk := fun _ _ => 0
  log := []
  sbi := .zero
  inodes := fun _ => none
  slab := []

/-- In blocks of 512 bytes the last child is written two kilobytes behind the block. -/
theorem not_layoutSound_smallBlocks : ¬ LayoutSound 2 smallBlocks := by
  intro h
  obtain ⟨w', hok⟩ := h.inside (.child 100 0) (Nat.le_refl bnodeCapacity)
  have hsmall : ¬ 2412 ≤ smallBlocks.bSize := by decide
  rw [NodeWrite.run_lastChild_oob hsmall] at hok
  cases hok

end Spfs
