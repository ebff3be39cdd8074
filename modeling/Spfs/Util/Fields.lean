-- SUMMARY: Any sequence of fields that util.c writes into a buffer is read back by the readers of these fields.
import Spfs.Util

/-!
# Sequences of fields

A reader and the writer of a field ask for the same room, though it may be more than the field
takes. So they agree on which fields of a sequence are refused, and each finds the
position where the other left it.
-/

namespace Spfs

/-- The kinds of fields that there are helpers for. -/
inductive FieldKind where
  | u16
  | u32
  | u64
  | ino
  | sector
  | str (len : ℕ)

/-- A field with what is to be written. For a string that is the memory at the address of the
parameter. -/
inductive Field where
  | u16 (val : ℕ)
  | u32 (val : ℕ)
  | u64 (val : ℕ)
  | ino (val : ℕ)
  | sector (val : ℕ)
  | str (stackAtStr : List UInt8)

/-! ## Runs of the helpers -/

def Field.kind : Field → FieldKind
  | u16 _ => .u16
  | u32 _ => .u32
  | u64 _ => .u64
  | ino _ => .ino
  | sector _ => .sector
  | str l => .str l.length

def Field.write (bSize : ℕ) : Field → EStateM Fault Buf Bool
  | u16 val => spfsSbWriteU16 bSize val
  | u32 val => spfsSbWriteU32 bSize val
  | u64 val => spfsSbWriteU64 bSize val
  | ino val => spfsSbWriteIno bSize val
  | sector val => spfsSbWriteSector bSize val
  | str l => spfsSbWriteStr bSize (⟨l, rfl⟩ : Bytes l.length)

def FieldKind.read (bSize : ℕ) (b : Block) : FieldKind → EStateM Fault ℕ (Option Field)
  | u16 => do return (← spfsSbReadU16 bSize b).map .u16
  | u32 => do return (← spfsSbReadU32 bSize b).map .u32
  | u64 => do return (← spfsSbReadU64 bSize b).map .u64
  | ino => do return (← spfsSbReadIno bSize b).map .ino
  | sector => do return (← spfsSbReadSector bSize b).map .sector
  | str len => do return (← spfsSbReadStr len bSize b).map fun l => .str l.val

/-- The fields are written one behind the other, and one that is refused is passed over. -/
def writeFields (bSize : ℕ) : List Field → EStateM Fault Buf (List Bool)
  | [] => return []
  | f :: fs => do
    let ok ← f.write bSize
    let oks ← writeFields bSize fs
    return ok :: oks

def readFields (bSize : ℕ) (b : Block) : List FieldKind → EStateM Fault ℕ (List (Option Field))
  | [] => return []
  | k :: ks => do
    let f ← k.read bSize b
    let fs ← readFields bSize b ks
    return f :: fs

/-! ## One field -/

/-- The bytes that a field takes. -/
def FieldKind.width : FieldKind → ℕ
  | u16 => 2
  | u32 | ino | sector => 4
  | u64 => 8
  | str len => len

/-- The bytes that the helpers ask for. -/
def FieldKind.demand : FieldKind → ℕ
  | u16 => 2
  | u32 => 4
  | u64 | ino | sector => 8
  | str len => len

theorem FieldKind.width_le_demand (k : FieldKind) : k.width ≤ k.demand := by
  cases k <;> simp [width, demand]

/-- The bytes of a field in the buffer. -/
def Field.bytes : Field → List UInt8
  | u16 val => beEncode 2 val
  | u32 val | ino val | sector val => beEncode 4 val
  | u64 val => beEncode 8 val
  | str l => l

/-- The field that the bytes stand for. -/
def FieldKind.decode : FieldKind → List UInt8 → Field
  | u16, l => .u16 (beDecode l)
  | u32, l => .u32 (beDecode l)
  | u64, l => .u64 (beDecode l)
  | ino, l => .ino (beDecode l)
  | sector, l => .sector (beDecode l)
  | str _, l => .str l

/-- The field with what its bytes can hold of the value. -/
def Field.stored : Field → Field
  | u16 val => .u16 (val % 2 ^ 16)
  | u32 val => .u32 (val % 2 ^ 32)
  | u64 val => .u64 (val % 2 ^ 64)
  | ino val => .ino (val % 2 ^ 32)
  | sector val => .sector (val % 2 ^ 32)
  | str l => .str l

@[simp] theorem Field.length_bytes (f : Field) : f.bytes.length = f.kind.width := by
  cases f <;> simp [bytes, kind, FieldKind.width]

theorem Field.decode_bytes (f : Field) : f.kind.decode f.bytes = f.stored := by
  cases f with
  | str l => rfl
  | u16 val | u32 val | u64 val | ino val | sector val =>
    simp only [kind, FieldKind.decode, bytes, beDecode_beEncode]
    rfl

theorem FieldKind.bytes_decode (k : FieldKind) {l : List UInt8} (h : l.length = k.width) : (k.decode l).bytes = l := by
  cases k with
  | str len => rfl
  | u16 | u32 | u64 | ino | sector =>
    have hback := beEncode_beDecode l
    rw [h] at hback
    exact hback

theorem FieldKind.kind_decode (k : FieldKind) {l : List UInt8} (h : l.length = k.width) : (k.decode l).kind = k := by
  cases k with
  | str len => exact congrArg FieldKind.str h
  | u16 | u32 | u64 | ino | sector => rfl

section Run

variable {bSize pos : ℕ} {b : Block}

theorem Field.run_write (f : Field) (h : pos ≤ bSize) :
    (f.write bSize).run ⟨b, pos⟩ = if pos + f.kind.demand ≤ bSize then .ok true ⟨b.write pos f.bytes, pos + f.kind.width⟩
      else .ok false ⟨b, pos⟩ := by
  have hwrite : f.write bSize = writeBytes f.kind.demand bSize f.bytes := by
    cases f <;> rfl
  rw [hwrite]
  split
  · next hfits => rw [run_writeBytes hfits, f.length_bytes]
  · next hshort => rw [run_writeBytes_short (Nat.lt_of_not_le hshort) h]

theorem FieldKind.run_read (k : FieldKind) (h : pos ≤ bSize) :
    (k.read bSize b).run pos = if pos + k.demand ≤ bSize then .ok (some (k.decode (b.read pos k.width))) (pos + k.width)
      else .ok none pos := by
  have hnumber (width demand : ℕ) (f : ℕ → Field) :
      (do return (← readField width demand bSize b).map f : EStateM Fault ℕ (Option Field)).run pos =
        if pos + demand ≤ bSize then .ok (some (f (beDecode (b.read pos width)))) (pos + width) else .ok none pos := by
    split
    · next hfits =>
      rw [EStateM.run_bind_of_ok (run_readField hfits)]
      rfl
    · next hshort =>
      rw [EStateM.run_bind_of_ok (run_readField_short (Nat.lt_of_not_le hshort) h)]
      rfl
  cases k with
  | str len =>
    rw [demand, width, read]
    by_cases hfits : pos + len ≤ bSize
    · rw [if_pos hfits, EStateM.run_bind_of_ok (run_spfsSbReadStr hfits)]
      rfl
    · rw [if_neg hfits, EStateM.run_bind_of_ok (run_spfsSbReadStr_short (Nat.lt_of_not_le hfits) h)]
      rfl
  | u16 | u32 | u64 | ino | sector => exact hnumber _ _ _

end Run

/-! ## Sequences -/

section Sequences

variable {bSize pos : ℕ}

/-- What a reader finds of a field: nothing, if it was refused. -/
def Field.ifStored (ok : Bool) (f : Field) : Option Field := if ok then some f.stored else none

/-- What the writers leave of the fields, the readers find: the same fields are refused, and all others
have the value that was written. Nothing changes but the bytes between the two positions. -/
theorem readFields_of_writeFields (fields : List Field) (b : Block) (h : pos ≤ bSize) :
    ∃ oks b' pos', (writeFields bSize fields).run ⟨b, pos⟩ = .ok oks ⟨b', pos'⟩ ∧
      pos ≤ pos' ∧ pos' ≤ bSize ∧ (∀ a, a < pos ∨ pos' ≤ a → b' a = b a) ∧
      (readFields bSize b' (fields.map Field.kind)).run pos = .ok (List.zipWith Field.ifStored oks fields) pos' := by
  induction fields generalizing b pos with
  | nil => exact ⟨[], b, pos, rfl, Nat.le_refl _, h, fun _ _ => rfl, rfl⟩
  | cons f fs ih =>
    by_cases hfits : pos + f.kind.demand ≤ bSize
    · have hwidth := f.kind.width_le_demand
      have hwrite := f.run_write (b := b) h
      rw [if_pos hfits] at hwrite
      obtain ⟨oks, b', pos', hrun, hle, hend, hframe, hback⟩ :=
        ih (b.write pos f.bytes) (show pos + f.kind.width ≤ bSize by omega)
      have hbytes : b'.read pos f.kind.width = f.bytes := by
        have hkept : b'.read pos f.kind.width = (b.write pos f.bytes).read pos f.kind.width :=
          Block.read_congr fun i hi => hframe (pos + i) (.inl (by omega))
        rw [hkept, Block.read_write_same f.length_bytes]
      have hread := f.kind.run_read (b := b') h
      rw [if_pos hfits, hbytes, f.decode_bytes] at hread
      refine ⟨true :: oks, b', pos', ?_, by omega, hend, fun a ha => ?_, ?_⟩
      · rw [writeFields, EStateM.run_bind_of_ok hwrite, EStateM.run_bind_of_ok hrun]
        rfl
      · rw [hframe a (by omega), Block.write_frame]
        rw [f.length_bytes]
        omega
      · rw [List.map_cons, readFields, EStateM.run_bind_of_ok hread, EStateM.run_bind_of_ok hback]
        rfl
    · have hwrite := f.run_write (b := b) h
      rw [if_neg hfits] at hwrite
      obtain ⟨oks, b', pos', hrun, hle, hend, hframe, hback⟩ := ih b h
      have hread := f.kind.run_read (b := b') h
      rw [if_neg hfits] at hread
      refine ⟨false :: oks, b', pos', ?_, hle, hend, hframe, ?_⟩
      · rw [writeFields, EStateM.run_bind_of_ok hwrite, EStateM.run_bind_of_ok hrun]
        rfl
      · rw [List.map_cons, readFields, EStateM.run_bind_of_ok hread, EStateM.run_bind_of_ok hback]
        rfl

/-- Writing what was read changes nothing, and nothing of it is refused. -/
theorem writeFields_of_readFields (kinds : List FieldKind) (b : Block) (h : pos ≤ bSize) :
    ∃ fields pos', (readFields bSize b kinds).run pos = .ok fields pos' ∧
      (writeFields bSize fields.reduceOption).run ⟨b, pos⟩ =
        .ok (List.replicate fields.reduceOption.length true) ⟨b, pos'⟩ := by
  induction kinds generalizing pos with
  | nil => exact ⟨[], pos, rfl, rfl⟩
  | cons k ks ih =>
    have hread := k.run_read (b := b) h
    by_cases hfits : pos + k.demand ≤ bSize
    · rw [if_pos hfits] at hread
      have hwidth := k.width_le_demand
      obtain ⟨fields, pos', hrun, hback⟩ := ih (show pos + k.width ≤ bSize by omega)
      set f := k.decode (b.read pos k.width)
      have hkind : f.kind = k := k.kind_decode (b.length_read _ _)
      have hwrite := f.run_write (b := b) h
      rw [hkind, if_pos hfits, k.bytes_decode (b.length_read _ _), Block.write_read_self] at hwrite
      refine ⟨some f :: fields, pos', ?_, ?_⟩
      · rw [readFields, EStateM.run_bind_of_ok hread, EStateM.run_bind_of_ok hrun]
        rfl
      · show (writeFields bSize (f :: fields.reduceOption)).run ⟨b, pos⟩ = _
        rw [writeFields, EStateM.run_bind_of_ok hwrite, EStateM.run_bind_of_ok hback]
        rfl
    · rw [if_neg hfits] at hread
      obtain ⟨fields, pos', hrun, hback⟩ := ih h
      refine ⟨none :: fields, pos', ?_, hback⟩
      rw [readFields, EStateM.run_bind_of_ok hread, EStateM.run_bind_of_ok hrun]
      rfl

/-- Readers and writers of any sequence of fields agree, from any position in a buffer of any size. -/
theorem fields_roundTrip (h : pos ≤ bSize) :
    (∀ (fields : List Field) (b : Block), ∃ oks b' pos',
      (writeFields bSize fields).run ⟨b, pos⟩ = .ok oks ⟨b', pos'⟩ ∧ (∀ a, a < pos ∨ pos' ≤ a → b' a = b a) ∧
        (readFields bSize b' (fields.map Field.kind)).run pos = .ok (List.zipWith Field.ifStored oks fields) pos') ∧
    ∀ (kinds : List FieldKind) (b : Block), ∃ fields pos', (readFields bSize b kinds).run pos = .ok fields pos' ∧
      (writeFields bSize fields.reduceOption).run ⟨b, pos⟩ =
        .ok (List.replicate fields.reduceOption.length true) ⟨b, pos'⟩ := by
  refine ⟨fun fields b => ?_, fun kinds b => writeFields_of_readFields kinds b h⟩
  obtain ⟨oks, b', pos', hrun, -, -, hframe, hback⟩ := readFields_of_writeFields fields b h
  exact ⟨oks, b', pos', hrun, hframe, hback⟩

end Sequences

/-- Of three fields at the end of a buffer the second is refused, though its bytes would fit. -/
theorem fields_roundTrip_refused : ∃ oks b' pos',
    (writeFields 512 [.u64 1, .ino 2, .u32 3]).run ⟨fun _ => 0, 500⟩ = .ok oks ⟨b', pos'⟩ ∧
      (∀ a, a < 500 ∨ pos' ≤ a → b' a = 0) ∧ (readFields 512 b' [.u64, .ino, .u32]).run 500 =
        .ok (List.zipWith Field.ifStored oks [.u64 1, .ino 2, .u32 3]) pos' :=
  (fields_roundTrip (by decide)).1 [.u64 1, .ino 2, .u32 3] fun _ => 0

end Spfs
