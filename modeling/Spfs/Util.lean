-- SUMMARY: util.c: bounded readers and writers of big-endian fields in a block buffer.
import Spfs.Kernel

/-!
# Field readers and writers

The helpers of `util.c`. Each of them is given the size and the content of the
buffer and keeps the position as its state. They differ in the width of the
field and in the number of bytes they demand: `spfs_sb_read_ino` and
`spfs_sb_read_sector` consume four bytes but ask for eight.
-/

namespace Spfs

/-- The bytes left in a buffer from `pos` on. -/
def spfsSbRemaining {σ : Type} (bSize pos : ℕ) : EStateM Fault σ ℕ := do
  bugOn (pos > bSize)
  return bSize - pos

theorem run_spfsSbRemaining {σ : Type} {bSize pos : ℕ} (h : pos ≤ bSize) (s : σ) :
    (spfsSbRemaining bSize pos).run s = .ok (bSize - pos) s := by
  rw [spfsSbRemaining, EStateM.run_bind_of_ok (by rw [run_bugOn, if_neg (Nat.not_lt.mpr h)]),
    EStateM.run_pure]

theorem run_spfsSbRemaining_bug {σ : Type} {bSize pos : ℕ} (h : bSize < pos) (s : σ) :
    (spfsSbRemaining bSize pos).run s = .error .bug s := by
  rw [spfsSbRemaining, EStateM.run_bind_of_error (by rw [run_bugOn, if_pos h])]

/-! ## Readers -/

/-- Read a field of `width` bytes, provided that `demand` bytes are left. -/
def readField (width demand : ℕ) (bSize : ℕ) (b : Block) : EStateM Fault ℕ (Option ℕ) := do
  let pos ← get
  if (← spfsSbRemaining bSize pos) < demand then
    return none
  set (pos + width)
  return some (beDecode (b.read pos width))

def spfsSbReadU16 := readField 2 2
def spfsSbReadU32 := readField 4 4
def spfsSbReadU64 := readField 8 8
def spfsSbReadIno := readField 4 8
def spfsSbReadSector := readField 4 8

/-- Read `len` raw bytes. -/
def spfsSbReadStr (len : ℕ) (bSize : ℕ) (b : Block) : EStateM Fault ℕ (Option (Bytes len)) := do
  let pos ← get
  if (← spfsSbRemaining bSize pos) < len then
    return none
  set (pos + len)
  return some (b.readBytes pos len)

section Readers

variable {width demand len bSize pos : ℕ} {b : Block}

theorem run_readField (h : pos + demand ≤ bSize) :
    (readField width demand bSize b).run pos =
      .ok (some (beDecode (b.read pos width))) (pos + width) := by
  have hpos : pos ≤ bSize := by omega
  have hlen : ¬ bSize - pos < demand := by omega
  rw [readField, EStateM.run_bind_of_ok (EStateM.run_get _),
    EStateM.run_bind_of_ok (run_spfsSbRemaining hpos _), if_neg hlen]
  rfl

theorem run_readField_short (h : bSize < pos + demand) (hpos : pos ≤ bSize) :
    (readField width demand bSize b).run pos = .ok none pos := by
  have hlen : bSize - pos < demand := by omega
  rw [readField, EStateM.run_bind_of_ok (EStateM.run_get _),
    EStateM.run_bind_of_ok (run_spfsSbRemaining hpos _), if_pos hlen]
  rfl

/-- A reader that stays inside the buffer never moves the position out of it. -/
theorem readField_pos_le {pos' : ℕ} {r : Option ℕ} (hw : width ≤ demand)
    (h : (readField width demand bSize b).run pos = .ok r pos') : pos ≤ pos' ∧ pos' ≤ bSize := by
  rcases Nat.lt_or_ge bSize pos with hp | hp
  · rw [readField, EStateM.run_bind_of_ok (EStateM.run_get _),
      EStateM.run_bind_of_error (run_spfsSbRemaining_bug hp _)] at h
    cases h
  rcases Nat.lt_or_ge bSize (pos + demand) with hd | hd
  · rw [run_readField_short hd hp] at h
    cases h
    exact ⟨Nat.le_refl _, hp⟩
  · rw [run_readField hd] at h
    cases h
    omega

theorem run_spfsSbReadU16 (h : pos + 2 ≤ bSize) :
    (spfsSbReadU16 bSize b).run pos = .ok (some (beDecode (b.read pos 2))) (pos + 2) :=
  run_readField h

theorem run_spfsSbReadU32 (h : pos + 4 ≤ bSize) :
    (spfsSbReadU32 bSize b).run pos = .ok (some (beDecode (b.read pos 4))) (pos + 4) :=
  run_readField h

theorem run_spfsSbReadU32_short (h : bSize < pos + 4) (hpos : pos ≤ bSize) :
    (spfsSbReadU32 bSize b).run pos = .ok none pos :=
  run_readField_short h hpos

theorem run_spfsSbReadIno (h : pos + 8 ≤ bSize) :
    (spfsSbReadIno bSize b).run pos = .ok (some (beDecode (b.read pos 4))) (pos + 4) :=
  run_readField h

theorem run_spfsSbReadSector (h : pos + 8 ≤ bSize) :
    (spfsSbReadSector bSize b).run pos = .ok (some (beDecode (b.read pos 4))) (pos + 4) :=
  run_readField h

theorem run_spfsSbReadSector_short (h : bSize < pos + 8) (hpos : pos ≤ bSize) :
    (spfsSbReadSector bSize b).run pos = .ok none pos :=
  run_readField_short h hpos

theorem run_spfsSbReadStr (h : pos + len ≤ bSize) :
    (spfsSbReadStr len bSize b).run pos = .ok (some (b.readBytes pos len)) (pos + len) := by
  have hpos : pos ≤ bSize := by omega
  have hlen : ¬ bSize - pos < len := by omega
  rw [spfsSbReadStr, EStateM.run_bind_of_ok (EStateM.run_get _),
    EStateM.run_bind_of_ok (run_spfsSbRemaining hpos _), if_neg hlen]
  rfl

theorem run_spfsSbReadStr_short (h : bSize < pos + len) (hpos : pos ≤ bSize) :
    (spfsSbReadStr len bSize b).run pos = .ok none pos := by
  have hlen : bSize - pos < len := by omega
  rw [spfsSbReadStr, EStateM.run_bind_of_ok (EStateM.run_get _),
    EStateM.run_bind_of_ok (run_spfsSbRemaining hpos _), if_pos hlen]
  rfl

/-- A parser of `n` bytes that refuses shorter buffers accepts what passes its test. -/
theorem parse_eq_ok_iff {α : Type} {parse : EStateM Fault ℕ (Except ℤ α)} {n : ℕ} {e : ℤ} {P : Prop}
    [Decidable P] {x y : α}
    (hlong : n ≤ bSize → parse.run 0 = .ok (if P then .ok x else .error e) n)
    (hshort : bSize < n → ∃ pos, parse.run 0 = .ok (.error e) pos) :
    parse.run 0 = .ok (.ok y) pos ↔ n ≤ bSize ∧ pos = n ∧ P ∧ x = y := by
  constructor
  · intro h
    by_cases hsize : n ≤ bSize
    · rw [hlong hsize] at h
      split at h
      · next htest =>
        cases h
        exact ⟨hsize, rfl, htest, rfl⟩
      · cases h
    · obtain ⟨pos', hrefused⟩ := hshort (Nat.lt_of_not_le hsize)
      cases hrefused.symm.trans h
  · rintro ⟨hsize, rfl, htest, rfl⟩
    rw [hlong hsize, if_pos htest]

end Readers

/-! ## Writers -/

/-- Write raw bytes, provided that `demand` bytes are left. -/
def writeBytes (demand : ℕ) (bSize : ℕ) (l : List UInt8) : EStateM Fault Buf Bool := do
  let buf ← get
  if (← spfsSbRemaining bSize buf.pos) < demand then
    return false
  set (⟨buf.data.write buf.pos l, buf.pos + l.length⟩ : Buf)
  return true

def spfsSbWriteU16 (bSize val : ℕ) := writeBytes 2 bSize (beEncode 2 val)
def spfsSbWriteU32 (bSize val : ℕ) := writeBytes 4 bSize (beEncode 4 val)
def spfsSbWriteU64 (bSize val : ℕ) := writeBytes 8 bSize (beEncode 8 val)
def spfsSbWriteIno (bSize val : ℕ) := writeBytes 8 bSize (beEncode 4 val)
def spfsSbWriteSector (bSize val : ℕ) := writeBytes 8 bSize (beEncode 4 val)

/-- `spfs_sb_write_str` copies `len` bytes from the address of its parameter
`str`, not from where `str` points: what it writes is the stack memory from that
address on. -/
def spfsSbWriteStr {len : ℕ} (bSize : ℕ) (stackAtStr : Bytes len) :=
  writeBytes len bSize stackAtStr.val

section Writers

variable {demand bSize val pos : ℕ} {l : List UInt8} {b : Block}

theorem run_writeBytes (h : pos + demand ≤ bSize) :
    (writeBytes demand bSize l).run ⟨b, pos⟩ = .ok true ⟨b.write pos l, pos + l.length⟩ := by
  have hpos : pos ≤ bSize := by omega
  have hlen : ¬ bSize - pos < demand := by omega
  rw [writeBytes, EStateM.run_bind_of_ok (EStateM.run_get _),
    EStateM.run_bind_of_ok (run_spfsSbRemaining hpos _), if_neg hlen]
  rfl

theorem run_writeBytes_short (h : bSize < pos + demand) (hpos : pos ≤ bSize) :
    (writeBytes demand bSize l).run ⟨b, pos⟩ = .ok false ⟨b, pos⟩ := by
  have hlen : bSize - pos < demand := by omega
  rw [writeBytes, EStateM.run_bind_of_ok (EStateM.run_get _),
    EStateM.run_bind_of_ok (run_spfsSbRemaining hpos _), if_pos hlen]
  rfl

theorem run_spfsSbWriteU16 (h : pos + 2 ≤ bSize) :
    (spfsSbWriteU16 bSize val).run ⟨b, pos⟩ =
      .ok true ⟨b.write pos (beEncode 2 val), pos + 2⟩ := by
  rw [spfsSbWriteU16, run_writeBytes h, length_beEncode]

theorem run_spfsSbWriteU32 (h : pos + 4 ≤ bSize) :
    (spfsSbWriteU32 bSize val).run ⟨b, pos⟩ =
      .ok true ⟨b.write pos (beEncode 4 val), pos + 4⟩ := by
  rw [spfsSbWriteU32, run_writeBytes h, length_beEncode]

theorem run_spfsSbWriteStr {len : ℕ} {str : Bytes len} (h : pos + len ≤ bSize) :
    (spfsSbWriteStr bSize str).run ⟨b, pos⟩ = .ok true ⟨b.write pos str.val, pos + len⟩ := by
  rw [spfsSbWriteStr, run_writeBytes h, str.property]

end Writers

end Spfs
