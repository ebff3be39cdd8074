-- SUMMARY: Byte blocks with bounded reads and writes, and big-endian codes of natural numbers.
import Mathlib.Algebra.Ring.Nat
import Mathlib.Data.List.GetD
import Mathlib.Data.List.Induction
import Mathlib.Data.Nat.Init

/-!
# Byte blocks

A block is a total function from offsets to bytes. Reads return the list of the
bytes of a range and writes overlay a list at an offset, so the frame of a write
is a statement about disjoint ranges. Bounds are the business of the caller: a
block carries no length.
-/

abbrev Block := ℕ → UInt8

/-- Byte strings of a fixed length. -/
abbrev Bytes (n : ℕ) := {l : List UInt8 // l.length = n}

namespace Block

/-- The `len` bytes from offset `pos` on. -/
def read (b : Block) (pos len : ℕ) : List UInt8 :=
  (List.range len).map fun i => b (pos + i)

/-- The block with `l` laid over the bytes from offset `pos` on. -/
def write (b : Block) (pos : ℕ) (l : List UInt8) : Block :=
  fun a => if pos ≤ a then l.getD (a - pos) (b a) else b a

/-- The `n` bytes from offset `pos` on, with their number in the type. -/
def readBytes (b : Block) (pos n : ℕ) : Bytes n :=
  ⟨b.read pos n, by simp [read]⟩

@[simp] theorem length_read (b : Block) (pos len : ℕ) : (b.read pos len).length = len := by
  simp [read]

theorem getElem_read {b : Block} {pos len i : ℕ} (h : i < (b.read pos len).length) :
    (b.read pos len)[i] = b (pos + i) := by
  simp [read]

@[simp] theorem read_zero (b : Block) (pos : ℕ) : b.read pos 0 = [] := rfl

@[simp] theorem write_nil (b : Block) (pos : ℕ) : b.write pos [] = b := by
  funext a
  simp [write]

theorem write_apply_of_lt {b : Block} {pos a : ℕ} {l : List UInt8} (h : a < pos) :
    b.write pos l a = b a := by
  simp [write, Nat.not_le.mpr h]

theorem write_apply_of_ge {b : Block} {pos a : ℕ} {l : List UInt8} (h : pos + l.length ≤ a) :
    b.write pos l a = b a := by
  unfold write
  split
  · exact List.getD_eq_default _ _ (by omega)
  · rfl

theorem write_apply {b : Block} {pos i : ℕ} {l : List UInt8} (h : i < l.length) :
    b.write pos l (pos + i) = l[i] := by
  simp [write, h]

theorem write_zero_apply {b : Block} {i : ℕ} {l : List UInt8} (h : i < l.length) :
    b.write 0 l i = l[i] := by
  simp [write, h]

/-- Bytes outside the written range are kept. -/
theorem write_frame {b : Block} {pos a : ℕ} {l : List UInt8}
    (h : a < pos ∨ pos + l.length ≤ a) : b.write pos l a = b a := by
  rcases h with h | h
  · exact write_apply_of_lt h
  · exact write_apply_of_ge h

theorem read_congr {b b' : Block} {pos len : ℕ} (h : ∀ i < len, b (pos + i) = b' (pos + i)) :
    b.read pos len = b'.read pos len := by
  apply List.map_congr_left
  intro i hi
  exact h i (List.mem_range.mp hi)

/-- A read that misses the written range does not see the write. -/
theorem read_write_of_disjoint {b : Block} {pos len wpos : ℕ} {l : List UInt8}
    (h : pos + len ≤ wpos ∨ wpos + l.length ≤ pos) :
    (b.write wpos l).read pos len = b.read pos len := by
  apply read_congr
  intro i hi
  apply write_frame
  omega

/-- A read of exactly the written range returns what was written. -/
theorem read_write_same {b : Block} {pos len : ℕ} {l : List UInt8} (h : l.length = len) :
    (b.write pos l).read pos len = l := by
  apply List.ext_getElem
  · simp [h]
  · intro i h₁ h₂
    rw [getElem_read, write_apply h₂]

/-- Writing back what was read changes nothing. -/
theorem write_read_self (b : Block) (pos len : ℕ) : b.write pos (b.read pos len) = b := by
  funext a
  by_cases h : pos ≤ a ∧ a < pos + len
  · obtain ⟨i, rfl⟩ := Nat.exists_eq_add_of_le h.1
    rw [write_apply (by simp; omega), getElem_read]
  · exact write_frame (by simp; omega)

/-- Two adjacent writes are one. -/
theorem write_append (b : Block) (pos : ℕ) (l l' : List UInt8) :
    b.write pos (l ++ l') = (b.write pos l).write (pos + l.length) l' := by
  funext a
  rcases Nat.lt_or_ge a pos with h | h
  · rw [write_apply_of_lt h, write_apply_of_lt (by omega), write_apply_of_lt h]
  obtain ⟨i, rfl⟩ := Nat.exists_eq_add_of_le h
  rcases Nat.lt_or_ge i l.length with hi | hi
  · rw [write_apply (by simp; omega), write_apply_of_lt (by omega), write_apply hi,
      List.getElem_append_left hi]
  obtain ⟨j, rfl⟩ := Nat.exists_eq_add_of_le hi
  rcases Nat.lt_or_ge j l'.length with hj | hj
  · rw [write_apply (by simp; omega), ← Nat.add_assoc, write_apply hj,
      List.getElem_append_right (by omega)]
    simp
  · rw [write_apply_of_ge (by simp; omega), write_apply_of_ge (by omega),
      write_apply_of_ge (by omega)]

/-- A second write to the same place hides the first. -/
theorem write_write_same {b : Block} {pos : ℕ} {l l' : List UInt8} (h : l.length = l'.length) :
    (b.write pos l).write pos l' = b.write pos l' := by
  funext a
  by_cases ha : pos ≤ a ∧ a < pos + l'.length
  · obtain ⟨i, rfl⟩ := Nat.exists_eq_add_of_le ha.1
    rw [write_apply (by omega), write_apply (by omega)]
  · rw [write_frame (by omega), write_frame (by omega), write_frame (by omega)]

/-- A write over the front of what was written replaces the front. -/
theorem write_append_write {b : Block} {pos : ℕ} {l l' r : List UInt8}
    (h : l.length = l'.length) : (b.write pos (l ++ r)).write pos l' = b.write pos (l' ++ r) := by
  funext a
  rcases Nat.lt_or_ge a pos with ha | ha
  · rw [write_apply_of_lt ha, write_apply_of_lt ha, write_apply_of_lt ha]
  obtain ⟨i, rfl⟩ := Nat.exists_eq_add_of_le ha
  rcases Nat.lt_or_ge i l'.length with hi | hi
  · rw [write_apply hi, write_append b pos l' r, write_apply_of_lt (by omega), write_apply hi]
  · rw [write_apply_of_ge (by omega), write_append, write_append, h]
    rcases Nat.lt_or_ge i (l'.length + r.length) with hr | hr
    · obtain ⟨j, rfl⟩ := Nat.exists_eq_add_of_le hi
      rw [← Nat.add_assoc, write_apply (by omega), write_apply (by omega)]
    · rw [write_apply_of_ge (by omega), write_apply_of_ge (by omega), write_apply_of_ge (by omega),
        write_apply_of_ge (by omega)]

/-- Of a sequence of fields written at once, each is read back at the end of those
before it. -/
theorem read_write_flatten (b : Block) (pos : ℕ) (fields : List (List UInt8)) {k : ℕ}
    (h : k < fields.length) :
    (b.write pos fields.flatten).read (pos + (fields.take k).flatten.length) fields[k].length =
      fields[k] := by
  have hsplit : fields.flatten =
      (fields.take k).flatten ++ (fields[k] ++ (fields.drop (k + 1)).flatten) := by
    rw [← List.flatten_cons, List.getElem_cons_drop, ← List.flatten_append,
      List.take_append_drop]
  rw [hsplit, write_append, write_append, read_write_of_disjoint (by simp), read_write_same rfl]

/-- A read splits at any point. -/
theorem read_add (b : Block) (pos m n : ℕ) :
    b.read pos (m + n) = b.read pos m ++ b.read (pos + m) n := by
  simp [read, List.range_add, Nat.add_assoc]

/-- A byte after a write of the first `k` bytes of a list. -/
theorem write_take_apply (b : Block) (pos k a : ℕ) (l : List UInt8) :
    b.write pos (l.take k) a =
      if pos ≤ a ∧ a < pos + k then l.getD (a - pos) (b a) else b a := by
  unfold write
  by_cases hge : pos ≤ a
  · rw [if_pos hge, List.getD_eq_getElem?_getD, List.getElem?_take]
    by_cases hlt : a - pos < k
    · rw [if_pos hlt, if_pos ⟨hge, by omega⟩, List.getD_eq_getElem?_getD]
    · rw [if_neg hlt, if_neg (by omega)]
      rfl
  · rw [if_neg hge, if_neg fun h => hge h.1]

/-- Consecutive blocks of `bs` bytes as one, from block `s` on. -/
def joined (bs : ℕ) (disk : ℕ → Block) (s : ℕ) : Block := fun i => disk (s + i / bs) (i % bs)

theorem joined_of_lt {bs i : ℕ} (disk : ℕ → Block) (s : ℕ) (h : i < bs) :
    joined bs disk s i = disk s i := by
  rw [joined, Nat.div_eq_of_lt h, Nat.mod_eq_of_lt h, Nat.add_zero]

theorem joined_add {bs : ℕ} (disk : ℕ → Block) (s i : ℕ) (h : 0 < bs) :
    joined bs disk s (bs + i) = joined bs disk (s + 1) i := by
  rw [joined, joined, Nat.add_div_left i h, Nat.add_mod_left, Nat.add_comm _ 1, Nat.add_assoc]

theorem joined_mul_add {bs i : ℕ} (disk : ℕ → Block) (s j : ℕ) (h : i < bs) :
    joined bs disk s (j * bs + i) = disk (s + j) i := by
  have hpos : 0 < bs := Nat.zero_lt_of_lt h
  rw [joined, Nat.mul_comm, Nat.mul_add_div hpos, Nat.div_eq_of_lt h, Nat.mul_add_mod,
    Nat.mod_eq_of_lt h, Nat.add_zero]

/-- Blocks that agree from `s` on join to the same bytes. -/
theorem joined_congr {bs s : ℕ} {disk disk' : ℕ → Block} (h : ∀ t ≥ s, disk t = disk' t) :
    joined bs disk s = joined bs disk' s := by
  funext i
  rw [joined, joined, h _ (Nat.le_add_right s _)]

/-- A list that is written over blocks one after the other: what fits in the first one,
and the rest over those behind it. -/
theorem joined_write {bs s pos : ℕ} {disk disk' : ℕ → Block} {l : List UInt8} {k : ℕ} (hbs : 0 < bs)
    (hfirst : disk' s = (disk s).write pos (l.take (min l.length (bs - pos))))
    (hrest : joined bs disk' (s + 1) = (joined bs disk (s + 1)).write (pos - bs)
      ((l.drop (min l.length (bs - pos))).take (k - min l.length (bs - pos))))
    (hk : min l.length (bs - pos) ≤ k) (hl : k ≤ l.length) :
    joined bs disk' s = (joined bs disk s).write pos (l.take k) := by
  set k₁ := min l.length (bs - pos)
  funext i
  rcases Nat.lt_or_ge i bs with hi | hi
  · rw [joined_of_lt disk' s hi, hfirst, write_take_apply, write_take_apply, joined_of_lt disk s hi]
    by_cases hin : pos ≤ i ∧ i < pos + k₁
    · rw [if_pos hin, if_pos ⟨hin.1, by omega⟩]
    · rw [if_neg hin, if_neg (by omega)]
  · obtain ⟨m, rfl⟩ := Nat.exists_eq_add_of_le hi
    rw [joined_add _ _ _ hbs, hrest, write_take_apply, write_take_apply, joined_add _ _ _ hbs]
    by_cases hin : pos ≤ bs + m ∧ bs + m < pos + k
    · have hindex : k₁ + (m - (pos - bs)) = bs + m - pos := by omega
      rw [if_pos hin, if_pos (by omega), List.getD_eq_getElem?_getD, List.getElem?_drop, hindex,
        List.getD_eq_getElem?_getD]
    · rw [if_neg hin, if_neg (by omega)]

/-- A read over blocks: the part in the first one, and the part behind it. -/
theorem joined_read {bs s : ℕ} (disk : ℕ → Block) (hbs : 0 < bs) (pos n : ℕ) :
    (joined bs disk s).read pos n = (disk s).read pos (min n (bs - pos)) ++
      (joined bs disk (s + 1)).read (pos - bs) (n - min n (bs - pos)) := by
  have hsplit : n = min n (bs - pos) + (n - min n (bs - pos)) := by omega
  have hfirst : (joined bs disk s).read pos (min n (bs - pos)) =
      (disk s).read pos (min n (bs - pos)) := by
    apply List.map_congr_left
    intro i hi
    have := List.mem_range.mp hi
    exact joined_of_lt disk s (by omega)
  have hrest : (joined bs disk s).read (pos + min n (bs - pos)) (n - min n (bs - pos)) =
      (joined bs disk (s + 1)).read (pos - bs) (n - min n (bs - pos)) := by
    apply List.map_congr_left
    intro i hi
    have := List.mem_range.mp hi
    have hat : pos + min n (bs - pos) + i = bs + (pos - bs + i) := by omega
    rw [hat, joined_add disk s _ hbs]
  conv_lhs => rw [hsplit, read_add, hfirst, hrest]

end Block

/-! ## Big-endian codes -/

/-- The number a byte string denotes, most significant byte first. -/
def beDecode (l : List UInt8) : ℕ := l.foldl (fun acc x => 256 * acc + x.toNat) 0

/-- The last `k` bytes of `n`, most significant byte first. -/
def beEncode : ℕ → ℕ → List UInt8
  | 0, _ => []
  | k + 1, n => beEncode k (n / 256) ++ [UInt8.ofNat n]

@[simp] theorem length_beEncode (k n : ℕ) : (beEncode k n).length = k := by
  induction k generalizing n with
  | zero => rfl
  | succ k ih => simp [beEncode, ih]

theorem beDecode_concat (l : List UInt8) (x : UInt8) :
    beDecode (l ++ [x]) = 256 * beDecode l + x.toNat := by
  simp [beDecode]

theorem beDecode_append (l l' : List UInt8) :
    beDecode (l ++ l') = 256 ^ l'.length * beDecode l + beDecode l' := by
  induction l' using List.reverseRecOn with
  | nil => simp [beDecode]
  | append_singleton l' x ih =>
    rw [← List.append_assoc, beDecode_concat, beDecode_concat, ih, List.length_append,
      List.length_singleton, Nat.pow_succ', Nat.mul_assoc, Nat.mul_add, Nat.add_assoc]

theorem beDecode_lt (l : List UInt8) : beDecode l < 256 ^ l.length := by
  induction l using List.reverseRecOn with
  | nil => simp [beDecode]
  | append_singleton l x ih =>
    have hx := x.toNat_lt
    rw [beDecode_concat, List.length_append, List.length_singleton, Nat.pow_succ]
    omega

/-- Decoding an encoded number keeps it modulo the width of the code. -/
theorem beDecode_beEncode (k n : ℕ) : beDecode (beEncode k n) = n % 256 ^ k := by
  induction k generalizing n with
  | zero => simp [beEncode, beDecode, Nat.mod_one]
  | succ k ih =>
    calc beDecode (beEncode (k + 1) n)
        = 256 * (n / 256 % 256 ^ k) + n % 256 := by simp [beEncode, beDecode_concat, ih]
      _ = n % (256 * 256 ^ k) := by rw [Nat.mod_mul, Nat.add_comm]
      _ = n % 256 ^ (k + 1) := by rw [Nat.pow_succ']

/-- A code only looks at the number modulo its width. -/
theorem beEncode_mod (k n : ℕ) : beEncode k (n % 256 ^ k) = beEncode k n := by
  induction k generalizing n with
  | zero => rfl
  | succ k ih =>
    have hdiv : n % 256 ^ (k + 1) / 256 = n / 256 % 256 ^ k := by
      rw [Nat.pow_succ', Nat.mod_mul_right_div_self]
    have hbyte : UInt8.ofNat (n % 256 ^ (k + 1)) = UInt8.ofNat n := by
      apply UInt8.toNat_inj.mp
      simp [Nat.pow_succ']
    rw [beEncode, beEncode, hdiv, ih, hbyte]

/-- Two numbers have the same code exactly when they agree modulo its width. -/
theorem beEncode_inj {k m n : ℕ} : beEncode k m = beEncode k n ↔ m % 256 ^ k = n % 256 ^ k := by
  constructor
  · intro h
    rw [← beDecode_beEncode, ← beDecode_beEncode, h]
  · intro h
    rw [← beEncode_mod k m, ← beEncode_mod k n, h]

/-- Encoding what was decoded restores the bytes. -/
theorem beEncode_beDecode (l : List UInt8) : beEncode l.length (beDecode l) = l := by
  induction l using List.reverseRecOn with
  | nil => rfl
  | append_singleton l x ih =>
    have hx := x.toNat_lt
    have hdiv : (256 * beDecode l + x.toNat) / 256 = beDecode l := by omega
    have hbyte : UInt8.ofNat (256 * beDecode l + x.toNat) = x := by
      apply UInt8.toNat_inj.mp
      simp
    rw [List.length_append, List.length_singleton, beEncode, beDecode_concat, hdiv, ih, hbyte]

namespace Block

theorem decode_read_lt (b : Block) (pos len : ℕ) : beDecode (b.read pos len) < 256 ^ len := by
  have hlt := beDecode_lt (b.read pos len)
  rwa [length_read] at hlt

theorem encode_decode_read (b : Block) (pos len : ℕ) :
    beEncode len (beDecode (b.read pos len)) = b.read pos len := by
  have hback := beEncode_beDecode (b.read pos len)
  rwa [length_read] at hback

/-- Of a sequence of fields written at once, a number is read back cut to its width. -/
theorem number_write_flatten (b : Block) (base : ℕ) {fields : List (List UInt8)} {len n : ℕ} (k pos : ℕ)
    (hk : fields[k]? = some (beEncode len n)) (hpos : (fields.take k).flatten.length = pos) :
    beDecode ((b.write base fields.flatten).read (base + pos) len) = n % 256 ^ len := by
  obtain ⟨hk', hget⟩ := List.getElem?_eq_some_iff.mp hk
  have hread := read_write_flatten b base fields hk'
  rw [hget, hpos, length_beEncode] at hread
  rw [hread, beDecode_beEncode]

/-! ## Words -/

/-- The `n` numbers of 4 bytes each from offset `pos` on. -/
def words (b : Block) : ℕ → ℕ → List ℕ
  | _, 0 => []
  | pos, n + 1 => beDecode (b.read pos 4) :: b.words (pos + 4) n

/-- The block with 4 bytes for each of the numbers from offset `pos` on. -/
def writeWords (b : Block) (pos : ℕ) (ws : List ℕ) : Block := b.write pos (ws.map (beEncode 4)).flatten

@[simp] theorem length_flatten_words (ws : List ℕ) : (ws.map (beEncode 4)).flatten.length = 4 * ws.length := by
  induction ws with
  | nil => rfl
  | cons w ws ih =>
    rw [List.map_cons, List.flatten_cons, List.length_append, ih, length_beEncode, List.length_cons,
      Nat.mul_add, Nat.mul_one, Nat.add_comm]

theorem writeWords_frame {b : Block} {pos a : ℕ} {ws : List ℕ} (h : a < pos ∨ pos + 4 * ws.length ≤ a) :
    b.writeWords pos ws a = b a := by
  apply write_frame
  rwa [length_flatten_words]

/-- A write behind the words does not change them. -/
theorem words_write_of_le (b : Block) {pos n a : ℕ} (h : pos + 4 * n ≤ a) (l : List UInt8) :
    (b.write a l).words pos n = b.words pos n := by
  induction n generalizing pos with
  | zero => rfl
  | succ n ih =>
    rw [words, words, read_write_of_disjoint (.inl (by omega)), ih (by omega)]

/-- The words that were written are read back cut to their width. -/
theorem words_writeWords (b : Block) (pos : ℕ) (ws : List ℕ) :
    (b.writeWords pos ws).words pos ws.length = ws.map (· % 2 ^ 32) := by
  induction ws generalizing b pos with
  | nil => rfl
  | cons w ws ih =>
    have hsplit : b.writeWords pos (w :: ws) = (b.write pos (beEncode 4 w)).writeWords (pos + 4) ws := by
      rw [writeWords, List.map_cons, List.flatten_cons, write_append, length_beEncode]
      rfl
    have hfirst : ((b.write pos (beEncode 4 w)).writeWords (pos + 4) ws).read pos 4 = beEncode 4 w := by
      rw [writeWords, read_write_of_disjoint (.inl le_rfl), read_write_same (length_beEncode 4 w)]
    rw [hsplit, List.length_cons, words, hfirst, beDecode_beEncode, ih]
    rfl

theorem words_writeWords_of_lt (b : Block) (pos : ℕ) {ws : List ℕ} (h : ∀ w ∈ ws, w < 2 ^ 32) :
    (b.writeWords pos ws).words pos ws.length = ws := by
  rw [words_writeWords]
  conv_rhs => rw [← List.map_id ws]
  exact List.map_congr_left fun w hw => Nat.mod_eq_of_lt (h w hw)

theorem flatten_words (b : Block) (pos n : ℕ) :
    ((b.words pos n).map (beEncode 4)).flatten = b.read pos (4 * n) := by
  induction n generalizing pos with
  | zero => rfl
  | succ n ih =>
    rw [words, List.map_cons, List.flatten_cons, encode_decode_read, ih, ← read_add, Nat.mul_add,
      Nat.mul_one, Nat.add_comm]

/-- Writing back the words that were read changes nothing. -/
theorem writeWords_words (b : Block) (pos n : ℕ) : b.writeWords pos (b.words pos n) = b := by
  rw [writeWords, flatten_words, write_read_self]

end Block
