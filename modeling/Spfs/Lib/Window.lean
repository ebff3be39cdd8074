-- SUMMARY: Windows on a sequence of which only prefixes can be seen: reads of a part, and of one part after the other.
import Mathlib.Data.List.Infix

/-!
# Windows

What is at hand of a sequence is a prefix of it, and perhaps the knowledge that there is no
more. The sequence itself need not end, and nobody has to have all of it. A window is what
a reader gets who skips some elements and asks for some more: it is short only where the
sequence is known to end. Windows that follow one another make up one window.
-/

namespace Window

variable {α : Type*}

/-- The prefixes of one sequence, each with a mark that says that it is all of it. -/
structure Sees (P : List α → Bool → Prop) : Prop where
  comparable : ∀ {l l' d d'}, P l d → P l' d' → l <+: l' ∨ l' <+: l
  all : ∀ {l l' d'}, P l true → P l' d' → l' <+: l

/-- The `n` elements from `pos` on, or as many as there are. -/
def Shows (P : List α → Bool → Prop) (pos n : ℕ) (out : List α) : Prop :=
  ∃ l d, P l d ∧ out = (l.drop pos).take n ∧ (out.length < n → d = true)

section Shows

variable {P Q : List α → Bool → Prop} {pos n m : ℕ} {out out' : List α}

theorem Shows.length_le (h : Shows P pos n out) : out.length ≤ n := by
  obtain ⟨l, d, -, rfl, -⟩ := h
  exact List.length_take_le n _

/-- A part of the sequence in front of what the rest of it shows. -/
theorem Shows.segment {seg : List α} (hQ : ∀ l d, Q l d → P (seg ++ l) d) (hlen : seg.length ≤ pos + n)
    (h : Shows Q (pos - seg.length) (n - (seg.length - pos)) out) : Shows P pos n (seg.drop pos ++ out) := by
  obtain ⟨l, d, hl, rfl, hshort⟩ := h
  have hseg : (seg.drop pos).take n = seg.drop pos := by
    refine List.take_of_length_le ?_
    rw [List.length_drop]
    omega
  refine ⟨seg ++ l, d, hQ l d hl, ?_, fun hout => hshort ?_⟩
  · rw [List.drop_append, List.take_append, List.length_drop, hseg]
  · rw [List.length_append, List.length_drop] at hout
    omega

/-- A part of the sequence that has all that is asked for. -/
theorem Shows.of_segment {seg : List α} {d : Bool} (hP : P seg d) (hlen : seg.length - pos = n) :
    Shows P pos n (seg.drop pos) := by
  refine ⟨seg, d, hP, (List.take_of_length_le ?_).symm, fun hshort => ?_⟩
  · rw [List.length_drop, hlen]
  · rw [List.length_drop, hlen] at hshort
    exact absurd hshort (Nat.lt_irrefl n)

/-- Nothing is shown behind the end. -/
theorem Shows.nil (hP : P [] true) (pos n : ℕ) : Shows P pos n [] :=
  ⟨[], true, hP, by simp, fun _ => rfl⟩

/-- Longer prefixes show the same. -/
theorem drop_take_of_front {l l' : List α} (h : l <+: l') (hlen : ((l.drop pos).take n).length = n) :
    (l'.drop pos).take n = (l.drop pos).take n := by
  obtain ⟨t, rfl⟩ := h
  rw [List.length_take, List.length_drop] at hlen
  rcases Nat.eq_zero_or_pos n with rfl | hpos
  · simp only [List.take_zero]
  · rw [List.drop_append_of_le_length (by omega), List.take_append_of_le_length (by rw [List.length_drop]; omega)]

/-- A window shows what any other prefix has there, as far as that goes. -/
theorem Shows.eq_of_sees (hP : Sees P) (h : Shows P pos n out) {l : List α} {d : Bool} (hl : P l d)
    (hshort : ((l.drop pos).take n).length < n → d = true) : out = (l.drop pos).take n := by
  obtain ⟨l', d', hl', rfl, hshort'⟩ := h
  have hle (k : List α) : ((k.drop pos).take n).length ≤ n := List.length_take_le n _
  by_cases hfull : ((l.drop pos).take n).length = n
  · by_cases hfull' : ((l'.drop pos).take n).length = n
    · rcases hP.comparable hl hl' with hpre | hpre
      · exact drop_take_of_front hpre hfull
      · exact (drop_take_of_front hpre hfull').symm
    · have hall := hshort' (lt_of_le_of_ne (hle l') hfull')
      rw [hall] at hl'
      exact drop_take_of_front (hP.all hl' hl) hfull
  · have hall := hshort (lt_of_le_of_ne (hle l) hfull)
    rw [hall] at hl
    by_cases hfull' : ((l'.drop pos).take n).length = n
    · exact (drop_take_of_front (hP.all hl hl') hfull').symm
    · have hall' := hshort' (lt_of_le_of_ne (hle l') hfull')
      rw [hall'] at hl'
      rw [(hP.all hl hl').eq_of_length_le (hP.all hl' hl).length_le]

/-- The same place shows the same. -/
theorem Shows.unique (hP : Sees P) (h : Shows P pos n out) (h' : Shows P pos n out') : out = out' := by
  obtain ⟨l, d, hl, rfl, hshort⟩ := h'
  exact h.eq_of_sees hP hl hshort

/-- Two windows one behind the other are one. -/
theorem Shows.append (hP : Sees P) (h : Shows P pos n out) (h' : Shows P (pos + out.length) m out') :
    Shows P pos (n + m) (out ++ out') := by
  obtain ⟨l, d, hl, rfl, hshort⟩ := h
  set k := ((l.drop pos).take n).length with hk
  by_cases hfull : k = n
  case neg =>
    -- the first one reached the end, and there is nothing behind it
    have hall := hshort (lt_of_le_of_ne (List.length_take_le n _) hfull)
    rw [hall] at hl
    have hlen : l.length ≤ pos + k := by
      rw [hk, List.length_take, List.length_drop] at hfull ⊢
      omega
    have hnone : out' = [] := by
      rw [h'.eq_of_sees hP hl fun _ => rfl, List.drop_eq_nil_of_le hlen, List.take_nil]
    refine ⟨l, true, hl, ?_, fun _ => rfl⟩
    have htake (j : ℕ) (hj : k ≤ j) : (l.drop pos).take j = l.drop pos := by
      refine List.take_of_length_le ?_
      rw [List.length_drop]
      omega
    rw [hnone, List.append_nil, htake n (by rw [hk]; exact List.length_take_le n _),
      htake (n + m) (le_trans (List.length_take_le n _) (Nat.le_add_right n m))]
  rw [hfull] at h'
  obtain ⟨l', d', hl', rfl, hshort'⟩ := h'
  have hlen : ((l.drop pos).take n).length = n := hfull
  rcases hP.comparable hl hl' with hpre | hpre
  · -- the prefix of the second window has the first one
    have hfirst := drop_take_of_front hpre hlen
    refine ⟨l', d', hl', ?_, fun hout => hshort' ?_⟩
    · rw [← hfirst, List.take_add, List.drop_drop]
    · rw [List.length_append, hlen] at hout
      omega
  · by_cases hfull' : ((l'.drop (pos + n)).take m).length = m
    · refine ⟨l, d, hl, ?_, fun hout => ?_⟩
      · rw [← drop_take_of_front hpre hfull', List.take_add, List.drop_drop]
      · rw [List.length_append, hlen, hfull'] at hout
        exact absurd hout (Nat.lt_irrefl _)
    · have hall := hshort' (lt_of_le_of_ne (List.length_take_le m _) hfull')
      rw [hall] at hl'
      have hsame : l' = l := hpre.eq_of_length_le (hP.all hl' hl).length_le
      refine ⟨l', true, hl', ?_, fun _ => rfl⟩
      rw [← hsame, List.take_add, List.drop_drop]

end Shows

end Window
