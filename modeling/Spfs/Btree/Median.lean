-- SUMMARY: bnode_median chooses the median of the entries of a full node and the one that comes in addition.
import Mathlib.Algebra.BigOperators.Fin
import Mathlib.Algebra.BigOperators.Option
import Mathlib.Data.Fintype.Fin
import Spfs.Btree.Insert
import Spfs.Mkfs

/-!
# The median

A full node and the entry that does not fit have 101 ids. `bnode_median` compares the
additional id with the two entries in the middle of the node and never looks at the others.
-/

namespace Spfs

/-- The node is full, its entries decode to the ids, and these increase. -/
structure FullNode (s : ℕ) (ids : Fin 100 → ℕ) (w : World) : Prop where
  length : (bnodeLength s).run w = .ok 100 w
  decoded : ∀ i : Fin 100, (bentryId s (bnodeGetEntry i)).run w = .ok (ids i) w
  increasing : StrictMono ids

/-- The entries of the node, and the additional one. -/
abbrev Elem := Option (Fin 100)

def Elem.ptr (s : ℕ) : Elem → EntryPtr
  | none => .bubble
  | some i => .node s (bnodeGetEntry i)

def Elem.id (ids : Fin 100 → ℕ) (extra : ℕ) : Elem → ℕ
  | none => extra
  | some i => ids i

/-- Half of the other elements have smaller ids, and half of them greater ones. -/
structure Halves (ids : Fin 100 → ℕ) (extra : ℕ) (m : Elem) : Prop where
  smaller : (Finset.univ.filter fun e : Elem => e.id ids extra < m.id ids extra).card = 50
  greater : (Finset.univ.filter fun e : Elem => m.id ids extra < e.id ids extra).card = 50

section Counting

variable {ids : Fin 100 → ℕ} {extra : ℕ}

theorem card_filter_elem (p : Elem → Prop) [DecidablePred p] :
    (Finset.univ.filter p).card =
      (if p none then 1 else 0) + (Finset.univ.filter fun i : Fin 100 => p (some i)).card := by
  rw [Finset.card_filter, Fintype.sum_option, Finset.card_filter]

/-- The entries with smaller ids are the first ones. -/
theorem card_smaller {x k : ℕ} (hk : k ≤ 100) (h : ∀ i, ids i < x ↔ i.val < k) :
    (Finset.univ.filter fun i => ids i < x).card = k := by
  have hfirst : (Finset.univ.filter fun i => ids i < x) = Finset.univ.filter fun i : Fin 100 => i.val < k :=
    Finset.filter_congr fun i _ => h i
  rw [hfirst, Fin.card_filter_val_lt, Nat.min_eq_right hk]

/-- The entries with greater ids are the last ones. -/
theorem card_greater {x k : ℕ} (hk : k ≤ 100) (h : ∀ i, ¬ x < ids i ↔ i.val < k) :
    (Finset.univ.filter fun i => x < ids i).card = 100 - k := by
  have hfirst : (Finset.univ.filter fun i => ¬ x < ids i) = Finset.univ.filter fun i : Fin 100 => i.val < k :=
    Finset.filter_congr fun i _ => h i
  have hall := Finset.card_filter_add_card_filter_not (s := Finset.univ) (fun i => x < ids i)
  rw [hfirst, Fin.card_filter_val_lt, Nat.min_eq_right hk, Finset.card_univ, Fintype.card_fin] at hall
  omega

/-- An entry with `k` entries before it. -/
theorem halves_some (hids : StrictMono ids) {k : Fin 100} (hne : ids k ≠ extra)
    (hsmaller : (if extra < ids k then 1 else 0) + k.val = 50) : Halves ids extra (some k) := by
  have hbefore : (Finset.univ.filter fun i => ids i < ids k).card = k.val :=
    card_smaller k.isLt.le fun i => hids.lt_iff_lt
  have hbehind : (Finset.univ.filter fun i => ids k < ids i).card = 100 - (k.val + 1) :=
    card_greater k.isLt fun i => by rw [hids.lt_iff_lt, not_lt, Fin.le_def, Nat.lt_succ_iff]
  constructor
  · rw [card_filter_elem]
    show (if extra < ids k then 1 else 0) + (Finset.univ.filter fun i => ids i < ids k).card = 50
    rw [hbefore]
    exact hsmaller
  · rw [card_filter_elem]
    show (if ids k < extra then 1 else 0) + (Finset.univ.filter fun i => ids k < ids i).card = 50
    rw [hbehind]
    -- the additional id is on one side or on the other
    rcases Nat.lt_or_gt_of_ne hne with hlt | hgt
    · rw [if_neg (Nat.lt_asymm hlt)] at hsmaller
      rw [if_pos hlt]
      omega
    · rw [if_pos hgt] at hsmaller
      rw [if_neg (Nat.lt_asymm hgt)]
      omega

/-- The additional entry between the two in the middle. -/
theorem halves_none (hids : StrictMono ids) (hlow : ids 49 < extra) (hhigh : extra < ids 50) :
    Halves ids extra none := by
  have hside (i : Fin 100) : i.val < 50 ↔ ids i ≤ ids 49 := by
    rw [hids.le_iff_le, Fin.le_def]
    exact Nat.lt_succ_iff
  have hother (i : Fin 100) : ¬ i.val < 50 ↔ ids 50 ≤ ids i := by
    rw [hids.le_iff_le, Fin.le_def]
    exact Nat.not_lt
  have hbefore : (Finset.univ.filter fun i => ids i < extra).card = 50 := by
    refine card_smaller (by decide) fun i => ⟨fun hi => ?_, fun hi => ?_⟩
    · by_contra hge
      have := (hother i).mp hge
      omega
    · have := (hside i).mp hi
      omega
  have hbehind : (Finset.univ.filter fun i => extra < ids i).card = 100 - 50 := by
    refine card_greater (by decide) fun i => ⟨fun hi => ?_, fun hi => ?_⟩
    · by_contra hge
      have := (hother i).mp hge
      omega
    · have := (hside i).mp hi
      omega
  constructor
  · rw [card_filter_elem]
    show (if extra < extra then 1 else 0) + (Finset.univ.filter fun i => ids i < extra).card = 50
    rw [hbefore, if_neg (lt_irrefl _)]
  · rw [card_filter_elem]
    show (if extra < extra then 1 else 0) + (Finset.univ.filter fun i => extra < ids i).card = 50
    rw [hbehind, if_neg (lt_irrefl _)]

end Counting

section Median

variable {s : ℕ} {ids : Fin 100 → ℕ} {bubble : BtreeBubble} {w : World}

open EStateM (run_bind_of_ok)

/-- The two comparisons that `bnode_median` makes. -/
theorem run_bnodeMedian (h : FullNode s ids w) :
    (bnodeMedian s bubble).run w =
      .ok (if be32ToCpu bubble.entry.id > ids 50 then .node s (bnodeGetEntry 50)
        else if be32ToCpu bubble.entry.id > ids 49 then .bubble else .node s (bnodeGetEntry 49)) w := by
  have hfull : (bnodeIsFull s).run w = .ok true w := by
    rw [bnodeIsFull, run_bind_of_ok h.length]
    rfl
  have hmid : (100 + 1) / 2 = 50 := rfl
  have hpriv : bnodeGetEntry 50 - sizeofBentry = bnodeGetEntry 49 := rfl
  have hread : (bentryId s (bnodeGetEntry 50)).run w = .ok (ids 50) w := h.decoded 50
  have hread' : (bentryId s (bnodeGetEntry 49)).run w = .ok (ids 49) w := h.decoded 49
  rw [bnodeMedian, run_bind_of_ok hfull, run_bind_of_ok (by rw [run_bugOn, if_neg (by decide)]),
    run_bind_of_ok h.length, hmid, run_bind_of_ok (by rw [run_bugOn, if_neg (by decide)]),
    run_bind_of_ok hread]
  by_cases habove : be32ToCpu bubble.entry.id > ids 50
  · rw [if_pos habove, if_pos habove]
    rfl
  · rw [if_neg habove, if_neg habove, hpriv, run_bind_of_ok hread']
    split <;> rfl

/-- What `bnode_median` returns for a full node and an id that is not in it has half of the
others on each side. -/
theorem bnodeMedian_halves (h : FullNode s ids w) (hextra : ∀ i, ids i ≠ be32ToCpu bubble.entry.id) :
    ∃ m : Elem, (bnodeMedian s bubble).run w = .ok (m.ptr s) w ∧
      Halves ids (be32ToCpu bubble.entry.id) m := by
  have hrun := @run_bnodeMedian s ids bubble w h
  generalize be32ToCpu bubble.entry.id = extra at hrun hextra ⊢
  by_cases habove : extra > ids 50
  · rw [if_pos habove] at hrun
    refine ⟨some 50, hrun, halves_some h.increasing (hextra 50) ?_⟩
    rw [if_neg (Nat.lt_asymm habove)]
    rfl
  · have hhigh : extra < ids 50 := lt_of_le_of_ne (Nat.not_lt.mp habove) (hextra 50).symm
    rw [if_neg habove] at hrun
    by_cases hbetween : extra > ids 49
    · rw [if_pos hbetween] at hrun
      exact ⟨none, hrun, halves_none h.increasing hbetween hhigh⟩
    · have hlow : extra < ids 49 := lt_of_le_of_ne (Nat.not_lt.mp hbetween) (hextra 49).symm
      rw [if_neg hbetween] at hrun
      refine ⟨some 49, hrun, halves_some h.increasing (hextra 49) ?_⟩
      rw [if_pos hlow]
      rfl

end Median

/-- A full node with the ids 2, 4, and so on up to 200. -/
def evenNode : Block := fun a =>
  if a = 3 then 100 else if 4 ≤ a ∧ (a - 4) % 16 = 3 then UInt8.ofNat ((a - 4) / 16 * 2 + 2) else 0

theorem fullNode_even : FullNode 7 (fun i => 2 * i.val + 2) (freshWorld.setBlock 7 evenNode) where
  length := run_bnodeLength (by decide)
  decoded i := by
    have hread : ∀ i : Fin 100, idAt evenNode (bnodeGetEntry i) = 2 * i.val + 2 := by decide +kernel
    have hin : bnodeGetEntry i + 8 ≤ (freshWorld.setBlock 7 evenNode).bSize := by
      show 4 + i.val * 16 + 8 ≤ 4096
      omega
    rw [run_bentryId hin]
    exact congrArg (EStateM.Result.ok · _) (hread i)
  increasing i j hij := by
    show 2 * i.val + 2 < 2 * j.val + 2
    have := Fin.lt_def.mp hij
    omega

/-- An id in the middle. -/
theorem bnodeMedian_halves_even :
    ∃ m : Elem, (bnodeMedian 7 (bubbleMake 101 8 0)).run (freshWorld.setBlock 7 evenNode) =
        .ok (m.ptr 7) (freshWorld.setBlock 7 evenNode) ∧
      Halves (fun i => 2 * i.val + 2) (be32ToCpu (bubbleMake 101 8 0).entry.id) m := by
  refine bnodeMedian_halves fullNode_even fun i => ?_
  have hid : be32ToCpu (bubbleMake 101 8 0).entry.id = 101 := rfl
  rw [hid]
  omega

end Spfs
