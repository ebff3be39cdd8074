-- SUMMARY: Search trees spread over the cells of a store: order, balance and occupancy, and that a tree depends on its own cells only.
import Mathlib.Data.List.Basic
import Mathlib.Order.Defs.PartialOrder

/-!
# Search trees in a store

A node of a multiway search tree has keys and one more child than keys, and the
children are addresses of other cells of a store. `IsTree` says that the cells
below an address form a tree: keys are ordered inside of nodes and across levels,
all leaves are equally deep and have null children only, and every node below the
root has a minimum of keys.
-/

namespace SearchTree

structure Node (α K : Type*) where
  keys : List K
  children : List α

variable {α K : Type*} [LT K]

/-- The key lies strictly between two bounds; `none` is no bound. -/
def Between (lo hi : Option K) (k : K) : Prop := (∀ a ∈ lo, a < k) ∧ ∀ b ∈ hi, k < b

namespace Node

/-- The keys increase strictly between the bounds, with a child around each. -/
structure Ordered (n : Node α K) (lo hi : Option K) : Prop where
  sorted : n.keys.Pairwise (· < ·)
  between : ∀ k ∈ n.keys, Between lo hi k
  children_length : n.children.length = n.keys.length + 1

/-- The bound below the `i`-th child. -/
def lower (n : Node α K) (lo : Option K) (i : ℕ) : Option K :=
  if i = 0 then lo else n.keys[i - 1]?

/-- The bound above the `i`-th child. -/
def upper (n : Node α K) (hi : Option K) (i : ℕ) : Option K := n.keys[i]?.or hi

end Node

/-- The cells below the address form a tree of the given depth with keys between the
bounds. `least` is the number of keys that the node itself must have, `minKeys` the
one for all nodes below it. The last two arguments collect the cells and the keys. -/
def IsTree (store : α → Option (Node α K)) (null : α) (minKeys : ℕ) :
    ℕ → Option K → Option K → ℕ → α → List α → List K → Prop
  | 0, lo, hi, least, a, cells, keys =>
    ∃ n, store a = some n ∧ n.Ordered lo hi ∧ least ≤ n.keys.length ∧
      (∀ c ∈ n.children, c = null) ∧ cells = [a] ∧ keys = n.keys
  | depth + 1, lo, hi, least, a, cells, keys =>
    ∃ (n : Node α K) (below : List (List α)) (keysBelow : List (List K)),
      store a = some n ∧ n.Ordered lo hi ∧ least ≤ n.keys.length ∧
      below.length = n.children.length ∧ keysBelow.length = n.children.length ∧
      (∀ i c cs ks, n.children[i]? = some c → below[i]? = some cs → keysBelow[i]? = some ks →
        c ≠ null ∧ IsTree store null minKeys depth (n.lower lo i) (n.upper hi i) minKeys c cs ks) ∧
      cells = a :: below.flatten ∧ keys = n.keys ++ keysBelow.flatten

namespace IsTree

variable {store store' : α → Option (Node α K)} {null a : α} {minKeys depth least : ℕ}
  {lo hi : Option K} {cells : List α} {keys : List K}

theorem mem_self (h : IsTree store null minKeys depth lo hi least a cells keys) : a ∈ cells := by
  cases depth with
  | zero =>
    obtain ⟨n, -, -, -, -, rfl, -⟩ := h
    exact List.mem_singleton_self a
  | succ depth =>
    obtain ⟨n, below, keysBelow, -, -, -, -, -, -, rfl, -⟩ := h
    exact List.mem_cons_self

omit [LT K] in
/-- What lies below an inner node, in lists parallel to its children, lies below one of
the children. -/
theorem exists_child {β γ : Type*} {n : Node α K} {below : List (List β)} {others : List γ} {b : β}
    (hbelow : below.length = n.children.length) (hothers : others.length = n.children.length)
    (hb : b ∈ below.flatten) :
    ∃ (i : ℕ) (c : α) (bs : List β) (y : γ), n.children[i]? = some c ∧
      below[i]? = some bs ∧ others[i]? = some y ∧ b ∈ bs := by
  obtain ⟨bs, hbs, hmem⟩ := List.mem_flatten.mp hb
  obtain ⟨i, hi, rfl⟩ := List.getElem_of_mem hbs
  exact ⟨i, n.children[i], below[i], others[i], by simp, by simp, by simp, hmem⟩

/-- Every cell of a tree is a node. -/
theorem isSome_of_mem {b : α} (h : IsTree store null minKeys depth lo hi least a cells keys)
    (hb : b ∈ cells) : (store b).isSome := by
  induction depth generalizing lo hi least a cells keys with
  | zero =>
    obtain ⟨n, hn, -, -, -, rfl, -⟩ := h
    rw [List.mem_singleton.mp hb, hn]
    rfl
  | succ depth ih =>
    obtain ⟨n, below, keysBelow, hn, -, -, hcells, hkeys, hchildren, rfl, -⟩ := h
    rcases List.mem_cons.mp hb with rfl | hb
    · rw [hn]
      rfl
    · obtain ⟨i, c, cs, ks, hc, hcs, hks, hmem⟩ := exists_child hcells hkeys hb
      exact ih (hchildren i c cs ks hc hcs hks).2 hmem

/-- The null address is no cell of a tree. -/
theorem null_notMem (h : IsTree store null minKeys depth lo hi least a cells keys)
    (ha : a ≠ null) : null ∉ cells := by
  induction depth generalizing lo hi least a cells keys with
  | zero =>
    obtain ⟨n, -, -, -, -, rfl, -⟩ := h
    exact fun hmem => ha (List.mem_singleton.mp hmem).symm
  | succ depth ih =>
    obtain ⟨n, below, keysBelow, -, -, -, hcells, hkeys, hchildren, rfl, -⟩ := h
    intro hmem
    rcases List.mem_cons.mp hmem with hnull | hmem
    · exact ha hnull.symm
    · obtain ⟨i, c, cs, ks, hc, hcs, hks, hmem⟩ := exists_child hcells hkeys hmem
      obtain ⟨hne, htree⟩ := hchildren i c cs ks hc hcs hks
      exact ih htree hne hmem

/-- A tree stays a tree in a store that agrees on its cells. -/
theorem congr (h : IsTree store null minKeys depth lo hi least a cells keys)
    (hsame : ∀ b ∈ cells, store' b = store b) :
    IsTree store' null minKeys depth lo hi least a cells keys := by
  induction depth generalizing lo hi least a cells keys with
  | zero =>
    obtain ⟨n, hn, hrest⟩ := h
    refine ⟨n, ?_, hrest⟩
    rw [hsame a (by rw [hrest.2.2.2.1]; exact List.mem_singleton_self a), hn]
  | succ depth ih =>
    obtain ⟨n, below, keysBelow, hn, hordered, hleast, hcells, hkeys, hchildren, rfl, hall⟩ := h
    refine ⟨n, below, keysBelow, ?_, hordered, hleast, hcells, hkeys, ?_, rfl, hall⟩
    · rw [hsame a List.mem_cons_self, hn]
    · intro i c cs ks hc hcs hks
      obtain ⟨hne, htree⟩ := hchildren i c cs ks hc hcs hks
      refine ⟨hne, ih htree fun b hb => hsame b (List.mem_cons_of_mem _ ?_)⟩
      exact List.mem_flatten.mpr ⟨cs, List.mem_of_getElem? hcs, hb⟩

end IsTree

/-! ## Order across levels -/

section Order

variable {α K : Type*} [Preorder K]

namespace Node.Ordered

variable {n : Node α K} {lo hi : Option K} {i : ℕ} {k : K}

/-- A key below the `i`-th child lies above every key before the child. -/
theorem lt_of_lower (h : n.Ordered lo hi) {j : ℕ} (hj : j < n.keys.length) (hji : j < i)
    (hi : i ≤ n.keys.length) (hk : ∀ a ∈ n.lower lo i, a < k) : n.keys[j] < k := by
  have hpred : i - 1 < n.keys.length := by omega
  have hlast : n.keys[i - 1] < k := by
    refine hk _ ?_
    rw [Node.lower, if_neg (by omega), List.getElem?_eq_getElem hpred]
    rfl
  rcases Nat.lt_or_eq_of_le (show j ≤ i - 1 by omega) with hlt | rfl
  · exact lt_trans (List.pairwise_iff_getElem.mp h.sorted _ _ hj hpred hlt) hlast
  · exact hlast

/-- A key below the `i`-th child lies below every key after the child. -/
theorem lt_of_upper (h : n.Ordered lo hi) {j : ℕ} (hj : j < n.keys.length) (hij : i ≤ j)
    (hk : ∀ b ∈ n.upper hi i, k < b) : k < n.keys[j] := by
  have hi' : i < n.keys.length := by omega
  have hfirst : k < n.keys[i] := by
    refine hk _ ?_
    rw [Node.upper, List.getElem?_eq_getElem hi']
    rfl
  rcases Nat.lt_or_eq_of_le hij with hlt | rfl
  · exact lt_trans hfirst (List.pairwise_iff_getElem.mp h.sorted _ _ hi' hj hlt)
  · exact hfirst

/-- What lies between the bounds of a child lies between those of the node. -/
theorem between_of_child (h : n.Ordered lo hi) (hi' : i ≤ n.keys.length)
    (hk : Between (n.lower lo i) (n.upper hi i) k) : Between lo hi k := by
  constructor
  · intro a ha
    rcases Nat.eq_zero_or_pos i with rfl | hpos
    · exact hk.1 a (by simpa [Node.lower] using ha)
    · have hzero : 0 < n.keys.length := by omega
      exact lt_trans ((h.between _ (List.getElem_mem hzero)).1 a ha)
        (h.lt_of_lower hzero hpos hi' hk.1)
  · intro b hb
    rcases Nat.lt_or_ge i n.keys.length with hlt | hge
    · exact lt_trans (h.lt_of_upper hlt (Nat.le_refl i) hk.2)
        ((h.between _ (List.getElem_mem hlt)).2 b hb)
    · exact hk.2 b (by simpa [Node.upper, List.getElem?_eq_none hge] using hb)

end Node.Ordered

namespace IsTree

variable {store : α → Option (Node α K)} {null a : α} {minKeys depth least : ℕ}
  {lo hi : Option K} {cells : List α} {keys : List K} {k k' : K}

/-- All keys of a tree lie between its bounds. -/
theorem between (h : IsTree store null minKeys depth lo hi least a cells keys) (hk : k ∈ keys) :
    Between lo hi k := by
  induction depth generalizing lo hi least a cells keys with
  | zero =>
    obtain ⟨n, -, hordered, -, -, -, rfl⟩ := h
    exact hordered.between k hk
  | succ depth ih =>
    obtain ⟨n, below, keysBelow, -, hordered, -, hcells, hkeys, hchildren, -, rfl⟩ := h
    rcases List.mem_append.mp hk with hk | hk
    · exact hordered.between k hk
    · obtain ⟨i, c, ks, cs, hc, hks, hcs, hmem⟩ := exists_child hkeys hcells hk
      have hlen := hordered.children_length
      obtain ⟨hi, -⟩ := List.getElem?_eq_some_iff.mp hc
      exact hordered.between_of_child (by omega) (ih (hchildren i c cs ks hc hcs hks).2 hmem)

/-- A key of a node and a key below one of its children are ordered. -/
theorem comparable_child {n : Node α K} {i : ℕ} (h : n.Ordered lo hi) (hk : k ∈ n.keys)
    (hi' : i ≤ n.keys.length) (hk' : Between (n.lower lo i) (n.upper hi i) k') :
    k < k' ∨ k' < k := by
  obtain ⟨j, hj, rfl⟩ := List.getElem_of_mem hk
  rcases Nat.lt_or_ge j i with hlt | hge
  · exact .inl (h.lt_of_lower hj hlt hi' hk'.1)
  · exact .inr (h.lt_of_upper hj hge hk'.2)

/-- Any two keys of a tree are ordered, unless they are the same. -/
theorem comparable (h : IsTree store null minKeys depth lo hi least a cells keys)
    (hk : k ∈ keys) (hk' : k' ∈ keys) : k = k' ∨ k < k' ∨ k' < k := by
  have hnode {n : Node α K} {lo hi : Option K} (hordered : n.Ordered lo hi) {k k' : K}
      (hk : k ∈ n.keys) (hk' : k' ∈ n.keys) : k = k' ∨ k < k' ∨ k' < k := by
    obtain ⟨i, hi, rfl⟩ := List.getElem_of_mem hk
    obtain ⟨j, hj, rfl⟩ := List.getElem_of_mem hk'
    have hsorted := List.pairwise_iff_getElem.mp hordered.sorted
    rcases Nat.lt_trichotomy i j with hlt | rfl | hgt
    · exact .inr (.inl (hsorted i j hi hj hlt))
    · exact .inl rfl
    · exact .inr (.inr (hsorted j i hj hi hgt))
  induction depth generalizing lo hi least a cells keys with
  | zero =>
    obtain ⟨n, -, hordered, -, -, -, rfl⟩ := h
    exact hnode hordered hk hk'
  | succ depth ih =>
    obtain ⟨n, below, keysBelow, -, hordered, -, hcells, hkeys, hchildren, -, rfl⟩ := h
    have hlen := hordered.children_length
    rcases List.mem_append.mp hk with hk | hk <;> rcases List.mem_append.mp hk' with hk' | hk'
    · exact hnode hordered hk hk'
    · obtain ⟨i, c, ks, cs, hc, hks, hcs, hmem⟩ := exists_child hkeys hcells hk'
      obtain ⟨hi, -⟩ := List.getElem?_eq_some_iff.mp hc
      exact .inr (comparable_child hordered hk (by omega)
        ((hchildren i c cs ks hc hcs hks).2.between hmem))
    · obtain ⟨i, c, ks, cs, hc, hks, hcs, hmem⟩ := exists_child hkeys hcells hk
      obtain ⟨hi, -⟩ := List.getElem?_eq_some_iff.mp hc
      exact .inr (comparable_child hordered hk' (by omega)
        ((hchildren i c cs ks hc hcs hks).2.between hmem)).symm
    · obtain ⟨i, c, ks, cs, hc, hks, hcs, hmem⟩ := exists_child hkeys hcells hk
      obtain ⟨j, c', ks', cs', hc', hks', hcs', hmem'⟩ := exists_child hkeys hcells hk'
      obtain ⟨hi, -⟩ := List.getElem?_eq_some_iff.mp hc
      obtain ⟨hj, -⟩ := List.getElem?_eq_some_iff.mp hc'
      have htree := (hchildren i c cs ks hc hcs hks).2
      have htree' := (hchildren j c' cs' ks' hc' hcs' hks').2
      rcases Nat.lt_trichotomy i j with hlt | rfl | hgt
      · -- the key in front of the later child separates them
        have hsep : i < n.keys.length := by omega
        exact .inr (.inl (lt_trans (hordered.lt_of_upper hsep (Nat.le_refl i) (htree.between hmem).2)
          (hordered.lt_of_lower hsep hlt (by omega) (htree'.between hmem').1)))
      · rw [hcs] at hcs'
        rw [hks] at hks'
        rw [hc] at hc'
        cases hcs'
        cases hks'
        cases hc'
        exact ih htree hmem hmem'
      · have hsep : j < n.keys.length := by omega
        exact .inr (.inr (lt_trans (hordered.lt_of_upper hsep (Nat.le_refl j) (htree'.between hmem').2)
          (hordered.lt_of_lower hsep hgt (by omega) (htree.between hmem).1)))

end IsTree

end Order

end SearchTree
