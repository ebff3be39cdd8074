-- SUMMARY: Handing out parts of a set: what holds after any run of grants, whatever strategy chooses them.
import Mathlib.Data.Set.Lattice
import Mathlib.Order.CompletePartialOrder

/-!
# Regions

An abstract allocator owns a set of cells. A grant is a part of what is free at
the time and is no longer free afterwards. That no cell is granted twice follows
from this alone, so a concrete allocator only has to show that each of its calls
is such a grant.
-/

namespace Region

variable {α : Type*}

/-- `Run free gs rest`: from `free`, the grants `gs` (newest first) leave `rest`. -/
inductive Run (free : Set α) : List (Set α) → Set α → Prop where
  | nil : Run free [] free
  | grant {gs : List (Set α)} {rest g : Set α} :
      Run free gs rest → g ⊆ rest → Run free (g :: gs) (rest \ g)

namespace Run

variable {free rest g : Set α} {gs : List (Set α)}

theorem subset (h : Run free gs rest) : rest ⊆ free := by
  induction h with
  | nil => exact subset_rfl
  | grant _ _ ih => exact Set.sdiff_subset.trans ih

/-- What was granted is no longer free. -/
theorem disjoint_free (h : Run free gs rest) (hg : g ∈ gs) : Disjoint g rest := by
  induction h with
  | nil => cases hg
  | @grant gs rest g' _ _ ih =>
    cases hg with
    | head => exact Set.disjoint_sdiff_right
    | tail _ hg => exact (ih hg).mono_right Set.sdiff_subset

theorem subset_of_mem (h : Run free gs rest) (hg : g ∈ gs) : g ⊆ free := by
  induction h with
  | nil => cases hg
  | @grant gs rest g' hrun hsub ih =>
    cases hg with
    | head => exact hsub.trans hrun.subset
    | tail _ hg => exact ih hg

/-- No cell is granted twice. -/
theorem pairwise_disjoint (h : Run free gs rest) : gs.Pairwise Disjoint := by
  induction h with
  | nil => exact List.Pairwise.nil
  | grant hrun hsub ih =>
    refine List.Pairwise.cons (fun g' hg' => ?_) ih
    exact ((hrun.disjoint_free hg').mono_right hsub).symm

/-- Grants that go on where others ended. -/
theorem append {mid : Set α} {gs' : List (Set α)} (h : Run free gs mid) (h' : Run mid gs' rest) :
    Run free (gs' ++ gs) rest := by
  induction h' with
  | nil => exact h
  | grant _ hsub ih => exact .grant ih hsub

/-- What is left is what was not granted. -/
theorem rest_eq (h : Run free gs rest) : rest = free \ ⋃ g ∈ gs, g := by
  induction h with
  | nil => simp
  | @grant gs rest g _ _ ih =>
    rw [ih]
    ext a
    simp only [Set.mem_sdiff, List.mem_cons, Set.iUnion_iUnion_eq_or_left, Set.mem_union]
    tauto

end Run

end Region
