-- SUMMARY: Critical sections under one mutex: every interleaving of calls amounts to the calls one after the other, and every fair schedule ends them all.
import Mathlib.Data.Finset.Card
import Mathlib.Data.Fintype.EquivFin
import Mathlib.Data.Prod.Lex
import Mathlib.Logic.Function.Basic

/-!
# Mutexes

Any number of calls run the same critical section on a shared state, one access
to it at a time, and a scheduler picks who moves next. A call only takes care to
hold the mutex while it is inside; that the calls then exclude each other, that
what they do amounts to some sequence of whole calls, and that none of them
starves, holds for every critical section.
-/

namespace Mutex

/-! ## Critical sections -/

/-- The code between lock and unlock. A step is one access to the shared state,
after which the section goes on from other locals or is done with a result. -/
structure CriticalSection (σ ℓ ρ : Type*) where
  step : ℓ → σ → (ℓ ⊕ ρ) × σ
  rank : ℓ → σ → ℕ
  rank_lt : ∀ a s a' s', step a s = (.inl a', s') → rank a' s' < rank a s

namespace CriticalSection

variable {σ ℓ ρ : Type*} (c : CriticalSection σ ℓ ρ)

/-- The section run to its end with nobody interfering. -/
def eval (a : ℓ) (s : σ) : ρ × σ :=
  match _h : c.step a s with
  | (.inl a', s') => eval a' s'
  | (.inr r, s') => (r, s')
termination_by c.rank a s
decreasing_by exact c.rank_lt a s a' s' _h

variable {c} {a a' : ℓ} {s s' : σ} {r : ρ}

theorem eval_of_inl (h : c.step a s = (.inl a', s')) : c.eval a s = c.eval a' s' := by
  rw [eval]
  split
  · rename_i heq
    cases h.symm.trans heq
    rfl
  · rename_i heq
    cases h.symm.trans heq

theorem eval_of_inr (h : c.step a s = (.inr r, s')) : c.eval a s = (r, s') := by
  rw [eval]
  split
  · rename_i heq
    cases h.symm.trans heq
  · rename_i heq
    cases h.symm.trans heq
    rfl

variable {ι : Type*} (c) (enter : ι → ℓ)

/-- Whole calls one after the other, the latest first in the list: what each of
them returned, and the state after all of them. -/
def serial (s₀ : σ) : List ι → List (ι × ρ) × σ
  | [] => ([], s₀)
  | i :: order =>
    ((i, (c.eval (enter i) (serial s₀ order).2).1) :: (serial s₀ order).1,
      (c.eval (enter i) (serial s₀ order).2).2)

end CriticalSection

/-! ## Interleavings -/

/-- Where a call is. -/
inductive Pc (ℓ ρ : Type*) where
  /-- it has not got the mutex yet -/
  | waiting
  | inside (a : ℓ)
  /-- the section is done, the mutex is still held -/
  | leaving (r : ρ)
  | returned (r : ρ)

/-- The calls, the mutex and the state it protects. `history` is a ghost: the
calls that gave the mutex back, the latest first. -/
structure Sys (ι σ ℓ ρ : Type*) where
  owner : Option ι
  shared : σ
  pc : ι → Pc ℓ ρ
  history : List (ι × ρ)

namespace Sys

variable {ι σ ℓ ρ : Type*} [DecidableEq ι]

def init (s₀ : σ) : Sys ι σ ℓ ρ := ⟨none, s₀, fun _ => .waiting, []⟩

def setPc (st : Sys ι σ ℓ ρ) (i : ι) (p : Pc ℓ ρ) : Sys ι σ ℓ ρ :=
  { st with pc := Function.update st.pc i p }

@[simp] theorem setPc_owner (st : Sys ι σ ℓ ρ) (i : ι) (p : Pc ℓ ρ) :
    (st.setPc i p).owner = st.owner := rfl
@[simp] theorem setPc_shared (st : Sys ι σ ℓ ρ) (i : ι) (p : Pc ℓ ρ) :
    (st.setPc i p).shared = st.shared := rfl
@[simp] theorem setPc_history (st : Sys ι σ ℓ ρ) (i : ι) (p : Pc ℓ ρ) :
    (st.setPc i p).history = st.history := rfl
@[simp] theorem setPc_pc_self (st : Sys ι σ ℓ ρ) (i : ι) (p : Pc ℓ ρ) :
    (st.setPc i p).pc i = p := Function.update_self ..
theorem setPc_pc_of_ne (st : Sys ι σ ℓ ρ) {i j : ι} (p : Pc ℓ ρ) (h : j ≠ i) :
    (st.setPc i p).pc j = st.pc j := Function.update_of_ne h ..

variable (c : CriticalSection σ ℓ ρ) (enter : ι → ℓ)

/-- The scheduler lets `i` move. A call that finds the mutex taken stays where it
is, and so does one that has returned. Whether the mutex is held is only asked by
who wants to take it. -/
def step (st : Sys ι σ ℓ ρ) (i : ι) : Sys ι σ ℓ ρ :=
  match st.pc i with
  | .waiting =>
    if st.owner.isNone then { st.setPc i (.inside (enter i)) with owner := some i } else st
  | .inside a =>
    match c.step a st.shared with
    | (.inl a', s') => { st.setPc i (.inside a') with shared := s' }
    | (.inr r, s') => { st.setPc i (.leaving r) with shared := s' }
  | .leaving r => { st.setPc i (.returned r) with owner := none, history := (i, r) :: st.history }
  | .returned _ => st

/-- The state after the moves of a schedule. -/
def run (s₀ : σ) (sched : List ι) : Sys ι σ ℓ ρ := sched.foldl (step c enter) (init s₀)

@[simp] theorem run_nil (s₀ : σ) : run c enter s₀ [] = init s₀ := rfl

@[simp] theorem run_concat (s₀ : σ) (sched : List ι) (i : ι) :
    run c enter s₀ (sched ++ [i]) = step c enter (run c enter s₀ sched) i := by
  simp [run]

variable {c enter} {st : Sys ι σ ℓ ρ} {i : ι} {a a' : ℓ} {s s' : σ} {r : ρ}

/-! The moves, one equation for each. -/

theorem step_lock (h : st.pc i = .waiting) (hfree : st.owner = none) :
    st.step c enter i = { st.setPc i (.inside (enter i)) with owner := some i } := by
  simp [step, h, hfree]

theorem step_blocked (h : st.pc i = .waiting) (hheld : st.owner ≠ none) :
    st.step c enter i = st := by
  simp [step, h, Option.isNone_iff_eq_none, hheld]

theorem step_inside (h : st.pc i = .inside a) (hstep : c.step a st.shared = (.inl a', s')) :
    st.step c enter i = { st.setPc i (.inside a') with shared := s' } := by
  simp [step, h, hstep]

theorem step_last (h : st.pc i = .inside a) (hstep : c.step a st.shared = (.inr r, s')) :
    st.step c enter i = { st.setPc i (.leaving r) with shared := s' } := by
  simp [step, h, hstep]

theorem step_unlock (h : st.pc i = .leaving r) :
    st.step c enter i =
      { st.setPc i (.returned r) with owner := none, history := (i, r) :: st.history } := by
  simp [step, h]

theorem step_returned (h : st.pc i = .returned r) : st.step c enter i = st := by
  simp [step, h]

/-! ## What holds under every schedule -/

end Sys

/-- A call that holds the mutex will bring the section that began in `s` to the end
it would have come to alone. -/
def Pc.Continues {σ ℓ ρ : Type*} (c : CriticalSection σ ℓ ρ) (a₀ : ℓ) (s shared : σ) :
    Pc ℓ ρ → Prop
  | .inside a => c.eval a shared = c.eval a₀ s
  | .leaving r => c.eval a₀ s = (r, shared)
  | .waiting | .returned _ => False

/-- The calls that do not hold the mutex. -/
def Pc.Outside {ℓ ρ : Type*} : Pc ℓ ρ → Prop
  | .waiting | .returned _ => True
  | .inside _ | .leaving _ => False

variable {ι σ ℓ ρ : Type*} (c : CriticalSection σ ℓ ρ) (enter : ι → ℓ) (s₀ : σ)

/-- The invariant. All calls that gave the mutex back are serial, in the order in
which they gave it back, and so is the shared state but for the section of the call
that holds the mutex, if one does. -/
structure Serial (st : Sys ι σ ℓ ρ) : Prop where
  history : st.history = (c.serial enter s₀ (st.history.map Prod.fst)).1
  free : st.owner = none → st.shared = (c.serial enter s₀ (st.history.map Prod.fst)).2
  held : ∀ i, st.owner = some i →
    (st.pc i).Continues c (enter i) (c.serial enter s₀ (st.history.map Prod.fst)).2 st.shared
  outside : ∀ i, st.owner ≠ some i → (st.pc i).Outside
  returned : ∀ i r, st.pc i = .returned r ↔ (i, r) ∈ st.history
  nodup : (st.history.map Prod.fst).Nodup

namespace Serial

variable {c enter s₀} {st : Sys ι σ ℓ ρ} {i j : ι}

theorem init : Serial c enter s₀ (Sys.init s₀ : Sys ι σ ℓ ρ) where
  history := rfl
  free _ := rfl
  held _ h := by cases h
  outside _ _ := trivial
  returned i r := by simp [Sys.init]
  nodup := List.nodup_nil

/-- Who is inside holds the mutex. -/
theorem owner_of_not_outside (h : Serial c enter s₀ st) (hi : ¬ (st.pc i).Outside) :
    st.owner = some i := by
  by_contra hne
  exact hi (h.outside i hne)

/-- A call not yet returned is not in the history. -/
theorem not_mem_of_ne (h : Serial c enter s₀ st) (hi : ∀ r, st.pc i ≠ .returned r) :
    i ∉ st.history.map Prod.fst := by
  intro hmem
  obtain ⟨⟨i', r⟩, hentry, rfl⟩ := List.mem_map.mp hmem
  exact hi r ((h.returned i' r).mpr hentry)

/-- Two calls are never inside at the same time. -/
theorem exclusive (h : Serial c enter s₀ st) (hi : ¬ (st.pc i).Outside)
    (hj : ¬ (st.pc j).Outside) : i = j :=
  Option.some.inj ((h.owner_of_not_outside hi).symm.trans (h.owner_of_not_outside hj))

variable [DecidableEq ι]

/-- The moves inside a section: the holder goes on, nothing else changes. -/
theorem move (h : Serial c enter s₀ st) {p : Pc ℓ ρ} {s' : σ} (howner : st.owner = some i)
    (hout : ¬ p.Outside) (hold : ¬ (st.pc i).Outside)
    (hcont : p.Continues c (enter i) (c.serial enter s₀ (st.history.map Prod.fst)).2 s') :
    Serial c enter s₀ { st.setPc i p with shared := s' } where
  history := h.history
  free hfree := by cases howner.symm.trans hfree
  held j hj := by
    obtain rfl : i = j := by simpa [howner] using hj
    simpa using hcont
  outside j hj := by
    have hne : j ≠ i := by
      rintro rfl
      exact hj howner
    simpa [Sys.setPc_pc_of_ne _ _ hne] using h.outside j hj
  returned j r := by
    by_cases hne : j = i
    · subst hne
      have hp : p ≠ .returned r := by
        rintro rfl
        exact hout trivial
      have hpc : st.pc j ≠ .returned r := by
        intro heq
        exact hold (by rw [heq]; trivial)
      simp only [Sys.setPc_pc_self, hp, false_iff]
      exact fun hmem => hpc ((h.returned j r).mpr hmem)
    · simpa [Sys.setPc_pc_of_ne _ _ hne] using h.returned j r
  nodup := h.nodup

theorem lock (h : Serial c enter s₀ st) (hpc : st.pc i = .waiting) (hfree : st.owner = none) :
    Serial c enter s₀ { st.setPc i (.inside (enter i)) with owner := some i } where
  history := h.history
  free hnone := by cases hnone
  held j hj := by
    obtain rfl : i = j := by simpa using hj
    simp only [Sys.setPc_pc_self, Pc.Continues, Sys.setPc_shared, Sys.setPc_history]
    rw [h.free hfree]
  outside j hj := by
    have hne : j ≠ i := by
      rintro rfl
      exact hj rfl
    have := h.outside j (by simp [hfree])
    simpa [Sys.setPc_pc_of_ne _ _ hne] using this
  returned j r := by
    by_cases hne : j = i
    · subst hne
      have := h.returned j r
      simpa [hpc] using this
    · simpa [Sys.setPc_pc_of_ne _ _ hne] using h.returned j r
  nodup := h.nodup

theorem unlock (h : Serial c enter s₀ st) {r : ρ} (hpc : st.pc i = .leaving r) :
    Serial c enter s₀
      { st.setPc i (.returned r) with owner := none, history := (i, r) :: st.history } := by
  have howner : st.owner = some i := h.owner_of_not_outside (by rw [hpc]; exact id)
  have hcont : c.eval (enter i) (c.serial enter s₀ (st.history.map Prod.fst)).2 = (r, st.shared) := by
    have := h.held i howner
    rwa [hpc] at this
  refine ⟨?_, fun _ => ?_, fun j hj => ?_, fun j hj => ?_, fun j r' => ?_, ?_⟩
  · simp only [List.map_cons, CriticalSection.serial, hcont]
    rw [← h.history]
  · simp only [List.map_cons, CriticalSection.serial, hcont, Sys.setPc_shared]
  · cases hj
  · by_cases hne : j = i
    · subst hne
      simp [Pc.Outside]
    · have := h.outside j (by rw [howner]; exact fun heq => hne (Option.some.inj heq).symm)
      simpa [Sys.setPc_pc_of_ne _ _ hne] using this
  · by_cases hne : j = i
    · subst hne
      have hno : ∀ r', (j, r') ∉ st.history := by
        intro r' hmem
        have := (h.returned j r').mpr hmem
        rw [hpc] at this
        cases this
      simp [hno, eq_comm]
    · have hne' : (j, r') ≠ (i, r) := fun heq => hne (congrArg Prod.fst heq)
      simpa [Sys.setPc_pc_of_ne _ _ hne, hne'] using h.returned j r'
  · refine List.nodup_cons.mpr ⟨?_, h.nodup⟩
    exact h.not_mem_of_ne fun r' heq => by rw [hpc] at heq; cases heq

/-- Whoever moves, the invariant is kept. -/
theorem step (h : Serial c enter s₀ st) (i : ι) : Serial c enter s₀ (st.step c enter i) := by
  cases hpc : st.pc i with
  | waiting =>
    by_cases hfree : st.owner = none
    · rw [Sys.step_lock hpc hfree]
      exact h.lock hpc hfree
    · rw [Sys.step_blocked hpc hfree]
      exact h
  | inside a =>
    have hold : ¬ (st.pc i).Outside := by rw [hpc]; exact id
    have howner := h.owner_of_not_outside hold
    have hcont := h.held i howner
    rw [hpc] at hcont
    rcases hstep : c.step a st.shared with ⟨a' | r, s'⟩
    · rw [Sys.step_inside hpc hstep]
      refine h.move howner id hold ?_
      exact (CriticalSection.eval_of_inl hstep).symm.trans hcont
    · rw [Sys.step_last hpc hstep]
      refine h.move howner id hold ?_
      exact hcont.symm.trans (CriticalSection.eval_of_inr hstep)
  | leaving r =>
    rw [Sys.step_unlock hpc]
    exact h.unlock hpc
  | returned r =>
    rw [Sys.step_returned hpc]
    exact h

/-- The run lemma: it holds under every schedule. -/
theorem run (sched : List ι) : Serial c enter s₀ (Sys.run c enter s₀ sched) := by
  induction sched using List.reverseRecOn with
  | nil => exact init
  | append_singleton sched i ih =>
    rw [Sys.run_concat]
    exact ih.step i

end Serial

/-! ## Progress -/

def Pc.isWaiting {ℓ ρ : Type*} : Pc ℓ ρ → Bool
  | .waiting => true
  | .inside _ | .leaving _ | .returned _ => false

/-- How many moves are left until the mutex is given back, at most. -/
def Pc.rank {σ ℓ ρ : Type*} (c : CriticalSection σ ℓ ρ) (shared : σ) : Pc ℓ ρ → ℕ
  | .inside a => c.rank a shared + 2
  | .leaving _ => 1
  | .waiting | .returned _ => 0

namespace Sys

variable {ι σ ℓ ρ : Type*}

def AllReturned (st : Sys ι σ ℓ ρ) : Prop := ∀ i, ∃ r, st.pc i = .returned r

/-- The moves the holder of the mutex still has to make. -/
def holderRank (c : CriticalSection σ ℓ ρ) (st : Sys ι σ ℓ ρ) : ℕ :=
  st.owner.elim 0 fun i => (st.pc i).rank c st.shared

/-- What is left to do: calls that wait, and under the same number of these the
moves of the holder. -/
def work [Fintype ι] (c : CriticalSection σ ℓ ρ) (st : Sys ι σ ℓ ρ) : ℕ ×ₗ ℕ :=
  toLex ((Finset.univ.filter fun i => (st.pc i).isWaiting).card, st.holderRank c)

variable [DecidableEq ι] {c : CriticalSection σ ℓ ρ} {enter : ι → ℓ} {s₀ : σ}
  {st : Sys ι σ ℓ ρ} {i : ι}

theorem waiting_setPc [Fintype ι] (p : Pc ℓ ρ) (h : (st.pc i).isWaiting = p.isWaiting) :
    (Finset.univ.filter fun j => ((st.setPc i p).pc j).isWaiting) =
      Finset.univ.filter fun j => (st.pc j).isWaiting := by
  ext j
  by_cases hne : j = i
  · subst hne
    simp [h]
  · simp [setPc_pc_of_ne _ _ hne]

theorem waiting_lt_of_setPc [Fintype ι] (p : Pc ℓ ρ) (h : st.pc i = .waiting)
    (hp : p.isWaiting = false) :
    (Finset.univ.filter fun j => ((st.setPc i p).pc j).isWaiting).card <
      (Finset.univ.filter fun j => (st.pc j).isWaiting).card := by
  refine Finset.card_lt_card (Finset.ssubset_iff_of_subset ?_ |>.mpr ⟨i, ?_, ?_⟩)
  · intro j
    by_cases hne : j = i
    · subst hne
      simp [hp]
    · simp [setPc_pc_of_ne _ _ hne]
  · rw [Finset.mem_filter, h]
    exact ⟨Finset.mem_univ i, rfl⟩
  · simp [hp]

/-- The holder's move leaves as many calls waiting, and less for itself to do. -/
theorem work_lt_of_holder [Fintype ι] {st' : Sys ι σ ℓ ρ} (p : Pc ℓ ρ)
    (hpc : st'.pc = (st.setPc i p).pc) (hw : (st.pc i).isWaiting = p.isWaiting)
    (hlt : st'.holderRank c < st.holderRank c) : st'.work c < st.work c := by
  rw [work, work, Prod.Lex.toLex_lt_toLex]
  refine .inr ⟨?_, hlt⟩
  rw [hpc, waiting_setPc p hw]

theorem work_lt_of_free [Fintype ι] (hpc : st.pc i = .waiting) (hfree : st.owner = none) :
    (st.step c enter i).work c < st.work c := by
  rw [step_lock hpc hfree, work, work, Prod.Lex.toLex_lt_toLex]
  exact .inl (waiting_lt_of_setPc _ hpc rfl)

/-- The holder of the mutex always gets on. -/
theorem work_lt_of_owner [Fintype ι] (h : Serial c enter s₀ st) (howner : st.owner = some i) :
    (st.step c enter i).work c < st.work c := by
  have hcont := h.held i howner
  cases hpc : st.pc i with
  | waiting | returned r => simp [hpc, Pc.Continues] at hcont
  | inside a =>
    rcases hstep : c.step a st.shared with ⟨a' | r, s'⟩
    · rw [step_inside hpc hstep]
      refine work_lt_of_holder (i := i) (.inside a') rfl (by rw [hpc]; rfl) ?_
      have := c.rank_lt _ _ _ _ hstep
      simp only [holderRank, setPc_owner, howner, Option.elim_some, setPc_pc_self, hpc, Pc.rank]
      omega
    · rw [step_last hpc hstep]
      refine work_lt_of_holder (i := i) (.leaving r) rfl (by rw [hpc]; rfl) ?_
      simp only [holderRank, setPc_owner, howner, Option.elim_some, setPc_pc_self, hpc, Pc.rank]
      omega
  | leaving r =>
    rw [step_unlock hpc]
    refine work_lt_of_holder (i := i) (.returned r) rfl (by rw [hpc]; rfl) ?_
    simp [holderRank, howner, hpc, Pc.rank]

/-- A move changes nothing, or there is less left to do. -/
theorem step_work [Fintype ι] (h : Serial c enter s₀ st) (i : ι) :
    st.step c enter i = st ∨ (st.step c enter i).work c < st.work c := by
  cases hpc : st.pc i with
  | waiting =>
    by_cases hfree : st.owner = none
    · exact .inr (work_lt_of_free hpc hfree)
    · exact .inl (step_blocked hpc hfree)
  | inside a => exact .inr (work_lt_of_owner h (h.owner_of_not_outside (by rw [hpc]; exact id)))
  | leaving r => exact .inr (work_lt_of_owner h (h.owner_of_not_outside (by rw [hpc]; exact id)))
  | returned r => exact .inl (step_returned hpc)

/-- As long as a call has not returned there is one that gets on when it is scheduled:
the holder of the mutex, or any that waits for it. -/
theorem exists_work_lt [Fintype ι] (h : Serial c enter s₀ st) (hnot : ¬ st.AllReturned) :
    ∃ i, (st.step c enter i).work c < st.work c := by
  cases howner : st.owner with
  | some i => exact ⟨i, work_lt_of_owner h howner⟩
  | none =>
    obtain ⟨i, hi⟩ := not_forall.mp hnot
    have hout := h.outside i (by simp [howner])
    cases hpc : st.pc i with
    | waiting => exact ⟨i, work_lt_of_free hpc howner⟩
    | returned r => exact absurd ⟨r, hpc⟩ hi
    | inside a | leaving r => simp [hpc, Pc.Outside] at hout

/-! ## Fair schedules -/

/-- The state after the first `n` moves of an endless schedule. -/
def after (c : CriticalSection σ ℓ ρ) (enter : ι → ℓ) (s₀ : σ) (f : ℕ → ι) (n : ℕ) : Sys ι σ ℓ ρ :=
  run c enter s₀ ((List.range n).map f)

theorem after_succ (f : ℕ → ι) (n : ℕ) :
    after c enter s₀ f (n + 1) = (after c enter s₀ f n).step c enter (f n) := by
  simp [after, List.range_succ]

/-- Until there is less to do the state stays what it is. -/
theorem after_add_work [Fintype ι] (f : ℕ → ι) (n d : ℕ) :
    after c enter s₀ f (n + d) = after c enter s₀ f n ∨
      ∃ m, n ≤ m ∧ (after c enter s₀ f m).work c < (after c enter s₀ f n).work c := by
  induction d with
  | zero => exact .inl rfl
  | succ d ih =>
    rcases ih with hsame | hless
    · have hserial : Serial c enter s₀ (after c enter s₀ f n) := Serial.run _
      rcases step_work hserial (f (n + d)) with hstay | hlt
      · left
        rw [← Nat.add_assoc, after_succ, hsame]
        exact hstay
      · right
        refine ⟨n + d + 1, by omega, ?_⟩
        rw [after_succ, hsame]
        exact hlt
    · exact .inr hless

theorem AllReturned.step (h : st.AllReturned) (i : ι) : st.step c enter i = st := by
  obtain ⟨r, hr⟩ := h i
  exact step_returned hr

theorem AllReturned.after {f : ℕ → ι} {n m : ℕ} (h : (after c enter s₀ f n).AllReturned)
    (hnm : n ≤ m) : after c enter s₀ f m = after c enter s₀ f n := by
  induction m, hnm using Nat.le_induction with
  | base => rfl
  | succ m _ ih =>
    rw [after_succ, ih]
    exact h.step _

end Sys

/-- Every call is scheduled again and again. -/
def Fair {ι : Type*} (f : ℕ → ι) : Prop := ∀ i n, ∃ m, n ≤ m ∧ f m = i

/-- Under a fair schedule every one of finitely many calls returns. -/
theorem Fair.all_return {ι σ ℓ ρ : Type*} [Finite ι] [DecidableEq ι] {c : CriticalSection σ ℓ ρ}
    {enter : ι → ℓ} {s₀ : σ} {f : ℕ → ι} (hfair : Fair f) :
    ∃ n, ∀ m, n ≤ m → (Sys.after c enter s₀ f m).AllReturned := by
  have := Fintype.ofFinite ι
  suffices hsome : ∀ n, ∃ m, (Sys.after c enter s₀ f m).AllReturned ∧ n ≤ m by
    obtain ⟨n, hn, -⟩ := hsome 0
    exact ⟨n, fun m hm => by rw [hn.after hm]; exact hn⟩
  intro n
  -- by induction on what is left to do after `n` moves
  induction hwork : (Sys.after c enter s₀ f n).work c using WellFoundedLT.induction generalizing n with
  | ind work ih =>
    subst hwork
    by_cases hall : (Sys.after c enter s₀ f n).AllReturned
    · exact ⟨n, hall, le_rfl⟩
    suffices hless : ∃ m, n ≤ m ∧ (Sys.after c enter s₀ f m).work c < (Sys.after c enter s₀ f n).work c by
      obtain ⟨m, hm, hlt⟩ := hless
      obtain ⟨k, hk, hmk⟩ := ih _ hlt m rfl
      exact ⟨k, hk, hm.trans hmk⟩
    obtain ⟨i, hi⟩ := Sys.exists_work_lt (.run _) hall
    obtain ⟨m, hm, rfl⟩ := hfair i n
    obtain ⟨d, rfl⟩ := Nat.exists_eq_add_of_le hm
    rcases Sys.after_add_work f n d with hsame | hless
    · refine ⟨n + d + 1, by omega, ?_⟩
      rw [Sys.after_succ, hsame]
      exact hi
    · exact hless

end Mutex
