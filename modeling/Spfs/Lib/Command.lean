-- SUMMARY: Commands with state and faults: inversion of runs, and the frame calculus for what a command may do to the state.
import Mathlib.Order.Defs.Unbundled

/-!
# Commands

A command is an `EStateM ε σ α`: it returns a value or stops with a fault, and in
both cases leaves a state. `run_bind_eq_ok` takes a returning run apart.
`Within R m` says that whatever `m` does, the state before and the state after
are related by the preorder `R`; its rules follow the syntax of commands, so a
frame or an invariant of a long command is put together from those of its parts.
-/

namespace EStateM

variable {ε σ α β : Type}

@[simp] theorem run_throw_any (e : ε) (s : σ) :
    (throw e : EStateM ε σ α).run s = .error e s := rfl

@[simp] theorem run_ite (c : Prop) [Decidable c] (m m' : EStateM ε σ α) (s : σ) :
    (if c then m else m').run s = if c then m.run s else m'.run s := by
  split <;> rfl

/-- The run of a sequence. Unlike the definitional `run_bind` it rewrites by an
equation, so that no conversion check ever has to evaluate a command. -/
theorem run_bind_match (m : EStateM ε σ α) (f : α → EStateM ε σ β) (s : σ) :
    (m >>= f).run s =
      match m.run s with
      | .ok a s' => (f a).run s'
      | .error e s' => .error e s' := by
  rw [run_bind]
  cases m.run s <;> rfl

theorem run_bind_of_ok {m : EStateM ε σ α} {f : α → EStateM ε σ β} {s s' : σ} {a : α}
    (h : m.run s = .ok a s') : (m >>= f).run s = (f a).run s' := by
  rw [run_bind, h]

theorem run_bind_of_error {m : EStateM ε σ α} {f : α → EStateM ε σ β} {s s' : σ} {e : ε}
    (h : m.run s = .error e s') : (m >>= f).run s = .error e s' := by
  rw [run_bind, h]

/-- The C idiom `if (!m()) return b;` goes on when `m` succeeds. -/
theorem run_check_of_true {m : EStateM ε σ Bool} {k : EStateM ε σ β} {s s' : σ} {b : β}
    (h : m.run s = .ok true s') :
    (do
      if !(← m) then return b
      k).run s = k.run s' := by
  rw [run_bind_of_ok h]
  rfl

theorem run_check_of_false {m : EStateM ε σ Bool} {k : EStateM ε σ β} {s s' : σ} {b : β}
    (h : m.run s = .ok false s') :
    (do
      if !(← m) then return b
      k).run s = .ok b s' := by
  rw [run_bind_of_ok h]
  rfl

/-- A sequence returns exactly when both parts do. -/
theorem run_bind_eq_ok {m : EStateM ε σ α} {f : α → EStateM ε σ β} {s s'' : σ} {b : β} :
    (m >>= f).run s = .ok b s'' ↔ ∃ a s', m.run s = .ok a s' ∧ (f a).run s' = .ok b s'' := by
  rw [run_bind]
  cases m.run s with
  | ok a s' => exact ⟨fun h => ⟨a, s', rfl, h⟩, by rintro ⟨_, _, ⟨⟩, h⟩; exact h⟩
  | error e s' => simp

/-- A sequence faults in its first part or, that part having returned, in its second. -/
theorem run_bind_eq_error {m : EStateM ε σ α} {f : α → EStateM ε σ β} {s s'' : σ} {e : ε} :
    (m >>= f).run s = .error e s'' ↔
      m.run s = .error e s'' ∨ ∃ a s', m.run s = .ok a s' ∧ (f a).run s' = .error e s'' := by
  rw [run_bind]
  cases m.run s with
  | ok a s' =>
    constructor
    · exact fun h => .inr ⟨a, s', rfl, h⟩
    · rintro (h | ⟨_, _, h, h'⟩)
      · cases h
      · cases h
        exact h'
  | error e' s' => simp

/-! ## The state a result leaves -/

/-- The state in which a run ends, whether it returned or faulted. -/
def Result.final : Result ε σ α → σ
  | .ok _ s => s
  | .error _ s => s

@[simp] theorem Result.final_ok (a : α) (s : σ) : (Result.ok a s : Result ε σ α).final = s := rfl
@[simp] theorem Result.final_error (e : ε) (s : σ) :
    (Result.error e s : Result ε σ α).final = s := rfl

/-- Every run of `m`, returning or not, stays within `R`. -/
def Within (R : σ → σ → Prop) (m : EStateM ε σ α) : Prop :=
  ∀ s, R s (m.run s).final

namespace Within

variable {R : σ → σ → Prop}

theorem of_ok {m : EStateM ε σ α} (h : Within R m) {s s' : σ} {a : α}
    (hrun : m.run s = .ok a s') : R s s' := by
  simpa [hrun] using h s

theorem of_error {m : EStateM ε σ α} (h : Within R m) {s s' : σ} {e : ε}
    (hrun : m.run s = .error e s') : R s s' := by
  simpa [hrun] using h s

theorem mono {R' : σ → σ → Prop} {m : EStateM ε σ α} (h : Within R m)
    (hle : ∀ s s', R s s' → R' s s') : Within R' m :=
  fun s => hle _ _ (h s)

theorem ite {c : Prop} [Decidable c] {m m' : EStateM ε σ α}
    (h : c → Within R m) (h' : ¬ c → Within R m') : Within R (if c then m else m') := by
  split
  · exact h ‹_›
  · exact h' ‹_›

/-- A command that updates the state by a function stays within what the function does. -/
theorem modify {f : σ → σ} (h : ∀ s, R s (f s)) :
    Within R (modify f : EStateM ε σ PUnit) := h

variable [IsPreorder σ R]

theorem pure (a : α) : Within R (Pure.pure a : EStateM ε σ α) :=
  fun s => refl_of R s

theorem throw (e : ε) : Within R (throw e : EStateM ε σ α) :=
  fun s => refl_of R s

theorem get : Within R (get : EStateM ε σ σ) :=
  fun s => refl_of R s

/-- The second part of a sequence runs on a value that the first part returned. -/
theorem bind_of_returned {m : EStateM ε σ α} {f : α → EStateM ε σ β} (hm : Within R m)
    (hf : ∀ a s s', m.run s = .ok a s' → Within R (f a)) : Within R (m >>= f) := by
  intro s
  rw [run_bind]
  cases hrun : m.run s with
  | ok a s' => exact trans_of R (hm.of_ok hrun) (hf a s s' hrun s')
  | error e s' => exact hm.of_error hrun

theorem bind {m : EStateM ε σ α} {f : α → EStateM ε σ β}
    (hm : Within R m) (hf : ∀ a, Within R (f a)) : Within R (m >>= f) :=
  bind_of_returned hm fun a _ _ _ => hf a

end Within

/-- Every run of `m` that returns stays within `R`. -/
def Returns (R : σ → σ → Prop) (m : EStateM ε σ α) : Prop :=
  ∀ s a s', m.run s = .ok a s' → R s s'

theorem Within.returns {R : σ → σ → Prop} {m : EStateM ε σ α} (h : Within R m) : Returns R m :=
  fun _ _ _ hrun => h.of_ok hrun

namespace Returns

variable {R : σ → σ → Prop}

theorem ite {c : Prop} [Decidable c] {m m' : EStateM ε σ α} (h : c → Returns R m) (h' : ¬ c → Returns R m') :
    Returns R (if c then m else m') := by
  split
  · exact h ‹_›
  · exact h' ‹_›

theorem throw (e : ε) : Returns R (throw e : EStateM ε σ α) := fun _ _ _ => nofun

variable [IsPreorder σ R]

theorem pure (a : α) : Returns R (Pure.pure a : EStateM ε σ α) := (Within.pure a).returns

theorem bind {m : EStateM ε σ α} {f : α → EStateM ε σ β} (hm : Returns R m) (hf : ∀ a, Returns R (f a)) :
    Returns R (m >>= f) := by
  intro s b s' hrun
  obtain ⟨a, s₁, hfirst, hrest⟩ := run_bind_eq_ok.mp hrun
  exact trans_of R (hm s a s₁ hfirst) (hf a s₁ b s' hrest)

end Returns

/-- Every run of `m` that returns makes up for what was put off: `D` holds from where `R` did. -/
def Settles (R D : σ → σ → Prop) (m : EStateM ε σ α) : Prop :=
  ∀ s₀ s a s', R s₀ s → m.run s = .ok a s' → D s₀ s'

namespace Settles

variable {R D : σ → σ → Prop}

theorem returns [IsPreorder σ R] {m : EStateM ε σ α} (h : Settles R D m) : Returns D m :=
  fun s a s' hrun => h s s a s' (refl_of R s) hrun

theorem throw (e : ε) : Settles R D (throw e : EStateM ε σ α) := fun _ _ _ _ _ => nofun

theorem ite {c : Prop} [Decidable c] {m m' : EStateM ε σ α} (h : c → Settles R D m) (h' : ¬ c → Settles R D m') :
    Settles R D (if c then m else m') := by
  split
  · exact h ‹_›
  · exact h' ‹_›

/-- What was put off is still to be done. -/
theorem bind [IsPreorder σ R] {m : EStateM ε σ α} {f : α → EStateM ε σ β} (hm : Returns R m)
    (hf : ∀ a, Settles R D (f a)) : Settles R D (m >>= f) := by
  intro s₀ s b s' hbefore hrun
  obtain ⟨a, s₁, hfirst, hrest⟩ := run_bind_eq_ok.mp hrun
  exact hf a s₀ s₁ b s' (trans_of R hbefore (hm s a s₁ hfirst)) hrest

/-- It is done, and nothing more is put off. -/
theorem bind_returns [IsPreorder σ D] {m : EStateM ε σ α} {f : α → EStateM ε σ β} (hm : Settles R D m)
    (hf : ∀ a, Returns D (f a)) : Settles R D (m >>= f) := by
  intro s₀ s b s' hbefore hrun
  obtain ⟨a, s₁, hfirst, hrest⟩ := run_bind_eq_ok.mp hrun
  exact trans_of D (hm s₀ s a s₁ hbefore hfirst) (hf a s₁ b s' hrest)

end Settles

/-- No run of `m` ends with the fault `e`. -/
def Avoids (e : ε) (m : EStateM ε σ α) : Prop := ∀ s s', m.run s ≠ .error e s'

namespace Avoids

variable {e : ε}

theorem pure (a : α) : Avoids e (Pure.pure a : EStateM ε σ α) := fun _ _ => nofun

theorem throw {e' : ε} (h : e' ≠ e) : Avoids e (throw e' : EStateM ε σ α) := by
  intro s s' hrun
  cases hrun
  exact h rfl

theorem ite {c : Prop} [Decidable c] {m m' : EStateM ε σ α} (h : c → Avoids e m) (h' : ¬ c → Avoids e m') :
    Avoids e (if c then m else m') := by
  split
  · exact h ‹_›
  · exact h' ‹_›

theorem bind {m : EStateM ε σ α} {f : α → EStateM ε σ β} (hm : Avoids e m) (hf : ∀ a, Avoids e (f a)) :
    Avoids e (m >>= f) := by
  intro s s' hrun
  rcases run_bind_eq_error.mp hrun with hfirst | ⟨a, s₁, -, hrest⟩
  · exact hm s s' hfirst
  · exact hf a s₁ s' hrest

end Avoids

/-- To keep an invariant is to stay within the preorder "if it held, it holds". -/
def Keeps (I : σ → Prop) (s s' : σ) : Prop := I s → I s'

instance (I : σ → Prop) : IsPreorder σ (Keeps I) where
  refl _ h := h
  trans _ _ _ h h' := h' ∘ h

/-- A sequence whose first part keeps an invariant: what the invariant implies holds where that part
faults, and it is left to show where the second part ends. -/
theorem Within.keeps_bind {I P : σ → Prop} {m : EStateM ε σ α} {f : α → EStateM ε σ β} {s : σ}
    (hm : Within (Keeps I) m) (hs : I s) (himp : ∀ s', I s' → P s')
    (hf : ∀ a s', m.run s = .ok a s' → I s' → P ((f a).run s').final) : P ((m >>= f).run s).final := by
  rw [run_bind]
  cases hrun : m.run s with
  | ok a s' => exact hf a s' hrun (hm.of_ok hrun hs)
  | error e s' => exact himp s' (hm.of_error hrun hs)

end EStateM
