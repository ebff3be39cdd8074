-- SUMMARY: The buffers that a call takes and gives back, counted in the log.
import Mathlib.Algebra.BigOperators.Group.List.Basic
import Mathlib.Algebra.Group.Pi.Basic
import Mathlib.Algebra.Ring.Int.Defs
import Spfs.Kernel

/-!
# Balance of buffers

Every `sb_bread` that succeeds takes a buffer, and every `brelse` gives one back. What a
call takes more than it gives back (`Takes`) adds up over the parts of the call. A call is
balanced when it gives back exactly what it took.
-/

namespace Spfs

/-- What an event adds to the number of buffers of the sector that are held. -/
def Event.delta (s : ℕ) : Event → ℤ
  | .bread s' true => if s' = s then 1 else 0
  | .brelse s' => if s' = s then -1 else 0
  | _ => 0

/-- The buffers of the sector that the events take more than they give back. -/
def net (s : ℕ) (es : List Event) : ℤ := (es.map (Event.delta s)).sum

@[simp] theorem net_nil (s : ℕ) : net s [] = 0 := rfl

@[simp] theorem net_cons (s : ℕ) (e : Event) (es : List Event) :
    net s (e :: es) = e.delta s + net s es := List.sum_cons

@[simp] theorem net_append (s : ℕ) (es es' : List Event) :
    net s (es ++ es') = net s es + net s es' := by
  rw [net, List.map_append, List.sum_append]
  rfl

/-- The log grew by events that take the buffers `d`. -/
def Takes (d : ℕ → ℤ) (w w' : World) : Prop :=
  ∃ es, w'.log = es ++ w.log ∧ ∀ s, net s es = d s

/-- Every buffer that was taken was given back. -/
abbrev Balanced := Takes 0

/-- One buffer of the sector. -/
def oneBuffer (s s' : ℕ) : ℤ := if s = s' then 1 else 0

namespace Takes

variable {d d' : ℕ → ℤ} {w w' w'' : World} {s : ℕ}

theorem trans (h : Takes d w w') (h' : Takes d' w' w'') : Takes (d + d') w w'' := by
  obtain ⟨es, hlog, hnet⟩ := h
  obtain ⟨es', hlog', hnet'⟩ := h'
  refine ⟨es' ++ es, ?_, fun s => ?_⟩
  · rw [hlog', hlog, List.append_assoc]
  · rw [net_append, hnet, hnet', Int.add_comm]
    rfl

/-- What was taken is determined by the logs. -/
theorem unique (h : Takes d w w') (h' : Takes d' w w') : d = d' := by
  obtain ⟨es, hlog, hnet⟩ := h
  obtain ⟨es', hlog', hnet'⟩ := h'
  obtain rfl : es = es' := List.append_cancel_right (hlog.symm.trans hlog')
  funext s
  rw [← hnet, ← hnet']

/-- Only the logs count. -/
theorem of_log {w₁ w₁' : World} (h : Takes d w w') (hlog : w₁.log = w.log) (hlog' : w₁'.log = w'.log) :
    Takes d w₁ w₁' := by
  obtain ⟨es, heq, hnet⟩ := h
  exact ⟨es, by rw [hlog', heq, hlog], hnet⟩

theorem bread (w : World) (s : ℕ) : Takes (oneBuffer s) w (w.addEvent (.bread s true)) :=
  ⟨[.bread s true], rfl, fun _ => Int.add_zero _⟩

theorem brelse (w : World) (s : ℕ) : Takes (- oneBuffer s) w (w.addEvent (.brelse s)) := by
  refine ⟨[.brelse s], rfl, fun s' => ?_⟩
  rw [net_cons, net_nil, Int.add_zero, Event.delta, Pi.neg_apply, oneBuffer]
  split <;> rfl

theorem event {e : Event} (h : ∀ s, e.delta s = 0) (w : World) : Balanced w (w.addEvent e) :=
  ⟨[e], rfl, fun s => by rw [net_cons, h]; rfl⟩

theorem of_log_eq (h : w'.log = w.log) : Balanced w w' := ⟨[], h, fun _ => rfl⟩

end Takes

theorem Balanced.trans {w w' w'' : World} (h : Balanced w w') (h' : Balanced w' w'') :
    Balanced w w'' := by
  have hsum := Takes.trans h h'
  rwa [add_zero] at hsum

instance : IsPreorder World Balanced where
  refl _ := Takes.of_log_eq rfl
  trans _ _ _ h h' := Balanced.trans h h'

/-- A buffer that is taken and given back, with a balanced part between. -/
theorem Balanced.of_bread_brelse {w w' : World} {s : ℕ} (h : Balanced (w.addEvent (.bread s true)) w') :
    Balanced w (w'.addEvent (.brelse s)) := by
  have hsum := ((Takes.bread w s).trans h).trans (Takes.brelse w' s)
  rwa [add_zero, add_neg_cancel] at hsum

/-! ## Locks and buffers -/

/-- Whether the lock of an inode is held. -/
def lockOf (w : World) (p : ℕ) : Option Bool := (w.inodes p).map (·.lock)

/-- The lock is as it was, and every buffer was given back. -/
structure Released (p : ℕ) (w w' : World) : Prop where
  lock : lockOf w' p = lockOf w p
  buffers : Balanced w w'

instance (p : ℕ) : IsPreorder World (Released p) where
  refl w := ⟨rfl, refl_of Balanced w⟩
  trans _ _ _ h h' := ⟨h'.lock.trans h.lock, h.buffers.trans h'.buffers⟩

/-- A lock that was taken and not given back is not as it was. -/
theorem not_released_of_locked {w w' : World} {p : ℕ} {i j : SpfsInode} (hp : w.inodes p = some i)
    (hlock : i.lock = false) (hp' : w'.inodes p = some j) (hlock' : j.lock = true) :
    ¬ Released p w w' := by
  intro h
  have heq := h.lock
  rw [lockOf, lockOf, hp, hp', Option.map_some, Option.map_some, hlock, hlock'] at heq
  cases heq

/-- The lock is given back at the end of a balanced part. -/
theorem Released.of_unlock {w w₁ w' : World} {p : ℕ} {i j : SpfsInode} (hp : w.inodes p = some i)
    (hlock : i.lock = false) (hbal : Balanced (w.addEvent (.lock p)) w₁)
    (hlog : w'.log = .unlock p :: w₁.log) (hp' : w'.inodes p = some j) (hlock' : j.lock = false) :
    Released p w w' where
  lock := by rw [lockOf, lockOf, hp, hp', Option.map_some, Option.map_some, hlock, hlock']
  buffers := by
    have htaken : Balanced w (w.addEvent (.lock p)) := Takes.event (fun _ => rfl) w
    have hgiven : Balanced w₁ (w₁.addEvent (.unlock p)) := Takes.event (fun _ => rfl) w₁
    exact Takes.of_log (htaken.trans (hbal.trans hgiven)) rfl hlog

/-- A buffer that is taken and kept is not balanced. -/
theorem Takes.not_balanced {w w' : World} {s : ℕ} (h : Takes (oneBuffer s) w w') : ¬ Balanced w w' := by
  intro hbal
  have heq := congrFun (h.unique hbal) s
  rw [oneBuffer, if_pos rfl, Pi.zero_apply] at heq
  exact absurd heq Int.one_ne_zero

end Spfs
