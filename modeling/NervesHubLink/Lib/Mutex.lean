import Mathlib.Logic.Basic

/-! A lock, the threads that may hold it, and what the step of one thread can do to it. -/

namespace Mutex

variable {α : Type} {lock lock' : Option α} {has has' : α → Prop} {a b : α}

/-- The lock is held by the thread that is in a section under it, and by no other. -/
def Sound (lock : Option α) (has : α → Prop) : Prop := ∀ a, lock = some a ↔ has a

/-- A step of one thread leaves the lock alone, takes it when it is free, or gives it back. -/
inductive Turn (a : α) (lock lock' : Option α) (has has' : α → Prop) : Prop
  | keeps : lock' = lock → (has' a ↔ has a) → Turn a lock lock' has has'
  | takes : lock = none → lock' = some a → has' a → Turn a lock lock' has has'
  | gives : has a → lock' = none → ¬ has' a → Turn a lock lock' has has'

theorem Sound.exclusive (h : Sound lock has) (ha : has a) (hb : has b) : a = b := by
  have hla := (h a).mpr ha
  have hlb := (h b).mpr hb
  rw [hla] at hlb
  exact Option.some.inj hlb

/-- The step rule: no other thread comes into a section or out of one. -/
theorem Sound.turn (h : Sound lock has) (ht : Turn a lock lock' has has') (hothers : ∀ b, b ≠ a → (has' b ↔ has b)) :
    Sound lock' has' := by
  intro b
  by_cases hb : b = a
  · subst hb
    cases ht with
    | keeps hl hi => rw [hl, hi]; exact h b
    | takes hn hl hi => simp [hl, hi]
    | gives hh hl hi => simp [hl, hi]
  · rw [hothers b hb, ← h b]
    cases ht with
    | keeps hl hi => rw [hl]
    | takes hn hl hi => simp [hl, hn, Ne.symm hb]
    | gives hh hl hi => simp [hl, (h a).mpr hh, Ne.symm hb]

end Mutex
