import Mathlib.Logic.Function.Basic

/-! Objects that allow a call in some of their phases only, as a record of calls tells. The record's newest entry comes
first. -/

namespace Typestate

/-- The phase that an object begins in, and the one that a call leaves it in, if the call is allowed. -/
structure Protocol (P C : Type) where
  start : P
  step : P → C → Option P

inductive Entry (ι C : Type) where
  | made (i : ι)
  | called (i : ι) (c : C)
  | dropped (i : ι)
  deriving DecidableEq, Repr

inductive Life (P : Type) where
  | unmade
  | live (p : P)
  | gone
  deriving DecidableEq, Repr

section
variable {ι P C : Type} [DecidableEq ι] (proto : Protocol P C)

/-- The objects after one entry more. What is not alive is neither called nor dropped, and what is gone is not made
    again. -/
def next (x : ι → Life P) : Entry ι C → Option (ι → Life P)
  | .made i =>
    match x i with
    | .unmade => some (Function.update x i (.live proto.start))
    | _ => none
  | .called i c =>
    match x i with
    | .live p => (proto.step p c).map fun q => Function.update x i (.live q)
    | _ => none
  | .dropped i =>
    match x i with
    | .live _ => some (Function.update x i .gone)
    | _ => none

/-- The objects after a record, if no entry of it is one that is not allowed. -/
def after : List (Entry ι C) → Option (ι → Life P)
  | [] => some fun _ => .unmade
  | e :: t => (after t).bind (next proto · e)

/-- The objects that are alive are the given one in its phase, or none. -/
def Sole (one : Option (ι × P)) (x : ι → Life P) : Prop := ∀ i p, x i = .live p ↔ one = some (i, p)

variable {proto} {t : List (Entry ι C)} {x : ι → Life P} {i j : ι} {c : C} {p q : P}

omit [DecidableEq ι] in
theorem only_unmade : Sole none fun _ : ι => (.unmade : Life P) := by simp [Sole]

theorem Sole.made (proto : Protocol P C) (h : Sole none x) (hi : x i = .unmade) :
    ∃ y, next proto x (.made i : Entry ι C) = some y ∧ Sole (some (i, proto.start)) y ∧ ∀ j, j ≠ i → y j = x j := by
  refine ⟨Function.update x i (.live proto.start), by simp only [next, hi], fun j p => ?_, fun j hj =>
    Function.update_of_ne hj _ _⟩
  by_cases hj : j = i
  · subst hj
    simp [eq_comm]
  · rw [Function.update_of_ne hj, h j p]
    simp [Ne.symm hj]

theorem Sole.called (h : Sole (some (i, p)) x) (hstep : proto.step p c = some q) :
    ∃ y, next proto x (.called i c) = some y ∧ Sole (some (i, q)) y ∧ ∀ j, j ≠ i → y j = x j := by
  have hi := (h i p).mpr rfl
  refine ⟨Function.update x i (.live q), by simp only [next, hi, hstep, Option.map_some], fun j r => ?_, fun j hj =>
    Function.update_of_ne hj _ _⟩
  by_cases hj : j = i
  · subst hj
    simp
  · rw [Function.update_of_ne hj, h j r]
    simp [Ne.symm hj]

theorem Sole.dropped (proto : Protocol P C) (h : Sole (some (i, p)) x) :
    ∃ y, next proto x (.dropped i : Entry ι C) = some y ∧ Sole none y ∧ ∀ j, j ≠ i → y j = x j := by
  have hi := (h i p).mpr rfl
  refine ⟨Function.update x i .gone, by simp only [next, hi], fun j r => ?_, fun j hj => Function.update_of_ne hj _ _⟩
  by_cases hj : j = i
  · subst hj
    simp
  · rw [Function.update_of_ne hj, h j r]
    simp [Ne.symm hj]

theorem Sole.refused (h : Sole (some (i, p)) x) (hstep : proto.step p c = none) : next proto x (.called i c) = none := by
  simp [next, (h i p).mpr rfl, hstep]

theorem after_cons {e : Entry ι C} (h : after proto t = some x) : after proto (e :: t) = next proto x e := by
  rw [after, h]
  rfl

/-- What was refused once is not mended. -/
theorem after_none (h : after proto t = none) (u : List (Entry ι C)) : after proto (u ++ t) = none := by
  induction u with
  | nil => exact h
  | cons e u ih =>
    rw [List.cons_append, after, ih]
    rfl

end

/-! ### Numbered objects -/

/-- Nothing was refused, the given object is the only one that is alive, and the numbers from `made` on are left. -/
def Lone {P C : Type} (proto : Protocol P C) (one : Option (Nat × P)) (made : Nat) (t : List (Entry Nat C)) : Prop :=
  ∃ x, after proto t = some x ∧ Sole one x ∧ ∀ i, made ≤ i → x i = .unmade

namespace Lone
variable {P C : Type} {proto : Protocol P C} {n : Nat} {t : List (Entry Nat C)} {i : Nat} {p q : P} {c : C}

theorem nil (proto : Protocol P C) (n : Nat) : Lone proto none n [] := ⟨_, rfl, only_unmade, fun _ _ => rfl⟩

theorem lt_made (h : Lone proto (some (i, p)) n t) : i < n := by
  obtain ⟨x, -, hsole, hleft⟩ := h
  by_contra hle
  have := hleft i (Nat.le_of_not_lt hle)
  rw [(hsole i p).mpr rfl] at this
  cases this

theorem made (h : Lone proto none n t) : Lone proto (some (n, proto.start)) (n + 1) (.made n :: t) := by
  obtain ⟨x, hx, hsole, hleft⟩ := h
  obtain ⟨y, hy, hsole', hothers⟩ := hsole.made proto (hleft _ (Nat.le_refl _))
  refine ⟨y, (after_cons hx).trans hy, hsole', fun j hj => ?_⟩
  rw [hothers j (by omega)]
  exact hleft j (by omega)

theorem called (h : Lone proto (some (i, p)) n t) (hstep : proto.step p c = some q) :
    Lone proto (some (i, q)) n (.called i c :: t) := by
  have hlt := h.lt_made
  obtain ⟨x, hx, hsole, hleft⟩ := h
  obtain ⟨y, hy, hsole', hothers⟩ := hsole.called hstep
  refine ⟨y, (after_cons hx).trans hy, hsole', fun j hj => ?_⟩
  rw [hothers j (by omega)]
  exact hleft j hj

theorem dropped (h : Lone proto (some (i, p)) n t) : Lone proto none n (.dropped i :: t) := by
  have hlt := h.lt_made
  obtain ⟨x, hx, hsole, hleft⟩ := h
  obtain ⟨y, hy, hsole', hothers⟩ := hsole.dropped proto
  refine ⟨y, (after_cons hx).trans hy, hsole', fun j hj => ?_⟩
  rw [hothers j (by omega)]
  exact hleft j hj

end Lone

end Typestate
