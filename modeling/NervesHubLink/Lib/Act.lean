import Mathlib.Logic.Basic

/-! Programs over a mutable state that end with a value, with an error, or not yet.

`Act S ε α` is a function from the state to an outcome and the state left behind. The state survives an
error, as it does behind a mutable borrow. `cut` is a run that was stopped before it ended: no program
can catch it, so it always reaches the caller of the whole. -/

/-- How a program ended. -/
inductive Outcome (ε α : Type) where
  | ret (a : α)
  | err (e : ε)
  | cut
  deriving DecidableEq

/-- A program over the state `S` that returns an `α` or fails with an `ε`. -/
def Act (S ε α : Type) : Type := S → Outcome ε α × S

namespace Act

variable {S ε α β : Type}

protected def pure (a : α) : Act S ε α := fun s => (.ret a, s)

protected def bind (m : Act S ε α) (k : α → Act S ε β) : Act S ε β := fun s =>
  match m s with
  | (.ret a, t) => k a t
  | (.err e, t) => (.err e, t)
  | (.cut, t) => (.cut, t)

instance : Monad (Act S ε) where
  pure := Act.pure
  bind := Act.bind

/-- Ends with the error `e`. -/
def throw (e : ε) : Act S ε α := fun s => (.err e, s)

/-- Runs `m` and hands its error to the caller as a value. -/
def attempt (m : Act S ε α) : Act S ε (Except ε α) := fun s =>
  match m s with
  | (.ret a, t) => (.ret (.ok a), t)
  | (.err e, t) => (.ret (.error e), t)
  | (.cut, t) => (.cut, t)

/-- A result computed without the state. -/
def ofExcept : Except ε α → Act S ε α
  | .ok a => pure a
  | .error e => throw e

/-- A change of the state that cannot fail. -/
def modify (f : S → S) : Act S ε Unit := fun s => (.ret (), f s)

/-- Runs `m` only if `c` holds. -/
def when (c : Prop) [Decidable c] (m : Act S ε Unit) : Act S ε Unit := if c then m else pure ()

/-- A reading of the state. -/
def gets (f : S → α) : Act S ε α := fun s => (.ret (f s), s)

@[simp] theorem pure_apply (a : α) (s : S) : (pure a : Act S ε α) s = (.ret a, s) := rfl

@[simp] theorem throw_apply (e : ε) (s : S) : (throw e : Act S ε α) s = (.err e, s) := rfl

@[simp] theorem modify_apply (f : S → S) (s : S) : (modify f : Act S ε Unit) s = (.ret (), f s) := rfl

@[simp] theorem gets_apply (f : S → α) (s : S) : (gets f : Act S ε α) s = (.ret (f s), s) := rfl

theorem bind_apply (m : Act S ε α) (k : α → Act S ε β) (s : S) :
    (m >>= k) s = match m s with
      | (.ret a, t) => k a t
      | (.err e, t) => (.err e, t)
      | (.cut, t) => (.cut, t) := rfl

theorem bind_ret {m : Act S ε α} {k : α → Act S ε β} {s t : S} {a : α} (h : m s = (.ret a, t)) :
    (m >>= k) s = k a t := by rw [bind_apply, h]

theorem bind_err {m : Act S ε α} {k : α → Act S ε β} {s t : S} {e : ε} (h : m s = (.err e, t)) :
    (m >>= k) s = (.err e, t) := by rw [bind_apply, h]

theorem bind_cut {m : Act S ε α} {k : α → Act S ε β} {s t : S} (h : m s = (.cut, t)) :
    (m >>= k) s = (.cut, t) := by rw [bind_apply, h]

theorem bind_assoc {γ : Type} (m : Act S ε α) (k : α → Act S ε β) (l : β → Act S ε γ) :
    (m >>= k) >>= l = m >>= fun a => k a >>= l := by
  funext s
  rw [bind_apply, bind_apply, bind_apply]
  rcases m s with ⟨_ | _ | _, _⟩ <;> rfl

theorem bind_unit (m : Act S ε Unit) : (m >>= fun _ => pure ()) = m := by
  funext s
  rw [bind_apply]
  rcases m s with ⟨_ | _ | _, _⟩ <;> rfl

theorem bind_pure_state (m : Act S ε α) (f : α → β) (s : S) : ((m >>= fun a => pure (f a)) s).2 = (m s).2 := by
  rw [bind_apply]
  rcases m s with ⟨_ | _ | _, _⟩ <;> rfl

theorem bind_pure_cut (m : Act S ε α) (f : α → β) (s : S) :
    ((m >>= fun a => pure (f a)) s).1 = .cut ↔ (m s).1 = .cut := by
  rw [bind_apply]
  rcases m s with ⟨_ | _ | _, _⟩ <;> simp

@[simp] theorem pure_bind_apply (a : α) (k : α → Act S ε β) (s : S) :
    ((pure a : Act S ε α) >>= k) s = k a s := rfl

@[simp] theorem throw_bind_apply (e : ε) (k : α → Act S ε β) (s : S) :
    ((throw e : Act S ε α) >>= k) s = (.err e, s) := rfl

@[simp] theorem modify_bind_apply (f : S → S) (k : Unit → Act S ε β) (s : S) :
    ((modify f : Act S ε Unit) >>= k) s = k () (f s) := rfl

@[simp] theorem gets_bind_apply (f : S → α) (k : α → Act S ε β) (s : S) :
    ((gets f : Act S ε α) >>= k) s = k (f s) s := rfl

/-! ### What a program keeps

`Keeps R m`: however `m` ends, it leaves a state that `R` relates to the one it began in. With a preorder
for `R` this passes through every way of putting programs together. -/

structure Steps (R : S → S → Prop) : Prop where
  refl : ∀ s, R s s
  trans : ∀ {s t u}, R s t → R t u → R s u

def Keeps (R : S → S → Prop) (m : Act S ε α) : Prop := ∀ s, R s (m s).2

/-- Every value that `m` returns satisfies `Q`. -/
def Returns (Q : α → Prop) (m : Act S ε α) : Prop := ∀ s a t, m s = (.ret a, t) → Q a

theorem Returns.pure {Q : α → Prop} {a : α} (h : Q a) : Returns Q (Pure.pure a : Act S ε α) := by
  intro s b t hs
  cases hs
  exact h

theorem Returns.bind {Q : β → Prop} {m : Act S ε α} {k : α → Act S ε β} (hk : ∀ a, Returns Q (k a)) :
    Returns Q (m >>= k) := by
  intro s b t hs
  rw [bind_apply] at hs
  rcases hms : m s with ⟨a | _ | _, u⟩ <;> rw [hms] at hs
  · exact hk a u b t hs
  · cases hs
  · cases hs

theorem Returns.ite {Q : α → Prop} {c : Prop} [Decidable c] {m n : Act S ε α} (hm : Returns Q m) (hn : Returns Q n) :
    Returns Q (if c then m else n) := by
  split
  · exact hm
  · exact hn

theorem Returns.attempt {Q : α → Prop} {m : Act S ε α} (hm : Returns Q m) :
    Returns (fun r => ∀ a, r = .ok a → Q a) (attempt m) := by
  rintro s r t hs a rfl
  unfold Act.attempt at hs
  rcases hms : m s with ⟨b | _ | _, u⟩ <;> rw [hms] at hs <;> cases hs
  exact hm s a _ hms

namespace Keeps
variable {R : S → S → Prop}

theorem pure (hR : Steps R) (a : α) : Keeps R (Pure.pure a : Act S ε α) := fun s => hR.refl s

theorem throw (hR : Steps R) (e : ε) : Keeps R (throw e : Act S ε α) := fun s => hR.refl s

theorem ofExcept (hR : Steps R) (r : Except ε α) : Keeps R (ofExcept r) := by
  cases r with
  | ok a => exact pure hR a
  | error e => exact throw hR e

theorem gets (hR : Steps R) (f : S → α) : Keeps R (gets f : Act S ε α) := fun s => hR.refl s

theorem modify {f : S → S} (h : ∀ s, R s (f s)) : Keeps R (modify f : Act S ε Unit) := h

theorem bind_returns (hR : Steps R) {Q : α → Prop} {m : Act S ε α} {k : α → Act S ε β} (hm : Keeps R m)
    (hret : Returns Q m) (hk : ∀ a, Q a → Keeps R (k a)) : Keeps R (m >>= k) := by
  intro s
  have h := hm s
  rw [bind_apply]
  rcases hms : m s with ⟨o, t⟩
  rw [hms] at h
  cases o with
  | ret a => exact hR.trans h (hk a (hret s a t hms) t)
  | err e => exact h
  | cut => exact h

theorem bind (hR : Steps R) {m : Act S ε α} {k : α → Act S ε β} (hm : Keeps R m)
    (hk : ∀ a, Keeps R (k a)) : Keeps R (m >>= k) :=
  bind_returns (Q := fun _ => True) hR hm (fun _ _ _ _ => trivial) fun a _ => hk a

theorem attempt {m : Act S ε α} (hm : Keeps R m) : Keeps R (attempt m) := by
  intro s
  have h := hm s
  unfold Act.attempt
  rcases hms : m s with ⟨o, t⟩
  rw [hms] at h
  cases o <;> exact h

theorem ite {c : Prop} [Decidable c] {m n : Act S ε α} (hm : Keeps R m) (hn : Keeps R n) :
    Keeps R (if c then m else n) := by
  split
  · exact hm
  · exact hn

theorem when (hR : Steps R) {c : Prop} [Decidable c] {m : Act S ε Unit} (hm : c → Keeps R m) :
    Keeps R (Act.when c m) := by
  unfold Act.when
  split
  · exact hm ‹_›
  · exact pure hR ()

theorem mono {R' : S → S → Prop} (h : ∀ s t, R s t → R' s t) {m : Act S ε α} (hm : Keeps R m) : Keeps R' m :=
  fun s => h s _ (hm s)

end Keeps

/-! ### Specifications

`Spec P m Q`: begun where `P` holds, `m` ends with an outcome and a state for which `Q` holds. -/

def Spec (P : S → Prop) (m : Act S ε α) (Q : Outcome ε α → S → Prop) : Prop := ∀ s, P s → Q (m s).1 (m s).2

/-- The postcondition that asks `R` of a value and its state, `X` of the state after an error, and `C` of the
    state in which a run was cut. -/
def Ends (R : α → S → Prop) (X C : S → Prop) : Outcome ε α → S → Prop
  | .ret a, s => R a s
  | .err _, s => X s
  | .cut, s => C s

/-- The postcondition that asks the same of every state that was not left with a value. -/
abbrev Post (R : α → S → Prop) (X : S → Prop) : Outcome ε α → S → Prop := Ends R X X

@[simp] theorem ends_ret {R : α → S → Prop} {X C : S → Prop} {a : α} {s : S} :
    Ends (ε := ε) R X C (.ret a) s ↔ R a s := Iff.rfl

@[simp] theorem ends_err {R : α → S → Prop} {X C : S → Prop} {e : ε} {s : S} :
    Ends (α := α) R X C (.err e) s ↔ X s := Iff.rfl

@[simp] theorem ends_cut {R : α → S → Prop} {X C : S → Prop} {s : S} :
    Ends (ε := ε) (α := α) R X C .cut s ↔ C s := Iff.rfl

theorem Ends.mono {R R' : α → S → Prop} {X X' C C' : S → Prop} (hR : ∀ a s, R a s → R' a s) (hX : ∀ s, X s → X' s)
    (hC : ∀ s, C s → C' s) {o : Outcome ε α} {s : S} (h : Ends R X C o s) : Ends R' X' C' o s := by
  cases o with
  | ret a => exact hR a s h
  | err e => exact hX s h
  | cut => exact hC s h

namespace Spec
variable {P : S → Prop} {X C : S → Prop}

theorem bind {R : α → S → Prop} {Q : β → S → Prop} {m : Act S ε α} {k : α → Act S ε β}
    (hm : Spec P m (Ends R X C)) (hk : ∀ a, Spec (R a) (k a) (Ends Q X C)) : Spec P (m >>= k) (Ends Q X C) := by
  intro s hs
  have h := hm s hs
  rw [bind_apply]
  rcases hms : m s with ⟨o, t⟩
  rw [hms] at h
  cases o with
  | ret a => exact hk a t h
  | err e => exact h
  | cut => exact h

theorem ret {Q : α → S → Prop} {a : α} (h : ∀ s, P s → Q a s) : Spec P (Pure.pure a : Act S ε α) (Ends Q X C) := h

theorem fail {Q : α → S → Prop} {e : ε} (h : ∀ s, P s → X s) : Spec P (throw e) (Ends Q X C) := h

theorem ofExcept {Q : α → S → Prop} {r : Except ε α} (hok : ∀ a, r = .ok a → ∀ s, P s → Q a s)
    (herr : ∀ e, r = .error e → ∀ s, P s → X s) : Spec P (ofExcept r) (Ends Q X C) := by
  cases r with
  | ok a => exact hok a rfl
  | error e => exact herr e rfl

/-- An attempt has the postcondition of its program, and what held after an error once there is one. -/
theorem attempt {Q : α → S → Prop} {Y : S → Prop} {m : Act S ε α} (hm : Spec P m (Ends Q Y C)) :
    Spec P (attempt m) (Ends (fun
      | .ok a => Q a
      | .error _ => Y) X C) := by
  intro s hs
  have h := hm s hs
  unfold Act.attempt
  rcases hms : m s with ⟨o, t⟩
  rw [hms] at h
  cases o <;> exact h

theorem ite {c : Prop} [Decidable c] {Q : Outcome ε α → S → Prop} {m n : Act S ε α} (hm : c → Spec P m Q)
    (hn : ¬c → Spec P n Q) : Spec P (if c then m else n) Q := by
  split
  · exact hm ‹_›
  · exact hn ‹_›

theorem when {c : Prop} [Decidable c] {m : Act S ε Unit} {Q : Unit → S → Prop} (hm : c → Spec P m (Ends Q X C))
    (hn : ¬c → ∀ s, P s → Q () s) : Spec P (Act.when c m) (Ends Q X C) := ite hm fun hc => ret (hn hc)

theorem conseq {P' : S → Prop} {Q T : Outcome ε α → S → Prop} {m : Act S ε α} (hm : Spec P m Q)
    (hP : ∀ s, P' s → P s) (hQ : ∀ o s, Q o s → T o s) : Spec P' m T := fun s hs => hQ _ _ (hm s (hP s hs))

theorem pre {P' : S → Prop} {Q : Outcome ε α → S → Prop} {m : Act S ε α} (hm : Spec P m Q)
    (hP : ∀ s, P' s → P s) : Spec P' m Q := fun s hs => hm s (hP s hs)

theorem mono {R R' : α → S → Prop} {X' C' : S → Prop} {m : Act S ε α} (hm : Spec P m (Ends R X C))
    (hR : ∀ a s, R a s → R' a s) (hX : ∀ s, X s → X' s) (hC : ∀ s, C s → C' s) : Spec P m (Ends R' X' C') :=
  fun s hs => (hm s hs).mono hR hX hC

theorem forM {A : Type} {f : A → Act S ε Unit} (hf : ∀ a, Spec P (f a) (Ends (fun _ => P) X C)) (l : List A) :
    Spec P (l.forM f) (Ends (fun _ => P) X C) := by
  induction l with
  | nil => exact ret fun _ h => h
  | cons a l ih => exact bind (hf a) fun _ => ih

theorem both {P' X' C' : S → Prop} {R R' : α → S → Prop} {m : Act S ε α} (hm : Spec P m (Ends R X C))
    (hm' : Spec P' m (Ends R' X' C')) : Spec (fun s => P s ∧ P' s) m
      (Ends (fun a s => R a s ∧ R' a s) (fun s => X s ∧ X' s) fun s => C s ∧ C' s) := by
  rintro s ⟨hs, hs'⟩
  have h := hm s hs
  have h' := hm' s hs'
  rcases hms : m s with ⟨o, t⟩
  rw [hms] at h h'
  cases o <;> exact ⟨h, h'⟩

theorem returns {R : α → S → Prop} {Q : α → Prop} {m : Act S ε α} (hm : Spec P m (Ends R X C)) (hret : Returns Q m) :
    Spec P m (Ends (fun a s => R a s ∧ Q a) X C) := by
  intro s hs
  have h := hm s hs
  rcases hms : m s with ⟨o, t⟩
  rw [hms] at h
  cases o with
  | ret a => exact ⟨h, hret s a t hms⟩
  | err e => exact h
  | cut => exact h

/-- A property that holds of the state however a program ends. -/
theorem of_state {I : S → Prop} {m : Act S ε α} (h : ∀ s, P s → I (m s).2) : Spec P m (Post (fun _ => I) I) :=
  fun s hs => by
    have hI := h s hs
    rcases (m s).1 with a | e | _ <;> exact hI

theorem state {I : S → Prop} {m : Act S ε α} (h : Spec P m (Post (fun _ => I) I)) {s : S} (hs : P s) :
    I (m s).2 := by
  have hp := h s hs
  rcases hm : (m s).1 with a | e | _ <;> rw [hm] at hp <;> exact hp

theorem last {P : S → Prop} {Q : β → S → Prop} {m : Act S ε α} {k : α → Act S ε β}
    (hk : ∀ a, Spec (fun _ => True) (k a) (Post Q fun _ => True)) : Spec P (m >>= k) (Post Q fun _ => True) := by
  intro s _
  rw [bind_apply]
  rcases m s with ⟨a | e | _, t⟩
  · exact hk a t trivial
  · trivial
  · trivial

theorem of_keeps {R : S → S → Prop} {I : S → Prop} {m : Act S ε α} (hm : Keeps R m) (hI : ∀ s t, I s → R s t → I t) :
    Spec I m (Post (fun _ => I) I) := of_state fun s hs => hI _ _ hs (hm s)

end Spec

/-! ### Cases of a finished program -/

theorem bind_cases {m : Act S ε α} {k : α → Act S ε β} {s t : S} {o : Outcome ε β} (h : (m >>= k) s = (o, t)) :
    (∃ a u, m s = (.ret a, u) ∧ k a u = (o, t)) ∨ (∃ e, m s = (.err e, t) ∧ o = .err e) ∨
      (m s = (.cut, t) ∧ o = .cut) := by
  rw [bind_apply] at h
  rcases hms : m s with ⟨_ | e | _, u⟩ <;> rw [hms] at h
  · exact Or.inl ⟨_, _, rfl, h⟩
  · cases h
    exact Or.inr (Or.inl ⟨_, rfl, rfl⟩)
  · cases h
    exact Or.inr (Or.inr ⟨rfl, rfl⟩)

/-! ### Errors

`Raises F m`: an error that `m` ends with is one that `F` allows in the state it leaves behind. -/

def Raises (F : ε → S → Prop) (m : Act S ε α) : Prop := ∀ s e t, m s = (.err e, t) → F e t

namespace Raises
variable {F : ε → S → Prop}

theorem of_total {f : S → α × S} {m : Act S ε α} (h : ∀ s, m s = (.ret (f s).1, (f s).2)) : Raises F m := by
  intro s e t hs
  rw [h s] at hs
  cases hs

theorem pure (a : α) : Raises F (Pure.pure a : Act S ε α) := of_total (f := fun s => (a, s)) fun _ => rfl

theorem gets (g : S → α) : Raises F (gets g : Act S ε α) := of_total (f := fun s => (g s, s)) fun _ => rfl

theorem throw {e : ε} (h : ∀ s, F e s) : Raises F (throw e : Act S ε α) := by
  intro s e' t hs
  cases hs
  exact h s

theorem bind {m : Act S ε α} {k : α → Act S ε β} (hm : Raises F m) (hk : ∀ a, Raises F (k a)) : Raises F (m >>= k) := by
  intro s e t hs
  rcases bind_cases hs with ⟨a, u, -, h⟩ | ⟨e', h, heq⟩ | ⟨-, h⟩
  · exact hk a u e t h
  · cases heq
    exact hm s e t h
  · cases h

theorem ite {c : Prop} [Decidable c] {m n : Act S ε α} (hm : Raises F m) (hn : Raises F n) :
    Raises F (if c then m else n) := by
  split
  · exact hm
  · exact hn

theorem when {c : Prop} [Decidable c] {m : Act S ε Unit} (hm : Raises F m) : Raises F (Act.when c m) := ite hm (pure ())

theorem attempt {m : Act S ε α} : Raises F (attempt m) := by
  intro s e t hs
  unfold Act.attempt at hs
  rcases hms : m s with ⟨a | e' | _, u⟩ <;> rw [hms] at hs <;> cases hs

end Raises

/-- The postcondition that asks `F` of an error and its state, and nothing of other outcomes. -/
def Errs (F : ε → S → Prop) (o : Outcome ε α) (s : S) : Prop := ∀ e, o = .err e → F e s

namespace Spec
variable {P X C : S → Prop} {F : ε → S → Prop}

theorem of_raises {m : Act S ε α} (h : Raises F m) : Spec P m (Errs F) := fun s _ e he => h s e _ (Prod.ext he rfl)

/-- The errors of a program whose second part begins where `R` holds. -/
theorem bind_errs {R : α → S → Prop} {m : Act S ε α} {k : α → Act S ε β} (hm : Spec P m (Ends R X C))
    (herr : Spec P m (Errs F)) (hk : ∀ a, Spec (R a) (k a) (Errs F)) : Spec P (m >>= k) (Errs F) := by
  intro s hs
  have h := hm s hs
  have herr := herr s hs
  rw [bind_apply]
  rcases hms : m s with ⟨o, t⟩
  rw [hms] at h herr
  cases o with
  | ret a => exact hk a t h
  | err e => exact fun e' he => herr e' (by cases he; rfl)
  | cut => exact fun e' he => by cases he

theorem bind_raises {m : Act S ε α} {k : α → Act S ε β} (herr : Spec P m (Errs F)) (hk : ∀ a, Raises F (k a)) :
    Spec P (m >>= k) (Errs F) := by
  refine bind_errs (R := fun _ _ => True) (X := fun _ => True) (C := fun _ => True) (fun s _ => ?_) herr fun a =>
    of_raises (hk a)
  rcases (m s).1 with _ | _ | _ <;> trivial

theorem ret_errs {a : α} : Spec P (Pure.pure a : Act S ε α) (Errs F) := fun _ _ _ he => by cases he

theorem raises {m : Act S ε α} (h : Spec (fun _ => True) m (Errs F)) : Raises F m := by
  intro s e t hs
  have h := h s trivial
  rw [hs] at h
  exact h e rfl

theorem attempt_errs {T : S → Prop} {m : Act S ε α} (h : Spec P m (Errs F)) :
    Spec P (Act.attempt m) (Ends (fun r s => ∀ e, r = .error e → F e s) T fun _ => True) := by
  intro s hs
  have h := h s hs
  unfold Act.attempt
  rcases hms : m s with ⟨a | e | _, t⟩ <;> rw [hms] at h
  · exact fun e he => by cases he
  · intro e' he
    cases he
    exact h e rfl
  · trivial

end Spec

end Act
