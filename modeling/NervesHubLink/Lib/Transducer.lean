import Mathlib.Data.List.Basic

/-! Machines that read one symbol after another and answer each. However the input is cut into chunks, the
answers are those to the whole of it. -/

namespace Transducer

variable {S T A B : Type} (step : S → A → S × B)

/-- The state that an input leads to. -/
def after : S → List A → S
  | s, [] => s
  | s, a :: rest => after (step s a).1 rest

def answers : S → List A → List B
  | _, [] => []
  | s, a :: rest => (step s a).2 :: answers (step s a).1 rest

def chunked : S → List (List A) → List (List B)
  | _, [] => []
  | s, chunk :: rest => answers step s chunk :: chunked (after step s chunk) rest

variable {step} {s : S} {t : T}

@[simp] theorem after_nil : after step s [] = s := rfl

@[simp] theorem after_cons {a : A} {input : List A} : after step s (a :: input) = after step (step s a).1 input := rfl

@[simp] theorem answers_nil : answers step s [] = [] := rfl

@[simp] theorem answers_cons {a : A} {input : List A} :
    answers step s (a :: input) = (step s a).2 :: answers step (step s a).1 input := rfl

theorem after_append (a b : List A) : after step s (a ++ b) = after step (after step s a) b := by
  induction a generalizing s with
  | nil => rfl
  | cons x rest ih => exact ih

theorem answers_append (a b : List A) :
    answers step s (a ++ b) = answers step s a ++ answers step (after step s a) b := by
  induction a generalizing s with
  | nil => rfl
  | cons x rest ih => exact congrArg _ ih

@[simp] theorem length_answers (input : List A) : (answers step s input).length = input.length := by
  induction input generalizing s with
  | nil => rfl
  | cons a rest ih => exact congrArg Nat.succ ih

theorem chunked_singletons (input : List A) : chunked step s (input.map ([·])) = (answers step s input).map ([·]) := by
  induction input generalizing s with
  | nil => rfl
  | cons a rest ih => exact congrArg _ ih

/-- Two machines that answer the same input alike answer it alike in every cut. -/
theorem answers_eq_iff {other : T → A → T × B} (input : List A) :
    answers step s input = answers other t input ↔
      ∀ chunks : List (List A), chunks.flatten = input → chunked step s chunks = chunked other t chunks := by
  constructor
  · intro h chunks hinput
    subst hinput
    induction chunks generalizing s t with
    | nil => rfl
    | cons chunk rest ih =>
      rw [List.flatten_cons, answers_append, answers_append] at h
      obtain ⟨hchunk, hrest⟩ := List.append_inj h (by rw [length_answers, length_answers])
      rw [chunked, chunked, hchunk, ih hrest]
  · intro h
    have hwhole := h [input] (by simp)
    rw [chunked, chunked] at hwhole
    exact (List.cons.inj hwhole).1

/-- The invariant rule. -/
theorem after_invariant {I : S → Prop} (hstep : ∀ s a, I s → I (step s a).1) (hs : I s) (input : List A) :
    I (after step s input) := by
  induction input generalizing s with
  | nil => exact hs
  | cons a rest ih => exact ih (hstep s a hs)

end Transducer
