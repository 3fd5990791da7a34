import NervesHubLink.Lib.Trace

/-! Machines that read a record event by event, and what is true of every record that they can read.

A machine is a relation between a state, the next event and the state after it. A record that a program
leaves is read by a machine if each of its events is one that the machine may take next. -/

namespace Machine
open Trace

variable {K E : Type} {Step : K → E → K → Prop} {k₀ k k' : K} {base t : List E} {e : E}

/-- Begun in `k₀` with the record `base`, the machine can be in the last state once the record is the last list. -/
inductive Reads (Step : K → E → K → Prop) (k₀ : K) (base : List E) : K → List E → Prop
  | start : Reads Step k₀ base k₀ base
  | step {k k' : K} {t : List E} {e : E} : Reads Step k₀ base k t → Step k e k' → Reads Step k₀ base k' (e :: t)

theorem Reads.suffix (h : Reads Step k₀ base k t) : base <:+ t := by
  induction h with
  | start => exact List.suffix_refl _
  | step hr hs ih => exact ih.trans (List.suffix_cons _ _)

/-- The invariant rule, for records in which each event meets `c`. -/
theorem Reads.invariant {I : K → List E → Prop} {c : E → List E → Prop} (h : Reads Step k₀ base k t)
    (hc : Throughout c t) (hbase : I k₀ base)
    (hstep : ∀ {k t e k'}, Reads Step k₀ base k t → c e t → I k t → Step k e k' → I k' (e :: t)) : I k t := by
  induction h with
  | start => exact hbase
  | step hr hs ih =>
    obtain ⟨he, ht⟩ := throughout_cons.mp hc
    exact hstep hr he (ih ht) hs

theorem Reads.always {I : K → List E → Prop} (h : Reads Step k₀ base k t) (hbase : I k₀ base)
    (hstep : ∀ {k t e k'}, I k t → Step k e k' → I k' (e :: t)) : I k t :=
  h.invariant (c := fun _ _ => True) (fun _ _ _ => trivial) hbase fun _ _ hI hs => hstep hI hs

/-- What holds of every event at the moment it is taken holds throughout the record. -/
theorem Reads.throughout {r : E → List E → Prop} (h : Reads Step k₀ base k t) (hbase : Throughout r base)
    (hstep : ∀ {k t e k'}, Reads Step k₀ base k t → Step k e k' → r e t) : Throughout r t := by
  induction h with
  | start => exact hbase
  | step hr hs ih => exact throughout_cons.mpr ⟨hstep hr hs, ih⟩

/-- Events that leave a state as it is may be read one after another. -/
theorem Reads.stay (h : Reads Step k₀ base k t) {es : List E} (hes : ∀ e ∈ es, Step k e k) :
    Reads Step k₀ base k (es ++ t) := by
  induction es with
  | nil => exact h
  | cons e es ih =>
    exact .step (ih fun e' he' => hes e' (List.mem_cons_of_mem _ he')) (hes e List.mem_cons_self)

end Machine
