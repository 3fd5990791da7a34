import Mathlib.Data.List.Infix

/-! Orders of events in a trace whose newest event comes first: what stands after an event in the list is
what happened before it. -/

namespace Trace

variable {E : Type} {p q : E → Prop} {c d : List E → Prop} {e : E} {t u : List E}

/-- Each event is related by `r` to everything that happened before it. -/
def Throughout (r : E → List E → Prop) (t : List E) : Prop := ∀ e older, e :: older <:+ t → r e older

theorem throughout_nil {r : E → List E → Prop} : Throughout r [] := fun e older h => by simp at h

theorem throughout_cons {r : E → List E → Prop} : Throughout r (e :: t) ↔ r e t ∧ Throughout r t := by
  constructor
  · intro h
    exact ⟨h e t (List.suffix_refl _), fun e' older hs => h e' older (hs.trans (List.suffix_cons e t))⟩
  · rintro ⟨he, ht⟩ e' older hs
    rcases List.suffix_cons_iff.mp hs with heq | hs
    · cases heq
      exact he
    · exact ht e' older hs

theorem Throughout.suffix {r : E → List E → Prop} (h : Throughout r t) (hu : u <:+ t) : Throughout r u :=
  fun e older hs => h e older (hs.trans hu)

theorem Throughout.before {r : E → List E → Prop} (h : Throughout r (e :: (u ++ t))) : Throughout r t :=
  h.suffix ((List.suffix_append u t).trans (List.suffix_cons e _))

theorem Throughout.mono {r r' : E → List E → Prop} (h : Throughout r t) (hr : ∀ e u, r e u → r' e u) :
    Throughout r' t := fun e older hs => hr e older (h e older hs)

instance decidableThroughout {r : E → List E → Prop} [∀ e t, Decidable (r e t)] :
    (t : List E) → Decidable (Throughout r t)
  | [] => isTrue throughout_nil
  | _ :: t => @decidable_of_iff _ _ throughout_cons.symm (@instDecidableAnd _ _ _ (decidableThroughout t))

/-- What each event of a kind leaves true goes on being true of a longer trace. -/
theorem append_holds {J : List E → Prop} (hJ : ∀ e t, p e → J t → J (e :: t)) (hu : ∀ e ∈ u, p e) (ht : J t) :
    J (u ++ t) := by
  induction u with
  | nil => exact ht
  | cons e u ih => exact hJ e _ (hu e List.mem_cons_self) (ih fun e' he' => hu e' (List.mem_cons_of_mem _ he'))

/-- A part of a trace is the whole of it, or something happened next. -/
theorem next_of_suffix (h : u <:+ t) : u = t ∨ ∃ e, e :: u <:+ t := by
  obtain ⟨later, rfl⟩ := h
  rcases List.eq_nil_or_concat later with rfl | ⟨later, e, rfl⟩
  · exact Or.inl rfl
  · exact Or.inr ⟨e, later, by simp⟩

/-- Each event of kind `p` happens only when `c` holds of everything that happened before it. -/
def OnlyAfter (p : E → Prop) (c : List E → Prop) (t : List E) : Prop := Throughout (fun e older => p e → c older) t

theorem onlyAfter_nil : OnlyAfter p c [] := throughout_nil

theorem onlyAfter_cons : OnlyAfter p c (e :: t) ↔ (p e → c t) ∧ OnlyAfter p c t := throughout_cons

instance [DecidablePred p] [DecidablePred c] : Decidable (OnlyAfter p c t) :=
  inferInstanceAs (Decidable (Throughout (fun e older => p e → c older) t))

theorem OnlyAfter.mono (h : OnlyAfter p c t) (hp : ∀ e, q e → p e) (hc : ∀ u, c u → d u) : OnlyAfter q d t :=
  fun e older hs hq => hc _ (h e older hs (hp e hq))

theorem OnlyAfter.append (h : OnlyAfter p c t) (hu : ∀ e ∈ u, ¬p e) : OnlyAfter p c (u ++ t) := by
  induction u with
  | nil => exact h
  | cons e u ih =>
    rw [List.cons_append, onlyAfter_cons]
    exact ⟨fun hp => absurd hp (hu e List.mem_cons_self), ih fun e' he' => hu e' (List.mem_cons_of_mem _ he')⟩

/-- At most one event of kind `p` happens. -/
def AtMostOnce (p : E → Bool) (t : List E) : Prop := t.countP p ≤ 1

end Trace
