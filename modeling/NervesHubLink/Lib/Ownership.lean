import Mathlib.Data.List.Nodup
import Mathlib.Logic.Relation

/-! Things that are made, used, lent to one another and released, as a record of events tells. The record's newest event
comes first. -/

namespace Ownership

/-- What an event does. -/
inductive Dealing (H : Type) where
  | make (h : H)
  | use (h : H)
  /-- `holder` may use `h` until it is released itself. -/
  | lend (h holder : H)
  | release (h : H)
  deriving DecidableEq

/-- The things there are, and which of them is lent to which. -/
structure Heap (H : Type) where
  live : List H
  lent : List (H × H)
  nodup : live.Nodup
  lentLive : ∀ p ∈ lent, p.1 ∈ live ∧ p.2 ∈ live

section
variable {H E : Type}

namespace Heap

def empty : Heap H := ⟨[], [], List.nodup_nil, by simp⟩

@[ext] theorem ext {x y : Heap H} (hlive : x.live = y.live) (hlent : x.lent = y.lent) : x = y := by
  cases x
  cases y
  cases hlive
  cases hlent
  rfl

/-- `holder` may get at `h`: it is itself, or what was lent to it, or to what it may get at. -/
def Reaches (x : Heap H) (holder h : H) : Prop := Relation.ReflTransGen (fun a b => (b, a) ∈ x.lent) holder h

theorem Reaches.live {x : Heap H} {holder h : H} (hr : x.Reaches holder h) (hlive : holder ∈ x.live) : h ∈ x.live := by
  induction hr with
  | refl => exact hlive
  | tail _ hlent _ => exact (x.lentLive _ hlent).1

variable [DecidableEq H]

/-- One deed. A misuse is refused: of what is not there, or a release of what is lent. -/
def step (x : Heap H) : Dealing H → Option (Heap H)
  | .make h =>
    if hm : h ∈ x.live then none
    else some {
      live := h :: x.live
      lent := x.lent
      nodup := List.nodup_cons.mpr ⟨hm, x.nodup⟩
      lentLive := fun p hp => ⟨List.mem_cons_of_mem _ (x.lentLive p hp).1, List.mem_cons_of_mem _ (x.lentLive p hp).2⟩ }
  | .use h => if h ∈ x.live then some x else none
  | .lend h holder =>
    if hm : h ∈ x.live ∧ holder ∈ x.live then some {
      live := x.live
      lent := (h, holder) :: x.lent
      nodup := x.nodup
      lentLive := List.forall_mem_cons.mpr ⟨hm, x.lentLive⟩ }
    else none
  | .release h =>
    if hm : h ∈ x.live ∧ ∀ p ∈ x.lent, p.1 ≠ h then some {
      live := x.live.erase h
      lent := x.lent.filter fun p => p.2 ≠ h
      nodup := x.nodup.erase h
      lentLive := fun p hp => by
        obtain ⟨hp, hne⟩ := List.mem_filter.mp hp
        exact ⟨(List.mem_erase_of_ne (hm.2 p hp)).mpr (x.lentLive p hp).1,
          (List.mem_erase_of_ne (by simpa using hne)).mpr (x.lentLive p hp).2⟩ }
    else none

theorem step_make {x : Heap H} {h : H} (hm : h ∉ x.live) :
    ∃ y, x.step (.make h) = some y ∧ y.live = h :: x.live ∧ y.lent = x.lent := by
  rw [step, dif_neg hm]
  exact ⟨_, rfl, rfl, rfl⟩

theorem step_use {x : Heap H} {h : H} (hm : h ∈ x.live) : x.step (.use h) = some x := if_pos hm

theorem step_lend {x : Heap H} {h holder : H} (hm : h ∈ x.live) (hholder : holder ∈ x.live) :
    ∃ y, x.step (.lend h holder) = some y ∧ y.live = x.live ∧ y.lent = (h, holder) :: x.lent := by
  rw [step, dif_pos ⟨hm, hholder⟩]
  exact ⟨_, rfl, rfl, rfl⟩

theorem step_release {x : Heap H} {h : H} (hm : h ∈ x.live) (hkept : ∀ p ∈ x.lent, p.1 ≠ h) :
    ∃ y, x.step (.release h) = some y ∧ y.live = x.live.erase h ∧ y.lent = x.lent.filter fun p => p.2 ≠ h := by
  rw [step, dif_pos ⟨hm, hkept⟩]
  exact ⟨_, rfl, rfl, rfl⟩

end Heap

variable [DecidableEq H] (dealings : E → List (Dealing H))

/-- What there is after a record, if nothing in it is a misuse. -/
def after : List E → Option (Heap H)
  | [] => some .empty
  | e :: t => (after t).bind fun x => (dealings e).foldlM Heap.step x

/-- How often `h` was made. -/
def makes (h : H) (t : List E) : Nat := (t.flatMap dealings).count (.make h)

def releases (h : H) (t : List E) : Nat := (t.flatMap dealings).count (.release h)

variable {dealings} {t u : List E} {e : E} {x : Heap H}

theorem after_cons (ht : after dealings t = some x) : after dealings (e :: t) = (dealings e).foldlM Heap.step x := by
  rw [after, ht, Option.bind_some]

theorem after_of_cons (h : after dealings (e :: t) = some x) :
    ∃ y, after dealings t = some y ∧ (dealings e).foldlM Heap.step y = some x := by
  rw [after] at h
  exact Option.bind_eq_some_iff.mp h

/-! ### Each thing is released as often as it was made -/

theorem Heap.step_count {y : Heap H} {d : Dealing H} (hstep : x.step d = some y) (h : H) :
    y.live.count h + [d].count (.release h) = x.live.count h + [d].count (.make h) := by
  cases d <;> simp only [Heap.step] at hstep <;> split at hstep <;> cases hstep
  case make h' hm =>
    by_cases heq : h' = h
    · subst heq
      simp
    · simp [heq]
  case use h' hm => simp
  case lend h' holder hm => simp
  case release h' hm =>
    by_cases heq : h' = h
    · subst heq
      have := List.count_pos_iff.mpr hm.1
      simp [List.count_erase_self]
      omega
    · simp [List.count_erase_of_ne (Ne.symm heq), heq]

theorem Heap.run_count {y : Heap H} {ds : List (Dealing H)} (hrun : ds.foldlM Heap.step x = some y) (h : H) :
    y.live.count h + ds.count (.release h) = x.live.count h + ds.count (.make h) := by
  induction ds generalizing x with
  | nil =>
    cases hrun
    rfl
  | cons d ds ih =>
    rw [List.foldlM_cons] at hrun
    obtain ⟨z, hz, hrun⟩ := Option.bind_eq_some_iff.mp hrun
    have hstep := step_count hz h
    have hrest := ih hrun
    rw [← List.singleton_append, List.count_append, List.count_append]
    omega

theorem makes_eq (ht : after dealings t = some x) (h : H) :
    makes dealings h t = releases dealings h t + x.live.count h := by
  induction t generalizing x with
  | nil =>
    cases ht
    rfl
  | cons e t ih =>
    obtain ⟨y, hy, hrun⟩ := after_of_cons ht
    have hcount := Heap.run_count hrun h
    have hrest := ih hy
    simp only [makes, releases, List.flatMap_cons, List.count_append] at hrest ⊢
    omega

/-! ### Guests

A guest comes in between two events of a record, and only uses what is there. -/

variable (dealings)

/-- The record `u` is `t` with the events of guests in between, each one that `guest` allows of what is there then. -/
inductive Visited (guest : E → Heap H → Prop) : List E → List E → Prop
  | nil : Visited guest [] []
  | host (e : E) {t u : List E} : Visited guest t u → Visited guest (e :: t) (e :: u)
  | guest {e : E} {t u : List E} {x : Heap H} : Visited guest t u → after dealings t = some x → guest e x →
      Visited guest t (e :: u)

variable {dealings}

theorem Heap.run_uses {ds : List (Dealing H)} (hds : ∀ d ∈ ds, ∃ h ∈ x.live, d = .use h) :
    ds.foldlM Heap.step x = some x := by
  induction ds with
  | nil => rfl
  | cons d ds ih =>
    obtain ⟨h, hlive, rfl⟩ := hds d List.mem_cons_self
    rw [List.foldlM_cons, Heap.step_use hlive]
    exact ih fun d' hd' => hds d' (List.mem_cons_of_mem _ hd')

theorem Visited.after_eq {guest : E → Heap H → Prop}
    (hguest : ∀ e x, guest e x → ∀ d ∈ dealings e, ∃ h ∈ x.live, d = .use h)
    (h : Visited dealings guest t u) : after dealings u = after dealings t := by
  induction h with
  | nil => rfl
  | host e _ ih => rw [after, after, ih]
  | guest hv ht hg ih =>
    rw [after_cons (ih.trans ht), ht]
    exact Heap.run_uses (hguest _ _ hg)

/-- A record in which guests came in has nothing in it that is a misuse, if the record without them has not. -/
theorem Visited.after_some {guest : E → Heap H → Prop}
    (hguest : ∀ e x, guest e x → ∀ d ∈ dealings e, ∃ h ∈ x.live, d = .use h)
    (h : Visited dealings guest t u) (ht : after dealings t = some x) : after dealings u = some x :=
  (h.after_eq hguest).trans ht

end

end Ownership
