import Mathlib.Logic.Function.Basic
import Mathlib.Data.List.Count

/-! Threads that share a state. A thread takes one atomic step after another, the threads take theirs in any order, and each
of them may rely on what the steps of the others guarantee. -/

namespace Threads

/-- A thread: it has ended with a value or with an error, or its next step changes the state, and says on the state that it
found how the thread goes on. -/
inductive Thread (S ε α : Type) where
  | ret (a : α)
  | err (e : ε)
  | step (f : S → S) (next : S → Thread S ε α)

namespace Thread
variable {S ε α β : Type}

protected def bind : Thread S ε α → (α → Thread S ε β) → Thread S ε β
  | .ret a, k => k a
  | .err e, _ => .err e
  | .step f next, k => .step f fun s => (next s).bind k

instance : Monad (Thread S ε) where
  pure := .ret
  bind := Thread.bind

/-- One step. -/
def atom (f : S → α × S) : Thread S ε α := .step (fun s => (f s).2) fun s => .ret (f s).1

def ofExcept : Except ε α → Thread S ε α
  | .ok a => .ret a
  | .error e => .err e

/-- The thread, and one last step however it ends. -/
def ensuring : Thread S ε α → (S → S) → Thread S ε α
  | .ret a, last => .step last fun _ => .ret a
  | .err e, last => .step last fun _ => .err e
  | .step f next, last => .step f fun s => (next s).ensuring last

/-- It ends within `n` steps of its own. -/
def Within : Nat → Thread S ε α → Prop
  | _, .ret _ => True
  | _, .err _ => True
  | 0, .step _ _ => False
  | n + 1, .step _ next => ∀ s, (next s).Within n

theorem within_ret (n : Nat) (a : α) : (pure a : Thread S ε α).Within n := by
  cases n <;> trivial

theorem within_ofExcept (n : Nat) (r : Except ε α) : (ofExcept r : Thread S ε α).Within n := by
  cases r <;> cases n <;> trivial

theorem within_atom (f : S → α × S) : (atom f : Thread S ε α).Within 1 := fun _ => trivial

theorem Within.mono {t : Thread S ε α} {n l : Nat} (h : t.Within n) (hl : n ≤ l) : t.Within l := by
  induction t generalizing n l with
  | ret a => exact within_ret l a
  | err e => exact within_ofExcept l (.error e)
  | step f next ih =>
    obtain ⟨n, rfl⟩ : ∃ m, n = m + 1 := by
      cases n with
      | zero => exact h.elim
      | succ m => exact ⟨m, rfl⟩
    obtain ⟨l, rfl⟩ : ∃ m, l = m + 1 := ⟨l - 1, by omega⟩
    exact fun s => ih s (h s) (by omega)

theorem Within.bind {m : Thread S ε β} {k : β → Thread S ε α} {n l : Nat} (hm : m.Within n) (hk : ∀ b, (k b).Within l) :
    (m >>= k).Within (n + l) := by
  show (m.bind k).Within (n + l)
  induction m generalizing n with
  | ret b => exact (hk b).mono (Nat.le_add_left l n)
  | err e => exact within_ofExcept _ (.error e)
  | step f next ih =>
    cases n with
    | zero => exact hm.elim
    | succ n =>
      rw [Nat.succ_add]
      exact fun s => ih s (hm s)

/-- What ends with an error takes no step. -/
theorem within_bind_ofExcept {r : Except ε β} {k : β → Thread S ε α} {n : Nat} (hk : ∀ b, (k b).Within n) :
    (ofExcept r >>= k).Within n := by
  cases r with
  | ok b => exact hk b
  | error e => exact within_ofExcept n (.error e)

theorem Within.ensuring {t : Thread S ε α} {n : Nat} (h : t.Within n) (last : S → S) :
    (t.ensuring last).Within (n + 1) := by
  induction t generalizing n with
  | ret a => exact fun _ => within_ret n a
  | err e => exact fun _ => within_ofExcept n (.error e)
  | step f next ih =>
    cases n with
    | zero => exact h.elim
    | succ n => exact fun s => ih s (h s)

end Thread

section
variable {ι S ε α : Type} [DecidableEq ι]

/-- The next step of one of the threads, if it has not ended. -/
def stepBy (i : ι) (p : S × (ι → Thread S ε α)) : S × (ι → Thread S ε α) :=
  match p.2 i with
  | .step f next => (f p.1, Function.update p.2 i (next p.1))
  | _ => p

/-- The threads and their state after some steps, each taken by the thread that the list names. -/
def run (order : List ι) (p : S × (ι → Thread S ε α)) : S × (ι → Thread S ε α) := order.foldl (fun p i => stepBy i p) p

variable {p : S × (ι → Thread S ε α)} {i j : ι}

theorem stepBy_step {f : S → S} {next : S → Thread S ε α} (h : p.2 i = .step f next) :
    stepBy i p = (f p.1, Function.update p.2 i (next p.1)) := by
  rw [stepBy, h]

theorem stepBy_self {f : S → S} {next : S → Thread S ε α} (h : p.2 i = .step f next) : (stepBy i p).2 i = next p.1 := by
  rw [stepBy_step h]
  exact Function.update_self ..

theorem stepBy_ended (h : (p.2 i).Within 0) : stepBy i p = p := by
  rw [stepBy]
  cases ht : p.2 i with
  | ret a => rfl
  | err e => rfl
  | step f next =>
    rw [ht] at h
    exact h.elim

theorem stepBy_other (h : j ≠ i) : (stepBy i p).2 j = p.2 j := by
  rw [stepBy]
  cases p.2 i with
  | ret a => rfl
  | err e => rfl
  | step f next => exact Function.update_of_ne h _ _

theorem run_cons (i : ι) (order : List ι) (p : S × (ι → Thread S ε α)) : run (i :: order) p = run order (stepBy i p) := rfl

theorem run_append (first rest : List ι) (p : S × (ι → Thread S ε α)) : run (first ++ rest) p = run rest (run first p) :=
  List.foldl_append ..

/-- What has ended stays so. -/
theorem run_ended (h : (p.2 i).Within 0) (order : List ι) : (run order p).2 i = p.2 i := by
  induction order generalizing p with
  | nil => rfl
  | cons j rest ih =>
    have hj : (stepBy j p).2 i = p.2 i := by
      by_cases hj : j = i
      · rw [hj, stepBy_ended h]
      · exact stepBy_other (Ne.symm hj)
    rw [run_cons, ih (hj ▸ h), hj]

/-- A thread that takes no step is where it was. -/
theorem run_of_not_mem {order : List ι} (h : i ∉ order) : (run order p).2 i = p.2 i := by
  induction order generalizing p with
  | nil => rfl
  | cons j rest ih =>
    obtain ⟨hj, hrest⟩ := not_or.mp fun hi => h (List.mem_cons.mpr hi)
    rw [run_cons, ih hrest, stepBy_other hj]

/-- A thread ends in so many steps of its own, whatever the others do between them. -/
theorem run_within {n : Nat} (order : List ι) (h : (p.2 i).Within n) : ((run order p).2 i).Within (n - order.count i) := by
  induction order generalizing p n with
  | nil => exact h
  | cons j rest ih =>
    rw [run_cons]
    by_cases hj : j = i
    · subst hj
      rw [List.count_cons_self]
      cases ht : p.2 j with
      | ret a =>
        rw [stepBy_ended (ht ▸ trivial), run_ended (ht ▸ trivial), ht]
        exact Thread.within_ret _ a
      | err e =>
        rw [stepBy_ended (ht ▸ trivial), run_ended (ht ▸ trivial), ht]
        exact Thread.within_ofExcept _ (.error e)
      | step f next =>
        rw [ht] at h
        cases n with
        | zero => exact h.elim
        | succ n =>
          rw [Nat.add_sub_add_right]
          refine ih ?_
          rw [stepBy_self ht]
          exact h p.1
    · rw [List.count_cons_of_ne hj]
      refine ih ?_
      rw [stepBy_other (Ne.symm hj)]
      exact h

end

/-! ### What each thread may rely on -/

section
variable {ι S ε α β : Type} {I : S → Prop} {G : ι → S → S → Prop} {i : ι}

/-- What the steps of the other threads leave true. -/
def Stable (I : S → Prop) (G : ι → S → S → Prop) (i : ι) (P : S → Prop) : Prop :=
  ∀ j, j ≠ i → ∀ s t, I s → P s → G j s t → P t

theorem Stable.given {φ : Prop} {P : S → Prop} (h : Stable I G i P) : Stable I G i fun s => φ ∧ P s :=
  fun j hj s t hI hs hst => ⟨hs.1, h j hj s t hI hs.2 hst⟩

/-- From `P` on, thread `i` keeps `I`, guarantees `G i` with each step, and ends where `Q` or `X` holds. -/
def Secure (I : S → Prop) (G : ι → S → S → Prop) (i : ι) (Q : α → S → Prop) (X : ε → S → Prop) :
    Thread S ε α → (S → Prop) → Prop
  | .ret a, P => ∀ s, I s → P s → Q a s
  | .err e, P => ∀ s, I s → P s → X e s
  | .step f next, P => ∀ s, I s → P s → I (f s) ∧ G i s (f s) ∧ ∃ P', Stable I G i P' ∧ P' (f s) ∧
      Secure I G i Q X (next s) P'

namespace Secure
variable {P P' : S → Prop} {Q : α → S → Prop} {R : β → S → Prop} {X : ε → S → Prop}

theorem pre {t : Thread S ε α} (h : Secure I G i Q X t P) (hP : ∀ s, I s → P' s → P s) : Secure I G i Q X t P' := by
  cases t with
  | ret a => exact fun s hI hs => h s hI (hP s hI hs)
  | err e => exact fun s hI hs => h s hI (hP s hI hs)
  | step f next => exact fun s hI hs => h s hI (hP s hI hs)

theorem bind {m : Thread S ε β} {k : β → Thread S ε α} (hm : Secure I G i R X m P)
    (hk : ∀ b, Secure I G i Q X (k b) (R b)) :
    Secure I G i Q X (m >>= k) P := by
  show Secure I G i Q X (m.bind k) P
  induction m generalizing P with
  | ret b => exact (hk b).pre hm
  | err e => exact hm
  | step f next ih =>
    intro s hI hs
    obtain ⟨hI', hG, P', hstable, hP', hnext⟩ := hm s hI hs
    exact ⟨hI', hG, P', hstable, hP', ih s hnext⟩

theorem ret {a : α} (h : ∀ s, I s → P s → Q a s) : Secure I G i Q X (pure a : Thread S ε α) P := h

theorem atom {f : S → α × S} (hI : ∀ s, I s → P s → I (f s).2) (hG : ∀ s, I s → P s → G i s (f s).2)
    (hf : ∀ s, I s → P s → Q (f s).1 (f s).2) (hQ : ∀ a, Stable I G i (Q a)) : Secure I G i Q X (Thread.atom f) P :=
  fun s hs hP => ⟨hI s hs hP, hG s hs hP, Q (f s).1, hQ _, hf s hs hP, fun _ _ hq => hq⟩

theorem of_and {t : Thread S ε α} {φ : Prop} (h : φ → Secure I G i Q X t P) : Secure I G i Q X t fun s => φ ∧ P s := by
  cases t with
  | ret a => exact fun s hI hs => h hs.1 s hI hs.2
  | err e => exact fun s hI hs => h hs.1 s hI hs.2
  | step f next => exact fun s hI hs => h hs.1 s hI hs.2

theorem of_exists {κ : Type} {t : Thread S ε α} {R : κ → S → Prop} (h : ∀ x, Secure I G i Q X t (R x)) :
    Secure I G i Q X t fun s => ∃ x, R x s := by
  cases t with
  | ret a => exact fun s hI ⟨x, hx⟩ => h x s hI hx
  | err e => exact fun s hI ⟨x, hx⟩ => h x s hI hx
  | step f next => exact fun s hI ⟨x, hx⟩ => h x s hI hx

theorem ofExcept {r : Except ε α} (hok : ∀ a, r = .ok a → ∀ s, I s → P s → Q a s)
    (herr : ∀ e, r = .error e → ∀ s, I s → P s → X e s) :
    Secure I G i Q X (Thread.ofExcept r : Thread S ε α) P := by
  cases r with
  | ok a => exact hok a rfl
  | error e => exact herr e rfl

/-- A value that is there, or an error that ends the thread. -/
theorem bind_ofExcept {r : Except ε β} {k : β → Thread S ε α} (hok : ∀ b, r = .ok b → Secure I G i Q X (k b) P)
    (herr : ∀ e, r = .error e → ∀ s, I s → P s → X e s) : Secure I G i Q X (Thread.ofExcept r >>= k) P := by
  cases r with
  | ok b => exact hok b rfl
  | error e => exact herr e rfl

/-- The last step comes after the end, whichever that is. -/
theorem ensuring {t : Thread S ε α} {last : S → S} {Q' : α → S → Prop} {X' : ε → S → Prop} (h : Secure I G i Q' X' t P)
    (hret : ∀ a s, I s → Q' a s → I (last s) ∧ G i s (last s) ∧ Q a (last s))
    (herr : ∀ e s, I s → X' e s → I (last s) ∧ G i s (last s) ∧ X e (last s))
    (hQ : ∀ a, Stable I G i (Q a)) (hX : ∀ e, Stable I G i (X e)) : Secure I G i Q X (t.ensuring last) P := by
  induction t generalizing P with
  | ret a =>
    intro s hI hs
    obtain ⟨hI', hG, hq⟩ := hret a s hI (h s hI hs)
    exact ⟨hI', hG, Q a, hQ a, hq, fun _ _ hq => hq⟩
  | err e =>
    intro s hI hs
    obtain ⟨hI', hG, hx⟩ := herr e s hI (h s hI hs)
    exact ⟨hI', hG, X e, hX e, hx, fun _ _ hx => hx⟩
  | step f next ih =>
    intro s hI hs
    obtain ⟨hI', hG, P', hstable, hP', hnext⟩ := h s hI hs
    exact ⟨hI', hG, P', hstable, hP', ih s hnext⟩

end Secure
end

/-! ### All threads together -/

section
variable {ι S ε α : Type} {I : S → Prop} {G : ι → S → S → Prop} {Q : ι → α → S → Prop} {X : ι → ε → S → Prop}
  {p : S × (ι → Thread S ε α)}

/-- Every thread is in some place from which it is secure. -/
def AllSecure (I : S → Prop) (G : ι → S → S → Prop) (Q : ι → α → S → Prop) (X : ι → ε → S → Prop)
    (p : S × (ι → Thread S ε α)) : Prop :=
  I p.1 ∧ ∀ i, ∃ P, Stable I G i P ∧ P p.1 ∧ Secure I G i (Q i) (X i) (p.2 i) P

theorem AllSecure.returned (h : AllSecure I G Q X p) {i : ι} {a : α} (hi : p.2 i = .ret a) : Q i a p.1 := by
  obtain ⟨hI, hall⟩ := h
  obtain ⟨P, -, hP, hsecure⟩ := hall i
  rw [hi] at hsecure
  exact hsecure p.1 hI hP

theorem AllSecure.failed (h : AllSecure I G Q X p) {i : ι} {e : ε} (hi : p.2 i = .err e) : X i e p.1 := by
  obtain ⟨hI, hall⟩ := h
  obtain ⟨P, -, hP, hsecure⟩ := hall i
  rw [hi] at hsecure
  exact hsecure p.1 hI hP

variable [DecidableEq ι]

/-- The step rule: what one thread does, the others can live with. -/
theorem AllSecure.stepBy (h : AllSecure I G Q X p) (i : ι) : AllSecure I G Q X (Threads.stepBy i p) := by
  obtain ⟨hI, hall⟩ := h
  obtain ⟨P, hstable, hP, hsecure⟩ := hall i
  cases ht : p.2 i with
  | ret a =>
    rw [stepBy_ended (ht ▸ trivial)]
    exact ⟨hI, hall⟩
  | err e =>
    rw [stepBy_ended (ht ▸ trivial)]
    exact ⟨hI, hall⟩
  | step f next =>
    rw [ht] at hsecure
    obtain ⟨hI', hG, P', hstable', hP', hnext⟩ := hsecure p.1 hI hP
    have hstate : (Threads.stepBy i p).1 = f p.1 := by rw [stepBy_step ht]
    refine ⟨hstate ▸ hI', fun j => ?_⟩
    rw [hstate]
    by_cases hj : j = i
    · subst hj
      rw [stepBy_self ht]
      exact ⟨P', hstable', hP', hnext⟩
    · rw [stepBy_other hj]
      obtain ⟨Pj, hstablej, hPj, hsecurej⟩ := hall j
      exact ⟨Pj, hstablej, hstablej i (Ne.symm hj) _ _ hI hPj hG, hsecurej⟩

/-- The run rule: in any order of steps, the invariant is kept and each thread that has ended did so as it should. -/
theorem AllSecure.run (h : AllSecure I G Q X p) (order : List ι) : AllSecure I G Q X (Threads.run order p) := by
  induction order generalizing p with
  | nil => exact h
  | cons i rest ih => exact ih (h.stepBy i)

/-- A step changes nothing, or is one that the thread guarantees. -/
theorem AllSecure.stepBy_cases (h : AllSecure I G Q X p) (i : ι) :
    (Threads.stepBy i p).1 = p.1 ∨ G i p.1 (Threads.stepBy i p).1 := by
  obtain ⟨hI, hall⟩ := h
  obtain ⟨P, -, hP, hsecure⟩ := hall i
  cases ht : p.2 i with
  | ret a => exact Or.inl (by rw [stepBy_ended (ht ▸ trivial)])
  | err e => exact Or.inl (by rw [stepBy_ended (ht ▸ trivial)])
  | step f next =>
    rw [ht] at hsecure
    rw [stepBy_step ht]
    exact Or.inr (hsecure p.1 hI hP).2.1

/-- What the steps of these threads leave true stays true. -/
theorem AllSecure.keeps {K : S → Prop} {order : List ι} (h : AllSecure I G Q X p)
    (hK : ∀ i ∈ order, ∀ s t, I s → K s → G i s t → K t) (hp : K p.1) : K (Threads.run order p).1 := by
  induction order generalizing p with
  | nil => exact hp
  | cons i rest ih =>
    refine ih (h.stepBy i) (fun j hj => hK j (List.mem_cons_of_mem i hj)) ?_
    rcases h.stepBy_cases i with hsame | hG
    · exact hsame.symm ▸ hp
    · exact hK i List.mem_cons_self _ _ h.1 hp hG

/-- A thread whose next steps are known better is held to more. -/
theorem AllSecure.hold {Qi : α → S → Prop} {Xi : ε → S → Prop} {P : S → Prop} (h : AllSecure I G Q X p) (i : ι)
    (hstable : Stable I G i P) (hP : P p.1) (hsecure : Secure I G i Qi Xi (p.2 i) P) :
    AllSecure I G (Function.update Q i Qi) (Function.update X i Xi) p := by
  obtain ⟨hI, hall⟩ := h
  refine ⟨hI, fun j => ?_⟩
  by_cases hj : j = i
  · subst hj
    rw [Function.update_self, Function.update_self]
    exact ⟨P, hstable, hP, hsecure⟩
  · rw [Function.update_of_ne hj, Function.update_of_ne hj]
    exact hall j

end

end Threads
