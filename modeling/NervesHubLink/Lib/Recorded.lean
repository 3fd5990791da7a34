import NervesHubLink.Lib.Act

/-! Programs that act on a world outside them, with every call on it recorded.

The outside is a state of any type with any functions over it, so a call may answer anything, and answer
differently each time. A program's own data sits beside it. The trace lists the calls made and what they
answered, the newest first; nothing a program does depends on it.

A loop may go on for ever, so it burns one unit of `gas` for each turn and is cut when there is none left.
A run with gas `n` is the run without gas up to its turn `n`: a statement for every gas is a statement
about every moment between two turns of a loop, however deeply the loop is nested. -/

/-- The state of a recorded program: the outside, what it owns, what it did, and the turns it has left. -/
structure Rec (σ E X : Type) where
  env : σ
  own : X
  trace : List E
  gas : Nat

/-- What one turn of a loop decides: to go on with `a`, or to leave with `b`. -/
inductive Turn (A β : Type) where
  | next (a : A)
  | done (b : β)

/-- The postcondition of a turn: `I` of what it goes on with, `Q` of what it leaves with. -/
def Turn.Post {A β S : Type} (I : A → S → Prop) (Q : β → S → Prop) : Turn A β → S → Prop
  | .next a, s => I a s
  | .done b, s => Q b s

abbrev Prog (σ E X ε α : Type) : Type := Act (Rec σ E X) ε α

namespace Prog
open Act

variable {σ E X ε α β A : Type}

/-- A call on the outside, recorded as `ev` of its answer. -/
def call (f : σ → α × σ) (ev : α → List E) : Prog σ E X ε α := fun s =>
  (.ret (f s.env).1, { s with env := (f s.env).2, trace := ev (f s.env).1 ++ s.trace })

/-- A call that may fail, and fails the program with it. -/
def tryCall (f : σ → Except ε α × σ) (ev : Except ε α → List E) : Prog σ E X ε α := fun s =>
  match (f s.env).1 with
  | .ok a => (.ret a, { s with env := (f s.env).2, trace := ev (.ok a) ++ s.trace })
  | .error e => (.err e, { s with env := (f s.env).2, trace := ev (.error e) ++ s.trace })

/-- The program's own data. -/
def own : Prog σ E X ε X := gets (·.own)

def modifyOwn (f : X → X) : Prog σ E X ε Unit := modify fun s => { s with own := f s.own }

/-- A change of the program's own data that also yields a value and is recorded. -/
def update (f : X → α × X) (ev : α → List E) : Prog σ E X ε α := fun s =>
  (.ret (f s.own).1, { s with own := (f s.own).2, trace := ev (f s.own).1 ++ s.trace })

def loopN (body : A → Prog σ E X ε (Turn A β)) : Nat → A → Prog σ E X ε β
  | 0, _ => fun s => (.cut, s)
  | n + 1, a => fun s =>
    match s.gas with
    | 0 => (.cut, s)
    | g + 1 => (body a >>= fun
      | .next a' => loopN body n a'
      | .done b => pure b) { s with gas := g }

/-- Runs `body` over and over until it says it is done, or the gas is gone. -/
def loop (body : A → Prog σ E X ε (Turn A β)) (a : A) : Prog σ E X ε β := fun s => loopN body s.gas a s

@[simp] theorem call_apply (f : σ → α × σ) (ev : α → List E) (s : Rec σ E X) :
    (call f ev : Prog σ E X ε α) s =
      (.ret (f s.env).1, { s with env := (f s.env).2, trace := ev (f s.env).1 ++ s.trace }) := rfl

theorem tryCall_ok {f : σ → Except ε α × σ} {ev : Except ε α → List E} {s : Rec σ E X} {a : α}
    (h : (f s.env).1 = .ok a) : (tryCall f ev : Prog σ E X ε α) s =
      (.ret a, { s with env := (f s.env).2, trace := ev (.ok a) ++ s.trace }) := by simp [tryCall, h]

theorem tryCall_error {f : σ → Except ε α × σ} {ev : Except ε α → List E} {s : Rec σ E X} {e : ε}
    (h : (f s.env).1 = .error e) : (tryCall f ev : Prog σ E X ε α) s =
      (.err e, { s with env := (f s.env).2, trace := ev (.error e) ++ s.trace }) := by simp [tryCall, h]

theorem tryCall_cases (f : σ → Except ε α × σ) (ev : Except ε α → List E) (s : Rec σ E X) :
    ∃ r : Except ε α, (f s.env).1 = r ∧
      ((∃ a, r = .ok a ∧ (tryCall f ev : Prog σ E X ε α) s =
          (.ret a, { s with env := (f s.env).2, trace := ev (.ok a) ++ s.trace })) ∨
        ∃ e, r = .error e ∧ (tryCall f ev : Prog σ E X ε α) s =
          (.err e, { s with env := (f s.env).2, trace := ev (.error e) ++ s.trace })) := by
  refine ⟨_, rfl, ?_⟩
  rcases h : (f s.env).1 with e | a
  · exact Or.inr ⟨e, rfl, tryCall_error h⟩
  · exact Or.inl ⟨a, rfl, tryCall_ok h⟩

@[simp] theorem modifyOwn_apply (f : X → X) (s : Rec σ E X) :
    (modifyOwn f : Prog σ E X ε Unit) s = (.ret (), { s with own := f s.own }) := rfl

@[simp] theorem update_apply (f : X → α × X) (ev : α → List E) (s : Rec σ E X) :
    (update f ev : Prog σ E X ε α) s =
      (.ret (f s.own).1, { s with own := (f s.own).2, trace := ev (f s.own).1 ++ s.trace }) := rfl

theorem loopN_out {body : A → Prog σ E X ε (Turn A β)} {n : Nat} {a : A} {s : Rec σ E X} (h : s.gas = 0) :
    loopN body (n + 1) a s = (.cut, s) := by simp [loopN, h]

theorem loopN_burn {body : A → Prog σ E X ε (Turn A β)} {n : Nat} {a : A} {s : Rec σ E X} {g : Nat}
    (h : s.gas = g + 1) : loopN body (n + 1) a s = (body a >>= fun
      | .next a' => loopN body n a'
      | .done b => pure b) { s with gas := g } := by simp [loopN, h]

/-! ### Rules for calls -/

section Keeps
variable {R : Rec σ E X → Rec σ E X → Prop}

theorem keeps_call {f : σ → α × σ} {ev : α → List E}
    (h : ∀ s env' a, R s { s with env := env', trace := ev a ++ s.trace }) :
    Keeps R (call f ev : Prog σ E X ε α) := fun s => h s _ _

theorem keeps_tryCall {f : σ → Except ε α × σ} {ev : Except ε α → List E}
    (h : ∀ s env' r, R s { s with env := env', trace := ev r ++ s.trace }) :
    Keeps R (tryCall f ev : Prog σ E X ε α) := by
  intro s
  obtain ⟨r, -, ⟨a, -, ha⟩ | ⟨e, -, he⟩⟩ := tryCall_cases f ev s
  · rw [ha]; exact h s _ _
  · rw [he]; exact h s _ _

theorem spec_call {P T C : Rec σ E X → Prop} {Q : α → Rec σ E X → Prop} {f : σ → α × σ} {ev : α → List E}
    (h : ∀ s env' a, P s → Q a { s with env := env', trace := ev a ++ s.trace }) :
    Spec P (call f ev : Prog σ E X ε α) (Ends Q T C) := fun s hs => h s _ _ hs

theorem spec_tryCall {P T C : Rec σ E X → Prop} {Q : α → Rec σ E X → Prop} {f : σ → Except ε α × σ}
    {ev : Except ε α → List E}
    (hok : ∀ s env' a, P s → Q a { s with env := env', trace := ev (.ok a) ++ s.trace })
    (herr : ∀ s env' e, P s → T { s with env := env', trace := ev (.error e) ++ s.trace }) :
    Spec P (tryCall f ev : Prog σ E X ε α) (Ends Q T C) := by
  intro s hs
  obtain ⟨r, -, ⟨a, -, ha⟩ | ⟨e, -, he⟩⟩ := tryCall_cases f ev s
  · rw [ha]; exact hok s _ a hs
  · rw [he]; exact herr s _ e hs

theorem spec_attempt_tryCall {P T C : Rec σ E X → Prop} {Q : Except ε α → Rec σ E X → Prop} {f : σ → Except ε α × σ}
    {ev : Except ε α → List E}
    (h : ∀ s env' r, P s → Q r { s with env := env', trace := ev r ++ s.trace }) :
    Spec P (attempt (tryCall f ev) : Prog σ E X ε (Except ε α)) (Ends Q T C) := by
  intro s hs
  unfold Act.attempt
  obtain ⟨r, -, ⟨a, -, ha⟩ | ⟨e, -, he⟩⟩ := tryCall_cases f ev s
  · rw [ha]; exact h s _ (.ok a) hs
  · rw [he]; exact h s _ (.error e) hs

theorem spec_own {P : Rec σ E X → Prop} {Q : Outcome ε α → Rec σ E X → Prop} {k : X → Prog σ E X ε α}
    (h : ∀ x, Spec (fun s => P s ∧ s.own = x) (k x) Q) : Spec P (own >>= k) Q := fun s hs => h s.own s ⟨hs, rfl⟩

theorem keeps_update {f : X → α × X} {ev : α → List E}
    (h : ∀ s, R s { s with own := (f s.own).2, trace := ev (f s.own).1 ++ s.trace }) :
    Keeps R (update f ev : Prog σ E X ε α) := fun s => h s

theorem keeps_loop (hR : Steps R) (hg : ∀ s g, R s { s with gas := g })
    {body : A → Prog σ E X ε (Turn A β)} (hb : ∀ a, Keeps R (body a)) (a : A) : Keeps R (loop body a) := by
  have main : ∀ n a, Keeps R (loopN body n a) := by
    intro n
    induction n with
    | zero => exact fun _ s => hR.refl s
    | succ n ih =>
      intro a s
      rcases hgas : s.gas with _ | g
      · rw [loopN_out hgas]
        exact hR.refl s
      · rw [loopN_burn hgas]
        refine hR.trans (hg s g) (Keeps.bind hR (hb a) (fun d => ?_) _)
        cases d with
        | next a' => exact ih a'
        | done b => exact Keeps.pure hR b
  exact fun s => main s.gas a s

end Keeps

/-! ### Rules for loops -/

/-- The first turns of a loop, as long as the gas lasts, all begin where `C` holds. -/
def alongN (C : A → Rec σ E X → Prop) (body : A → Prog σ E X ε (Turn A β)) : Nat → A → Rec σ E X → Prop
  | 0, _, _ => True
  | n + 1, a, s =>
    match s.gas with
    | 0 => True
    | g + 1 => C a { s with gas := g } ∧
      ∀ a' t, body a { s with gas := g } = (.ret (.next a'), t) → alongN C body n a' t

/-- Every turn that the loop takes from `s` begins where `C` holds. -/
def Along (C : A → Rec σ E X → Prop) (body : A → Prog σ E X ε (Turn A β)) (a : A) (s : Rec σ E X) : Prop :=
  alongN C body s.gas a s

/-- The loop rule: `I` holds before each turn, and a turn that meets `C` leads to `I` again or to `Q`. -/
theorem loop_rule {C I : A → Rec σ E X → Prop} {Q : Outcome ε β → Rec σ E X → Prop}
    {body : A → Prog σ E X ε (Turn A β)} (hg : ∀ a s g, I a s → I a { s with gas := g })
    (hcut : ∀ a s, I a s → Q .cut s)
    (hb : ∀ a s, C a s → I a s → ∀ o t, body a s = (o, t) →
      match o with
      | .ret (.next a') => I a' t
      | .ret (.done b) => Q (.ret b) t
      | .err e => Q (.err e) t
      | .cut => Q .cut t)
    {a : A} {s : Rec σ E X} (hs : I a s) (hC : Along C body a s) : Q (loop body a s).1 (loop body a s).2 := by
  have main : ∀ n a s, I a s → alongN C body n a s → Q (loopN body n a s).1 (loopN body n a s).2 := by
    intro n
    induction n with
    | zero => exact fun a s hs _ => hcut a s hs
    | succ n ih =>
      intro a s hs hC
      unfold alongN at hC
      rcases hgas : s.gas with _ | g
      · rw [loopN_out hgas]
        exact hcut a s hs
      · rw [loopN_burn hgas]
        simp only [hgas] at hC
        have h := hb a _ hC.1 (hg a s g hs)
        rcases hbs : body a { s with gas := g } with ⟨⟨a' | b⟩ | e | _, t⟩
        · rw [bind_ret hbs]
          exact ih a' t (h _ _ hbs) (hC.2 a' t hbs)
        · rw [bind_ret hbs]
          exact h _ _ hbs
        · rw [bind_err hbs]
          exact h _ _ hbs
        · rw [bind_cut hbs]
          exact h _ _ hbs
  exact main s.gas a s hs hC

theorem along_true (body : A → Prog σ E X ε (Turn A β)) (a : A) (s : Rec σ E X) :
    Along (fun _ _ => True) body a s := by
  have main : ∀ n a s, alongN (fun _ _ => True) body n a s := by
    intro n
    induction n with
    | zero => exact fun _ _ => trivial
    | succ n ih =>
      intro a s
      unfold alongN
      split
      · trivial
      · exact ⟨trivial, fun a' t _ => ih a' t⟩
  exact main s.gas a s

/-- The loop rule for a loop whose turns need no condition. -/
theorem loop_spec {I : A → Rec σ E X → Prop} {Q : β → Rec σ E X → Prop} {T C : Rec σ E X → Prop}
    {body : A → Prog σ E X ε (Turn A β)} (hg : ∀ a s g, I a s → I a { s with gas := g })
    (hcut : ∀ a s, I a s → C s) (hb : ∀ a, Spec (I a) (body a) (Ends (Turn.Post I Q) T C)) (a : A) :
    Spec (I a) (loop body a) (Ends Q T C) := by
  intro s hs
  refine loop_rule (C := fun _ _ => True) (Q := Ends Q T C) hg hcut (fun a s _ hs o t hbs => ?_) hs
    (along_true body a s)
  have h := hb a s hs
  rw [hbs] at h
  rcases o with (a' | b) | e | _
  · exact h
  · exact h
  · exact h
  · exact h

/-- The errors of a loop, from those of its turns. -/
theorem loop_errs {I : A → Rec σ E X → Prop} {Q : β → Rec σ E X → Prop} {T C : Rec σ E X → Prop} {F : ε → Rec σ E X → Prop}
    {body : A → Prog σ E X ε (Turn A β)} (hg : ∀ a s g, I a s → I a { s with gas := g })
    (hb : ∀ a, Spec (I a) (body a) (Ends (Turn.Post I Q) T C)) (herr : ∀ a, Spec (I a) (body a) (Errs F)) (a : A) :
    Spec (I a) (loop body a) (Errs F) := by
  intro s hs
  refine loop_rule (C := fun _ _ => True) (Q := Errs F) hg (fun _ _ _ e he => by cases he) (fun a s _ hs o t hbs => ?_) hs
    (along_true body a s)
  have h := hb a s hs
  have herr := herr a s hs
  rw [hbs] at h herr
  rcases o with (a' | b) | e | _
  · exact h
  · exact fun e he => by cases he
  · exact fun e' he => herr e' (by cases he; rfl)
  · exact fun e he => by cases he

/-! ### Programs that others call -/

/-- A program that is never cut, as a call that other programs make. -/
def answer (m : Act σ ε α) (h : ∀ s, (m s).1 ≠ .cut) (s : σ) : Except ε α × σ :=
  match hm : m s with
  | (.ret a, t) => (.ok a, t)
  | (.err e, t) => (.error e, t)
  | (.cut, _) => absurd (congrArg Prod.fst hm) (h s)

theorem answer_cases (m : Act σ ε α) (h : ∀ s, (m s).1 ≠ .cut) (s : σ) :
    (∃ a t, m s = (.ret a, t) ∧ answer m h s = (.ok a, t)) ∨ ∃ e t, m s = (.err e, t) ∧ answer m h s = (.error e, t) := by
  unfold answer
  split
  · exact Or.inl ⟨_, _, ‹_›, rfl⟩
  · exact Or.inr ⟨_, _, ‹_›, rfl⟩
  · exact absurd (congrArg Prod.fst ‹_›) (h s)

/-- The postcondition of the program that is called, as one of the caller. -/
theorem spec_answer {P T C : Rec σ E X → Prop} {Q : α → Rec σ E X → Prop} {m : Act σ ε α} {h : ∀ s, (m s).1 ≠ .cut}
    {ev : Except ε α → List E}
    (hm : ∀ s, P s → Ends (fun a env => Q a { s with env := env, trace := ev (.ok a) ++ s.trace })
      (fun env => ∀ e, T { s with env := env, trace := ev (.error e) ++ s.trace }) (fun _ => True) (m s.env).1
        (m s.env).2) :
    Spec P (tryCall (answer m h) ev : Prog σ E X ε α) (Ends Q T C) := by
  intro s hs
  have hend := hm s hs
  rcases answer_cases m h s.env with ⟨a, t, hrun, hanswer⟩ | ⟨e, t, hrun, hanswer⟩ <;> rw [hrun] at hend
  · rw [tryCall_ok (a := a) (by rw [hanswer]), hanswer]
    exact hend
  · rw [tryCall_error (e := e) (by rw [hanswer]), hanswer]
    exact hend e

/-! ### Errors of calls -/

namespace Raises
variable {F : ε → Rec σ E X → Prop}

theorem call (f : σ → α × σ) (ev : α → List E) : Raises F (call f ev : Prog σ E X ε α) := fun _ _ _ hs => by cases hs

theorem update (f : X → α × X) (ev : α → List E) : Raises F (update f ev : Prog σ E X ε α) := fun _ _ _ hs => by cases hs

theorem modifyOwn (f : X → X) : Raises F (modifyOwn f : Prog σ E X ε Unit) := fun _ _ _ hs => by cases hs

theorem tryCall {f : σ → Except ε α × σ} {ev : Except ε α → List E}
    (h : ∀ (s : Rec σ E X) env' e, F e { s with env := env', trace := ev (.error e) ++ s.trace }) :
      Raises F (tryCall f ev : Prog σ E X ε α) := by
  intro s e t hs
  obtain ⟨r, -, ⟨a, -, ha⟩ | ⟨e', -, he⟩⟩ := tryCall_cases f ev s
  · rw [ha] at hs
    cases hs
  · rw [he] at hs
    cases hs
    exact h s _ _

theorem loop {body : A → Prog σ E X ε (Turn A β)} (h : ∀ a, Raises F (body a)) (a : A) : Raises F (loop body a) := by
  intro s e t hs
  have hbody : ∀ a, Spec (fun _ => True) (body a) (Ends (Turn.Post (fun _ _ => True) fun _ _ => True)
      (fun _ => True) fun _ => True) := by
    intro a s _
    rcases (body a s).1 with (_ | _) | _ | _ <;> trivial
  have herrs := loop_errs (fun _ _ _ _ => trivial) hbody (fun a => Spec.of_raises (h a)) a s trivial
  rw [hs] at herrs
  exact herrs e rfl

end Raises

end Prog
