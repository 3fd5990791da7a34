import NervesHubLink.Theorems.Failures
import NervesHubLink.Theorems.Order

/-! How a run ends: with a restart, or with an error that it does not get over. -/

namespace NervesHub
open Act Prog Trace

/-- The last thing that happened is that a message could not be sent or an image could not be marked, and it was not the
    transport that failed. -/
def StruckDown (t : List Event) : Prop := ∃ e older err, t = e :: older ∧ e.failure = some err ∧ ∀ msg, err ≠ .transport msg

/-- A run ends when the device was restarted, or where its identity did not let it connect. -/
def EndsAsMeant : Outcome Error Stopped → List Event → Prop
  | .ret stopped, t => stopped = .rebooting ∧ ∃ older, t = .restarted :: older
  | .err err, t => ∃ msg older, err = .identity msg ∧ t = .connected (.error err) :: older
  | .cut, _ => True

theorem not_endsAsMeant {o : Outcome Error Stopped} {t : List Event} {err : Error} (ho : o = .err err)
    (hne : ∀ msg, err ≠ .identity msg) : ¬EndsAsMeant o t := by
  subst ho
  rintro ⟨msg, older, heq, -⟩
  exact hne msg heq

section
variable {σ : Type} [Serde] {agent : Agent σ}

/-! ### What a session leaves behind -/

/-- The session has restarted the device if it was stopped, and this was the last thing it did. -/
def StoppedBy (stopped : Option Stopped) (s : World σ) : Prop :=
  ∀ why, stopped = some why → why = .rebooting ∧ ∃ older, s.trace = .restarted :: older

omit [Serde] in
theorem restart_stops {α : Type} {Q : α → World σ → Prop} {b : α} (h : ∀ s older, s.trace = .restarted :: older → Q b s) :
    Spec (fun _ => True) (restart agent >>= fun _ => pure b) (Post Q fun _ => True) :=
  Spec.bind (R := fun _ s => ∃ older, s.trace = .restarted :: older) (spec_call fun s _ _ _ => ⟨s.trace, rfl⟩) fun _ =>
    Spec.ret fun s ⟨older, hs⟩ => h s older hs

/-- Where a console command or an update says that the device restarts, it has. -/
def RestartSaid (rebooting : Bool) (s : World σ) : Prop := rebooting = true → ∃ older, s.trace = .restarted :: older

omit [Serde] in
theorem restartSaid_false (s : World σ) : RestartSaid false s := fun h => by cases h

theorem answerConsole_stops (data : String) : Spec (fun _ => True) (answerConsole agent data)
    (Post RestartSaid fun _ => True) := by
  unfold NervesHub.answerConsole
  cases agent.console with
  | none => exact Spec.ret fun s _ => restartSaid_false s
  | some commands =>
    refine Spec.last fun typed => ?_
    obtain ⟨echo, lines⟩ := typed
    induction lines generalizing echo with
    | nil => exact Spec.last fun _ => Spec.ret fun s _ => restartSaid_false s
    | cons line rest ih =>
      refine Spec.ite (fun _ => ?_) fun _ => ?_
      · exact Spec.last fun _ => Spec.last fun _ => restart_stops fun s older hs _ => ⟨older, hs⟩
      · exact Spec.last fun _ => Spec.last fun _ => ih ""

variable [Sha256]

theorem apply_stops (update : UpdatePayload) : Spec (fun _ => True) (agent.apply update)
    (Post RestartSaid fun _ => True) := by
  refine Spec.last fun outcome => ?_
  cases outcome with
  | ok u => exact Spec.last fun _ => Spec.last fun _ => restart_stops fun s older hs _ => ⟨older, hs⟩
  | error err => exact Spec.last fun _ => Spec.ret fun s _ => restartSaid_false s

def TurnStops : Turn Session (Option Stopped) → World σ → Prop := Turn.Post (fun _ _ => True) StoppedBy

omit [Serde] [Sha256] in
theorem stoppedBy_none (s : World σ) : StoppedBy none s := fun _ h => by cases h

theorem perform_stops (a : Session) (action : Action) :
    Spec (fun _ => True) (perform agent a action) (Post TurnStops fun _ => True) := by
  have hrestart : ∀ (s : World σ) older, s.trace = .restarted :: older → TurnStops (.done (some .rebooting)) s := by
    rintro s older hs why ⟨⟩
    exact ⟨rfl, older, hs⟩
  have hsaid : ∀ (rebooting : Bool) (s : World σ), RestartSaid rebooting s → rebooting = true →
      TurnStops (.done (some .rebooting)) s := by
    intro rebooting s hs hyes
    obtain ⟨older, hs⟩ := hs hyes
    exact hrestart s older hs
  cases action with
  | applyUpdate update =>
    refine Spec.bind (apply_stops update) fun rebooting =>
      Spec.ite (fun hyes => Spec.ret fun s hs => hsaid _ s hs hyes) fun _ => ?_
    exact Spec.last fun _ => Spec.ret fun _ _ => trivial
  | reboot => exact Spec.last fun _ => restart_stops hrestart
  | identify =>
    unfold NervesHub.perform
    cases agent.identify with
    | none => exact Spec.ret fun _ _ => trivial
    | some identify => exact Spec.last fun _ => Spec.ret fun _ _ => trivial
  | console data =>
    refine Spec.bind (answerConsole_stops data) fun rebooting =>
      Spec.ite (fun hyes => Spec.ret fun s hs => hsaid _ s hs hyes) fun _ => ?_
    exact Spec.ret fun _ _ => trivial
  | consoleRestart => exact Spec.last fun _ => Spec.last fun _ => Spec.ret fun _ _ => trivial
  | reconnect => exact Spec.ret fun s _ => stoppedBy_none s
  | extension needs => exact Spec.last fun _ => Spec.ret fun _ _ => trivial
  | none => exact Spec.ret fun _ _ => trivial

theorem listen_stops (a : Session) : Spec (fun _ => True) (listen agent a) (Post TurnStops fun _ => True) := by
  refine Spec.last fun r => ?_
  rcases r with err | _ | frame
  · exact Spec.ret fun s _ => stoppedBy_none s
  · exact Spec.ret fun _ _ => trivial
  refine Spec.last fun r => ?_
  cases r with
  | error err => exact Spec.ret fun s _ => stoppedBy_none s
  | ok action => exact perform_stops a action

/-- A session that nobody asks to leave stops only by a restart. -/
theorem session_stops : Spec (fun _ => True) (session agent) (Post StoppedBy fun _ => True) := by
  refine Spec.last fun r => loop_spec (I := fun _ _ => True) (fun _ _ _ hs => hs) (fun _ _ _ => trivial) (fun a => ?_) r.2
  -- There is no window, and no caller to ask.
  exact Spec.last fun attended => listen_stops attended.2

/-! ### What a session fails with -/

/-- The error is the transport's, or that of the latest event. -/
def Blamed (err : Error) (s : World σ) : Prop := (∃ msg, err = .transport msg) ∨ Failed err s

theorem session_blames : Raises Blamed (session agent) := by
  have hcovers : Covers (Blamed (σ := σ)) := fun err s h => Or.inr h
  have hcheck : ∀ a, Raises Blamed (Spans.check agent a) := fun a => by
    refine Raises.bind (hcovers.careful .nowMs) fun now => Raises.bind ?_ fun _ =>
      Raises.bind (hcovers.careful (.pumpLogs _ _)) fun _ => Raises.pure _
    refine Raises.ite (Raises.bind (Raises.gets _) fun l => Raises.ite (Raises.throw fun s => Or.inl ⟨_, rfl⟩) ?_)
      (Raises.pure _)
    exact Raises.bind (hcovers.careful .sendHeartbeat) fun _ => Raises.pure _
  have hwindow : ∀ started now a, Raises Blamed (windowEnds agent none started now a) := fun started now a => Raises.pure _
  refine Raises.bind (hcovers.careful .openSession) fun r => Raises.loop (fun a => ?_) r.2
  have hattend : Raises Blamed (attend agent a) := by
    rw [Spans.attend_eq]
    exact Raises.bind (hcovers.careful (.prepare a)) hcheck
  refine Raises.bind hattend fun attended => Raises.bind (hcovers.careful (.askControl none)) fun leave =>
    Raises.ite (Raises.pure _) ?_
  refine Raises.bind (hwindow _ _ _) fun ends => Raises.ite (Raises.pure _) ?_
  exact hcovers.listen _

/-! ### Runs -/

theorem connection_stops (tries : Nat) : Spec (fun _ => True) (connection agent tries)
    (Post (Turn.Post (fun _ _ => True) fun stopped => StoppedBy (some stopped)) fun _ => True) := by
  refine Spec.last fun r => ?_
  rcases r with err | _
  · cases err
    case identity msg => exact Spec.fail fun _ _ => trivial
    all_goals exact fun _ _ => trivial
  refine Spec.last fun _ => Spec.bind (R := fun r s => ∀ stopped, r = .ok stopped → StoppedBy stopped s) ?_ fun r => ?_
  · refine (Spec.attempt session_stops).mono (fun r s hs => ?_) (fun _ h => h) fun _ h => h
    cases r with
    | error err => exact fun stopped h => by cases h
    | ok stopped =>
      rintro _ ⟨⟩
      exact hs
  rcases r with err | _ | stopped
  · cases err
    case transport text => exact fun _ _ => trivial
    all_goals exact Spec.fail fun _ _ => trivial
  · exact fun _ _ => trivial
  · exact Spec.ret fun s hs => hs _ rfl

def Fails (err : Error) (s : World σ) : Prop := EndsAsMeant (.err err) s.trace ∨ StruckDown s.trace

theorem connection_fails (tries : Nat) : Raises Fails (connection agent tries) := by
  let Tried (r : Except Error Unit) (s : World σ) : Prop := s.trace.head? = some (.connected r)
  refine Spec.raises (Spec.bind_errs (R := Tried) (X := fun _ => True) (C := fun _ => True) ?_
    (Spec.of_raises Raises.attempt) fun r => ?_)
  · exact spec_attempt_tryCall fun s _ r _ => rfl
  rcases r with err | _
  · cases err
    case identity msg =>
      rintro s hs _ ⟨⟩
      obtain ⟨older, hs⟩ : ∃ older, s.trace = _ := List.head?_eq_some_iff.mp hs
      exact Or.inl ⟨msg, older, rfl, hs⟩
    all_goals exact Spec.of_raises (Raises.bind (Raises.call _ _) fun _ => Raises.pure _)
  let Told (r : Except Error (Option Stopped)) (s : World σ) : Prop := ∀ err, r = .error err → Blamed err s
  have hback : ∀ P, Spec P (backOff agent tries) (Errs Fails) := fun P =>
    Spec.of_raises (Raises.bind (Raises.gets _) fun _ => Raises.bind (Raises.call _ _) fun _ => Raises.pure _)
  have hthrow : ∀ err, (∀ msg, err ≠ .transport msg) →
      Spec (Told (.error err)) (throw err : Run σ (Turn Nat Stopped)) (Errs Fails) := by
    rintro err hne s hs _ ⟨⟩
    rcases hs err rfl with ⟨msg, heq⟩ | ⟨e, older, htrace, hfailure⟩
    · exact absurd heq (hne msg)
    · exact Or.inr ⟨e, older, err, htrace, hfailure, hne⟩
  refine Spec.bind_errs (R := fun _ _ => True) (X := fun _ => True) (C := fun _ => True) (fun _ _ => trivial)
    (Spec.of_raises (Raises.modifyOwn _)) fun _ => ?_
  refine Spec.bind_errs (R := Told) (X := fun _ => True) (Spec.attempt_errs (Spec.of_raises session_blames))
    (Spec.of_raises Raises.attempt) fun r => ?_
  rcases r with err | _ | stopped
  · cases err
    case transport text => exact hback _
    all_goals exact hthrow _ fun _ => Error.noConfusion
  · exact hback _
  · exact Spec.ret_errs

/-- A run that ends does so as it is meant to, exactly if it was not a message or an image that failed last, with an error
    other than the transport's. -/
theorem run_ends (s : World σ) (hcut : (run agent s).1 ≠ .cut) :
    EndsAsMeant (run agent s).1 (run agent s).2.trace ↔ ¬StruckDown (run agent s).2.trace := by
  have hstops : Spec (fun _ => True) (run agent) (Post (fun stopped => StoppedBy (some stopped)) fun _ => True) :=
    loop_spec (I := fun _ _ => True) (fun _ _ _ _ => trivial) (fun _ _ _ => trivial) connection_stops 0
  have hfails : Raises Fails (run agent) := Raises.loop connection_fails 0
  have hstops := hstops s trivial
  rcases hrun : run agent s with ⟨stopped | err | _, t⟩
  · rw [hrun] at hstops
    obtain ⟨rfl, older, htrace⟩ := hstops stopped rfl
    refine iff_of_true ⟨rfl, older, htrace⟩ ?_
    rintro ⟨e, before, err, hlast, hfailure, -⟩
    rw [htrace] at hlast
    cases hlast
    cases hfailure
  · refine ⟨?_, fun hno => (hfails _ _ _ hrun).resolve_right hno⟩
    rintro ⟨msg, older, -, htrace⟩ ⟨e, before, err, hlast, hfailure, -⟩
    rw [htrace] at hlast
    cases hlast
    cases hfailure
  · exact absurd (by rw [hrun]) hcut

end

end NervesHub
