import NervesHubLink.Theorems.Rounds

/-! What becomes of a message that could not be sent, and of an image that could not be marked: nothing more is done where
that happens, and a session ends with its error, or with what the loop itself finds wrong. What else fails is dealt with
where it fails. -/

namespace NervesHub
open Act Prog

/-- The error with which a message could not be sent, or an image not be marked. -/
def Event.failure : Event → Option Error
  | .sent _ (.error err) => some err
  | .markedValid (.error err) => some err
  | _ => none

section
variable {σ : Type}

/-- What the loop finds wrong when no reply to its heartbeat has come. -/
def Agent.unanswered (agent : Agent σ) : Error :=
  .transport s!"no reply to a heartbeat in {agent.config.heartbeatMs / 1000}s"

/-- And when no reply to its join has come. -/
def unjoined : Error := .transport "no join reply inside the session limit"

/-! ### Programs that a failure ends -/

/-- From `s` to `t` nothing has failed. -/
def Unbroken (s t : World σ) : Prop := ∃ es, t.trace = es ++ s.trace ∧ ∀ e ∈ es, e.failure = none

/-- And then something has, with `err`. -/
def Breaks (err : Error) (s t : World σ) : Prop :=
  ∃ e es, t.trace = e :: (es ++ s.trace) ∧ e.failure = some err ∧ ∀ e ∈ es, e.failure = none

theorem Unbroken.nothing {s t : World σ} (h : t.trace = s.trace) : Unbroken s t := ⟨[], h, by simp⟩

theorem Unbroken.trans {s t u : World σ} (h : Unbroken s t) (h' : Unbroken t u) : Unbroken s u := by
  obtain ⟨es, ht, hes⟩ := h
  obtain ⟨es', hu, hes'⟩ := h'
  exact ⟨es' ++ es, by rw [hu, ht, List.append_assoc], List.forall_mem_append.mpr ⟨hes', hes⟩⟩

theorem Unbroken.breaks {s t u : World σ} {err : Error} (h : Unbroken s t) (h' : Breaks err t u) : Breaks err s u := by
  obtain ⟨es, ht, hes⟩ := h
  obtain ⟨e, es', hu, he, hes'⟩ := h'
  exact ⟨e, es' ++ es, by rw [hu, ht, List.append_assoc], he, List.forall_mem_append.mpr ⟨hes', hes⟩⟩

/-- What a program comes to that does nothing after a failure. Errors of its own are those that `T` allows. -/
def Comes {α : Type} (T : Error → Prop) (s : World σ) : Outcome Error α → World σ → Prop
  | .ret _, t => Unbroken s t
  | .err err, t => Breaks err s t ∨ T err ∧ Unbroken s t
  | .cut, _ => False

def Careful {α : Type} (T : Error → Prop) (m : Run σ α) : Prop := ∀ s, Comes T s (m s).1 (m s).2

/-- A program that gives no error of its own. -/
def NoError (_ : Error) : Prop := False

/-- The error is that of the latest event. -/
def Failed (err : Error) (s : World σ) : Prop := ∃ e older, s.trace = e :: older ∧ e.failure = some err

/-- `F` allows the errors of failed events. -/
def Covers (F : Error → World σ → Prop) : Prop := ∀ err s, Failed err s → F err s

variable {agent : Agent σ} {F : Error → World σ → Prop} {T : Error → Prop} {α β : Type}

/-- One run of such a program, by the record: what is new in it keeps `J`, and `X` holds once something has failed. -/
theorem Comes.ends {s t : World σ} {o : Outcome Error α} (h : Comes T s o t) {p : Kind → Prop} (hp : Only p s t)
    {J X : List Event → Prop} {C : World σ → Prop} (hJ : ∀ e t, p e.kind → e.failure = none → J t → J (e :: t))
    (hX : ∀ e err t, p e.kind → e.failure = some err → J t → X (e :: t)) (hT : ∀ err t, T err → J t → X t)
    (hs : J s.trace) : Ends (fun _ s => J s.trace) (fun s => X s.trace) C o t := by
  obtain ⟨new, hnew, hkinds⟩ := hp
  have hkeep : ∀ es, (∀ e ∈ es, p e.kind ∧ e.failure = none) → J (es ++ s.trace) := fun es hes =>
    Trace.append_holds (p := fun e => p e.kind ∧ e.failure = none) (fun e t he ht => hJ e t he.1 he.2 ht) hes hs
  have hunbroken : Unbroken s t → J t.trace := by
    rintro ⟨es, ht, hes⟩
    rw [hnew, List.append_cancel_right_eq] at ht
    rw [hnew]
    exact hkeep new fun e he => ⟨hkinds e he, hes e (ht ▸ he)⟩
  rcases o with a | err | _
  · exact hunbroken h
  · rcases h with ⟨e, es, ht, he, hes⟩ | ⟨hown, ht⟩
    · rw [hnew, ← List.cons_append, List.append_cancel_right_eq] at ht
      subst ht
      show X t.trace
      rw [hnew]
      exact hX e err _ (hkinds e List.mem_cons_self) he
        (hkeep es fun e' he' => ⟨hkinds e' (List.mem_cons_of_mem _ he'), hes e' he'⟩)
    · exact hT err _ hown (hunbroken ht)
  · exact h.elim

namespace Careful

theorem pure (a : α) : Careful T (Pure.pure a : Run σ α) := fun _ => .nothing rfl

theorem throw {err : Error} (h : T err) : Careful T (Act.throw err : Run σ α) := fun _ => Or.inr ⟨h, .nothing rfl⟩

theorem ofExcept (r : Except Error α) (h : ∀ err, r = .error err → T err) : Careful T (Act.ofExcept r : Run σ α) := by
  cases r with
  | ok a => exact pure a
  | error err => exact throw (h err rfl)

theorem gets (f : World σ → α) : Careful T (Act.gets f : Run σ α) := fun _ => .nothing rfl

theorem modifyOwn (f : Device → Device) : Careful T (Prog.modifyOwn f : Run σ Unit) := fun _ => .nothing rfl

theorem update {f : Device → α × Device} {ev : α → List Event} (h : ∀ a, ∀ e ∈ ev a, e.failure = none) :
    Careful T (Prog.update f ev : Run σ α) := fun s => ⟨ev (f s.own).1, rfl, h _⟩

theorem call {f : σ → α × σ} {ev : α → List Event} (h : ∀ a, ∀ e ∈ ev a, e.failure = none) :
    Careful T (Prog.call f ev : Run σ α) := fun s => ⟨ev (f s.env).1, rfl, h _⟩

/-- A call that is recorded as one event. -/
theorem callOne {f : σ → α × σ} {ev : α → Event} (h : ∀ a, (ev a).failure = none) :
    Careful T (Prog.call f fun a => [ev a] : Run σ α) := call fun a e he => by rw [List.mem_singleton.mp he, h]

theorem tryCall {f : σ → Except Error α × σ} {ev : Except Error α → Event} (hok : ∀ a, (ev (.ok a)).failure = none)
    (herr : ∀ err, (ev (.error err)).failure = some err) : Careful T (Prog.tryCall f fun r => [ev r] : Run σ α) := by
  intro s
  obtain ⟨r, -, ⟨a, -, ha⟩ | ⟨err, -, he⟩⟩ := tryCall_cases (X := Device) f (fun r => [ev r]) s
  · rw [ha]
    exact ⟨[ev (.ok a)], rfl, by simp [hok]⟩
  · rw [he]
    exact Or.inl ⟨ev (.error err), [], rfl, herr err, by simp⟩

theorem bind {m : Run σ α} {k : α → Run σ β} (hm : Careful T m) (hk : ∀ a, Careful T (k a)) : Careful T (m >>= k) := by
  intro s
  have hs := hm s
  rcases hrun : m s with ⟨a | err | _, t⟩
  all_goals rw [hrun] at hs
  · rw [bind_ret hrun]
    have ht := hk a t
    rcases hnext : k a t with ⟨b | err | _, u⟩
    all_goals rw [hnext] at ht
    · exact Unbroken.trans hs ht
    · exact ht.imp (Unbroken.breaks hs) fun h => ⟨h.1, Unbroken.trans hs h.2⟩
    · exact ht
  · rw [bind_err hrun]
    exact hs
  · exact hs.elim

theorem ite {c : Prop} [Decidable c] {m n : Run σ α} (hm : Careful T m) (hn : Careful T n) :
    Careful T (if c then m else n) := by
  split
  · exact hm
  · exact hn

theorem when {c : Prop} [Decidable c] {m : Run σ Unit} (hm : Careful T m) : Careful T (Act.when c m) := ite hm (pure ())

theorem raises {m : Run σ α} (hm : Careful T m) (h : Covers F) (hT : ∀ err, T err → ∀ s, F err s) : Raises F m := by
  intro s err t hrun
  have hs := hm s
  rw [hrun] at hs
  rcases hs with ⟨e, es, ht, he, -⟩ | ⟨hown, -⟩
  · exact h err t ⟨e, _, ht, he⟩
  · exact hT err hown t

/-- The rule for a record: what is new in it keeps `J`, and `X` holds once something has failed. -/
theorem spec {m : Run σ α} (hm : Careful T m) {p : Kind → Prop} (hp : Keeps (Only p) m) {J X : List Event → Prop}
    {C : World σ → Prop} (hJ : ∀ e t, p e.kind → e.failure = none → J t → J (e :: t))
    (hX : ∀ e err t, p e.kind → e.failure = some err → J t → X (e :: t)) (hT : ∀ err t, T err → J t → X t) :
    Spec (fun s => J s.trace) m (Ends (fun _ s => J s.trace) (fun s => X s.trace) C) :=
  fun s hs => (hm s).ends (hp s) hJ hX hT hs

theorem nextRef : Careful T (Link.nextRef : Run σ String) := update (by simp)

theorem onLogs {f : LogBuffer → α × LogBuffer} {otherwise : α} {ev : α → List Event}
    (h : ∀ a, ∀ e ∈ ev a, e.failure = none) :
    Careful T (NervesHub.onLogs f otherwise ev : Run σ α) := update h

theorem overhear : Careful T (overhear agent) := by
  refine bind (call (by simp)) fun _ => bind (update fun fates e he => ?_) fun _ => pure _
  obtain ⟨fate, -, rfl⟩ := List.mem_map.mp (List.mem_reverse.mp he)
  rfl

theorem takeStamped (maxLines maxBytes : Nat) (micros : Option Nat) :
    Careful T (takeStamped agent maxLines maxBytes micros) := by
  refine bind overhear fun _ => bind (onLogs fun r e he => ?_) fun r => ite (pure _) ?_
  · obtain ⟨line, -, rfl⟩ := List.mem_map.mp (List.mem_reverse.mp he)
    rfl
  refine bind overhear fun _ => bind (onLogs fun r e he => ?_) fun popped => ?_
  · cases r with
    | nothing => cases he
    | _ =>
      rw [List.mem_singleton.mp he]
      rfl
  cases popped.sent with
  | none => exact pure _
  | some note => exact pure _

theorem nowMs : Careful T (nowMs agent) := callOne fun _ => rfl

theorem sleep (why : Pause) (d : Duration) : Careful T (sleep agent why d) := callOne fun _ => rfl

theorem restart : Careful T (restart agent) := callOne fun _ => rfl

/-! ### Messages -/

section
variable [Serde]

theorem write (m : Envelope) : Careful T (Link.write agent m) := bind (gets _) fun _ => tryCall (fun _ => rfl) fun _ => rfl

theorem send (ev : String) (payload : Value) (reference : String) : Careful T (Link.send agent ev payload reference) :=
  bind (gets _) fun _ => write _

theorem sendProgress (stage : Stage) (percent : Nat) : Careful T (Link.sendProgress agent stage percent) :=
  bind nextRef fun _ => send _ _ _

theorem sendStatus (status : String) (extra : Value) : Careful T (Link.sendStatus agent status extra) :=
  bind nextRef fun _ => send _ _ _

theorem sendRebooting : Careful T (Link.sendRebooting agent) := bind nextRef fun _ => send _ _ _

theorem announceApplied : Careful T (announceApplied agent) :=
  bind (sendProgress _ _) fun _ => bind (sendStatus _ _) fun _ => sendRebooting

theorem sendHeartbeat : Careful T (Link.sendHeartbeat agent) := bind nextRef fun _ => bind (modifyOwn _) fun _ => write _

theorem sendConsole (text : String) : Careful T (Link.sendConsole agent text) :=
  ite (pure _) (bind nextRef fun _ => bind (gets _) fun _ => write _)

theorem sendExtension (outgoing : List Outgoing) : Careful T (Link.sendExtension agent outgoing) := by
  induction outgoing with
  | nil => exact pure _
  | cons out rest ih =>
    cases out with
    | send ev payload => exact bind nextRef fun _ => bind (gets _) fun _ => bind (write _) fun _ => ih
    | needLocation => exact ih
    | needHealth => exact ih

theorem sendLogs (now lastLog : Nat) : Careful T (sendLogs agent now lastLog) := by
  have hlink : ∀ lines, Careful T (Link.sendLogs agent lines) := fun lines => by
    refine bind (gets _) fun l => ?_
    cases l.extensions.logBatch lines with
    | some batch => exact bind nextRef fun _ => write _
    | none => exact sendExtension _
  refine bind (gets _) fun d => ite (pure _) (ite (pure _) ?_)
  refine bind (call (by simp)) fun micros => bind (takeStamped _ _ _) fun lines => ?_
  exact ite (pure _) (bind (hlink lines) fun _ => pure _)

/-! ### The application's answers -/

theorem answerExtension (needs : List Outgoing) : Careful T (answerExtension agent needs) := by
  induction needs with
  | nil => exact pure _
  | cons need rest ih =>
    refine bind ?_ fun answer => bind (sendExtension answer) fun _ => ih
    cases need with
    | send ev payload => exact pure _
    | needLocation =>
      refine bind ?_ fun _ => pure _
      unfold Agent.readLocation
      cases agent.location with
      | none => exact pure _
      | some provider => exact callOne fun _ => rfl
    | needHealth =>
      unfold answerNeed
      cases agent.health with
      | none => exact pure _
      | some provider => exact bind (callOne fun _ => rfl) fun _ => pure _

theorem logCommand (args : List String) : Careful T (logCommand args : Run σ String) := by
  refine bind (gets _) fun d => ?_
  cases d.logs with
  | none => exact pure _
  | some b =>
    cases args with
    | nil => exact pure _
    | cons level rest =>
      dsimp only
      split
      · exact bind (onLogs (by simp)) fun _ => pure _
      · exact pure _

theorem consoleRun (commands : List (Command σ)) (parsed : Option (String × List String)) :
    Careful T (Console.run commands parsed) := by
  rcases parsed with _ | ⟨name, args⟩
  · exact pure _
  refine ite (logCommand args) (ite (pure _) ?_)
  cases commands.find? (·.name == name) with
  | none => exact pure _
  | some command => exact bind (callOne fun _ => rfl) fun _ => pure _

theorem answerLines (commands : List (Command σ)) (reply : String) (lines : List String) :
    Careful T (answerLines agent commands reply lines) := by
  induction lines generalizing reply with
  | nil => exact bind (sendConsole _) fun _ => pure _
  | cons line rest ih =>
    refine ite (bind (sendConsole _) fun _ => ?_) ?_
    · exact bind (sleep _ _) fun _ => bind restart fun _ => pure _
    · exact bind (consoleRun _ _) fun _ => bind (sendConsole _) fun _ => ih ""

theorem answerConsole (data : String) : Careful T (answerConsole agent data) := by
  unfold NervesHub.answerConsole
  cases agent.console with
  | none => exact pure _
  | some commands => exact bind (update (by simp)) fun r => answerLines commands _ _

/-! ### A turn -/

theorem confirm (a : Session) : Careful T (confirm agent a) := by
  have hmark : Careful T (markValid agent) := tryCall (fun _ => rfl) fun _ => rfl
  have hconfirm : Careful T (confirmRunningImage agent) :=
    bind (callOne fun _ => rfl) fun pending => bind (when hmark) fun _ => bind nextRef fun _ => send _ _ _
  refine bind (gets _) fun l => ite (bind (modifyOwn _) fun _ => ?_) (pure _)
  exact bind nowMs fun _ => bind hconfirm fun _ => pure _

theorem joinExtensions (a : Session) : Careful T (joinExtensions agent a) := by
  have hoverdue : Careful T (invitationOverdue agent a) := by
    unfold invitationOverdue
    cases a.joinedAt with
    | none => exact pure _
    | some joinedAt => exact bind nowMs fun _ => pure _
  refine bind hoverdue fun overdue => bind (gets _) fun l => ite ?_ (pure _)
  refine bind (bind nextRef fun _ => bind (modifyOwn _) fun _ => ?_) fun _ => pure _
  exact bind (gets _) fun _ => write _

theorem joinConsole (a : Session) : Careful T (joinConsole agent a) := by
  refine bind (gets _) fun l => ite ?_ (pure _)
  refine bind (bind nextRef fun _ => bind (modifyOwn _) fun _ => ?_) fun _ => pure _
  exact write _

theorem prepare (a : Session) : Careful T (Spans.prepare agent a) := by
  refine bind (confirm a) fun a => bind (joinExtensions a) fun a => bind (joinConsole a) fun a => ?_
  exact bind (gets _) fun _ => pure _

theorem pumpLogs (now : Nat) (a : Session) : Careful T (pumpLogs agent now a) := bind (sendLogs _ _) fun _ => pure _

theorem askControl (control : Option (σ → Control × σ)) : Careful T (askControl agent control) := by
  cases control with
  | none => exact pure _
  | some ask =>
    refine bind (callOne fun _ => rfl) fun answer => ?_
    cases answer with
    | stay => exact pure _
    | leave => exact pure _
    | reportHealth => exact bind (gets _) fun l => bind (when (answerExtension _)) fun _ => pure _

omit [Serde] in
theorem windowEnds (hjoin : T unjoined) (window : Option SessionWindow) (started now : Nat) (a : Session) :
    Careful T (windowEnds agent window started now a) := by
  cases window with
  | none => exact pure _
  | some window =>
    refine bind (gets _) fun l => ite ?_ (ite ?_ (pure _))
    · exact ite (throw hjoin) (pure _)
    refine bind (gets _) fun l => bind ?_ fun logs => pure _
    exact bind (gets _) fun l => ite (pure _) (bind (bind overhear fun _ => gets _) fun logs => pure _)

/-! ### A frame -/

theorem handleExtensionFrame (m : Message) : Careful T (Link.handleExtensionFrame agent m) := by
  refine bind (gets _) fun l => ite (ite ?_ (pure _)) ?_
  · exact bind (update (by simp)) fun _ => bind (sendExtension _) fun _ => pure _
  · split
    · exact pure _
    · exact pure _

theorem handleConsoleFrame (m : Message) : Careful T (Link.handleConsoleFrame agent m) := by
  refine bind (gets _) fun l => ite (ite (bind (sendConsole _) fun _ => pure _) (pure _)) (ite ?_ (ite (pure _) ?_))
  · split
    · exact pure _
    · exact pure _
  · exact ite (bind (sendConsole _) fun _ => pure _) (pure _)

omit [Serde] in
theorem handleControlFrame (m : Message) : Careful T (Link.handleControlFrame m : Run σ Action) :=
  bind (modifyOwn _) fun _ => pure _

/-- What a frame says of an update is read here, and may turn out not to be readable. -/
theorem news (v : Value) (hT : ∀ err, UpdatePayload.parse v = .error err → T err) :
    Careful T (Act.ofExcept (UpdatePayload.parse v) >>= fun update => Link.decide agent update) := by
  refine bind (ofExcept _ hT) fun update => ite (pure _) (bind (callOne fun _ => rfl) fun decision => ?_)
  cases decision with
  | apply => exact pure _
  | ignore reason => exact bind (sendStatus _ _) fun _ => pure _
  | reschedule delayMs reason => exact bind (sendStatus _ _) fun _ => pure _

/-- Downloads are not: what fails in them is swallowed. -/
theorem perform [Sha256] (a : Session) {action : Action} (hshort : ∀ update, action ≠ .applyUpdate update) :
    Careful T (perform agent a action) := by
  cases action with
  | applyUpdate update => exact absurd rfl (hshort update)
  | reboot => exact bind sendRebooting fun _ => bind restart fun _ => pure _
  | identify =>
    unfold NervesHub.perform
    cases agent.identify with
    | none => exact pure _
    | some identify => exact bind (callOne fun _ => rfl) fun _ => pure _
  | console data => exact bind (answerConsole data) fun rebooting => ite (pure _) (pure _)
  | consoleRestart => exact bind (when (modifyOwn _)) fun _ => bind (sendConsole _) fun _ => pure _
  | reconnect => exact pure _
  | extension needs => exact bind (answerExtension needs) fun _ => pure _
  | none => exact pure _

theorem openSession : Careful T (openSession agent) := by
  refine bind (modifyOwn _) fun _ => bind (callOne fun _ => rfl) fun pending =>
    bind (callOne fun _ => rfl) fun reverted => ?_
  refine bind (bind nextRef fun _ => bind (modifyOwn _) fun _ => ?_) fun _ => ?_
  · exact bind (gets _) fun _ => send _ _ _
  · exact bind nowMs fun _ => bind nowMs fun _ => bind nowMs fun _ => pure _

end

end Careful

/-! ### The errors of a session -/

namespace Covers

variable (h : Covers F)
include h

theorem careful {m : Run σ α} (hm : Careful NoError m) : Raises F m := hm.raises h fun _ h => h.elim

variable [Serde] [Sha256]

theorem apply (update : UpdatePayload) : Raises F (agent.apply update) := by
  have hfetch : Raises F (agent.fetch update) := by
    have hmark : ∀ uuid, Raises F (Link.setDownloading uuid : Run σ Unit) := fun uuid s err t hs => by cases hs
    refine Raises.bind (Raises.when (hmark _)) fun _ => Raises.bind Raises.attempt fun _ => ?_
    exact Raises.bind (hmark _) fun _ => Raises.pure _
  refine Raises.bind hfetch fun outcome => ?_
  cases outcome with
  | ok u =>
    refine Raises.bind (h.careful .announceApplied) fun _ => ?_
    exact Raises.bind (Raises.call _ _) fun _ => Raises.bind (Raises.call _ _) fun _ => Raises.pure _
  | error err => exact Raises.bind (h.careful (.sendStatus _ _)) fun _ => Raises.pure _

theorem listen (a : Session) : Raises F (listen agent a) := by
  refine Raises.bind Raises.attempt fun r => ?_
  rcases r with err | _ | frame
  · exact Raises.pure _
  · exact Raises.pure _
  refine Raises.bind Raises.attempt fun r => ?_
  cases r with
  | error err => exact Raises.pure _
  | ok action =>
    by_cases hupdate : ∃ update, action = .applyUpdate update
    · obtain ⟨update, rfl⟩ := hupdate
      refine Raises.bind (h.apply update) fun rebooting => Raises.ite (Raises.pure _) ?_
      exact Raises.bind (Raises.call _ _) fun _ => Raises.pure _
    · exact h.careful (.perform a fun update heq => hupdate ⟨update, heq⟩)

/-- The errors of a session, from those of the checks of its turns. -/
theorem session {P E : World σ → Prop} {I : Nat → Session → World σ → Prop} {Q : Option Stopped → World σ → Prop}
    {window : Option SessionWindow} {control : Option (σ → Control × σ)} (hjoin : ∀ s, F unjoined s)
    (hgas : ∀ started a s g, I started a s → I started a { s with gas := g })
    (hopen : Spec P (NervesHub.openSession agent) (Ends (fun r => I r.1 r.2) E E))
    (hturn : ∀ started a, Spec (I started a) (turn agent window control started a) (Ends (Turn.Post (I started) Q) E E))
    (hprepare : ∀ started a, Spec (I started a) (Spans.prepare agent a) (Ends (I started) E E))
    (hcheck : ∀ started a, Spec (I started a) (Spans.check agent a) (Errs F)) :
    Spec P (sessionWithin agent window control) (Errs F) := by
  refine Spec.bind_errs hopen (Spec.of_raises (h.careful .openSession)) fun r => ?_
  refine loop_errs (I := I r.1) (Q := Q) (hgas r.1) (hturn r.1) (fun a => ?_) r.2
  have hattend : Spec (I r.1 a) (attend agent a) (Errs F) := by
    rw [Spans.attend_eq]
    exact Spec.bind_errs (hprepare r.1 a) (Spec.of_raises (h.careful (.prepare a))) (hcheck r.1)
  have hwindow : ∀ now a, Raises F (windowEnds agent window r.1 now a) := fun now a =>
    (Careful.windowEnds (T := (· = unjoined)) rfl window r.1 now a).raises h fun err herr s => herr ▸ hjoin s
  refine Spec.bind_raises hattend fun attended => Raises.bind (h.careful (.askControl control)) fun leave =>
    Raises.ite (Raises.pure _) ?_
  exact Raises.bind (hwindow _ _) fun ends => Raises.ite (Raises.pure _) (h.listen _)

end Covers

end

end NervesHub
