import NervesHubLink.Theorems.Dialog
import NervesHubLink.Theorems.Endings

/-! What is typed over a whole session. Between the frames of the terminal's channel comes all the rest that a session does,
and it leaves the reader and the conversation alone. -/

namespace NervesHub
open Act Prog Trace Talk

/-! ### What a record says of the conversation -/

/-- What a message types. -/
def Message.typed (m : Message) : Option String :=
  if m.topic = consoleTopic ∧ m.event = event.down then (m.payload.get "data").bind Value.asStr else none

/-- The message starts the reader over. -/
def Message.startsOver (m : Message) : Bool := m.topic == consoleTopic && m.event == event.restart

/-- What has been seen since the latest reception. -/
def reaction : List Event → List Seen
  | [] => []
  | .received _ :: _ => []
  | e :: older => reaction older ++ (Seen.of e).toList

/-- The latest reception, and what came before it. -/
def latestHeard : List Event → Option (Except Error (Option Frame) × List Event)
  | [] => none
  | .received x :: older => some (x, older)
  | _ :: older => latestHeard older

section
variable [Serde]

def typedIn (x : Except Error (Option Frame)) : Option String := (heard x).bind Message.typed

/-- The reader, in a session that began with `r`. -/
def readerOf (r : LineReader) : List Event → LineReader
  | [] => r
  | .received x :: older =>
    if (heard x).any Message.startsOver then .new
    else
      match typedIn x with
      | some data => ((readerOf r older).feed data).2
      | none => readerOf r older
  | _ :: older => readerOf r older

/-- The lines that a reception completes. -/
def completed (r : LineReader) (x : Except Error (Option Frame)) (older : List Event) : List String :=
  match typedIn x with
  | some data => ((readerOf r older).feed data).1.2
  | none => []

/-- All the lines that were typed, the first first. -/
def linesTyped (r : LineReader) : List Event → List String
  | [] => []
  | .received x :: older => linesTyped r older ++ completed r x older
  | _ :: older => linesTyped r older

section
variable {σ : Type} (commands : List (Command σ)) (r : LineReader)

/-- If the latest reception types anything, the replies to its lines are all that has been seen since. -/
def Concluded (t : List Event) : Prop := ∀ x older, latestHeard t = some (x, older) → (typedIn x).isSome = true →
  ∃ replies, reaction t = replies.flatMap (Reply.seen commands) ∧ Replies commands (completed r x older) replies

/-- What comes of all that is typed: each frame has been answered before the next is received, the commands that were run
    are those of the lines up to the first that reboots, each once and in order, and after that line the restart is the last
    event. -/
structure Conversation (t : List Event) : Prop where
  answers : Throughout (fun e older => e.kind = .received → Concluded commands r older) t
  latest : Concluded commands r t
  commands : (seen t).filterMap Seen.command =
    ((linesTyped r t).takeWhile fun line => !isReboot line).filterMap (commandOf commands)
  reboots : (linesTyped r t).any isReboot = true → ∃ older, t = .restarted :: older

/-- No line was one that reboots. -/
structure Conversing (t : List Event) : Prop extends Conversation commands r t where
  calm : (linesTyped r t).any isReboot = false

/-- The latest reception types nothing. -/
def Untyped (t : List Event) : Prop := ∀ x older, latestHeard t = some (x, older) → typedIn x = none

variable {commands r} {e : Event} {t es : List Event} {x : Except Error (Option Frame)}

theorem append_unreceived (hes : ∀ e ∈ es, Event.kind e ≠ .received) : readerOf r (es ++ t) = readerOf r t ∧
    linesTyped r (es ++ t) = linesTyped r t ∧ latestHeard (es ++ t) = latestHeard t := by
  induction es with
  | nil => exact ⟨rfl, rfl, rfl⟩
  | cons e es ih =>
    obtain ⟨hreader, hlines, hlatest⟩ := ih fun e' he' => hes e' (List.mem_cons_of_mem _ he')
    have he : e.kind ≠ .received := hes e List.mem_cons_self
    rw [← hreader, ← hlines, ← hlatest]
    cases e
    case received x => exact absurd rfl he
    all_goals exact ⟨rfl, rfl, rfl⟩

omit [Serde] in
theorem seen_append (es t : List Event) : seen (es ++ t) = seen t ++ seen es := by simp [seen]

omit [Serde] in
theorem reaction_append (hes : ∀ e ∈ es, Event.kind e ≠ .received) : reaction (es ++ t) = reaction t ++ seen es := by
  induction es with
  | nil => simp [seen]
  | cons e es ih =>
    have he : e.kind ≠ .received := hes e List.mem_cons_self
    have hreaction : reaction (e :: (es ++ t)) = reaction (es ++ t) ++ (Seen.of e).toList := by
      cases e
      case received x => exact absurd rfl he
      all_goals rfl
    rw [List.cons_append, hreaction, ih fun e' he' => hes e' (List.mem_cons_of_mem _ he'), seen_cons, List.append_assoc]

/-! ### What is added to it -/

omit [Serde] in
theorem takeWhile_calm {lines : List String} (h : lines.any isReboot = false) (more : List String) :
    ((lines ++ more).takeWhile fun line => !isReboot line) = lines ++ more.takeWhile fun line => !isReboot line :=
  List.takeWhile_append_of_pos fun line hline => by simp [List.any_eq_false.mp h line hline]

/-- What a turn does without hearing anything, and without writing to the terminal. -/
def turnKinds : List Kind := [.received, .ran, .terminal, .restarted]

omit [Serde] in
theorem seen_none (he : e.kind ∉ turnKinds) : Seen.of e = none := by
  cases e
  case ran name args => exact absurd (by simp [Event.kind, turnKinds]) he
  case restarted => exact absurd (by simp [Event.kind, turnKinds]) he
  case sent m r =>
    have hm : m.upText = none := by
      refine if_neg fun hup => he ?_
      have hkind : m.kind = .terminal := by
        rw [Envelope.kind, hup.1, hup.2]
        decide
      simp [Event.kind, hkind, turnKinds]
    cases r <;> simp [Seen.of, hm]
  all_goals rfl

omit [Serde] in
theorem seen_silent (hes : ∀ e ∈ es, Event.kind e ∉ turnKinds) : seen es = [] :=
  List.filterMap_eq_nil_iff.mpr fun e he => seen_none (hes e (List.mem_reverse.mp he))

theorem answers_append (hes : ∀ e ∈ es, Event.kind e ≠ .received)
    (h : Throughout (fun e older => e.kind = .received → Concluded commands r older) t) :
    Throughout (fun e older => e.kind = .received → Concluded commands r older) (es ++ t) :=
  append_holds (p := fun e => Event.kind e ≠ .received)
    (fun _ _ he hu => throughout_cons.mpr ⟨fun heq => absurd heq he, hu⟩) hes h

theorem Conversing.append (h : Conversing commands r t) (hes : ∀ e ∈ es, Event.kind e ≠ .received)
    (hrun : (seen es).filterMap Seen.command = []) (hlatest : Concluded commands r (es ++ t)) :
    Conversing commands r (es ++ t) := by
  have hlines : linesTyped r (es ++ t) = linesTyped r t := (append_unreceived hes).2.1
  have hcalm : (linesTyped r (es ++ t)).any isReboot = false := by rw [hlines, h.calm]
  refine ⟨⟨answers_append hes h.answers, hlatest, ?_, fun hreboot => ?_⟩, hcalm⟩
  · rw [seen_append, List.filterMap_append, hrun, List.append_nil, hlines, h.commands]
  · exact absurd (hcalm.symm.trans hreboot) Bool.false_ne_true

theorem Conversing.turn (h : Conversing commands r t) (hes : ∀ e ∈ es, Event.kind e ∉ turnKinds) :
    Conversing commands r (es ++ t) := by
  have hunheard : ∀ e ∈ es, Event.kind e ≠ .received := fun e he heq => hes e he (by simp [heq, turnKinds])
  refine h.append hunheard (by rw [seen_silent hes]; rfl) fun x older hx htyped => ?_
  rw [reaction_append hunheard, seen_silent hes, List.append_nil]
  exact h.latest x older ((append_unreceived (r := r) hunheard).2.2 ▸ hx) htyped

theorem Conversing.receive (h : Conversing commands r t) (hx : typedIn x = none) :
    Conversing commands r (.received x :: t) ∧ Untyped (.received x :: t) := by
  have hlines : linesTyped r (.received x :: t) = linesTyped r t := by simp [linesTyped, completed, hx]
  have huntyped : Untyped (.received x :: t) := by
    rintro _ _ ⟨⟩
    exact hx
  refine ⟨⟨⟨throughout_cons.mpr ⟨fun _ => h.latest, h.answers⟩, fun x' older hx' htyped => ?_, ?_, fun hreboot => ?_⟩,
    ?_⟩, huntyped⟩
  · rw [huntyped x' older hx'] at htyped
    cases htyped
  · rw [seen_cons, hlines, ← h.commands]
    exact congrArg _ (List.append_nil _)
  · rw [hlines, h.calm] at hreboot
    cases hreboot
  · rw [hlines, h.calm]

/-- What is done about other frames may write to the terminal, and may end the session, but runs no command. -/
theorem Conversing.other (h : Conversing commands r t) (huntyped : Untyped t)
    (hes : ∀ e ∈ es, Event.kind e ≠ .received ∧ Event.kind e ≠ .ran) :
    Conversing commands r (es ++ t) ∧ Untyped (es ++ t) := by
  have hunheard : ∀ e ∈ es, Event.kind e ≠ .received := fun e he => (hes e he).1
  have hstill : Untyped (es ++ t) := by
    intro x older hx
    rw [(append_unreceived (r := r) hunheard).2.2] at hx
    exact huntyped x older hx
  have hrun : (seen es).filterMap Seen.command = [] := by
    rw [seen, List.filterMap_filterMap]
    refine List.filterMap_eq_nil_iff.mpr fun e he => ?_
    have hran : e.kind ≠ .ran := (hes e (List.mem_reverse.mp he)).2
    cases e
    case ran name args => exact absurd rfl hran
    case sent m r =>
      cases r with
      | error err => rfl
      | ok u => cases hup : m.upText <;> simp [Seen.of, hup, Seen.command]
    all_goals rfl
  refine ⟨h.append hunheard hrun fun x older hx htyped => ?_, hstill⟩
  rw [hstill x older hx] at htyped
  cases htyped

/-- A frame is typed, and its lines are replied to. -/
theorem Conversing.type (h : Conversing commands r t) (hes : ∀ e ∈ es, Event.kind e ≠ .received) {replies : List Reply}
    (hseen : seen es = replies.flatMap (Reply.seen commands)) (hreplies : Replies commands (completed r x t) replies)
    (hreboots : (completed r x t).any isReboot = true → ∃ older, es ++ .received x :: t = .restarted :: older) :
    Conversation commands r (es ++ .received x :: t) := by
  obtain ⟨-, hlines, hlatest⟩ := append_unreceived (r := r) (t := .received x :: t) hes
  have hlines : linesTyped r (es ++ .received x :: t) = linesTyped r t ++ completed r x t := hlines
  refine ⟨?_, fun x' older hx' htyped => ?_, ?_, fun hreboot => ?_⟩
  · exact answers_append hes (throughout_cons.mpr ⟨fun _ => h.latest, h.answers⟩)
  · rw [hlatest] at hx'
    cases hx'
    refine ⟨replies, ?_, hreplies⟩
    rw [reaction_append hes, hseen]
    rfl
  · rw [seen_append, List.filterMap_append, hseen, hreplies.commands, hlines, takeWhile_calm h.calm,
      List.filterMap_append, seen_cons, List.filterMap_append, h.commands]
    have hall : ((linesTyped r t).takeWhile fun line => !isReboot line) = linesTyped r t := by
      have h := takeWhile_calm h.calm []
      simpa using h
    rw [hall]
    exact congrArg (· ++ _) (List.append_nil _)
  · rw [hlines, List.any_append, h.calm, Bool.false_or] at hreboot
    exact hreboots hreboot

end

/-! ### The other steps of a turn -/

variable {σ : Type} {agent : Agent σ} {commands : List (Command σ)} {r : LineReader}

/-- What is new in the record is of the kinds `p`, and the reader is as it was. -/
def SameReader (p : Kind → Prop) (s t : World σ) : Prop := Only p s t ∧ t.own.reader = s.own.reader

theorem sameReader_spans (agent : Agent σ) {p : Kind → Prop} (hlogs : ∀ k ∈ .logging :: Admits.logKinds, p k)
    (hno : ¬p .terminal) :
    Spans agent (SameReader (σ := σ) p) p := by
  have h : Admits (SameReader (σ := σ) p) p :=
    only_admits_keeping p (fun d => d.reader) (fun _ _ _ => rfl) fun hterminal => absurd hterminal hno
  have hsame : ∀ {s t : World σ}, t.trace = s.trace → t.own.reader = s.own.reader → SameReader p s t :=
    fun htrace hreader => ⟨.nothing htrace, hreader⟩
  exact {
    toAllows := h.allows (fun _ _ => hsame rfl rfl) (fun _ _ => hsame rfl rfl) (fun _ _ => hsame rfl rfl) hlogs
    flag := fun _ _ => hsame rfl rfl
    relink := fun _ _ _ _ _ => hsame rfl rfl
    overhear := h.overhear (fun _ _ => hsame rfl rfl) (hlogs _ (by decide)) }

variable (commands r) in
/-- The session converses, and its reader is the one that its record leaves. -/
def Chatting (s : World σ) : Prop := s.own.reader = readerOf r s.trace ∧ Conversing commands r s.trace

variable (commands r) in
def Conversed (s : World σ) : Prop := Conversation commands r s.trace

theorem Chatting.keep {s u : World σ} (h : Chatting commands r s) (hsu : SameReader (· ∉ turnKinds) s u) :
    Chatting commands r u := by
  obtain ⟨⟨es, htrace, hes⟩, hreader⟩ := hsu
  have hunheard : ∀ e ∈ es, Event.kind e ≠ .received := fun e he heq => hes e he (by simp [heq, turnKinds])
  rw [Chatting, htrace, hreader, (append_unreceived hunheard).1]
  exact ⟨h.1, h.2.turn hes⟩

theorem chatting_spec {α : Type} {m : Run σ α} (hm : Keeps (SameReader (· ∉ turnKinds)) m) :
    Spec (Chatting commands r) m (Ends (fun _ => Chatting commands r) (Conversed commands r) (Conversed commands r)) :=
  (Spec.of_keeps hm fun _ _ hs hsu => hs.keep hsu).mono (fun _ _ hs => hs) (fun _ hs => hs.2.toConversation) fun _ hs =>
    hs.2.toConversation

/-! ### A frame that types nothing -/

/-- What may come of such a frame. -/
def Kind.isOther (k : Kind) : Prop := k ≠ .received ∧ k ≠ .ran

instance (k : Kind) : Decidable k.isOther := inferInstanceAs (Decidable (_ ∧ _))

omit [Serde] in
theorem sameReader_steps : Steps (SameReader (σ := σ) Kind.isOther) :=
  ⟨fun _ => ⟨.nothing rfl, rfl⟩, fun hst htu => ⟨(only_admits _).steps.trans hst.1 htu.1, htu.2.trans hst.2⟩⟩

variable (commands r) in
/-- The latest reception types nothing, and has been taken notice of. -/
def Elsewhere (s : World σ) : Prop := Chatting commands r s ∧ Untyped s.trace

theorem Elsewhere.keep {s u : World σ} (h : Elsewhere commands r s) (hsu : SameReader Kind.isOther s u) :
    Elsewhere commands r u := by
  obtain ⟨⟨es, htrace, hes⟩, hreader⟩ := hsu
  rw [Elsewhere, Chatting, htrace, hreader, (append_unreceived fun e he => (hes e he).1).1]
  obtain ⟨hchatting, huntyped⟩ := h.1.2.other h.2 hes
  exact ⟨⟨h.1.1, hchatting⟩, huntyped⟩

/-- Where a frame leads, when it has been acted on. -/
abbrev Speaks (commands : List (Command σ)) (r : LineReader) :
    Outcome Error (Turn Session (Option Stopped)) → World σ → Prop :=
  Ends (Turn.Post (fun _ => Chatting commands r) fun _ => Conversed commands r) (Conversed commands r)
    (Conversed commands r)

theorem elsewhere_speaks {m : Run σ (Turn Session (Option Stopped))} (hm : Keeps (SameReader Kind.isOther) m) :
    Spec (Elsewhere commands r) m (Speaks commands r) := by
  refine (Spec.of_keeps hm fun _ _ hs hsu => hs.keep hsu).mono (fun d s hs => ?_) (fun _ hs => hs.1.2.toConversation)
    fun _ hs => hs.1.2.toConversation
  cases d with
  | next a => exact hs.1
  | done stopped => exact hs.1.2.toConversation

theorem sendConsole_other (text : String) : Keeps (SameReader Kind.isOther) (Link.sendConsole agent text) := by
  have h := sameReader_steps (σ := σ)
  refine Keeps.ite (Keeps.pure h _) (Keeps.bind h (keeps_update fun s => ⟨.nothing rfl, rfl⟩) fun ref => ?_)
  refine Keeps.bind h (Keeps.gets h _) fun l => Keeps.bind h (Keeps.gets h _) fun l' => keeps_tryCall fun s env sent => ?_
  refine ⟨⟨[_], rfl, fun e he => ?_⟩, rfl⟩
  rw [List.mem_singleton.mp he]
  have hkind : ∀ v, (⟨l.consoleJoinRef, some ref, consoleTopic, event.up, v⟩ : Envelope).kind = .terminal := fun v => rfl
  simp [Event.kind, hkind, Kind.isOther]

theorem handle_console {frame : Frame} {m : Message} (hdecode : Message.decodeFrame frame = .ok m)
    (htopic : m.topic = consoleTopic) :
    Link.handle agent frame = Link.handleConsoleFrame agent m := by
  have hext : ¬consoleTopic = extensionsTopic := by decide
  simp only [Link.handle, hdecode, Link.handleMessage, htopic, if_neg hext, if_true]

theorem handleConsoleFrame_other (m : Message) : Keeps (SameReader Kind.isOther) (Link.handleConsoleFrame agent m) := by
  have h := sameReader_steps (σ := σ)
  have hsend : ∀ text, Keeps (SameReader Kind.isOther) (Link.sendConsole agent text >>= fun _ =>
      pure Action.none) := fun text =>
    Keeps.bind h (sendConsole_other text) fun _ => Keeps.pure h _
  refine Keeps.bind h (Keeps.gets h _) fun l => Keeps.ite (Keeps.ite (hsend _) (Keeps.pure h _)) (Keeps.ite ?_ ?_)
  · split
    · exact Keeps.pure h _
    · exact Keeps.pure h _
  · exact Keeps.ite (Keeps.pure h _) (Keeps.ite (hsend _) (Keeps.pure h _))

theorem handleConsoleFrame_returns {m : Message} (htopic : m.topic = consoleTopic) (htyped : m.typed = none)
    (hrestart : m.event ≠ event.restart) : Returns (· = .none) (Link.handleConsoleFrame agent m) := by
  refine Returns.bind fun l => Returns.ite (Returns.ite (Returns.bind fun _ => Returns.pure rfl) (Returns.pure rfl)) ?_
  by_cases hdown : m.event = event.down
  · rw [Message.typed, if_pos ⟨htopic, hdown⟩] at htyped
    rw [if_pos hdown, htyped]
    exact Returns.pure rfl
  · rw [if_neg hdown, if_neg hrestart]
    exact Returns.ite (Returns.bind fun _ => Returns.pure rfl) (Returns.pure rfl)

variable [Sha256]

theorem hear_elsewhere {frame : Frame} {m : Message} (hdecode : Message.decodeFrame frame = .ok m)
    (htopic : m.topic ≠ consoleTopic)
    (a : Session) : Spec (Elsewhere commands r) (hearFrame agent a frame) (Speaks commands r) := by
  let p (k : Kind) : Prop := k.isOther ∧ k ≠ .terminal
  have hspans : Spans agent (SameReader (σ := σ) p) p := sameReader_spans agent (by decide) fun h => h.2 rfl
  have hkinds : ∀ k ∈ Roams.messageKinds m ++ Roams.answerKinds m, p k := by
    unfold Roams.messageKinds Roams.answerKinds
    simp only [if_neg htopic]
    repeat' split
    all_goals decide
  have hreact : Keeps (SameReader (σ := σ) p) (hearFrame agent a frame) := hspans.react frame (fun m' hm' => by
    rw [hdecode] at hm'
    cases hm'
    exact hkinds) a
  refine elsewhere_speaks (hreact.mono ?_)
  rintro s t ⟨⟨es, htrace, hes⟩, hreader⟩
  exact ⟨⟨es, htrace, fun e he => (hes e he).1⟩, hreader⟩

theorem hear_quiet {frame : Frame} {m : Message} (hdecode : Message.decodeFrame frame = .ok m)
    (htopic : m.topic = consoleTopic) (htyped : m.typed = none) (hrestart : m.event ≠ event.restart) (a : Session) :
    Spec (Elsewhere commands r) (hearFrame agent a frame) (Speaks commands r) := by
  have h := sameReader_steps (σ := σ)
  have hhandle : Keeps (SameReader Kind.isOther) (Link.handle agent frame) := by
    rw [handle_console hdecode htopic]
    exact handleConsoleFrame_other m
  have hreturns : Returns (· = .none) (Link.handle agent frame) := by
    rw [handle_console hdecode htopic]
    exact handleConsoleFrame_returns htopic htyped hrestart
  refine elsewhere_speaks (Keeps.bind_returns h hhandle.attempt hreturns.attempt fun x hx => ?_)
  cases x with
  | error err => exact Keeps.pure h _
  | ok action =>
    obtain rfl := hx action rfl
    exact Keeps.pure h _

theorem hear_restart {commands' : List (Command σ)} (hconsole : agent.console = some commands')
    {frame : Frame} {m : Message}
    (hdecode : Message.decodeFrame frame = .ok m) (htopic : m.topic = consoleTopic) (hrestart : m.event = event.restart)
    (a : Session) :
    Spec (fun s => Conversing commands r s.trace ∧ Untyped s.trace ∧ readerOf r s.trace = .new) (hearFrame agent a frame)
      (Speaks commands r) := by
  rintro s ⟨hconversing, huntyped, hnew⟩
  have hreply : ¬event.restart = event.reply := by decide
  have hdown : ¬event.restart = event.down := by decide
  have hhandled : attempt (Link.handle agent frame) s = (.ret (.ok .consoleRestart), s) := by
    rw [handle_console hdecode htopic]
    simp only [attempt, Link.handleConsoleFrame, hrestart, if_neg hreply, if_neg hdown, if_true]
    rfl
  rw [hearFrame, bind_ret hhandled]
  have hperform : Spec (fun s => Conversing commands r s.trace ∧ Untyped s.trace ∧ readerOf r s.trace = .new)
      (perform agent a .consoleRestart) (Speaks commands r) := by
    refine Spec.bind (R := fun _ => Elsewhere commands r) ?_ fun _ => elsewhere_speaks ?_
    · rw [hconsole]
      rintro t ⟨hconversing, huntyped, hnew⟩
      exact ⟨⟨hnew.symm, hconversing⟩, huntyped⟩
    · have h := sameReader_steps (σ := σ)
      exact Keeps.bind h (sendConsole_other _) fun _ => Keeps.pure h _
  exact hperform s ⟨hconversing, huntyped, hnew⟩

/-! ### A frame that types -/

theorem hear_stops (frame : Frame) (a : Session) :
    Spec (fun _ => True) (hearFrame agent a frame) (Post TurnStops fun _ => True) := by
  refine Spec.last fun x => ?_
  cases x with
  | error err => exact Spec.ret fun s _ => stoppedBy_none s
  | ok action => exact perform_stops a action

theorem hear_types (hsend : SendsSucceed agent) (hconsole : agent.console = some commands) {frame : Frame} {m : Message}
    {data : String} (hdecode : Message.decodeFrame frame = .ok m) (htyped : m.typed = some data) (a : Session) :
    Spec (fun s => ∃ older, s.trace = .received (.ok (some frame)) :: older ∧ s.own.reader = readerOf r older ∧
      Conversing commands r older)
      (hearFrame agent a frame) (Speaks commands r) := by
  rintro s ⟨older, htrace, hreader, hconversing⟩
  have hdown : m.topic = consoleTopic ∧ m.event = event.down := by
    by_contra hne
    rw [Message.typed, if_neg hne] at htyped
    cases htyped
  have htypes : Types frame data := ⟨m, hdecode, hdown.1, hdown.2, by rwa [Message.typed, if_pos hdown] at htyped⟩
  have hheardIs : heard (.ok (some frame)) = some m := by rw [heard, hdecode]; rfl
  have htypedIn : typedIn (.ok (some frame)) = some data := by rw [typedIn, hheardIs, Option.bind_some, htyped]
  have hlines : completed r (.ok (some frame)) older = (s.own.reader.feed data).1.2 := by rw [completed, htypedIn, hreader]
  obtain ⟨replies, t, hheard, hafter, hseen, hreplies⟩ := hearFrame_replies hsend hconsole htypes a s
  obtain ⟨es, hes, hunheard⟩ : Only (· ≠ .received) s t := by
    have hreact : Keeps (Only (σ := σ) (· ≠ .received)) (hearFrame agent a frame) :=
      (only_spans agent (by decide)).react frame (fun m' _ => by
        unfold Roams.messageKinds Roams.answerKinds
        repeat' split
        all_goals decide) a
    have hs := hreact s
    rwa [hheard] at hs
  have hnew : seen es = replies.flatMap (Reply.seen commands) := by
    rw [hes, seen_append] at hseen
    exact List.append_cancel_left hseen
  have hstops : (s.own.reader.feed data).1.2.any isReboot = true → ∃ rest, t.trace = .restarted :: rest := by
    intro hreboot
    have hstopped : Post TurnStops (fun _ => True) (hearFrame agent a frame s).1 (hearFrame agent a frame s).2 :=
      hear_stops frame a s trivial
    rw [hheard, if_pos hreboot] at hstopped
    exact (hstopped .rebooting rfl).2
  have hconversed : Conversation commands r t.trace := by
    rw [hes, htrace] at hstops ⊢
    exact hconversing.type hunheard hnew (hlines ▸ hreplies) fun hreboot => hstops (hlines ▸ hreboot)
  rw [hheard]
  cases hreboot : (s.own.reader.feed data).1.2.any isReboot with
  | true => exact hconversed
  | false =>
    obtain ⟨hreaders, hall, -⟩ := append_unreceived (r := r) (t := .received (.ok (some frame)) :: older) hunheard
    rw [← htrace, ← hes] at hreaders hall
    refine ⟨?_, hconversed, ?_⟩
    · have hover : m.startsOver = false := by
        rw [Message.startsOver, hdown.2]
        exact Bool.and_false _
      rw [hreaders, hafter, hreader, htrace, readerOf, hheardIs, Option.any_some, hover,
        if_neg Bool.false_ne_true, htypedIn]
    · rw [hall, htrace, linesTyped, List.any_append, hconversing.calm, hlines, hreboot]
      rfl

/-! ### A session -/

theorem listen_speaks (hsend : SendsSucceed agent) (hconsole : agent.console = some commands) (a : Session) :
    Spec (Chatting commands r) (listen agent a) (Speaks commands r) := by
  let Received (x : Except Error (Option Frame)) (s : World σ) : Prop :=
    ∃ older, s.trace = .received x :: older ∧ s.own.reader = readerOf r older ∧ Conversing commands r older
  have helsewhere : ∀ x s, Received x s → typedIn x = none → (heard x).any Message.startsOver = false →
      Elsewhere commands r s := by
    rintro x s ⟨older, htrace, hreader, hconversing⟩ htyped hover
    rw [Elsewhere, Chatting, htrace, hreader, readerOf, hover, if_neg Bool.false_ne_true, htyped]
    obtain ⟨hreceived, huntyped⟩ := hconversing.receive htyped
    exact ⟨⟨rfl, hreceived⟩, huntyped⟩
  rw [listen_hears]
  refine Spec.bind (R := Received) (spec_attempt_tryCall fun s env x hs => ⟨s.trace, rfl, hs.1, hs.2⟩) fun x => ?_
  rcases x with err | _ | frame
  · exact Spec.ret fun s hs => (helsewhere _ s hs rfl rfl).1.2.toConversation
  · exact Spec.ret fun s hs => (helsewhere _ s hs rfl rfl).1
  cases hdecode : Message.decodeFrame frame with
  | error text =>
    have hnothing : heard (.ok (some frame)) = none := by rw [heard, hdecode]; rfl
    have hhear : hearFrame agent a frame = pure (.done none) := by
      rw [hearFrame, Link.handle, hdecode]
      rfl
    show Spec _ (hearFrame agent a frame) _
    rw [hhear]
    exact Spec.ret fun s hs => (helsewhere _ s hs (by rw [typedIn, hnothing]; rfl)
      (by rw [hnothing]; rfl)).1.2.toConversation
  | ok m =>
    have hheard : heard (.ok (some frame)) = some m := by rw [heard, hdecode]; rfl
    have htypedIn : typedIn (.ok (some frame)) = m.typed := by rw [typedIn, hheard, Option.bind_some]
    cases htyped : m.typed with
    | some data => exact hear_types hsend hconsole hdecode htyped a
    | none =>
      rw [htyped] at htypedIn
      by_cases hrestart : m.topic = consoleTopic ∧ m.event = event.restart
      · refine (hear_restart hconsole hdecode hrestart.1 hrestart.2 a).pre ?_
        rintro s ⟨older, htrace, -, hconversing⟩
        have hover : m.startsOver = true := by simp [Message.startsOver, hrestart]
        obtain ⟨hreceived, huntyped⟩ := hconversing.receive htypedIn
        rw [htrace]
        refine ⟨hreceived, huntyped, ?_⟩
        rw [readerOf, hheard, Option.any_some, hover, if_pos rfl]
      · have hover : m.startsOver = false := by simpa [Message.startsOver] using hrestart
        have hpre : ∀ s, Received (.ok (some frame)) s → Elsewhere commands r s := fun s hs =>
          helsewhere _ s hs htypedIn (by rw [hheard, Option.any_some, hover])
        by_cases htopic : m.topic = consoleTopic
        · exact (hear_quiet hdecode htopic htyped (fun hevent => hrestart ⟨htopic, hevent⟩) a).pre hpre
        · exact (hear_elsewhere hdecode htopic a).pre hpre

/-- In a session that may send, what is typed is answered frame by frame, whatever else the session does in between. -/
theorem session_converses (hsend : SendsSucceed agent) (hconsole : agent.console = some commands)
    (window : Option SessionWindow) (control : Option (σ → Control × σ)) (env : σ) (own : Device) (gas : Nat) :
    Conversation commands own.reader (sessionWithin agent window control ⟨env, own, [], gas⟩).2.trace := by
  have h : Spans agent (SameReader (σ := σ) (· ∉ turnKinds)) (· ∉ turnKinds) :=
    sameReader_spans agent (by decide) fun hno => hno (by decide)
  have hbegins : Conversing commands own.reader [] :=
    ⟨⟨throughout_nil, fun x older hx => (by cases hx), rfl, fun hreboot => (by cases hreboot)⟩, rfl⟩
  have hsession : Spec (Chatting commands own.reader) (sessionWithin agent window control)
      (Ends (fun _ => Conversed commands own.reader) (Conversed commands own.reader) (Conversed commands own.reader)) := by
    refine Spans.session_rule (I := fun _ _ => Chatting commands own.reader)
      (M := fun _ _ _ => Chatting commands own.reader)
      (fun _ _ _ _ hs => hs) (fun _ _ _ hs => hs.2.toConversation) ?_ (fun started a => ?_) (fun started now a => ⟨?_, ?_⟩)
      fun started now a => listen_speaks hsend hconsole a
    · exact chatting_spec (h.openSession (by decide) fun s => ⟨.nothing rfl, rfl⟩)
    · exact chatting_spec (h.attend (by decide) (h.joinConsole (by decide) fun s ref => ⟨.nothing rfl, rfl⟩) a)
    · refine (chatting_spec (h.askControl (by decide) control)).mono (fun leave s hs => ?_) (fun _ hs => hs) fun _ hs => hs
      cases leave with
      | true => exact hs.2.toConversation
      | false => exact hs
    · refine (chatting_spec (h.windowEnds h.overhear window started now a)).mono (fun ends s hs => ?_)
        (fun _ hs => hs) fun _ hs => hs
      cases ends with
      | true => exact hs.2.toConversation
      | false => exact hs
  have hstart : Chatting commands own.reader (⟨env, own, [], gas⟩ : World σ) := ⟨rfl, hbegins⟩
  exact Spec.state hsession hstart

end

section
attribute [local instance] dialogSerde sha256OfByte

/-- `ping` in two frames of a session, after which the socket is closed. -/
example : linesTyped .new (session pingAgent ⟨{ pingWorld.env with incoming :=
      [some (.text "first half"), none, some (.text "second half")] }, pingWorld.own, [], 5⟩).2.trace = ["ping"] := by
  decide +kernel

end

end NervesHub
