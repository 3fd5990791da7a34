import NervesHubLink.Theorems.OptIn
import NervesHubLink.Theorems.Rounds

/-! The replies that the link takes for the answers to its joins, in any order of its operations. -/

namespace NervesHub
open Act Prog

inductive LinkOp where
  | wantConsole
  | setDownloading (uuid : Option String)
  | join (boot : BootReport)
  | heartbeat
  | progress (stage : Stage) (percent : Nat)
  | firmwareValidated
  | status (status : String) (extra : Value)
  | rebooting
  | consoleJoin
  | console (text : String)
  | extensionsJoin
  | extension (outgoing : List Outgoing)
  | log (line : LogLine)
  | logs (lines : List LogLine)
  | handle (frame : Frame)

section
variable {σ : Type} [Serde] (agent : Agent σ)

def LinkOp.perform : LinkOp → Run σ Unit
  | .wantConsole => modifyLink Link.wantConsole
  | .setDownloading uuid => Link.setDownloading uuid
  | .join boot => Link.sendJoin agent boot
  | .heartbeat => Link.sendHeartbeat agent
  | .progress stage percent => Link.sendProgress agent stage percent
  | .firmwareValidated => Link.sendFirmwareValidated agent
  | .status text extra => Link.sendStatus agent text extra
  | .rebooting => Link.sendRebooting agent
  | .consoleJoin => Link.sendConsoleJoin agent
  | .console text => Link.sendConsole agent text
  | .extensionsJoin => Link.sendExtensionsJoin agent
  | .extension outgoing => Link.sendExtension agent outgoing
  | .log line => Link.sendLog agent line
  | .logs lines => Link.sendLogs agent lines
  | .handle frame => do
    let _ ← Link.handle agent frame
    pure ()

/-- The state after an operation, whether or not it failed. -/
def LinkOp.after (op : LinkOp) (s : World σ) : World σ := (op.perform agent s).2

/-- Each operation of a sequence is done where `P` holds of it. -/
def EveryStep (P : LinkOp → World σ → Prop) : List LinkOp → World σ → Prop
  | [], _ => True
  | op :: rest, s => P op s ∧ EveryStep P rest (op.after agent s)

/-! ### What a step may make of the joins -/

omit [Serde] in
/-- A join of the kind was sent as `ref`. -/
def JoinSent (kd : Kind) (ref : String) (t : List Event) : Prop :=
  ∃ m r, Event.sent m r ∈ t ∧ m.kind = kd ∧ m.reference = some ref

/-- The operation handles a reply on the topic, with the status `ok`, to a join that was sent on it. -/
def AnswersJoin (topic : String) (kd : Kind) (op : LinkOp) (t : List Event) : Prop :=
  ∃ frame m ref, op = .handle frame ∧ Message.decodeFrame frame = .ok m ∧ m.topic = topic ∧ m.isOkReplyTo ref = true ∧
    JoinSent kd ref t

/-- A frame that puts the prompt on the terminal. -/
def Envelope.isPrompt (m : Envelope) : Prop := m.topic = consoleTopic ∧ m.payload = .value (.obj [("data", .string prompt)])

/-- The prompt is among the events that are new. -/
def Prompted (old new : List Event) : Prop := ∃ es m r, new = es ++ old ∧ Event.sent m r ∈ es ∧ m.isPrompt

/-- The link becomes joined, gets attachments and opens its terminal only as replies to its joins tell it to. -/
structure Permitted (op : LinkOp) (s : World σ) : Prop where
  device : s.own.link.joined = false → (op.after agent s).own.link.joined = true →
    AnswersJoin deviceTopic .deviceJoin op s.trace
  extensions : (s.own.link.extensions.joined = false ∧ (op.after agent s).own.link.extensions.joined = true ∨
    ∃ key ∈ (op.after agent s).own.link.extensions.attached, key ∉ s.own.link.extensions.attached) →
    AnswersJoin extensionsTopic .extensionsJoin op s.trace
  console : (∃ frame, op = .handle frame) → Prompted s.trace (op.after agent s).trace →
    AnswersJoin consoleTopic .consoleJoin op s.trace

/-! ### When that is so -/

omit [Serde] in
/-- A reply with a ref and the status `ok`. -/
def Message.accepted (m : Message) : Prop := ∃ ref, m.isOkReplyTo ref = true

omit [Serde] in
/-- The message is taken for the reply to the terminal's join sent as `ref`. -/
def Message.answersConsole (m : Message) (ref : Option String) : Prop :=
  m.topic = consoleTopic ∧ m.event = event.reply ∧ ref = m.reference

/-- A message that would change what is joined, attached or said is a reply that may. -/
structure Message.Sound (m : Message) (c : Core) : Prop where
  device : c.joined = false → m.accepts c.joinRef = true → m.topic = deviceTopic
  extensions : m.answersExtensions c.extensionsJoinRef = true →
    (c.extensions.joined = false ∨ ∃ key ∈ m.listed, key ∉ c.extensions.attached) → m.accepted
  console : m.answersConsole c.consoleJoinRef → m.accepted

def SoundReply (op : LinkOp) (s : World σ) : Prop :=
  ∀ frame m, op = .handle frame → Message.decodeFrame frame = .ok m → m.Sound s.own.link.core

/-! ### What is of no concern to the joins -/

/-- The core is what it was, and no prompt is sent. -/
def Calm (s t : World σ) : Prop :=
  t.own.link.core = s.own.link.core ∧ ∃ es, t.trace = es ++ s.trace ∧ ∀ m r, Event.sent m r ∈ es → ¬m.isPrompt

def Kind.isCalm (k : Kind) : Prop := k ≠ .terminal ∧ k ≠ .consoleJoin

instance (k : Kind) : Decidable k.isCalm := inferInstanceAs (Decidable (_ ∧ _))

omit [Serde] in
theorem calm_admits : Admits (Calm (σ := σ)) Kind.isCalm where
  steps := by
    refine ⟨fun s => ⟨rfl, [], rfl, fun m r h => by cases h⟩, fun {s t u} ⟨hst, es, hes, hno⟩ ⟨htu, es', hes', hno'⟩ => ?_⟩
    refine ⟨htu.trans hst, es' ++ es, by rw [hes', hes, List.append_assoc], fun m r h => ?_⟩
    rcases List.mem_append.mp h with h | h
    · exact hno' m r h
    · exact hno m r h
  gas s g := ⟨rfl, [], rfl, fun m r h => by cases h⟩
  calls s env es hes := by
    refine ⟨rfl, es, rfl, fun m r h hprompt => ?_⟩
    rcases Envelope.kind_onConsole hprompt.1 with hk | hk
    · exact (hes _ h).2 hk
    · exact (hes _ h).1 hk
  aside s _ _ := ⟨rfl, [], rfl, fun m r h => by cases h⟩
  reader _ s _ := ⟨rfl, [], rfl, fun m r h => by cases h⟩

/-! ### What handling a message does -/

/-- The core is `c` and the record is `t`. -/
def Here (c : Core) (t : List Event) (s : World σ) : Prop := s.own.link.core = c ∧ s.trace = t

/-- The core is `c`, and what was recorded after `t` has a prompt exactly if `p` says so. -/
def Then (c : Core) (p : Prop) (t : List Event) (s : World σ) : Prop :=
  s.own.link.core = c ∧ ∃ es, s.trace = es ++ t ∧ ((∃ m r, Event.sent m r ∈ es ∧ m.isPrompt) ↔ p)

variable {agent} {c : Core} {t : List Event} {p : Prop} {m : Message} {α : Type}

omit [Serde] in
theorem Here.then (h : Here c t s) (hp : ¬p) : Then c p t s :=
  ⟨h.1, [], h.2, iff_of_false (by simp) hp⟩

omit [Serde] in
theorem Calm.then {s u : World σ} (h : Calm s u) (hs : Here c t s) (hp : ¬p) : Then c p t u := by
  obtain ⟨hcore, es, hes, hno⟩ := h
  refine ⟨hcore.trans hs.1, es, by rw [hes, hs.2], iff_of_false ?_ hp⟩
  rintro ⟨m, r, hmem, hm⟩
  exact hno m r hmem hm

omit [Serde] in
theorem calm_then {n : Run σ α} (hn : Keeps Calm n) (hp : ¬p) :
    Spec (Here c t) n (Post (fun _ => Then c p t) (Then c p t)) :=
  Spec.of_state fun s hs => (hn s).then hs hp

/-- The frame was recorded after `t`, and the core is `c`. -/
def Wrote (c : Core) (m : Envelope) (t : List Event) (s : World σ) : Prop :=
  s.own.link.core = c ∧ ∃ r, s.trace = .sent m r :: t

theorem write_wrote (m : Envelope) : Spec (Here c t) (Link.write agent m) (Post (fun _ => Wrote c m t) (Wrote c m t)) := by
  refine Spec.bind (R := fun _ => Here c t) (fun s hs => hs) fun l => ?_
  exact spec_tryCall (fun s env u hs => ⟨hs.1, .ok u, congrArg (List.cons _) hs.2⟩) fun s env e hs =>
    ⟨hs.1, .error e, congrArg (List.cons _) hs.2⟩

theorem write_then {m : Envelope} (hp : m.isPrompt ↔ p) :
    Spec (Here c t) (Link.write agent m) (Post (fun _ => Then c p t) (Then c p t)) := by
  have hsent : ∀ s : World σ, Wrote c m t s → Then c p t s := by
    rintro s ⟨hcore, r, htrace⟩
    exact ⟨hcore, [.sent m r], htrace, by simp [hp]⟩
  exact (write_wrote m).mono (fun _ => hsent) hsent hsent

theorem sendConsole_then {text : String} (htext : text.isEmpty = false) (hp : text = prompt ↔ p) :
    Spec (Here c t) (Link.sendConsole agent text) (Post (fun _ => Then c p t) (Then c p t)) := by
  unfold Link.sendConsole
  rw [if_neg (by simp [htext])]
  refine Spec.bind (R := fun _ => Here c t) (fun s hs => hs) fun reference => ?_
  refine Spec.bind (R := fun _ => Here c t) (fun s hs => hs) fun l => write_then ?_
  rw [← hp]
  refine ⟨fun h => ?_, fun h => ⟨rfl, by rw [h]⟩⟩
  have hget : ∀ s : String, (Value.obj [("data", .string s)]).get "data" = some (.string s) := fun s =>
    (Value.get_obj (by simp)).mpr List.mem_cons_self
  have hsame : (Value.obj [("data", .string text)]).get "data" = (Value.obj [("data", .string prompt)]).get "data" := by
    rw [Payload.value.inj h.2]
  rw [hget, hget] at hsame
  exact Value.string.inj (Option.some.inj hsame)

theorem extensionFrame_then (htopic : m.topic = extensionsTopic) (hp : ¬p) :
    Spec (Here c t) (Link.handleExtensionFrame agent m) (Post (fun _ => Then (c.hear m) p t) (Then (c.hear m) p t)) := by
  have hhear : c.hear m = if m.answersExtensions c.extensionsJoinRef then
      { c with extensions := { c.extensions with joined := true, attached := m.listed } } else c := if_pos htopic
  have hstay : ∀ {n : Run σ Action}, m.answersExtensions c.extensionsJoinRef = false → Keeps Calm n →
      Spec (Here c t) n (Post (fun _ => Then (c.hear m) p t) (Then (c.hear m) p t)) := by
    intro n hno hn
    rw [hhear, hno]
    exact calm_then hn hp
  have h := calm_admits (σ := σ)
  rintro s hs
  have href : s.own.link.extensionsJoinRef = c.extensionsJoinRef := congrArg Core.extensionsJoinRef hs.1
  refine Spec.ite (P := Here c t) (fun hreply => Spec.ite (fun heq => ?_) fun hne => ?_) (fun hreply => ?_) s hs
  · have hyes : m.answersExtensions c.extensionsJoinRef = true := by
      simp [Message.answersExtensions, htopic, hreply, ← href, heq]
    rw [hhear, hyes, if_pos rfl]
    let c' : Core := { c with extensions := { c.extensions with joined := true, attached := m.listed } }
    refine Spec.bind (R := fun confirmations s => Here c' t s ∧ ∀ ev payload, .send ev payload ∈ confirmations →
      extensionKind ev = .extension) (fun s hs => ⟨⟨?_, hs.2⟩, ?_⟩) fun confirmations => ?_
    · simp only [c', ← hs.1]
      rfl
    · intro ev payload hmem
      obtain ⟨key, -, heq⟩ := List.mem_map.mp hmem
      cases heq
      exact extensionKind_attached key
    · rintro s ⟨hs, hconf⟩
      refine calm_then (Keeps.bind h.steps (h.sendExtension _ fun ev payload hmem => ?_) fun _ =>
        Keeps.pure h.steps _) hp s hs
      rw [hconf ev payload hmem]
      decide
  · exact hstay (by simp [Message.answersExtensions, ← href, hne]) (Keeps.pure h.steps _)
  · refine hstay (by simp [Message.answersExtensions, hreply]) ?_
    split <;> exact Keeps.pure h.steps _

theorem consoleFrame_then (htopic : m.topic = consoleTopic) : Spec (Here c t) (Link.handleConsoleFrame agent m)
    (Post (fun _ => Then (c.hear m) (m.answersConsole c.consoleJoinRef) t)
      (Then (c.hear m) (m.answersConsole c.consoleJoinRef) t)) := by
  have hhear : c.hear m = c := by
    rw [Core.hear, if_neg (by rw [htopic]; decide), if_pos (by simp [Message.onDevice, htopic])]
  rw [hhear]
  have hsay : ∀ text, text.isEmpty = false → (text = prompt ↔ m.answersConsole c.consoleJoinRef) →
      Spec (Here c t) (Link.sendConsole agent text >>= fun _ => pure Action.none)
        (Post (fun _ => Then c (m.answersConsole c.consoleJoinRef) t) (Then c (m.answersConsole c.consoleJoinRef) t)) :=
    fun text htext hp => Spec.bind (sendConsole_then htext hp) fun _ => Spec.ret fun s hs => hs
  rintro s hs
  have href : s.own.link.consoleJoinRef = c.consoleJoinRef := congrArg Core.consoleJoinRef hs.1
  refine Spec.ite (P := Here c t) (fun hreply => Spec.ite (fun heq => ?_) fun hne => ?_) (fun hreply => ?_) s hs
  · exact hsay _ (by decide) (iff_of_true rfl ⟨htopic, hreply, href.symm.trans heq⟩)
  · exact Spec.ret fun s hs => hs.then fun h => hne (href.trans h.2.2)
  have hno : ¬m.answersConsole c.consoleJoinRef := fun h => hreply h.2.1
  refine Spec.ite (fun _ => ?_) fun _ => Spec.ite (fun _ => Spec.ret fun s hs => hs.then hno) fun _ =>
    Spec.ite (fun _ => ?_) fun _ => ?_
  · split <;> exact Spec.ret fun s hs => hs.then hno
  · exact hsay _ (by decide) (iff_of_false (by decide) hno)
  · exact Spec.ret fun s hs => hs.then hno

theorem calm_decide (v : Value) :
    Keeps Calm (ofExcept (UpdatePayload.parse v) >>= fun payload => Link.decide agent payload) := by
  have h := calm_admits (σ := σ)
  refine Keeps.bind h.steps (Keeps.ofExcept h.steps _) fun payload => Keeps.ite (Keeps.pure h.steps _) ?_
  have hdecided : Kind.isCalm .decided := by decide
  refine Keeps.bind h.steps (h.callOne fun _ => hdecided) fun decision => ?_
  cases decision with
  | apply => exact Keeps.pure h.steps _
  | ignore reason => exact Keeps.bind h.steps (h.sendStatus (by decide) _ _) fun _ => Keeps.pure h.steps _
  | reschedule delayMs reason => exact Keeps.bind h.steps (h.sendStatus (by decide) _ _) fun _ => Keeps.pure h.steps _

theorem reply_then (hm : m.onDevice = true) (hreply : m.event = event.reply) (hp : ¬p) :
    Spec (Here c t) (Link.handleReply agent m) (Post (fun _ => Then (c.hear m) p t) (Then (c.hear m) p t)) := by
  have hhear : c.hear m = if m.accepts c.joinRef then { c with joined := true } else c := by
    rw [Core.hear_device hm, if_pos hreply]
  rintro s hs
  have href : s.own.link.joinRef = c.joinRef := congrArg Core.joinRef hs.1
  refine Spec.ite (P := Here c t) (fun hother => ?_) (fun hours => Spec.ite (fun hbad => ?_) fun hok => ?_) s hs
  · have hno : m.accepts c.joinRef = false := by
      cases hjoin : c.joinRef with
      | none => simp [Message.accepts]
      | some ref =>
        rw [href, hjoin] at hother
        simp [Message.accepts, Message.isOkReplyTo, Ne.symm hother]
    rw [hhear, hno]
    exact Spec.ret fun s hs => hs.then hp
  · have hno : m.accepts c.joinRef = false := by
      cases hjoin : c.joinRef with
      | none => simp [Message.accepts]
      | some ref =>
        rw [href, hjoin] at hbad
        simpa [Message.accepts] using fun _ => hbad
    rw [hhear, hno]
    exact Spec.fail fun s hs => hs.then hp
  · have hyes : m.accepts c.joinRef = true := by
      rw [not_not] at hours
      cases hjoin : c.joinRef with
      | none => simp [Message.isOkReplyTo, ← hours, href, hjoin] at hok
      | some ref =>
        rw [href, hjoin] at hok
        simpa [Message.accepts, hm] using hok
    rw [hhear, hyes, if_pos rfl]
    refine Spec.bind (R := fun _ => Here { c with joined := true } t) (fun s hs => ⟨?_, hs.2⟩) fun _ => ?_
    · rw [← hs.1]
      rfl
    · cases m.replyResponse with
      | none => exact Spec.ret fun s hs => hs.then hp
      | some response => exact calm_then (calm_decide response) hp

theorem deviceFrame_then (hm : m.onDevice = true) (hp : ¬p) :
    Spec (Here c t) (Link.handleDeviceFrame agent m) (Post (fun _ => Then (c.hear m) p t) (Then (c.hear m) p t)) := by
  refine Spec.ite (fun hreply => reply_then hm hreply hp) fun hreply => ?_
  rw [Core.hear_device hm, if_neg hreply]
  refine Spec.ite (fun hupdate => ?_) fun hupdate => ?_
  · rw [hupdate, if_neg (by decide), if_neg (by decide)]
    exact calm_then (calm_decide _) hp
  refine Spec.ite (fun hreboot => ?_) fun _ => Spec.ite (fun hidentify => ?_) fun _ =>
    Spec.ite (fun hget => ?_) fun hget => ?_
  · rw [hreboot, if_neg (by decide), if_neg (by decide)]
    exact Spec.ret fun s hs => hs.then hp
  · rw [hidentify, if_neg (by decide), if_neg (by decide)]
    exact Spec.ret fun s hs => hs.then hp
  · rw [if_pos hget]
    refine Spec.bind (R := fun _ => Here { c with extensions := c.extensions.onInvitation m.payload } t)
      (fun s hs => ⟨?_, hs.2⟩)
      fun _ => Spec.ret fun s hs => hs.then hp
    rw [← hs.1]
    rfl
  · rw [if_neg hget]
    refine Spec.ite (fun hclose => ?_) fun hclose => ?_
    · rw [if_pos hclose]
      refine Spec.bind (R := fun _ => Here { c with joined := false, extensions := c.extensions.disconnected } t)
        (fun s hs => ⟨?_, hs.2⟩) fun _ => Spec.ret fun s hs => hs.then hp
      rw [← hs.1]
      rfl
    · rw [if_neg hclose]
      exact Spec.ret fun s hs => hs.then hp

/-- After a message, the core is what was heard, and the prompt was sent exactly if the message answers the
    terminal's join. -/
theorem handleMessage_then (m : Message) : Spec (Here c t) (Link.handleMessage agent m)
    (Post (fun _ => Then (c.hear m) (m.answersConsole c.consoleJoinRef) t)
      (Then (c.hear m) (m.answersConsole c.consoleJoinRef) t)) := by
  refine Spec.ite (fun hext => extensionFrame_then hext ?_) fun hext =>
    Spec.ite (fun hcon => consoleFrame_then hcon) fun hcon => ?_
  · exact fun h => absurd (hext.symm.trans h.1) (by decide)
  have hno : ¬m.answersConsole c.consoleJoinRef := fun h => hcon h.1
  refine Spec.ite (fun hcontrol => ?_) fun hcontrol =>
    deviceFrame_then (by simp [Message.onDevice, hext, hcon, hcontrol]) hno
  have hhear : c.hear m = c := by rw [Core.hear, if_neg hext, if_pos (by simp [Message.onDevice, hcontrol])]
  rw [hhear]
  refine Spec.bind (R := fun _ => Here c t) (fun s hs => ⟨?_, hs.2⟩) fun _ => Spec.ret fun s hs => hs.then hno
  rw [← hs.1]
  simp only [modifyLink, modifyOwn_apply]
  split <;> rfl

/-! ### What the other operations do -/

omit [Serde] in
/-- Every ref that the core holds is that of a join that was sent. -/
structure RefsSent (c : Core) (t : List Event) : Prop where
  device : ∀ ref, c.joinRef = some ref → JoinSent .deviceJoin ref t
  extensions : ∀ ref, c.extensionsJoinRef = some ref → JoinSent .extensionsJoin ref t
  console : ∀ ref, c.consoleJoinRef = some ref → JoinSent .consoleJoin ref t

omit [Serde] in
theorem JoinSent.older {kd : Kind} {ref : String} {u : List Event} (h : JoinSent kd ref t) (hu : t <:+ u) :
    JoinSent kd ref u := by
  obtain ⟨m, r, hmem, hm⟩ := h
  exact ⟨m, r, hu.mem hmem, hm⟩

omit [Serde] in
theorem RefsSent.older {u : List Event} (h : RefsSent c t) (hu : t <:+ u) : RefsSent c u :=
  ⟨fun ref hr => (h.device ref hr).older hu, fun ref hr => (h.extensions ref hr).older hu,
    fun ref hr => (h.console ref hr).older hu⟩

/-- No channel becomes joined or gets attachments, and the refs go on being those of joins that were sent. -/
def Moves (s u : World σ) : Prop :=
  (u.own.link.core.joined = true → s.own.link.core.joined = true) ∧
    u.own.link.core.extensions = s.own.link.core.extensions ∧
    (RefsSent s.own.link.core s.trace → RefsSent u.own.link.core u.trace)

omit [Serde] in
theorem moves_admits : Admits (Moves (σ := σ)) (fun _ => True) where
  steps := ⟨fun _ => ⟨id, rfl, id⟩, fun hst htu =>
    ⟨fun h => hst.1 (htu.1 h), htu.2.1.trans hst.2.1, fun h => htu.2.2 (hst.2.2 h)⟩⟩
  gas _ _ := ⟨id, rfl, id⟩
  calls _ _ _ _ := ⟨id, rfl, fun h => h.older (List.suffix_append _ _)⟩
  aside _ _ _ := ⟨id, rfl, id⟩
  reader _ _ _ := ⟨id, rfl, id⟩

theorem moves_write {kd : Kind} {ref : String} {s u : World σ} {m : Envelope} (htrace : u.trace = s.trace)
    (hm : m.kind = kd)
    (href : m.reference = some ref) (hjoined : u.own.link.core.joined = true → s.own.link.core.joined = true)
    (hext : u.own.link.core.extensions = s.own.link.core.extensions)
    (hrefs : ∀ t, JoinSent kd ref t → RefsSent s.own.link.core t → RefsSent u.own.link.core t) :
    Moves s (Link.write agent m u).2 := by
  have hwrite : Spec (Here u.own.link.core s.trace) (Link.write agent m)
      (Post (fun _ => Wrote u.own.link.core m s.trace) _) :=
    write_wrote m
  obtain ⟨hcore, r, htrace⟩ := hwrite.state ⟨rfl, htrace⟩
  refine ⟨fun h => hjoined (hcore ▸ h), hcore ▸ hext, fun hs => ?_⟩
  rw [hcore, htrace]
  exact hrefs _ ⟨m, r, List.mem_cons_self, hm, href⟩ (hs.older (List.suffix_cons _ _))

theorem moves_sendJoin (boot : BootReport) : Keeps Moves (Link.sendJoin agent boot) := fun s => by
  let ref := s.own.link.refs.nextRef.1
  have hrefs : ∀ t, JoinSent .deviceJoin ref t → RefsSent s.own.link.core t →
      RefsSent { s.own.link.core with joinRef := some ref, joined := false } t := fun t hsent h =>
    ⟨fun ref' heq => Option.some.inj heq ▸ hsent, h.extensions, h.console⟩
  exact moves_write rfl rfl rfl (fun h => by cases h) rfl hrefs

theorem moves_sendExtensionsJoin : Keeps Moves (Link.sendExtensionsJoin agent) := fun s => by
  let ref := s.own.link.refs.nextRef.1
  have hrefs : ∀ t, JoinSent .extensionsJoin ref t → RefsSent s.own.link.core t →
      RefsSent { s.own.link.core with extensionsJoinRef := some ref } t := fun t hsent h =>
    ⟨h.device, fun ref' heq => Option.some.inj heq ▸ hsent, h.console⟩
  exact moves_write rfl rfl rfl id rfl hrefs

theorem moves_sendConsoleJoin : Keeps Moves (Link.sendConsoleJoin agent) := fun s => by
  let ref := s.own.link.refs.nextRef.1
  have hrefs : ∀ t, JoinSent .consoleJoin ref t → RefsSent s.own.link.core t →
      RefsSent { s.own.link.core with consoleJoinRef := some ref } t := fun t hsent h =>
    ⟨h.device, h.extensions, fun ref' heq => Option.some.inj heq ▸ hsent⟩
  exact moves_write rfl rfl rfl id rfl hrefs

/-- Whatever is done to the link but feeding it a frame. -/
theorem moves_perform {op : LinkOp} (hop : ∀ frame, op ≠ .handle frame) : Keeps Moves (op.perform agent) := by
  have h := moves_admits (σ := σ)
  cases op with
  | wantConsole => exact fun s => ⟨id, rfl, id⟩
  | setDownloading uuid => exact h.setDownloading uuid
  | join boot => exact moves_sendJoin boot
  | heartbeat => exact h.sendHeartbeat (fun _ _ => ⟨id, rfl, id⟩) trivial
  | progress stage percent => exact h.sendProgress trivial stage percent
  | firmwareValidated => exact Keeps.bind h.steps h.nextRef fun _ => h.send event.firmwareValidated trivial _ _
  | status text extra => exact h.sendStatus trivial text extra
  | rebooting => exact h.sendRebooting trivial
  | consoleJoin => exact moves_sendConsoleJoin
  | console text => exact h.sendConsole trivial text
  | extensionsJoin => exact moves_sendExtensionsJoin
  | extension outgoing => exact h.sendExtension outgoing fun _ _ _ => trivial
  | log line => exact Keeps.bind h.steps h.link fun l => h.sendExtension _ fun _ _ _ => trivial
  | logs lines => exact h.linkSendLogs trivial lines
  | handle frame => exact absurd rfl (hop frame)

/-! ### What a message changes -/

omit [Serde] in
theorem Core.hear_extensions {c : Core} (hyes : m.answersExtensions c.extensionsJoinRef = true) :
    c.hear m = { c with extensions := { c.extensions with joined := true, attached := m.listed } } := by
  have htopic : m.topic = extensionsTopic := by
    simp only [Message.answersExtensions, Bool.and_eq_true, beq_iff_eq] at hyes
    exact hyes.1.1
  rw [Core.hear, if_pos htopic, if_pos hyes]

omit [Serde] in
theorem Core.hear_accepts {c : Core} (hyes : m.accepts c.joinRef = true) : c.hear m = { c with joined := true } := by
  have hm : m.onDevice = true := ((Bool.and_eq_true _ _).mp hyes).1
  have hreply : m.event = event.reply := by
    cases href : c.joinRef with
    | none => simp [Message.accepts, href] at hyes
    | some ref =>
      simp only [Message.accepts, href, Option.any_some, Message.isOkReplyTo, Bool.and_eq_true, beq_iff_eq] at hyes
      exact hyes.2.1.1
  rw [Core.hear_device hm, if_pos hreply, if_pos hyes]

omit [Serde] in
/-- The device's channel becomes joined through the reply that accepts its join. -/
theorem Core.hear_joined {c : Core} (hc : c.joined = false) (h : (c.hear m).joined = true) :
    m.accepts c.joinRef = true := by
  revert h
  unfold Core.hear
  repeat' split
  all_goals simp_all

omit [Serde] in
theorem RefsSent.hear (h : RefsSent c t) (m : Message) : RefsSent (c.hear m) t := by
  have hsame := c.hear_refs m
  exact ⟨hsame.1 ▸ h.device, hsame.2.1 ▸ h.extensions, hsame.2.2 ▸ h.console⟩

/-! ### The steps -/

/-- A step that is not a message's changes nothing that is of concern. -/
theorem Moves.permitted {op : LinkOp} {s : World σ} (h : Moves s (op.after agent s)) (htrace : ∀ frame, op = .handle frame →
    ¬Prompted s.trace (op.after agent s).trace) : Permitted agent op s where
  device hno hyes := absurd (h.1 hyes) (by rw [show s.own.link.core.joined = s.own.link.joined from rfl, hno]; simp)
  extensions hor := by
    have hsame : (op.after agent s).own.link.extensions = s.own.link.extensions := h.2.1
    rw [hsame] at hor
    rcases hor with ⟨hno, hyes⟩ | ⟨key, hmem, hno⟩
    · rw [hno] at hyes
      cases hyes
    · exact absurd hmem hno
  console hframe hprompt := by
    obtain ⟨frame, rfl⟩ := hframe
    exact absurd hprompt (htrace frame rfl)

omit [Serde] in
theorem not_prompted_self {t : List Event} : ¬Prompted t t := by
  rintro ⟨es, m, r, heq, hmem, -⟩
  have hnil : es = [] := List.append_cancel_right ((List.nil_append t).trans heq).symm
  rw [hnil] at hmem
  cases hmem

/-- A reply that the link matches to the ref of one of its joins, if it has a ref, answers a join that was sent. -/
theorem answersJoin_of_accepted {frame : Frame} {topic : String} {kd : Kind} {ref : Option String}
    (hdecode : Message.decodeFrame frame = .ok m) (htopic : m.topic = topic) (href : ref = m.reference)
    (hm : m.accepted) (hrefs : ∀ r, ref = some r → JoinSent kd r t) : AnswersJoin topic kd (.handle frame) t := by
  obtain ⟨r, hr⟩ := hm
  have hsome : m.reference = some r := by
    simp only [Message.isOkReplyTo, Bool.and_eq_true, beq_iff_eq] at hr
    exact hr.1.2
  exact ⟨frame, m, r, rfl, hdecode, htopic, hr, hrefs r (href.trans hsome)⟩

theorem after_eq (agent : Agent σ) (frame : Frame) (s : World σ) :
    (LinkOp.handle frame).after agent s = (Link.handle agent frame s).2 :=
  bind_pure_state (Link.handle agent frame) (fun _ => ()) s

theorem after_handle (agent : Agent σ) {frame : Frame} {m : Message} (hdecode : Message.decodeFrame frame = .ok m)
    (s : World σ) :
    Then (s.own.link.core.hear m) (m.answersConsole s.own.link.core.consoleJoinRef) s.trace
      ((LinkOp.handle frame).after agent s) := by
  rw [after_eq, Link.handle, hdecode]
  exact (handleMessage_then m).state ⟨rfl, rfl⟩

theorem after_undecoded (agent : Agent σ) {frame : Frame} {text : String}
    (hdecode : Message.decodeFrame frame = .error text) (s : World σ) :
    (LinkOp.handle frame).after agent s = s := by
  rw [after_eq, Link.handle, hdecode]
  rfl

theorem permitted_handle {frame : Frame} {m : Message} (hdecode : Message.decodeFrame frame = .ok m) {s : World σ}
    (hrefs : RefsSent s.own.link.core s.trace) (hsound : m.Sound s.own.link.core) :
    Permitted agent (.handle frame) s := by
  obtain ⟨hcore, es, htrace, hprompt⟩ := after_handle agent hdecode s
  have hlink := congrArg Core.joined hcore
  refine ⟨fun hno hyes => ?_, fun hor => ?_, fun _ hsaid => ?_⟩
  · have hacc : m.accepts s.own.link.core.joinRef = true := Core.hear_joined hno (hlink ▸ hyes)
    obtain ⟨ref, href, hok⟩ := (Option.any_eq_true _ _).mp ((Bool.and_eq_true _ _).mp hacc).2
    exact ⟨frame, m, ref, rfl, hdecode, hsound.device hno hacc, hok, hrefs.device ref href⟩
  · have hext : ((LinkOp.handle frame).after agent s).own.link.extensions = (s.own.link.core.hear m).extensions :=
      congrArg Core.extensions hcore
    rw [hext] at hor
    have hans : m.answersExtensions s.own.link.core.extensionsJoinRef = true := Core.hear_attached hor
    rw [Core.hear_extensions hans] at hor
    have hacc : m.accepted := hsound.extensions hans (hor.imp (fun h => h.1) id)
    simp only [Message.answersExtensions, Bool.and_eq_true, beq_iff_eq] at hans
    exact answersJoin_of_accepted hdecode hans.1.1 hans.2 hacc hrefs.extensions
  · obtain ⟨es', m', r, heq, hmem, hm'⟩ := hsaid
    rw [htrace, List.append_cancel_right_eq] at heq
    have hans := hprompt.mp ⟨m', r, heq ▸ hmem, hm'⟩
    exact answersJoin_of_accepted hdecode hans.1 hans.2.2 (hsound.console hans) hrefs.console

theorem AnswersJoin.handled {frame : Frame} {topic : String} {kd : Kind} (hdecode : Message.decodeFrame frame = .ok m)
    (h : AnswersJoin topic kd (.handle frame) t) : m.topic = topic ∧ m.accepted := by
  obtain ⟨frame', m', ref, heq, hdecode', htopic, hok, -⟩ := h
  cases heq
  cases hdecode.symm.trans hdecode'
  exact ⟨htopic, ref, hok⟩

theorem sound_of_permitted {frame : Frame} {m : Message} (hdecode : Message.decodeFrame frame = .ok m) {s : World σ}
    (h : Permitted agent (.handle frame) s) : m.Sound s.own.link.core := by
  obtain ⟨hcore, es, htrace, hprompt⟩ := after_handle agent hdecode s
  have hjoined : ((LinkOp.handle frame).after agent s).own.link.joined = (s.own.link.core.hear m).joined :=
    congrArg Core.joined hcore
  have hext : ((LinkOp.handle frame).after agent s).own.link.extensions = (s.own.link.core.hear m).extensions :=
    congrArg Core.extensions hcore
  refine ⟨fun hno hacc => ?_, fun hans hnew => ?_, fun hans => ?_⟩
  · exact ((h.device hno (by rw [hjoined, Core.hear_accepts hacc])).handled hdecode).1
  · refine ((h.extensions ?_).handled hdecode).2
    rw [hext, Core.hear_extensions hans]
    exact hnew.imp (fun hno => ⟨hno, rfl⟩) id
  · obtain ⟨m', r, hmem, hm'⟩ := hprompt.mpr hans
    exact ((h.console ⟨frame, rfl⟩ ⟨es, m', r, htrace, hmem, hm'⟩).handled hdecode).2

/-- Each step of the link does what it may, exactly if a reply that would change something is one that may. -/
theorem permitted_iff {op : LinkOp} {s : World σ} (hrefs : RefsSent s.own.link.core s.trace) :
    Permitted agent op s ↔ SoundReply op s := by
  by_cases hop : ∃ frame, op = .handle frame
  · obtain ⟨frame, rfl⟩ := hop
    cases hdecode : Message.decodeFrame frame with
    | error text =>
      have hsame := after_undecoded agent hdecode s
      refine iff_of_true (Moves.permitted ?_ fun frame' heq => ?_) fun frame' m heq hm => ?_
      · rw [hsame]
        exact moves_admits.steps.refl s
      · rw [hsame]
        exact not_prompted_self
      · cases heq
        cases hdecode.symm.trans hm
    | ok m =>
      refine ⟨fun h frame' m' heq hm' => ?_, fun h => permitted_handle hdecode hrefs (h frame m rfl hdecode)⟩
      cases heq
      cases hdecode.symm.trans hm'
      exact sound_of_permitted hdecode h
  · have hno : ∀ frame, op ≠ .handle frame := fun frame heq => hop ⟨frame, heq⟩
    refine iff_of_true (Moves.permitted (moves_perform hno s) fun frame heq => absurd heq (hno frame)) ?_
    exact fun frame m heq => absurd heq (hno frame)

theorem refsSent_after {op : LinkOp} {s : World σ} (h : RefsSent s.own.link.core s.trace) :
    RefsSent (op.after agent s).own.link.core (op.after agent s).trace := by
  by_cases hop : ∃ frame, op = .handle frame
  · obtain ⟨frame, rfl⟩ := hop
    cases hdecode : Message.decodeFrame frame with
    | error text =>
      rw [after_undecoded agent hdecode]
      exact h
    | ok m =>
      obtain ⟨hcore, es, htrace, -⟩ := after_handle agent hdecode s
      rw [hcore, htrace]
      exact (h.hear m).older (List.suffix_append _ _)
  · exact (moves_perform (fun frame heq => hop ⟨frame, heq⟩) s).2.2 h

theorem everyStep_iff {P P' : LinkOp → World σ → Prop} {I : World σ → Prop}
    (hstep : ∀ (op : LinkOp) s, I s → I (op.after agent s)) (hP : ∀ op s, I s → (P op s ↔ P' op s)) (ops : List LinkOp)
    {s : World σ} (hs : I s) :
    EveryStep agent P ops s ↔ EveryStep agent P' ops s := by
  induction ops generalizing s with
  | nil => exact Iff.rfl
  | cons op rest ih => exact and_congr (hP op s hs) (ih (hstep op s hs))

/-- Over any sequence of operations on a new link, each is permitted exactly if each reply that would change what is
    joined, attached or said is one that may. -/
theorem replies_sound (agent : Agent σ) (ops : List LinkOp) (env : σ) (own : Device) (gas : Nat) :
    EveryStep agent (Permitted agent) ops ⟨env, { own with link := .new agent.config agent.metadata }, [], gas⟩ ↔
      EveryStep agent SoundReply ops ⟨env, { own with link := .new agent.config agent.metadata }, [], gas⟩ := by
  refine everyStep_iff (I := fun s => RefsSent s.own.link.core s.trace) (fun op s => refsSent_after)
    (fun op s => permitted_iff) ops ⟨fun ref h => ?_, fun ref h => ?_, fun ref h => ?_⟩
  all_goals cases h

end

/-! ### A reply without a ref -/

section

def unaskedReply : Script :=
  ⟨"reply on the extensions' channel", ⟨none, none, extensionsTopic, event.reply, .obj [("status", .string "ok")]⟩⟩

@[reducible] def repliesSerde : Serde := benchSerde [unaskedReply]

attribute [local instance] repliesSerde

/-- The extensions' channel becomes joined, and no join was ever sent. -/
theorem replies_joined_unasked :
    ¬EveryStep (benchAgent .none) (Permitted (benchAgent .none)) [.handle (.text unaskedReply.text)]
      ⟨⟨[], 0, [], 0, false, []⟩, { benchDevice .none none with link := .new (benchConfig .none) benchMetadata },
        [], 0⟩ := by
  rintro ⟨h, -⟩
  obtain ⟨-, -, -, -, -, -, -, ⟨m, r, hmem, -⟩⟩ := h.extensions (Or.inl (by decide +kernel))
  cases hmem

end

end NervesHub
