import NervesHubLink.Link
import NervesHubLink.Lib.Machine

/-! The order of a session, apart from the code that follows it: a machine that reads the record of a session
event by event, and allows each event only where the protocol does. -/

namespace NervesHub
open Trace

/-! ### Kinds of event -/

/-- Kinds of frame and of call. -/
inductive Kind where
  | deviceJoin
  | extensionsJoin
  | consoleJoin
  | validated
  | heartbeat
  | progress
  | status
  | rebooting
  | terminal
  | logging
  | healthReport
  | extension
  | otherFrame
  | connected
  | received
  | clock
  | pause (why : Pause)
  | pendingVerify
  | autoRevert
  | markedValid
  | restarted
  | decided
  | httpStarted
  | updateBegun
  | image
  | committed
  | progressed
  | located
  | healthRead
  | identified
  | ran
  | controlled
  | offered
  | took
  | noted
  deriving DecidableEq, Repr

/-- The kind of an event on a channel of its own topic. -/
def extensionKind (ev : String) : Kind :=
  if ev = event.join then .extensionsJoin
  else if ev = event.loggingSend then .logging
  else if ev = "health:report" then .healthReport
  else .extension

def deviceKind (ev : String) : Kind :=
  if ev = event.join then .deviceJoin
  else if ev = event.firmwareValidated then .validated
  else if ev = event.updateProgress then .progress
  else if ev = event.statusUpdate then .status
  else if ev = event.rebooting then .rebooting
  else .otherFrame

def Envelope.kind (m : Envelope) : Kind :=
  if m.topic = controlTopic then .heartbeat
  else if m.topic = consoleTopic then if m.event = event.join then .consoleJoin else .terminal
  else if m.topic = extensionsTopic then extensionKind m.event
  else deviceKind m.event

def Event.kind : Event → Kind
  | .connected _ => .connected
  | .sent m _ => m.kind
  | .received _ => .received
  | .clock _ => .clock
  | .slept why _ => .pause why
  | .pendingVerify _ => .pendingVerify
  | .autoRevert _ => .autoRevert
  | .markedValid _ => .markedValid
  | .restarted => .restarted
  | .decided _ _ => .decided
  | .httpStarted _ => .httpStarted
  | .updateBegun _ => .updateBegun
  | .image (.committed _) => .committed
  | .image _ => .image
  | .progressed _ _ => .progressed
  | .located _ => .located
  | .healthRead _ => .healthRead
  | .identified => .identified
  | .ran _ _ => .ran
  | .controlled _ => .controlled
  | .offered _ => .offered
  | .took _ => .took
  | .noted _ => .noted

/-! ### What is heard -/

/-- The part of the link that decides what may be sent. -/
structure Core where
  joinRef : Option String
  extensionsJoinRef : Option String
  consoleJoinRef : Option String
  extensions : Extensions
  joined : Bool

def Link.core (l : Link) : Core := ⟨l.joinRef, l.extensionsJoinRef, l.consoleJoinRef, l.extensions, l.joined⟩

namespace Message

/-- Every topic but the other three is taken for the device's. -/
def onDevice (m : Message) : Bool := m.topic != extensionsTopic && m.topic != consoleTopic && m.topic != controlTopic

/-- The message accepts the device join sent as `ref`. -/
def accepts (m : Message) (ref : Option String) : Bool := m.onDevice && ref.any m.isOkReplyTo

/-- What a message says of an update: the reply that accepts the join may, and an update does. -/
def news (m : Message) (ref : Option String) : Option Value :=
  if !m.onDevice then none
  else if m.event = event.reply then if m.accepts ref then m.replyResponse else none
  else if m.event = event.update then some m.payload
  else none

/-- What it says cannot be read. -/
def garbled (m : Message) (ref : Option String) : Bool :=
  (m.news ref).any fun v => (UpdatePayload.deserialize v).toOption.isNone

/-- The update that can be carried out, if it brings one. -/
def offer (m : Message) (ref : Option String) : Option UpdatePayload :=
  ((m.news ref).bind fun v => (UpdatePayload.deserialize v).toOption).filter (·.actionable.isSome)

/-- The message is taken for the reply to the extensions join sent as `ref`. -/
def answersExtensions (m : Message) (ref : Option String) : Bool :=
  m.topic == extensionsTopic && m.event == event.reply && ref == m.reference

/-- The extensions that a reply lists as attached. -/
def listed (m : Message) : List String :=
  match (m.replyResponse.getD (.array [])).asArray with
  | some keys => keys.filterMap Value.asStr
  | none => []

end Message

/-- What is left of the core once a message has been handled. -/
def Core.hear (c : Core) (m : Message) : Core :=
  if m.topic = extensionsTopic then
    if m.answersExtensions c.extensionsJoinRef then
      { c with extensions := { c.extensions with joined := true, attached := m.listed } }
    else c
  else if !m.onDevice then c
  else if m.event = event.reply then if m.accepts c.joinRef then { c with joined := true } else c
  else if m.event = event.extensionsGet then { c with extensions := c.extensions.onInvitation m.payload }
  else if m.event = event.close || m.event = event.error then
    { c with joined := false, extensions := c.extensions.disconnected }
  else c

/-- What may be recorded at any time between the steps of the protocol, log frames apart. -/
def Core.permitted (c : Core) : Kind → Bool
  | .located => c.extensions.isAttached geoKey
  | .healthRead | .healthReport => c.extensions.isAttached healthKey
  | .took | .noted => c.extensions.isAttached loggingKey
  | .deviceJoin | .extensionsJoin | .consoleJoin | .validated | .logging => false
  | .connected | .received | .pendingVerify | .autoRevert | .markedValid => false
  | .decided | .httpStarted | .updateBegun | .pause .backoff => false
  | _ => true

inductive Core.Permits (c : Core) : Event → Prop
  | kind {e : Event} : c.permitted e.kind → c.Permits e
  | line {m : Envelope} {r : Except Error Unit} (line : LogLine) : m.kind = .logging → c.extensions.isAttached loggingKey →
    c.extensions.loggingBatched = false → m.payload = .value line.payload → c.Permits (.sent m r)
  | batch {m : Envelope} {r : Except Error Unit} (lines : List LogLine) : m.kind = .logging →
    c.extensions.loggingBatched = true → m.payload = .batch lines → c.Permits (.sent m r)

/-- A message whose failure ends the session, wherever it is sent: the last ones of an update. -/
def Envelope.isClosing (m : Envelope) : Bool :=
  match m.kind with
  | .status | .rebooting => true
  | .progress =>
    match m.payload with
    | .value v => (v.get "stage").bind Value.asStr == some Stage.updating.asStr
    | .batch _ => false
  | _ => false

/-! ### The machine -/

/-- How far a session is with its join, and with confirming the running image. -/
inductive Standing where
  | opening
  | waiting
  /-- The join was accepted, and the session ended before it took notice. -/
  | lost
  | asked (pending : Bool)
  | marked
  | failed
  | confirmed
  deriving DecidableEq, Repr

/-- How far it is with an update. -/
inductive Errand where
  | none
  | offered (update : UpdatePayload)
  | applying
  | started
  deriving DecidableEq, Repr

structure Talk where
  core : Core
  standing : Standing
  errand : Errand
  extensionsJoined : Bool
  consoleJoined : Bool

namespace Talk

def start (enabled : Enabled) : Talk := ⟨⟨none, none, none, .new enabled, false⟩, .opening, .none, false, false⟩

/-- The join was accepted, and the session has not taken notice. -/
def Fresh (k : Talk) : Prop := k.standing = .waiting ∧ k.core.joined = true

/-- The session has taken notice that the join was accepted. -/
def noticed (k : Talk) : Bool :=
  match k.standing with
  | .opening | .waiting | .lost => false
  | _ => true

/-- Nothing has to come next. -/
def Open (k : Talk) : Prop := k.errand = .none ∧ (k.standing = .waiting ∨ k.standing = .confirmed)

/-- The extensions channel was asked for, as `ref`. -/
def withExtensions (k : Talk) (ref : Option String) : Talk :=
  { k with core := { k.core with extensionsJoinRef := ref }, extensionsJoined := true }

/-- The terminal was asked for, as `ref`. -/
def withConsole (k : Talk) (ref : Option String) : Talk :=
  { k with core := { k.core with consoleJoinRef := ref }, consoleJoined := true }

variable [Serde]

/-- The message in what was received. -/
def heard : Except Error (Option Frame) → Option Message
  | .ok (some frame) => (Message.decodeFrame frame).toOption
  | _ => none

def hear (k : Talk) (m : Message) : Talk :=
  { k with
    core := k.core.hear m
    standing := if k.standing = .waiting && m.accepts k.core.joinRef && m.garbled k.core.joinRef then .lost else k.standing
    errand := ((m.offer k.core.joinRef).map Errand.offered).getD .none }

inductive Step : Talk → Event → Talk → Prop
  /-- What the device can say of its image goes into the join. -/
  | report {k : Talk} (pending : Bool) : k.standing = .opening → Step k (.pendingVerify pending) k
  | reverted {k : Talk} (detected : Bool) : k.standing = .opening → Step k (.autoRevert detected) k
  | join {k : Talk} {m : Envelope} (r : Except Error Unit) : k.standing = .opening → m.kind = .deviceJoin →
    Step k (.sent m r) { k with standing := .waiting, core := { k.core with joinRef := m.reference, joined := false } }
  | ask {k : Talk} (pending : Bool) : k.Fresh → k.Open →
    Step k (.pendingVerify pending) { k with standing := .asked pending }
  | mark {k : Talk} (r : Except Error Unit) : k.standing = .asked true →
    Step k (.markedValid r) { k with standing := if r.isOk then .marked else .failed }
  | validate {k : Talk} {m : Envelope} (r : Except Error Unit) : k.standing = .asked false ∨ k.standing = .marked →
    m.kind = .validated → Step k (.sent m r) { k with standing := if r.isOk then .confirmed else .failed }
  | joinExtensions {k : Talk} {m : Envelope} (r : Except Error Unit) : k.Open → ¬k.Fresh → k.core.joined = true →
    k.extensionsJoined = false → m.kind = .extensionsJoin → m.payload = .value k.core.extensions.joinParams →
    Step k (.sent m r) (k.withExtensions m.reference)
  | joinConsole {k : Talk} {m : Envelope} (r : Except Error Unit) : k.Open → ¬k.Fresh → k.core.joined = true →
    k.consoleJoined = false → m.kind = .consoleJoin →
    Step k (.sent m r) (k.withConsole m.reference)
  | hear {k : Talk} {r : Except Error (Option Frame)} {m : Message} : k.Open → ¬k.Fresh → heard r = some m →
    Step k (.received r) (k.hear m)
  | nothing {k : Talk} {r : Except Error (Option Frame)} : k.Open → ¬k.Fresh → heard r = none → Step k (.received r) k
  | decide {k : Talk} {update : UpdatePayload} (decision : UpdateDecision) : k.errand = .offered update →
    Step k (.decided update decision) { k with errand := if decision = .apply then .applying else .none }
  | download {k : Talk} (r : Except Error Unit) : k.errand = .applying →
    Step k (.httpStarted r) { k with errand := if r.isOk then .started else .none }
  | begin {k : Talk} (r : Except Error Unit) : k.errand = .started → Step k (.updateBegun r) { k with errand := .none }
  | lose {k : Talk} {m : Envelope} (e : Error) : k.Fresh → k.errand = .none → m.isClosing →
    Step k (.sent m (.error e)) { k with standing := .lost }
  | aside {k : Talk} {e : Event} : k.Open → k.core.Permits e → Step k e k

end Talk

end NervesHub
