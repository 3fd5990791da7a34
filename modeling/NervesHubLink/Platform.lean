import NervesHubLink.Console
import NervesHubLink.Install
import NervesHubLink.Logging

/-! The world outside the agent, and the record of what it was asked and what it answered (`agent.rs`). -/

namespace NervesHub
open Act Prog

inductive Control where
  | stay
  | reportHealth
  | leave
  deriving DecidableEq, Repr

/-- How long one session lasts, for a device that sleeps between them. -/
structure SessionWindow where
  linger : Duration
  limit : Duration
  deriving DecidableEq, Repr

inductive Stopped where
  | rebooting
  | finished
  deriving DecidableEq, Repr

/-- Everything the loop needs from the world, and the transport that `connect` opens. -/
structure Platform (σ : Type) where
  connect : σ → Except Error Unit × σ
  send : Frame → σ → Except Error Unit × σ
  recvFrame : σ → Except Error (Option Frame) × σ
  http : σ → Except Error Unit × σ
  beginUpdate : σ → Except Error Unit × σ
  /-- Whether this boot is an unconfirmed update. -/
  pendingVerify : σ → Bool × σ
  autoRevertDetected : σ → Bool × σ
  markValid : σ → Except Error Unit × σ
  restart : σ → Unit × σ
  sleep : Duration → σ → Unit × σ
  nowMs : σ → Nat × σ
  /-- The stream and the sink that `http` and `begin_update` open. -/
  stream : HttpCalls σ
  sink : SinkCalls σ

structure UpdateHandler (σ : Type) where
  updateAvailable : UpdatePayload → σ → UpdateDecision × σ
  progress : Stage → Nat → σ → Unit × σ

/-- An agent as it is built: the log buffer and the terminal's half-typed line are the device's own state. -/
structure Agent (σ : Type) where
  config : Config
  metadata : FirmwareMetadata
  platform : Platform σ
  handler : UpdateHandler σ
  location : Option (σ → Option Location × σ)
  health : Option (σ → HealthReport × σ)
  identify : Option (σ → Unit × σ)
  console : Option (List (Command σ))
  /-- What the other tasks of the device do to the log buffer meanwhile. -/
  tasks : σ → List Offer × σ
  /-- The wall clock, in microseconds since the epoch. -/
  wallMicros : σ → Option Nat × σ

/-- What a sleep is for. -/
inductive Pause where
  /-- The wait between two connections. -/
  | backoff
  /-- The moment in which the last messages leave before a restart. -/
  | restarting
  /-- The wait between two attempts to start a download. -/
  | retrying
  deriving DecidableEq, Repr

/-- A call on the world, or a change to the log buffer. -/
inductive Event where
  | connected (r : Except Error Unit)
  | sent (m : Envelope) (r : Except Error Unit)
  | received (r : Except Error (Option Frame))
  | clock (now : Nat)
  | slept (why : Pause) (d : Duration)
  | pendingVerify (pending : Bool)
  | autoRevert (detected : Bool)
  | markedValid (r : Except Error Unit)
  | restarted
  | decided (update : UpdatePayload) (decision : UpdateDecision)
  | httpStarted (r : Except Error Unit)
  | updateBegun (r : Except Error Unit)
  | image (e : InstallEvent)
  | progressed (stage : Stage) (percent : Nat)
  | located (l : Option Location)
  | healthRead (r : HealthReport)
  | identified
  | ran (name : String) (args : List String)
  | controlled (c : Control)
  /-- What another task offered to the log buffer. -/
  | offered (fate : Fate)
  /-- A line taken from the log buffer to be sent. -/
  | took (line : LogLine)
  /-- The count of lost lines taken from the log buffer to be sent. -/
  | noted (lost : Nat)

/-- The channel conversation on one socket. -/
structure Link where
  config : Config
  metadata : FirmwareMetadata
  refs : RefGenerator
  joinRef : Option String
  extensions : Extensions
  extensionsJoinRef : Option String
  consoleJoinRef : Option String
  consoleWanted : Bool
  joined : Bool
  downloading : Option String
  /-- The last heartbeat's ref until its reply arrives. -/
  heartbeatRef : Option String
  deriving Repr

/-- The two times that a `Pump` keeps. -/
structure Pump where
  lastHeartbeat : Nat
  lastLog : Nat
  deriving DecidableEq, Repr

/-- The device's own state: the link, the log buffer if there is one, the terminal, the flag in which a
    session tells `run` that it joined, and the times of the download that is going on. -/
structure Device where
  link : Link
  logs : Option LogBuffer
  reader : LineReader
  joined : Bool
  pump : Pump

abbrev World (σ : Type) := Rec σ Event Device

abbrev Run (σ α : Type) := Prog σ Event Device Error α

section
variable {σ : Type} (agent : Agent σ)

/-! ### Calls on the platform -/

def connect : Run σ Unit := tryCall agent.platform.connect fun r => [.connected r]

def nowMs : Run σ Nat := call agent.platform.nowMs fun now => [.clock now]

def sleep (why : Pause) (d : Duration) : Run σ Unit := call (agent.platform.sleep d) fun _ => [.slept why d]

def restart : Run σ Unit := call agent.platform.restart fun _ => [.restarted]

def pendingVerify : Run σ Bool := call agent.platform.pendingVerify fun pending => [.pendingVerify pending]

def autoRevertDetected : Run σ Bool := call agent.platform.autoRevertDetected fun detected => [.autoRevert detected]

def markValid : Run σ Unit := tryCall agent.platform.markValid fun r => [.markedValid r]

def recvFrame : Run σ (Option Frame) := tryCall agent.platform.recvFrame fun r => [.received r]

def updateAvailable (update : UpdatePayload) : Run σ UpdateDecision :=
  call (agent.handler.updateAvailable update) fun decision => [.decided update decision]

/-- The stream and the sink of a download, with what they do in the record. -/
def imageStream : HttpStream (World σ) :=
  agent.platform.stream.recorded (fun url r => [.image (.opened url r)]) fun r => [.image (.read r)]

def imageSink : ImageSink (World σ) :=
  agent.platform.sink.recorded (fun chunk r => [.image (.wrote chunk r)]) (fun r => [.image (.committed r)])
    [.image .aborted]

/-! ### The link's state -/

def link : Run σ Link := gets (·.own.link)

def modifyLink (f : Link → Link) : Run σ Unit := modifyOwn fun d => { d with link := f d.link }

/-! ### The log buffer -/

def LogBuffer.overhear (offers : List Offer) : Option LogBuffer → List Fate × Option LogBuffer
  | none => ([], none)
  | some b => ((b.offers offers).1, some (b.offers offers).2)

/-- Lets the other tasks at the log buffer. They come in whenever the agent looks at it. -/
def overhear : Run σ Unit := do
  let offers ← call agent.tasks fun _ => []
  let _ ← update (fun d => ((LogBuffer.overhear offers d.logs).1,
    { d with logs := (LogBuffer.overhear offers d.logs).2 })) fun fates => (fates.map Event.offered).reverse
  pure ()

/-- The log buffer, as another task may just have left it. -/
def logBuffer : Run σ (Option LogBuffer) := do
  overhear agent
  gets (·.own.logs)

/-- Does `f` to the log buffer, in one critical section. -/
def onLogs {α : Type} (f : LogBuffer → α × LogBuffer) (otherwise : α) (ev : α → List Event) : Run σ α :=
  update (fun d => match d.logs with
    | some b => ((f b).1, { d with logs := some (f b).2 })
    | none => (otherwise, d)) ev

def LogBuffer.Popped.events : LogBuffer.Popped → List Event
  | .line held => [.took held]
  | .note lost => [.noted lost]
  | .nothing => []

/-- Lines to send as one batch, with the note about dropped lines if it empties the backlog. The lock is
    released in between. -/
def takeStamped (maxLines maxBytes : Nat) (nowMicros : Option Nat) : Run σ (List LogLine) := do
  overhear agent
  let (batch, full) ← onLogs (fun b => b.drain maxLines maxBytes nowMicros) (⟨[], []⟩, true)
    fun r => (r.1.raw.map Event.took).reverse
  if full || maxLines ≤ batch.lines.length then pure batch.lines
  else do
    overhear agent
    let popped ← onLogs LogBuffer.pop .nothing LogBuffer.Popped.events
    match popped.sent with
    | some note => pure (batch.lines ++ [stamp note (nowMicros.map (atPlace · batch.lines.length))])
    | none => pure batch.lines

end

end NervesHub
