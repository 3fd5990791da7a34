import NervesHubLink.Platform

/-! The channel conversation (`link.rs`). -/

namespace NervesHub
open Act Prog

/-- Something the run loop must act on outside the channel conversation. -/
inductive Action where
  | extension (needs : List Outgoing)
  | none
  | applyUpdate (update : UpdatePayload)
  | reboot
  | identify
  | console (data : String)
  | consoleRestart
  | reconnect
  deriving Repr

namespace Link

def new (config : Config) (metadata : FirmwareMetadata) : Link where
  config := config
  metadata := metadata
  refs := ⟨0⟩
  joinRef := none
  extensions := .new config.extensions
  extensionsJoinRef := none
  consoleJoinRef := none
  consoleWanted := false
  joined := false
  downloading := none
  heartbeatRef := none

def wantConsole (l : Link) : Link := { l with consoleWanted := true }

def heartbeatUnanswered (l : Link) : Bool := l.heartbeatRef.isSome

def loggingAttached (l : Link) : Bool := l.extensions.isAttached loggingKey

def healthAttached (l : Link) : Bool := l.extensions.isAttached healthKey

end Link

section
variable {σ : Type} [Serde] (agent : Agent σ)

namespace Link

/-! ### Sending -/

def nextRef : Run σ String :=
  update (fun d => (d.link.refs.nextRef.1, { d with link := { d.link with refs := d.link.refs.nextRef.2 } })) fun _ => []

/-- Every frame goes out through here. -/
def write (m : Envelope) : Run σ Unit := do
  let l ← link
  tryCall (agent.platform.send (encodeFrame l.config.serializer m)) fun r => [.sent m r]

/-- Sends on the device channel. -/
def send (event : String) (payload : Value) (reference : String) : Run σ Unit := do
  let l ← link
  write agent ⟨l.joinRef, some reference, deviceTopic, event, .value payload⟩

def setDownloading (uuid : Option String) : Run σ Unit := modifyLink fun l => { l with downloading := uuid }

def sendJoin (boot : BootReport) : Run σ Unit := do
  let reference ← nextRef
  modifyLink fun l => { l with joinRef := some reference, joined := false }
  let l ← link
  send agent event.join (l.metadata.joinParams l.config.deviceApiVersion l.downloading boot) reference

def sendHeartbeat : Run σ Unit := do
  let reference ← nextRef
  modifyLink fun l => { l with heartbeatRef := some reference }
  write agent ⟨none, some reference, controlTopic, event.heartbeat, .value (.obj [])⟩

def sendProgress (stage : Stage) (percent : Nat) : Run σ Unit := do
  let reference ← nextRef
  send agent event.updateProgress (.obj [("value", .nat percent), ("stage", .string stage.asStr)]) reference

def sendFirmwareValidated : Run σ Unit := do
  let reference ← nextRef
  send agent event.firmwareValidated (.obj []) reference

/-- The payload of a status: what is extra comes over it. -/
def statusPayload (status : String) (extra : Value) : Value :=
  let payload := Value.obj [("status", .string status)]
  match extra.asObject with
  | some fields => fields.foldl (fun payload kv => payload.set kv.1 kv.2) payload
  | none => payload

def sendStatus (status : String) (extra : Value) : Run σ Unit := do
  let reference ← nextRef
  send agent event.statusUpdate (statusPayload status extra) reference

def sendRebooting : Run σ Unit := do
  let reference ← nextRef
  send agent event.rebooting (.obj []) reference

def sendConsoleJoin : Run σ Unit := do
  let reference ← nextRef
  modifyLink fun l => { l with consoleJoinRef := some reference }
  write agent ⟨some reference, some reference, consoleTopic, event.join,
    .value (.obj [("console_version", .string consoleVersion)])⟩

def sendConsole (text : String) : Run σ Unit :=
  if text.isEmpty then pure ()
  else do
    let reference ← nextRef
    let l ← link
    write agent ⟨l.consoleJoinRef, some reference, consoleTopic, event.up, .value (.obj [("data", .string text)])⟩

def sendExtensionsJoin : Run σ Unit := do
  let reference ← nextRef
  modifyLink fun l => { l with extensionsJoinRef := some reference }
  let l ← link
  write agent ⟨some reference, some reference, extensionsTopic, event.join, .value l.extensions.joinParams⟩

/-- Performs the frames of the extensions state machine. -/
def sendExtension : List Outgoing → Run σ Unit
  | [] => pure ()
  | .send ev payload :: rest => do
    let reference ← nextRef
    let l ← link
    write agent ⟨l.extensionsJoinRef, some reference, extensionsTopic, ev, .value payload⟩
    sendExtension rest
  | _ :: rest => sendExtension rest

def sendLog (line : LogLine) : Run σ Unit := do
  let l ← link
  sendExtension agent (l.extensions.log line)

/-- Log lines, batched if the attached version batches. -/
def sendLogs (lines : List LogLine) : Run σ Unit := do
  let l ← link
  match l.extensions.logBatch lines with
  | some batch => do
    let reference ← nextRef
    write agent ⟨l.extensionsJoinRef, some reference, extensionsTopic, event.loggingSend, .batch batch⟩
  | none => sendExtension agent (l.extensions.logs lines)

/-! ### Handling what arrives -/

def decide (payload : UpdatePayload) : Run σ Action :=
  if payload.actionable.isNone then pure .none
  else do
    match ← updateAvailable agent payload with
    | .apply => pure (.applyUpdate payload)
    | .ignore reason => do
      sendStatus agent "ignored" (.obj [("reason", .string reason)])
      pure .none
    | .reschedule delayMs reason => do
      sendStatus agent "rescheduled" (.obj [("delay_for", .nat delayMs), ("reason", .string reason)])
      pure .none

def refusal (m : Message) : String := ((m.replyResponse.bind (·.get "reason")).bind Value.asStr).getD "unknown"

/-- What the reply to the join carries: NervesHub answers it with the update payload. -/
def decideResponse (response : Option Value) : Run σ Action :=
  match response with
  | some response => do
    let payload ← ofExcept (UpdatePayload.parse response)
    decide agent payload
  | none => pure .none

def handleReply (m : Message) : Run σ Action := do
  let l ← link
  if l.joinRef ≠ m.reference then pure .none
  else if !m.isOkReplyTo (l.joinRef.getD "") then throw (.joinRefused (refusal m))
  else do
    modifyLink fun l => { l with joined := true }
    decideResponse agent m.replyResponse

def handleExtensionFrame (m : Message) : Run σ Action := do
  let l ← link
  if m.event = event.reply then
    if l.extensionsJoinRef = m.reference then do
      let confirmations ← update (fun d =>
        ((d.link.extensions.onJoinReply (m.replyResponse.getD (.array []))).1,
          { d with link := { d.link with
            extensions := (d.link.extensions.onJoinReply (m.replyResponse.getD (.array []))).2 } })) fun _ => []
      sendExtension agent confirmations
      pure .none
    else pure .none
  else
    match l.extensions.onEvent m.event with
    | [] => pure .none
    | outgoing => pure (.extension outgoing)

def handleConsoleFrame (m : Message) : Run σ Action := do
  let l ← link
  if m.event = event.reply then
    if l.consoleJoinRef = m.reference then do
      sendConsole agent prompt
      pure .none
    else pure .none
  else if m.event = event.down then
    match (m.payload.get "data").bind Value.asStr with
    | some data => pure (.console data)
    | none => pure .none
  else if m.event = event.restart then pure .consoleRestart
  else if m.event = event.fileDataStart || m.event = event.fileData || m.event = event.fileDataStop then do
    sendConsole agent "\r\nfile transfer is not supported on this device\r\n"
    pure .none
  else pure .none

/-- Any reply on the control topic that answers the last heartbeat proves the server is there. -/
def handleControlFrame (m : Message) : Run σ Action := do
  modifyLink fun l =>
    if m.event = event.reply && m.reference.isSome && m.reference = l.heartbeatRef then { l with heartbeatRef := none }
    else l
  pure .none

def handleDeviceFrame (m : Message) : Run σ Action :=
  if m.event = event.reply then handleReply agent m
  else if m.event = event.update then do
    let payload ← ofExcept (UpdatePayload.parse m.payload)
    decide agent payload
  else if m.event = event.reboot then pure .reboot
  else if m.event = event.identify then pure .identify
  else if m.event = event.extensionsGet then do
    modifyLink fun l => { l with extensions := l.extensions.onInvitation m.payload }
    pure .none
  else if m.event = event.close || m.event = event.error then do
    modifyLink fun l => { l with joined := false, extensions := l.extensions.disconnected }
    pure .reconnect
  else pure .none

def handleMessage (m : Message) : Run σ Action :=
  if m.topic = extensionsTopic then handleExtensionFrame agent m
  else if m.topic = consoleTopic then handleConsoleFrame agent m
  else if m.topic = controlTopic then handleControlFrame m
  else handleDeviceFrame agent m

/-- Feeds one received frame in; what the caller must do comes back. -/
def handle (frame : Frame) : Run σ Action :=
  match Message.decodeFrame frame with
  | .ok m => handleMessage agent m
  | .error text => throw (.protocol text)

end Link

end

end NervesHub
