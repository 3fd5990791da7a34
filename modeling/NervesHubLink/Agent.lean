import NervesHubLink.Link

/-! The run loop (`agent.rs`). -/

namespace NervesHub
open Act Prog

def logSendIntervalMs : Nat := 250
def logBatchIntervalMs : Nat := 1000
def logBatchMaxLines : Nat := 100
def logBatchMaxBytes : Nat := 3000
def extensionsInvitationWaitMs : Nat := 5000

/-- What a session keeps from one turn of its loop to the next. -/
structure Session where
  confirmed : Bool
  extensionsJoined : Bool
  extensionsReported : Bool
  consoleJoined : Bool
  lastLog : Nat
  lastHeartbeat : Nat
  joinedAt : Option Nat
  healthAnswered : Bool
  deriving DecidableEq, Repr

/-! ### Building a terminal -/

/-- What the built-in commands that need the device do. -/
structure DeviceCommands (σ : Type) where
  heap : List String → σ → (List String × Except Error Unit) × σ
  wifi : List String → σ → (List String × Except Error Unit) × σ
  partitions : List String → σ → (List String × Except Error Unit) × σ
  resetReason : List String → σ → (List String × Except Error Unit) × σ

def DeviceCommands.commands {σ : Type} (d : DeviceCommands σ) : List (Command σ) :=
  [⟨"heap", "memory, and how fragmented it is", d.heap⟩,
    ⟨"wifi", "ssid, signal and address", d.wifi⟩,
    ⟨"partitions", "which slot runs, and the other's state", d.partitions⟩,
    ⟨"reset-reason", "why it last rebooted", d.resetReason⟩]

/-- What the commands do that come with the terminal. On the host there are none for a device. -/
structure Builtins (σ : Type) where
  uptime : List String → σ → (List String × Except Error Unit) × σ
  device : Option (DeviceCommands σ)
  info : List String → σ → (List String × Except Error Unit) × σ

namespace Agent
variable {σ : Type}

/-- Adds a command in place of one of the same name, if there is a terminal. -/
def command (agent : Agent σ) (c : Command σ) : Agent σ :=
  { agent with console := agent.console.map fun commands => commands.filter (·.name != c.name) ++ [c] }

def deviceCommands (agent : Agent σ) (device : Option (DeviceCommands σ)) : Agent σ :=
  match device with
  | some d => d.commands.foldl command agent
  | none => agent

/-- Offers a terminal, with a fixed set of commands. -/
def withConsole (agent : Agent σ) (b : Builtins σ) : Agent σ :=
  let agent := { agent with console := some (agent.console.getD []) }
  let agent := agent.command ⟨"uptime", "time since boot", b.uptime⟩
  (agent.deviceCommands b.device).command ⟨"info", "firmware and device identity", b.info⟩

end Agent

section
variable {σ : Type} [Serde] (agent : Agent σ)

/-! ### The terminal -/

/-- `log`: shows or changes what is forwarded. -/
def logCommand (args : List String) : Run σ String := do
  let d ← own
  match d.logs with
  | none => pure (Output.new.writeStr "log: this device is not sending logs to NervesHub").finish
  | some b =>
    match args with
    | [] => pure (Output.new.writePieces ["log level is ", b.level.asStr.toLower]).finish
    | level :: _ =>
      match Level.parse level with
      | some level => do
        onLogs (fun b => ((), b.setLevel level)) () fun _ => []
        pure (Output.new.writePieces ["log level is now ", level.asStr.toLower]).finish
      | none =>
        pure (Output.new.writePieces
          ["log: unknown level ", Serde.debugStr level, ", try error/warn/info/debug/trace"]).finish

/-- Runs one line; what to print comes back. -/
def Console.run (commands : List (Command σ)) : Option (String × List String) → Run σ String
  | none => pure ""
  | some (name, args) =>
    if name = "log" then logCommand args
    else if name = "help" then pure (helpOutput commands)
    else
      match commands.find? (·.name == name) with
      | some command => do
        let (written, result) ← call (command.run args) fun _ => [.ran name args]
        pure (commandOutput name written result)
      | none => pure (unknownCommand name)

/-- Answers the completed lines in turn. The first answer carries `reply`, the echo. Whether a command asked
    for a restart comes back. -/
def answerLines (commands : List (Command σ)) (reply : String) : List String → Run σ Bool
  | [] => do
    Link.sendConsole agent reply
    pure false
  | line :: rest =>
    if (parse line).any (·.1 == "reboot") then do
      Link.sendConsole agent (reply ++ "rebooting\r\n")
      sleep agent .restarting (.fromMillis 250)
      restart agent
      pure true
    else do
      let output ← Console.run commands (parse line)
      Link.sendConsole agent (reply ++ (if output.isEmpty then "" else output ++ "\r\n") ++ prompt)
      answerLines commands "" rest

/-- Echoes what was typed, runs any completed line, and prints the prompt. -/
def answerConsole (data : String) : Run σ Bool :=
  match agent.console with
  | none => pure false
  | some commands => do
    let (echo, lines) ← update (fun d => ((d.reader.feed data).1, { d with reader := (d.reader.feed data).2 })) fun _ => []
    answerLines agent commands echo lines

/-! ### Extensions -/

def Agent.readLocation : Run σ (Option Location) :=
  match agent.location with
  | some provider => call provider fun l => [.located l]
  | none => pure none

/-- What answers one need, from the application's providers. -/
def answerNeed : Outgoing → Run σ (List Outgoing)
  | .needLocation => do
    let location ← agent.readLocation
    pure (Extensions.location location)
  | .needHealth =>
    match agent.health with
    | some provider => do
      let report ← call provider fun r => [.healthRead r]
      pure (Extensions.healthReport report)
    | none => pure []
  | other => pure [other]

def answerExtension : List Outgoing → Run σ Unit
  | [] => pure ()
  | need :: rest => do
    let answer ← answerNeed agent need
    Link.sendExtension agent answer
    answerExtension rest

/-! ### Logs -/

/-- The interval between log messages, and the lines that one carries. -/
def Link.logPace (l : Link) : Nat × Nat :=
  if l.extensions.loggingBatched then (logBatchIntervalMs, logBatchMaxLines) else (logSendIntervalMs, 1)

/-- Takes what the log buffer holds and sends it. -/
def drainLogs (maxLines now lastLog : Nat) : Run σ Nat := do
  let micros ← call agent.wallMicros fun _ => []
  let lines ← takeStamped agent maxLines logBatchMaxBytes (unixMicros micros)
  if lines.isEmpty then pure lastLog
  else do
    Link.sendLogs agent lines
    pure now

/-- Sends what the log buffer holds, at the pace that the attached logging version allows. When logs were
    last sent comes back. -/
def sendLogs (now lastLog : Nat) : Run σ Nat := do
  let d ← own
  if d.logs.isNone || !d.link.loggingAttached then pure lastLog
  else if now - lastLog < d.link.logPace.1 then pure lastLog
  else drainLogs agent d.link.logPace.2 now lastLog

/-! ### Updates -/

namespace Pump

def tick : Run σ Unit := do
  let now ← nowMs agent
  let d ← own
  when (agent.config.heartbeatMs ≤ now - d.pump.lastHeartbeat) do
    Link.sendHeartbeat agent
    modifyOwn fun d => { d with pump := { d.pump with lastHeartbeat := now } }
  let d ← own
  let lastLog ← sendLogs agent now d.pump.lastLog
  modifyOwn fun d => { d with pump := { d.pump with lastLog := lastLog } }

def report (stage : Stage) (percent : Nat) : Run σ Unit := do
  call (agent.handler.progress stage percent) fun _ => [.progressed stage percent]
  Link.sendProgress agent stage percent

/-- One turn of `wait`. -/
def waitTurn (until_ : Nat) : Run σ (Turn Unit Unit) := do
  tick agent
  let now ← nowMs agent
  if until_ ≤ now then pure (.done ())
  else do
    sleep agent .retrying (.fromMillis (min (until_ - now) 1000))
    pure (.next ())

/-- Heartbeats and logs keep going out between two attempts to start a download. -/
def wait (d : Duration) : Run σ Unit := do
  let now ← nowMs agent
  loop (fun _ => waitTurn agent ((now + d.asMillis) % 2 ^ 64)) ()

/-- `impl Progress for Pump`. -/
def progress : Progress (World σ) := ⟨tick agent, report agent, wait agent⟩

end Pump

variable [Sha256]

def Agent.download (update : UpdatePayload) : Run σ Unit := do
  tryCall agent.platform.http fun r => [.httpStarted r]
  tryCall agent.platform.beginUpdate fun r => [.updateBegun r]
  let now ← nowMs agent
  modifyOwn fun d => { d with pump := ⟨now, now⟩ }
  let _ ← install update (imageStream agent) (imageSink agent) agent.config.progressStepPercent (Pump.progress agent)
  pure ()

/-- The last three messages of an update that was applied. -/
def announceApplied : Run σ Unit := do
  Link.sendProgress agent .updating 100
  Link.sendStatus agent "completed" (.obj [])
  Link.sendRebooting agent

/-- The download, during which the link says what is being downloaded. -/
def Agent.fetch (update : UpdatePayload) : Run σ (Except Error Unit) := do
  when (update.actionable.isSome = true) (Link.setDownloading (update.actionable.map (·.2)))
  let outcome ← attempt (agent.download update)
  Link.setDownloading none
  pure outcome

/-- Downloads and installs. Whether the device is now rebooting comes back. -/
def Agent.apply (update : UpdatePayload) : Run σ Bool := do
  match ← agent.fetch update with
  | .ok () => do
    announceApplied agent
    sleep agent .restarting (.fromMillis 250)
    restart agent
    pure true
  | .error err => do
    Link.sendStatus agent "failed" (.obj [("reason", .string err.statusReason)])
    pure false

/-! ### A session -/

/-- Tells NervesHub that the running image is good, and cancels any rollback. -/
def confirmRunningImage : Run σ Unit := do
  let pending ← pendingVerify agent
  when (pending = true) (markValid agent)
  Link.sendFirmwareValidated agent

/-- Once the join is accepted, and once only. -/
def confirm (a : Session) : Run σ Session := do
  let l ← link
  if l.joined && !a.confirmed then do
    modifyOwn fun d => { d with joined := true }
    let now ← nowMs agent
    confirmRunningImage agent
    pure { a with joinedAt := some now, confirmed := true }
  else pure a

def invitationOverdue (a : Session) : Run σ Bool :=
  match a.joinedAt with
  | some joinedAt => do
    let now ← nowMs agent
    pure (extensionsInvitationWaitMs ≤ now - joinedAt)
  | none => pure false

/-- Joins the extensions channel when the platform asks, or when it has not asked for long enough. -/
def joinExtensions (a : Session) : Run σ Session := do
  let overdue ← invitationOverdue agent a
  let l ← link
  if l.joined && l.extensions.wanted && !a.extensionsJoined && (l.extensions.invited || overdue) then do
    Link.sendExtensionsJoin agent
    pure { a with extensionsJoined := true }
  else pure a

def joinConsole (a : Session) : Run σ Session := do
  let l ← link
  if l.joined && l.consoleWanted && !a.consoleJoined then do
    Link.sendConsoleJoin agent
    pure { a with consoleJoined := true }
  else pure a

/-- Which extensions were attached is logged once. -/
def reportAttached (a : Session) : Run σ Session := do
  let l ← link
  pure { a with extensionsReported := a.extensionsReported || l.extensions.joined }

def heartbeat (now : Nat) (a : Session) : Run σ Session :=
  if agent.config.heartbeatMs ≤ now - a.lastHeartbeat then do
    let l ← link
    if l.heartbeatUnanswered then
      throw (.transport s!"no reply to a heartbeat in {agent.config.heartbeatMs / 1000}s")
    else do
      Link.sendHeartbeat agent
      pure { a with lastHeartbeat := now }
  else pure a

def pumpLogs (now : Nat) (a : Session) : Run σ Session := do
  let lastLog ← sendLogs agent now a.lastLog
  pure { a with lastLog := lastLog }

/-- Asks the caller of an open-ended session. Whether it wants to leave comes back. -/
def askControl (control : Option (σ → Control × σ)) : Run σ Bool :=
  match control with
  | none => pure false
  | some ask => do
    match ← call ask fun c => [.controlled c] with
    | .stay => pure false
    | .reportHealth => do
      let l ← link
      when (l.healthAttached = true) (answerExtension agent [.needHealth])
      pure false
    | .leave => pure true

def logsSent : Run σ Bool := do
  let l ← link
  if !l.loggingAttached then pure true
  else do
    let logs ← logBuffer agent
    pure (logs.all (·.isEmpty))

/-- Whether a bounded session has nothing left to wait for. -/
def nothingOutstanding (healthAnswered : Bool) : Run σ Bool := do
  let l ← link
  let logs ← logsSent agent
  pure ((!l.extensions.wanted || l.extensions.joined) &&
    (agent.health.isNone || !l.healthAttached || healthAnswered) && logs)

def windowEnds (window : Option SessionWindow) (started now : Nat) (a : Session) : Run σ Bool :=
  match window with
  | none => pure false
  | some window => do
    let l ← link
    if window.limit.asMillis ≤ now - started then
      if !l.joined then throw (.transport "no join reply inside the session limit") else pure true
    else if a.joinedAt.any (fun joinedAt => window.linger.asMillis ≤ now - joinedAt) then
      nothingOutstanding agent a.healthAnswered
    else pure false

/-- Does what a frame asked for. -/
def perform (a : Session) : Action → Run σ (Turn Session (Option Stopped))
  | .applyUpdate update => do
    if ← agent.apply update then pure (.done (some .rebooting))
    else do
      let now ← nowMs agent
      pure (.next { a with lastHeartbeat := now })
  | .reboot => do
    Link.sendRebooting agent
    restart agent
    pure (.done (some .rebooting))
  | .identify =>
    match agent.identify with
    | some identify => do
      call identify fun _ => [.identified]
      pure (.next a)
    | none => pure (.next a)
  | .console data => do
    if ← answerConsole agent data then pure (.done (some .rebooting)) else pure (.next a)
  | .consoleRestart => do
    when (agent.console.isSome = true) (modifyOwn fun d => { d with reader := .new })
    Link.sendConsole agent ("\r\n" ++ prompt)
    pure (.next a)
  | .reconnect => pure (.done none)
  | .extension needs => do
    answerExtension agent needs
    pure (.next { a with healthAnswered := a.healthAnswered || needs.any Outgoing.isNeedHealth })
  | .none => pure (.next a)

/-- The next frame, and what comes of it. A message that cannot be handled ends the session. -/
def listen (a : Session) : Run σ (Turn Session (Option Stopped)) := do
  match ← attempt (recvFrame agent) with
  | .error _ => pure (.done none)
  | .ok none => pure (.next a)
  | .ok (some frame) => do
    match ← attempt (Link.handle agent frame) with
    | .ok action => perform agent a action
    | .error _ => pure (.done none)

/-- What a turn of the session loop does before it waits for a frame. -/
def attend (a : Session) : Run σ (Nat × Session) := do
  let a ← confirm agent a
  let a ← joinExtensions agent a
  let a ← joinConsole agent a
  let a ← reportAttached a
  let now ← nowMs agent
  let a ← heartbeat agent now a
  let a ← pumpLogs agent now a
  pure (now, a)

/-- One turn of the session loop. -/
def turn (window : Option SessionWindow) (control : Option (σ → Control × σ)) (started : Nat) (a : Session) :
    Run σ (Turn Session (Option Stopped)) := do
  let (now, a) ← attend agent a
  if ← askControl agent control then pure (.done (some .finished))
  else if ← windowEnds agent window started now a then pure (.done (some .finished))
  else listen agent a

/-- Everything before the session loop: a new link, and its join. When it started comes back too. -/
def openSession : Run σ (Nat × Session) := do
  modifyLink fun _ =>
    if agent.console.isSome then (Link.new agent.config agent.metadata).wantConsole
    else Link.new agent.config agent.metadata
  let pending ← pendingVerify agent
  let reverted ← autoRevertDetected agent
  Link.sendJoin agent ⟨!pending, reverted⟩
  let lastLog ← nowMs agent
  let lastHeartbeat ← nowMs agent
  let started ← nowMs agent
  pure (started, ⟨false, false, false, false, lastLog, lastHeartbeat, none, false⟩)

/-- One connection's lifetime. `none` means reconnect. -/
def sessionWithin (window : Option SessionWindow) (control : Option (σ → Control × σ)) : Run σ (Option Stopped) := do
  let (started, a) ← openSession agent
  loop (turn agent window control started) a

def session : Run σ (Option Stopped) := sessionWithin agent none none

/-! ### Runs -/

/-- The wait after a session: a session that joined starts the backoff over. -/
def backOff (attempt : Nat) : Run σ (Turn Nat Stopped) := do
  let d ← own
  let attempt := if d.joined then 0 else attempt
  sleep agent .backoff (.fromSecs (agent.config.backoffFor attempt))
  pure (.next (if d.joined then attempt else attempt + 1))

/-- One connection of `run`, and the wait after it. -/
def connection (tries : Nat) : Run σ (Turn Nat Stopped) := do
  match ← attempt (connect agent) with
  | .error (.identity msg) => throw (.identity msg)
  | .error _ => do
    sleep agent .backoff (.fromSecs (agent.config.backoffFor tries))
    pure (.next (tries + 1))
  | .ok () => do
    modifyOwn fun d => { d with joined := false }
    match ← attempt (session agent) with
    | .ok (some stopped) => pure (.done stopped)
    | .ok none => backOff agent tries
    | .error (.transport _) => backOff agent tries
    | .error err => throw err

/-- Connects, stays connected, and applies updates. -/
def run : Run σ Stopped := loop (connection agent) 0

/-- What a bounded or open-ended session comes to, when the connection ended it. -/
def sessionResult : Option Stopped → Run σ Stopped
  | some stopped => pure stopped
  | none => do
    let d ← own
    throw (.transport s!"session ended by the connection (joined: {d.joined})")

/-- Connects once, does what NervesHub asks inside `window`, and returns. -/
def runSession (window : SessionWindow) : Run σ Stopped := do
  connect agent
  modifyOwn fun d => { d with joined := false }
  let stopped ← sessionWithin agent (some window) none
  sessionResult stopped

/-- Connects once and stays connected until `control` says to leave. -/
def runSessionUntil (control : σ → Control × σ) : Run σ Stopped := do
  connect agent
  modifyOwn fun d => { d with joined := false }
  let stopped ← sessionWithin agent none (some control)
  sessionResult stopped

end

end NervesHub
