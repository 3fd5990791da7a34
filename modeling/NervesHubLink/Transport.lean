import NervesHubLink.Config
import NervesHubLink.Credentials
import NervesHubLink.Inbound
import NervesHubLink.Lib.Ownership
import NervesHubLink.Ota

/-! The websocket over ESP-IDF's client, and what it is made of (`transport.rs`, and `transport` of `tls.rs`): two
transports, the client that runs over them, and the box that the client's events go to. -/

namespace NervesHub
open Act Prog

inductive TlsVersion where
  | any
  | tls12
  | tls13
  deriving DecidableEq, Repr

def Serializer.vsn : Serializer → String
  | .json => "2.0.0"
  | .msgPack => "3.0.0"

/-- `Config`, with what a connection is made from. -/
structure SocketConfig extends Config where
  host : String
  port : UInt16
  credentials : Credentials
  /-- `None` uses ESP-IDF's certificate bundle. -/
  serverCa : Option CStr
  useTls : Bool
  connectTimeoutSecs : Nat
  tlsVersion : TlsVersion

namespace SocketConfig

def socketPath (c : SocketConfig) : String := s!"/device-socket/websocket?vsn={c.serializer.vsn}"

def socketUrl (c : SocketConfig) : String :=
  let scheme := if c.useTls then "wss" else "ws"
  s!"{scheme}://{c.host}:{c.port.toNat}{c.socketPath}"

end SocketConfig

/-- A transport, a client or a box, by a number that no other of them ever gets. -/
abbrev Handle := Nat

/-- What is made so far of a transport. -/
structure Partial where
  client : Option Handle
  ws : Option Handle
  base : Option Handle
  events : Option Handle
  deriving DecidableEq, Repr

def Partial.default : Partial := ⟨none, none, none, none⟩

structure WebSocketTransport where
  client : Handle
  ws : Handle
  base : Handle
  /-- Whether there is a `Stopper`: for a `base` of `tls.rs`. -/
  stopper : Bool
  events : Handle
  recvTimeout : Duration
  sendTimeout : Duration
  deriving DecidableEq, Repr

/-- What the websocket's transport is set up with. -/
structure WsConfig where
  wsPath : CStr
  headers : Option CStr
  propagateControlFrames : Bool

/-- What the client is set up with. -/
structure ClientConfig where
  uri : CStr
  pingIntervalSec : Nat
  disablePingpongDiscon : Bool
  bufferSize : Nat
  networkTimeoutMs : Int32

/-- What `tls::transport` is set up with. -/
structure TlsSettings where
  serverCa : Option CStr
  clientCertificate : Option (CStr × CStr)
  version : TlsVersion

/-- What a wait for the channel from the client's events ends with. -/
inductive Arrival where
  | incoming (incoming : Incoming)
  | timeout
  | disconnected

/-- ESP-IDF's client and transports, from outside the repository, and the rest of what a connection asks of the device.
    What makes something answers whether there was memory for it. -/
structure EspSocket (σ : Type) where
  tcpInit : σ → Bool × σ
  tlsInit : TlsSettings → σ → Bool × σ
  wsInit : σ → Bool × σ
  wsSetConfig : WsConfig → σ → EspErr × σ
  clientInit : ClientConfig → σ → Bool × σ
  registerEvents : σ → EspErr × σ
  clientStart : σ → EspErr × σ
  isConnected : σ → Bool × σ
  sendText : String → σ → Int × σ
  sendBin : List UInt8 → σ → Int × σ
  recvTimeout : Duration → σ → Arrival × σ
  endsSession : Nat → σ → Bool × σ
  now : σ → Nat × σ
  sleep : Nat → σ → Unit × σ
  /-- Seconds since the epoch, if it is past. -/
  wallSecs : σ → Option Nat × σ
  stop : σ → Unit × σ
  clientDestroy : σ → EspErr × σ
  transportDestroy : σ → EspErr × σ
  errText : EspErr → String
  /-- `CONFIG_MBEDTLS_SSL_PROTO_TLS1_3`. -/
  hasTls13 : Bool

/-- What is done with what a transport is made of. -/
inductive TransportEvent where
  | baseInit (base : Option Handle)
  | wsInit (base : Handle) (ws : Option Handle)
  | wsConfigured (ws : Handle) (err : EspErr)
  | clientInit (ws : Handle) (client : Option Handle)
  | eventsBoxed (events : Handle)
  | eventsRegistered (client events : Handle) (err : EspErr)
  | clientStarted (client : Handle) (err : EspErr)
  | askedConnected (client : Handle) (connected : Bool)
  | sent (client : Handle) (result : Int)
  | eventsLocked (events : Handle)
  | stopped
  | clientDestroyed (client : Handle)
  | transportDestroyed (transport : Handle)
  | eventsFreed (events : Handle)
  /-- The client's own task gets at something. -/
  | task (client h : Handle)
  deriving DecidableEq, Repr

/-- What has been made so far, and how many handles have been. -/
structure Sockets where
  made : Nat
  held : Partial

abbrev SocketProg (σ α : Type) := Prog σ TransportEvent Sockets Error α

section
variable {σ : Type} (idf : EspSocket σ)

/-- Makes something of a handle of its own, unless there is no memory for it. -/
def makeHandle (f : σ → Bool × σ) (ev : Option Handle → TransportEvent) : SocketProg σ (Option Handle) := fun s =>
  let (ok, env) := f s.env
  if ok then (.ret (some s.own.made), { s with
    env := env, own := { s.own with made := s.own.made + 1 }, trace := ev (some s.own.made) :: s.trace })
  else (.ret none, { s with env := env, trace := ev none :: s.trace })

def modifyHeld (f : Partial → Partial) : SocketProg σ Unit := modifyOwn fun o => { o with held := f o.held }

def nonnull (handle : Option Handle) (what : String) : Except Error Handle :=
  match handle with
  | none => .error (.transport s!"no memory for the {what}")
  | some handle => .ok handle

def makeTransport (f : σ → Bool × σ) (ev : Option Handle → TransportEvent) (what : String) : SocketProg σ Handle := do
  ofExcept (nonnull (← makeHandle f ev) what)

def cstring (s : String) : Except Error CStr :=
  match CStr.new (asBytes s) with
  | none => .error (.transport "a NUL byte in the socket settings")
  | some cstring => .ok cstring

def EspSocket.esp (err : EspErr) : Except Error Unit := if err = 0 then .ok () else .error (.transport (idf.errText err))

/-- `tls::transport`: a build without TLS 1.3 refuses to go without it. -/
def tlsTransport (settings : TlsSettings) : SocketProg σ Handle :=
  if settings.version = .tls13 ∧ !idf.hasTls13 then
    throw (.transport "TLS 1.3 asked for, but this build has no TLS 1.3 (CONFIG_MBEDTLS_SSL_PROTO_TLS1_3)")
  else makeTransport (idf.tlsInit settings) .baseInit "TLS transport"

/-! ### Releasing -/

def destroyClient (client : Handle) : SocketProg σ Unit := do
  let _ ← call idf.clientDestroy fun _ => [.clientDestroyed client]

def destroyTransport (transport : Handle) : SocketProg σ Unit := do
  let _ ← call idf.transportDestroy fun _ => [.transportDestroyed transport]

def freeEvents (events : Handle) : SocketProg σ Unit := call (fun env => ((), env)) fun _ => [.eventsFreed events]

/-- Does `f` to a handle that is not null. -/
def unlessNull (handle : Option Handle) (f : Handle → SocketProg σ Unit) : SocketProg σ Unit :=
  match handle with
  | some handle => f handle
  | none => pure ()

/-- `impl Drop for Partial`. -/
def Partial.drop : SocketProg σ Unit := do
  let o ← own
  unlessNull o.held.client (destroyClient idf)
  unlessNull o.held.ws (destroyTransport idf)
  unlessNull o.held.base (destroyTransport idf)
  unlessNull o.held.events freeEvents

/-- `impl Drop for WebSocketTransport`. -/
def WebSocketTransport.drop (t : WebSocketTransport) : SocketProg σ Unit := do
  when (t.stopper = true) (call idf.stop fun _ => [.stopped])
  destroyClient idf t.client
  destroyTransport idf t.ws
  destroyTransport idf t.base
  freeEvents t.events

/-- Runs `m`, and `clean` before its error goes on to the caller. -/
def cleaningUp {α : Type} (clean : SocketProg σ Unit) (m : SocketProg σ α) : SocketProg σ α := do
  match ← attempt m with
  | .ok a => pure a
  | .error e => do
    clean
    throw e

/-! ### Connecting -/

variable [Signing]

/-- What a device proves who it is with: a certificate for the TLS handshake, or headers for the websocket's. -/
def authentication (config : SocketConfig) : SocketProg σ (Option (CStr × CStr) × Option String) :=
  match config.credentials with
  | .clientCertificate certificate privateKey => pure (some (certificate, privateKey), none)
  | .sharedSecret identifier secret => do
    let signedAt ← call idf.wallSecs fun _ => []
    let headers := secret.headers identifier ((signedAt.map Int64.ofNat).getD 0)
    pure (none, some (String.join (headers.map fun (name, value) => s!"{name}: {value}\r\n")))

def makeBase (config : SocketConfig) (clientCertificate : Option (CStr × CStr)) : SocketProg σ (Handle × Bool) :=
  if config.useTls then do
    let base ← tlsTransport idf ⟨config.serverCa, clientCertificate, config.tlsVersion⟩
    modifyHeld fun p => { p with base := some base }
    pure (base, true)
  else do
    let base ← makeTransport idf.tcpInit .baseInit "TCP transport"
    modifyHeld fun p => { p with base := some base }
    pure (base, false)

/-- The websocket's transport over `base`, set up for the upgrade. -/
def makeWs (config : SocketConfig) (headers : Option String) (base : Handle) : SocketProg σ Handle := do
  let ws ← makeTransport idf.wsInit (.wsInit base) "websocket transport"
  modifyHeld fun p => { p with ws := some ws }
  let path ← ofExcept (cstring config.socketPath)
  let headers ← ofExcept (headers.mapM cstring)
  let err ← call (idf.wsSetConfig ⟨path, headers, true⟩) fun err => [.wsConfigured ws err]
  ofExcept (idf.esp err)
  pure ws

def websocketPingIntervalSecs : Nat := 24 * 60 * 60

/-- The client over `ws`, started, with its events going to a box of their own. -/
def makeClient (config : SocketConfig) (ws : Handle) : SocketProg σ (Handle × Handle) := do
  let uri ← ofExcept (cstring config.socketUrl)
  let clientConfig : ClientConfig :=
    ⟨uri, websocketPingIntervalSecs, true, 4096, Int32.ofNat (config.connectTimeoutSecs * 1000)⟩
  match ← makeHandle (idf.clientInit clientConfig) (.clientInit ws) with
  | none => throw (.transport "could not create the websocket client")
  | some client => do
    modifyHeld fun p => { p with client := some client }
    let events ← update (fun o => (o.made, { o with made := o.made + 1, held := { o.held with events := some o.made } }))
      fun events => [.eventsBoxed events]
    let err ← call idf.registerEvents fun err => [.eventsRegistered client events err]
    ofExcept (idf.esp err)
    let err ← call idf.clientStart fun err => [.clientStarted client err]
    ofExcept (idf.esp err)
    pure (client, events)

/-- `Partial::into_transport` at the end of what is made piece by piece. -/
def assemble (config : SocketConfig) : SocketProg σ WebSocketTransport := do
  let (clientCertificate, headers) ← authentication idf config
  modifyHeld fun _ => .default
  cleaningUp (Partial.drop idf) do
    let (base, stopper) ← makeBase idf config clientCertificate
    let ws ← makeWs idf config headers base
    let (client, events) ← makeClient idf config ws
    modifyHeld fun _ => .default
    pure ⟨client, ws, base, stopper, events, .fromMillis 500, .fromSecs 10⟩

def WebSocketTransport.isConnected (t : WebSocketTransport) : SocketProg σ Bool :=
  call idf.isConnected fun connected => [.askedConnected t.client connected]

/-- Waits until there is a connection, or the deadline has passed. -/
def awaitConnected (t : WebSocketTransport) (deadline : Nat) : SocketProg σ Unit :=
  loop (fun _ => do
    if ← t.isConnected idf then pure (.done ())
    else if deadline ≤ (← call idf.now fun _ => []) then
      throw (.transport "timed out waiting for the WebSocket handshake")
    else do
      call (idf.sleep 50) fun _ => []
      pure (.next ())) ()

def WebSocketTransport.connect (config : SocketConfig) : SocketProg σ WebSocketTransport := do
  let t ← assemble idf config
  let now ← call idf.now fun _ => []
  cleaningUp (t.drop idf) (awaitConnected idf t (now + config.connectTimeoutSecs * 1000))
  pure t

/-! ### A connection in use -/

namespace WebSocketTransport

def send (t : WebSocketTransport) (frame : Frame) : SocketProg σ Unit := do
  let sent ← call (fun env => match frame with
    | .text text => idf.sendText text env
    | .binary bytes => idf.sendBin bytes env) fun sent => [.sent t.client sent]
  if sent < 0 then throw (.transport "websocket send failed") else pure ()

def recvFrame (t : WebSocketTransport) : SocketProg σ (Option Frame) := do
  match ← call (idf.recvTimeout t.recvTimeout) fun _ => [] with
  | .incoming (.frame frame) => do
    call (fun env => ((), env)) fun _ => [.eventsLocked t.events]
    pure (some frame)
  | .incoming .overflow => throw (.transport "too much arrived unread")
  | .incoming (.closed n) => do
    if ← call (idf.endsSession n) fun _ => [.eventsLocked t.events] then throw (.transport "websocket closed")
    else pure none
  | .timeout => pure none
  | .disconnected => throw (.transport "websocket closed")

end WebSocketTransport

/-- What a session does with its transport. -/
inductive SocketUse where
  | isConnected
  | send (frame : Frame)
  | recvFrame

def WebSocketTransport.use (t : WebSocketTransport) : SocketUse → SocketProg σ Unit
  | .isConnected => do let _ ← t.isConnected idf
  | .send frame => t.send idf frame
  | .recvFrame => do let _ ← t.recvFrame idf

/-- A session: what it does with its transport, whatever comes of it, until it lets go of it. -/
def socketLife (config : SocketConfig) (uses : List SocketUse) : SocketProg σ Unit := do
  match ← attempt (WebSocketTransport.connect idf config) with
  | .error _ => pure ()
  | .ok t => do
    uses.forM fun u => do let _ ← attempt (t.use idf u)
    t.drop idf

/-- One session after the other. -/
def socketLives (config : SocketConfig) (lives : List (List SocketUse)) : SocketProg σ Unit :=
  lives.forM (socketLife idf config)

end

end NervesHub
