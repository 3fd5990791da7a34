import NervesHubLink.TlsSession
import NervesHubLink.Transport

/-! The callbacks of the TLS transport (`tls.rs`), which the websocket client's task calls: what they ask of esp-tls, and
what becomes of the saved session, over the life of a device. The application may forget the session at any time. -/

namespace NervesHub
open Act Prog

/-! ### A set of sockets -/

/-- `fd_set`, a word of 32 bits after the other. -/
abbrev FdSet := List UInt32

namespace FdSet

def bits : Nat := 32

/-- `FD_SET`. What does not fit in the set is refused. -/
def add (set : FdSet) (fd : Int) : Option FdSet :=
  if fd < 0 then none
  else (set[fd.toNat / bits]?).map fun word => List.set set (fd.toNat / bits)
    (word ||| (1 <<< UInt32.ofNat (fd.toNat % bits)))

/-- `FD_ISSET`. -/
def contains (set : FdSet) (fd : Int) : Bool :=
  if fd < 0 then false
  else (set[fd.toNat / bits]?).any fun word => word &&& (1 <<< UInt32.ofNat (fd.toNat % bits)) != 0

end FdSet

inductive Direction where
  | read
  | write
  deriving DecidableEq, Repr

section
variable [MbedTls]

/-- A connection of esp-tls or a session, by a number that no other of them ever gets. -/
abbrev TlsObject := Nat

/-- `esp_tls_cfg_t`. A text in PEM goes with its length. -/
structure EspTlsCfg where
  cacert : Option (CStr × Nat)
  crtBundleAttach : Bool
  tlsVersion : TlsVersion
  clientcert : Option (CStr × Nat)
  clientkey : Option (CStr × Nat)
  timeoutMs : Int
  clientSession : Option (TlsObject × MbedtlsSession MbedTls.Rest)

/-- PEM lengths count the NUL. -/
def pem (text : CStr) : CStr × Nat := (text, text.toBytesWithNul.length)

def baseConfig (settings : TlsSettings) : EspTlsCfg where
  cacert := settings.serverCa.map pem
  crtBundleAttach := settings.serverCa.isNone
  tlsVersion := settings.version
  clientcert := settings.clientCertificate.map fun (certificate, _) => pem certificate
  clientkey := settings.clientCertificate.map fun (_, key) => pem key
  timeoutMs := 0
  clientSession := none

/-- What is asked of `select`: the end of the sockets' numbers, the sets, and the time in seconds and microseconds. -/
structure Selection where
  nfds : Int
  reads : Option FdSet
  writes : Option FdSet
  failed : FdSet
  timeout : Option (Nat × Nat)
  deriving DecidableEq

/-- esp-tls, mbedTLS and lwIP, from outside the repository, and what other threads do. -/
structure EspTls (σ : Type) where
  init : σ → Bool × σ
  connNewSync : CStr → Int → EspTlsCfg → σ → Int × σ
  connSockfd : σ → (EspErr × Int) × σ
  /-- `mbedtls_ssl_get_version`, if there is an SSL context. -/
  version : σ → Option String × σ
  /-- Whether mbedTLS has the server's certificate. -/
  peerCert : σ → Bool × σ
  clientSession : σ → Option (MbedtlsSession MbedTls.Rest) × σ
  connRead : Nat → σ → Int × σ
  connWrite : List UInt8 → σ → Int × σ
  bytesAvail : σ → Int × σ
  /-- How many are ready, and which have failed. -/
  select : Selection → σ → (Int × FdSet) × σ
  clocks : σ → Clocks × σ
  stopping : σ → Bool × σ
  /-- Whether the application has forgotten the session since the slot was last looked at. -/
  forgotten : σ → Bool × σ
  fdWords : Nat
  errConnectionFailed : Int
  errConnectionTimeout : Int
  errClosedByFin : Int
  errWantRead : Int
  errSslTimeout : Int

inductive TlsEvent where
  | init (tls : Option TlsObject)
  /-- A session was read back from bytes, or not. -/
  | loaded (object : TlsObject) (clocks : Clocks) (bytes : List UInt8) (session : Option (MbedtlsSession MbedTls.Rest))
  | connNew (tls : TlsObject) (cfg : EspTlsCfg) (offered : Option (List UInt8)) (result : Int)
  /-- Something was asked of a connection that it answers without the network. -/
  | asked (tls : TlsObject)
  /-- The socket that a connection has, if that could be told. -/
  | socket (tls : TlsObject) (err : EspErr) (fd : Int)
  | avail (tls : TlsObject) (n : Int)
  | selected (selection : Selection) (n : Int)
  | read (tls : TlsObject) (n : Int)
  | wrote (tls : TlsObject) (n : Int)
  | gave (tls object : TlsObject) (clocks : Clocks) (session : MbedtlsSession MbedTls.Rest)
  | sessionFreed (object : TlsObject)
  | destroyed (tls : TlsObject)
  | forgot
  | recorded (handshake : Handshake)
  | stored (bytes : List UInt8) (handshake : Handshake)
  | restored (bytes : List UInt8)

/-- A transport's context and the slot, beside the number of objects so far. -/
structure TlsTask where
  made : Nat
  session : TlsSession
  /-- Whether the transport has its context, which `destroy` takes from it. -/
  hasContext : Bool
  cfg : EspTlsCfg
  tls : Option TlsObject
  sockfd : Int
  /-- The socket that `Stop` has. -/
  socket : Int
  ticketDue : Option Handshake

abbrev TlsProg (σ α : Type) := Prog σ TlsEvent TlsTask Empty α

variable {σ : Type} (esp : EspTls σ)

/-- Something of the session's, under its lock. -/
def lockSession {α : Type} (f : TlsSession → α × TlsSession) (ev : List TlsEvent) : TlsProg σ α := do
  when ((← call esp.forgotten fun _ => []) = true)
    (update (fun o => ((), { o with session := o.session.forget })) fun _ => [.forgot])
  update (fun o => ((f o.session).1, { o with session := (f o.session).2 })) fun _ => ev

def newObject (ev : TlsObject → List TlsEvent) : TlsProg σ TlsObject :=
  update (fun o => (o.made, { o with made := o.made + 1 })) ev

def note (ev : List TlsEvent) : TlsProg σ Unit := update (fun o => ((), o)) fun _ => ev

/-- Does `f` with what there is, if there is something. -/
def ifSome {α : Type} (a : Option α) (f : α → TlsProg σ Unit) : TlsProg σ Unit :=
  match a with
  | some a => f a
  | none => pure ()

@[simp] theorem ifSome_some {α : Type} (a : α) (f : α → TlsProg σ Unit) : ifSome (some a) f = f a := rfl

@[simp] theorem ifSome_none {α : Type} (f : α → TlsProg σ Unit) : ifSome none f = pure () := rfl

def destroyTls (tls : TlsObject) : TlsProg σ Unit := note [.destroyed tls]

def freeSession (object : TlsObject) : TlsProg σ Unit := note [.sessionFreed object]

def reportTlsError (tls : TlsObject) : TlsProg σ Unit := note [.asked tls]

def initTls : TlsProg σ (Option TlsObject) := do
  if ← call esp.init fun _ => [] then do
    let tls ← newObject fun tls => [.init (some tls)]
    pure (some tls)
  else do
    note [.init none]
    pure none

/-- `LoadedSession::load`. One that was not loaded goes again at once. -/
def loadOffered : Option (List UInt8) → TlsProg σ (Option (TlsObject × MbedtlsSession MbedTls.Rest))
  | none => pure none
  | some bytes => do
    let clocks ← call esp.clocks fun _ => []
    let object ← newObject fun object => [.loaded object clocks bytes (loadSession clocks bytes)]
    match loadSession clocks bytes with
    | some session => pure (some (object, session))
    | none => do
      freeSession object
      pure none

/-- `save_session`. -/
def saveConnSession (tls : TlsObject) : TlsProg σ (Option (List UInt8)) := do
  match ← call esp.clientSession fun _ => [.asked tls] with
  | none => pure none
  | some session => do
    let clocks ← call esp.clocks fun _ => []
    let object ← newObject fun object => [.gave tls object clocks session]
    freeSession object
    pure (MbedTls.save (redateTicket clocks session .wall))

/-- `Context::close`. -/
def closeContext : TlsProg σ Unit := do
  modifyOwn fun o => { o with socket := -1 }
  ifSome (← own).tls fun tls => do
    destroyTls tls
    modifyOwn fun o => { o with tls := none }
  modifyOwn fun o => { o with sockfd := -1, ticketDue := none }

/-- What a callback does with its context, if there is one. -/
def withContext (absent : Int) (m : TlsProg σ Int) : TlsProg σ Int := do
  if (← own).hasContext then m else pure absent

/-! ### Connecting -/

/-- `esp_tls_conn_new_sync`, with the session that is loaded. -/
def openConn (host : CStr) (port : Int) (tls : TlsObject) (offered : Option (List UInt8)) : TlsProg σ Int := do
  let o ← own
  call (esp.connNewSync host port o.cfg) fun n => [.connNew tls o.cfg offered n]

/-- What a connection that was made says of its handshake. -/
def keepHandshake (tls : TlsObject) (offered : Option (List UInt8)) : TlsProg σ Unit := do
  let protocol ← call esp.version fun _ => [.asked tls]
  ifSome protocol fun protocol => lockSession esp (fun session => ((), session.negotiated protocol)) []
  if protocol = some "TLSv1.3" then do
    let peerCert ← call esp.peerCert fun _ => [.asked tls]
    let handshake : Handshake := if offered.isSome && !peerCert then .resumed else .full
    lockSession esp (fun session => ((), session.record handshake)) [.recorded handshake]
    modifyOwn fun o => { o with ticketDue := some handshake }
  else
    ifSome (← saveConnSession esp tls) fun fresh => do
      let handshake : Handshake := if offered = some fresh then .resumed else .full
      lockSession esp (fun session => ((), session.store fresh handshake)) [.stored fresh handshake]

def tlsConnect (host : CStr) (port timeoutMs : Int) : TlsProg σ Int := withContext (-1) do
  closeContext
  if ← call esp.stopping fun _ => [] then pure (-1)
  else do
    modifyOwn fun o => { o with cfg := { o.cfg with timeoutMs := timeoutMs } }
    match ← initTls esp with
    | none => pure (-1)
    | some tls => do
      let offered ← lockSession esp (fun session => (session.saved, session)) []
      let loaded ← loadOffered esp offered
      modifyOwn fun o => { o with cfg := { o.cfg with clientSession := loaded } }
      let connected ← openConn esp host port tls offered
      modifyOwn fun o => { o with cfg := { o.cfg with clientSession := none } }
      ifSome loaded fun (object, _) => freeSession object
      if connected ≤ 0 then do
        reportTlsError tls
        destroyTls tls
        when (offered.isSome = true) (lockSession esp (fun session => ((), session.forget)) [.forgot])
        pure (-1)
      else do
        let (err, fd) ← call esp.connSockfd fun r => [.socket tls r.1 r.2]
        modifyOwn fun o => { o with sockfd := fd }
        if err ≠ 0 then do
          destroyTls tls
          pure (-1)
        else do
          modifyOwn fun o => { o with tls := some tls, socket := fd }
          keepHandshake esp tls offered
          pure 0

/-! ### Waiting, reading and writing -/

/-- `None` waits until the socket is ready. -/
def selectOnce (fd : Int) (direction : Direction) (timeoutMs : Option Nat) : TlsProg σ Int :=
  let zeroed : FdSet := List.replicate esp.fdWords 0
  match zeroed.add fd with
  | none => pure (-1)
  | some set => do
    let selection : Selection := {
      nfds := fd + 1
      reads := if direction = .read then some set else none
      writes := if direction = .write then some set else none
      failed := set
      timeout := timeoutMs.map fun ms => (ms / 1000, ms % 1000 * 1000) }
    let (n, failed) ← call (esp.select selection) fun r => [.selected selection r.1]
    if 0 < n ∧ failed.contains fd = true then pure (-1) else pure n

/-- A negative timeout waits for ever. -/
def tlsWait (fd : Int) (direction : Direction) (timeoutMs : Int) : TlsProg σ Int := do
  if ← call esp.stopping fun _ => [] then pure 0
  else do
    let n ← selectOnce esp fd direction (if timeoutMs < 0 then none else some timeoutMs.toNat)
    if ← call esp.stopping fun _ => [] then pure 0 else pure n

def pollRead (timeoutMs : Int) : TlsProg σ Int := do
  let o ← own
  match o.tls with
  | none => pure (-1)
  | some tls => do
    let buffered ← call esp.bytesAvail fun n => [.avail tls n]
    if 0 < buffered then pure buffered else tlsWait esp o.sockfd .read timeoutMs

def pollWrite (timeoutMs : Int) : TlsProg σ Int := do
  let o ← own
  match o.tls with
  | none => pure (-1)
  | some _ => tlsWait esp o.sockfd .write timeoutMs

/-- A ticket that a read has taken in is kept. -/
def keepTicket (tls : TlsObject) : TlsProg σ Unit := do
  ifSome (← own).ticketDue fun handshake => do
    ifSome (← saveConnSession esp tls) fun ticket => do
      lockSession esp (fun session => ((), session.store ticket handshake)) [.stored ticket handshake]
      modifyOwn fun o => { o with ticketDue := none }

def tlsRead (len : Nat) (timeoutMs : Int) : TlsProg σ Int := withContext (-1) do
  let ready ← pollRead esp timeoutMs
  if ready < 0 then pure esp.errConnectionFailed
  else if ready = 0 then pure esp.errConnectionTimeout
  else
    match (← own).tls with
    | none => pure (-1)
    | some tls => do
      let n ← call (esp.connRead len) fun n => [.read tls n]
      keepTicket esp tls
      if n = esp.errWantRead ∨ n = esp.errSslTimeout then pure esp.errConnectionTimeout
      else if n < 0 then do
        reportTlsError tls
        pure n
      else if n = 0 then pure esp.errClosedByFin
      else pure n

def tlsWrite (bytes : List UInt8) (timeoutMs : Int) : TlsProg σ Int := withContext (-1) do
  let ready ← pollWrite esp timeoutMs
  if ready ≤ 0 then pure ready
  else
    match (← own).tls with
    | none => pure (-1)
    | some tls => do
      let n ← call (esp.connWrite bytes) fun n => [.wrote tls n]
      when (n < 0) (reportTlsError tls)
      pure n

def tlsClose : TlsProg σ Int := withContext 0 do
  closeContext
  pure 0

def tlsDestroy : TlsProg σ Int := withContext 0 do
  closeContext
  modifyOwn fun o => { o with hasContext := false }
  pure 0

/-! ### The life of a device -/

inductive TlsCall where
  | connect (host : CStr) (port timeoutMs : Int)
  | read (len : Nat) (timeoutMs : Int)
  | write (bytes : List UInt8) (timeoutMs : Int)
  | pollRead (timeoutMs : Int)
  | pollWrite (timeoutMs : Int)
  | close
  | destroy

def callback : TlsCall → TlsProg σ Int
  | .connect host port timeoutMs => tlsConnect esp host port timeoutMs
  | .read len timeoutMs => tlsRead esp len timeoutMs
  | .write bytes timeoutMs => tlsWrite esp bytes timeoutMs
  | .pollRead timeoutMs => withContext (-1) (pollRead esp timeoutMs)
  | .pollWrite timeoutMs => withContext (-1) (pollWrite esp timeoutMs)
  | .close => tlsClose
  | .destroy => tlsDestroy

/-- A transport from `tls::transport` to `esp_transport_destroy`. -/
def transportLife (settings : TlsSettings) (calls : List TlsCall) : TlsProg σ Unit := do
  modifyOwn fun o =>
    { o with hasContext := true, cfg := baseConfig settings, tls := none, sockfd := -1, socket := -1, ticketDue := none }
  calls.forM fun c => do let _ ← callback esp c
  let _ ← tlsDestroy

/-- A boot, with the session that was kept through a sleep or with any other bytes. -/
structure TlsBoot where
  handed : Option (List UInt8)
  transports : List (TlsSettings × List TlsCall)

def bootLife (boot : TlsBoot) : TlsProg σ Unit := do
  match boot.handed with
  | some bytes => update (fun o => ((), { o with session := .restore bytes })) fun _ => [.restored bytes]
  | none => modifyOwn fun o => { o with session := .restore (o.session.saved.getD []) }
  boot.transports.forM fun (settings, calls) => transportLife esp settings calls

def deviceLife (boots : List TlsBoot) : TlsProg σ Unit := boots.forM (bootLife esp)

/-- Before the first boot. -/
def TlsTask.new : TlsTask := ⟨0, .new, false, baseConfig ⟨none, none, .any⟩, none, -1, -1, none⟩

end

end NervesHub
