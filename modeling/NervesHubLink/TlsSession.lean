import NervesHubLink.Lib.Clock

/-! A TLS session kept from one connection for the next (`tls_session.rs`), and what a connection does with it
(`tls.rs`). -/

namespace NervesHub

inductive Handshake where
  | resumed
  | full
  deriving DecidableEq, Repr

/-- A slot for the session. Its clones are the same slot. -/
structure TlsSession where
  saved : Option (List UInt8)
  last : Option Handshake
  protocol : Option String
  deriving DecidableEq, Repr

namespace TlsSession

def new : TlsSession := ⟨none, none, none⟩

/-- A slot with a session saved earlier. Empty bytes are none. -/
def restore (saved : List UInt8) : TlsSession := if saved.isEmpty then new else { new with saved := some saved }

def negotiated (s : TlsSession) (protocol : String) : TlsSession := { s with protocol := some protocol }

def forget (s : TlsSession) : TlsSession := { s with saved := none }

def store (s : TlsSession) (session : List UInt8) (handshake : Handshake) : TlsSession :=
  { s with saved := some session, last := some handshake }

def record (s : TlsSession) (handshake : Handshake) : TlsSession := { s with last := some handshake }

end TlsSession

/-- A date on one clock, moved to another: as long before `toNow` as it was before `fromNow`. -/
def rebase (date fromNow toNow : Int64) : Int64 :=
  let age := max (fromNow.saturatingSub date) 0
  toNow.saturatingSub age

/-! ### A session of mbedTLS -/

inductive ProtocolVersion where
  | unknown
  | tls12
  | tls13
  deriving DecidableEq, Repr

/-- `mbedtls_ssl_session`, as far as it is looked at. `R` is for what is not. -/
structure MbedtlsSession (R : Type) where
  tlsVersion : ProtocolVersion
  ticket : Option (List UInt8)
  ticketReceptionTime : Int64
  rest : R

/-- A session that resumes with a ticket, which has a date. -/
def MbedtlsSession.HasTicket {R : Type} (s : MbedtlsSession R) : Prop := s.tlsVersion = .tls13 ∧ s.ticket.isSome = true

instance {R : Type} (s : MbedtlsSession R) : Decidable s.HasTicket := inferInstanceAs (Decidable (_ ∧ _))

/-- `mbedtls_ssl_session_save` and `_load`, from outside the repository. A ticket comes back with its date, and none
    comes back where there was none. -/
class MbedTls where
  Rest : Type
  save : MbedtlsSession Rest → Option (List UInt8)
  load : List UInt8 → Option (MbedtlsSession Rest)
  hasTicket : ∀ s bytes s', save s = some bytes → load bytes = some s' → (s'.HasTicket ↔ s.HasTicket)
  date : ∀ s bytes s', save s = some bytes → load bytes = some s' → s.HasTicket →
    s'.ticketReceptionTime = s.ticketReceptionTime

structure Clocks where
  /-- `mbedtls_ms_time()`: milliseconds since the boot. -/
  mbedtls : Int64
  /-- Milliseconds since the epoch, if it is past. -/
  sinceEpoch : Option Nat
  deriving DecidableEq, Repr

/-- `as_millis() as i64`, which keeps the low 64 bits. -/
def Clocks.wall (c : Clocks) : Int64 := (c.sinceEpoch.map Int64.ofNat).getD 0

/-- The clock that a ticket's date is on: mbedTLS's while the session is in use, the wall clock while it is saved. -/
inductive TicketClock where
  | mbedtls
  | wall
  deriving DecidableEq, Repr

section
variable {R : Type}

/-- Moves a ticket's date. A session without one is left as it is. -/
def redateTicket (clocks : Clocks) (session : MbedtlsSession R) (clock : TicketClock) : MbedtlsSession R :=
  if session.tlsVersion ≠ .tls13 ∨ session.ticket.isNone = true then session
  else
    let (fromNow, toNow) := match clock with
      | .wall => (clocks.mbedtls, clocks.wall)
      | .mbedtls => (clocks.wall, clocks.mbedtls)
    { session with ticketReceptionTime := rebase session.ticketReceptionTime fromNow toNow }

end

variable [MbedTls]

/-- `LoadedSession::load`: a session read back from bytes. -/
def loadSession (clocks : Clocks) (bytes : List UInt8) : Option (MbedtlsSession MbedTls.Rest) :=
  (MbedTls.load bytes).map fun session => redateTicket clocks session .mbedtls

/-- The connection's session as bytes, if esp-tls has one. -/
def saveSession (clocks : Clocks) (session : Option (MbedtlsSession MbedTls.Rest)) : Option (List UInt8) :=
  session.bind fun session => MbedTls.save (redateTicket clocks session .wall)

/-! ### A connection -/

/-- The part of `Context` that has to do with the session. -/
structure SessionContext where
  session : TlsSession
  /-- A handshake of TLS 1.3 whose ticket hasn't come yet. -/
  ticketDue : Option Handshake
  deriving DecidableEq, Repr

inductive TlsConnected (R : Type) where
  | failed
  | noSocket
  /-- With the name of the protocol, whether mbedTLS has the server's certificate, and the session that esp-tls has. -/
  | made (protocol : Option String) (peerCert : Bool) (session : Option (MbedtlsSession R))

namespace SessionContext

def offer (ctx : SessionContext) (clocks : Clocks) : Option (MbedtlsSession MbedTls.Rest) :=
  ctx.session.saved.bind (loadSession clocks)

/-- What `connect` keeps, once esp-tls is done with a handshake for which the bytes `offered` were saved. The clocks are
    those at that time. -/
def connected (ctx : SessionContext) (offered : Option (List UInt8)) (clocks : Clocks) :
    TlsConnected MbedTls.Rest → SessionContext
  | .failed => ⟨if offered.isSome then ctx.session.forget else ctx.session, none⟩
  | .noSocket => ⟨ctx.session, none⟩
  | .made protocol peerCert session =>
    let slot := match protocol with
      | some protocol => ctx.session.negotiated protocol
      | none => ctx.session
    if protocol = some "TLSv1.3" then
      let handshake := if offered.isSome && !peerCert then .resumed else .full
      ⟨slot.record handshake, some handshake⟩
    else
      match saveSession clocks session with
      | some fresh => ⟨slot.store fresh (if offered = some fresh then .resumed else .full), none⟩
      | none => ⟨slot, none⟩

/-- What `read` does after it has read: a ticket that has come is kept. -/
def read (ctx : SessionContext) (clocks : Clocks) (session : Option (MbedtlsSession MbedTls.Rest)) : SessionContext :=
  match ctx.ticketDue with
  | some handshake =>
    match saveSession clocks session with
    | some ticket => ⟨ctx.session.store ticket handshake, none⟩
    | none => ctx
  | none => ctx

/-- `Context::close`. -/
def close (ctx : SessionContext) : SessionContext := { ctx with ticketDue := none }

/-- A wake from deep sleep, with the bytes that were kept. -/
def wake (bytes : List UInt8) : SessionContext := ⟨.restore bytes, none⟩

end SessionContext

end NervesHub
