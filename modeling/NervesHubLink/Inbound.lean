import NervesHubLink.Error

/-! What arrives on the websocket, put back together for the run loop (`inbound.rs`, and the receiving half of
`transport.rs`). -/

namespace NervesHub

/-- The most that is held and not read. -/
def maxUnreadBytes : Nat := 16 * 1024

/-- What the transport hands to the run loop. -/
inductive Incoming where
  | frame (frame : Frame)
  /-- The client's `n`th report of a closed socket. -/
  | closed (n : Nat)
  | overflow
  deriving DecidableEq, Repr

def opcodeContinuation : UInt8 := 0x0
def opcodeText : UInt8 := 0x1
def opcodeBinary : UInt8 := 0x2
def opcodeClose : UInt8 := 0x8

structure Piece where
  opcode : UInt8
  /-- Whether the frame is the last of its message. -/
  fin : Bool
  /-- Where in the frame's payload this piece starts. -/
  offset : Nat
  payloadLen : Nat
  bytes : List UInt8
  deriving DecidableEq, Repr

/-- A piece of a text or binary frame, or of one that carries such a frame on. -/
def Piece.isData (p : Piece) : Bool :=
  p.opcode == opcodeText || p.opcode == opcodeBinary || p.opcode == opcodeContinuation

/-- Messages on their way from the client's events to the run loop. -/
structure Inbound where
  partialMessage : List UInt8
  binary : Bool
  /-- Bytes of whole messages handed on that were not read yet. -/
  unread : Nat
  overflowed : Bool
  closes : Nat
  closesBeforeConnecting : Option Nat
  deriving DecidableEq, Repr

/-- `String::from_utf8`. -/
def fromUtf8 (bytes : List UInt8) : Option String := String.fromUTF8? ⟨bytes.toArray⟩

namespace Inbound

def new : Inbound := ⟨[], false, 0, false, 0, none⟩

def connected (b : Inbound) : Inbound :=
  { b with closesBeforeConnecting := some (b.closesBeforeConnecting.getD b.closes) }

/-- The client has reported the socket closed. The counter is a `u32`. -/
def closed (b : Inbound) : Incoming × Inbound :=
  let closes := (b.closes + 1) % 2 ^ 32
  (.closed closes, { b with closes := closes })

def endsSession (b : Inbound) (n : Nat) : Bool := b.closesBeforeConnecting.any fun before => before < n

def read (b : Inbound) (frame : Frame) : Inbound := { b with unread := b.unread - frame.len }

/-- The message that is finished, unless it is text and not UTF-8. -/
def finished (binary : Bool) (message : List UInt8) : Option Frame :=
  if binary then some (.binary message) else (fromUtf8 message).map .text

/-- A data piece, as long as nothing has overflowed. -/
def dataPiece (b : Inbound) (p : Piece) : Option Incoming × Inbound :=
  -- A text or binary frame's first piece starts a message; anything else carries one on.
  let b := if p.opcode != opcodeContinuation && p.offset == 0 then
      { b with partialMessage := [], binary := p.opcode == opcodeBinary }
    else b
  if maxUnreadBytes < b.unread + b.partialMessage.length + p.bytes.length then
    (some .overflow, { b with overflowed := true, partialMessage := [] })
  else
    let message := b.partialMessage ++ p.bytes
    if !(decide (p.payloadLen ≤ p.offset + p.bytes.length) && p.fin) then (none, { b with partialMessage := message })
    else
      match finished b.binary message with
      | some frame => (some (.frame frame), { b with partialMessage := [], unread := b.unread + frame.len })
      | none => (none, { b with partialMessage := [] })

/-- Takes in one piece; what the run loop should hear of it comes back. -/
def piece (b : Inbound) (p : Piece) : Option Incoming × Inbound :=
  if p.isData then if b.overflowed then (none, b) else b.dataPiece p
  else if p.opcode == opcodeClose then (some b.closed.1, b.closed.2)
  else (none, b)

end Inbound

/-! ### The transport -/

/-- A data event of the client, whose lengths are C integers. -/
structure DataEvent where
  opcode : UInt8
  fin : Bool
  payloadOffset : Int
  payloadLen : Int
  bytes : List UInt8
  deriving DecidableEq, Repr

def DataEvent.piece (d : DataEvent) : Piece := ⟨d.opcode, d.fin, d.payloadOffset.toNat, d.payloadLen.toNat, d.bytes⟩

inductive ClientEvent where
  | data (data : DataEvent)
  | connected
  /-- `DISCONNECTED` or `CLOSED`. -/
  | closed
  | other
  deriving DecidableEq, Repr

/-- The state behind the client's events, and the channel to the run loop. -/
structure Socket where
  inbound : Inbound
  incoming : List Incoming
  deriving DecidableEq, Repr

namespace Socket

def new : Socket := ⟨.new, []⟩

/-- What an event makes of the state, and what is sent to the run loop. -/
def onEvent (s : Socket) : ClientEvent → Option Incoming × Socket
  | .data data =>
    let (out, inbound) := s.inbound.piece data.piece
    (out, ⟨inbound, s.incoming ++ out.toList⟩)
  | .connected => (none, { s with inbound := s.inbound.connected })
  | .closed =>
    let (out, inbound) := s.inbound.closed
    (some out, ⟨inbound, s.incoming ++ [out]⟩)
  | .other => (none, s)

/-- The run loop reads; with nothing there it waits for nothing. -/
def recvFrame (s : Socket) : Except Error (Option Frame) × Socket :=
  match s.incoming with
  | [] => (.ok none, s)
  | .frame frame :: rest => (.ok (some frame), ⟨s.inbound.read frame, rest⟩)
  | .overflow :: rest => (.error (.transport "too much arrived unread"), { s with incoming := rest })
  | .closed n :: rest =>
    if s.inbound.endsSession n then (.error (.transport "websocket closed"), { s with incoming := rest })
    else (.ok none, { s with incoming := rest })

end Socket

end NervesHub
