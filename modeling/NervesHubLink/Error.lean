import NervesHubLink.Wire

/-! Errors (`error.rs`). -/

namespace NervesHub

inductive Error where
  /-- The socket could not be opened, or dropped. -/
  | transport (msg : String)
  /-- A frame could not be encoded or decoded. -/
  | protocol (msg : String)
  | joinRefused (msg : String)
  | metadata (msg : String)
  | identity (msg : String)
  | download (msg : String)
  /-- The firmware URL answered with an error status, and perhaps a `Retry-After` in seconds. -/
  | downloadStatus (status : Nat) (retryAfterSecs : Option Nat)
  | ota (msg : String)
  | checksumMismatch (expected actual : String)
  | console (msg : String)
  deriving DecidableEq, Repr

/-- What `Display` writes, piece by piece. -/
def Error.pieces : Error → List String
  | .transport msg => ["transport error: ", msg]
  | .protocol msg => ["protocol error: ", msg]
  | .joinRefused msg => ["join refused: ", msg]
  | .metadata msg => ["could not read firmware metadata: ", msg]
  | .identity msg => ["device identity unavailable: ", msg]
  | .download msg => ["download failed: ", msg]
  | .downloadStatus status _ => ["download failed: firmware download returned HTTP ", toString status]
  | .ota msg => ["ota failed: ", msg]
  | .checksumMismatch expected actual => ["checksum mismatch: expected ", expected, ", got ", actual]
  | .console msg => [msg]

def Error.display (e : Error) : String := String.join e.pieces

/-- The reason sent to NervesHub with a `failed` status. -/
def Error.statusReason (e : Error) : String := e.display

end NervesHub
