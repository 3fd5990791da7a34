import NervesHubLink.AppDesc
import NervesHubLink.Install
import NervesHubLink.Lib.Typestate

/-! `HttpStream` over the HTTP client of `esp-idf-svc` (`http.rs`). -/

namespace NervesHub
open Act Prog Typestate

/-- `str::parse::<u64>`. -/
def parseU64 (s : String) : Option Nat :=
  let digits := match s.toList with
    | '+' :: digits => digits
    | digits => digits
  if digits.isEmpty || !digits.all Char.isDigit then none
  else
    let n := digits.foldl (fun n c => 10 * n + (c.toNat - 48)) 0
    if n < 2 ^ 64 then some n else none

/-- The client, from outside the repository. Its errors are given as they print. -/
structure EspHttp (σ : Type) where
  newConnection : σ → Except String Unit × σ
  initiateRequest : String → σ → Except String Unit × σ
  initiateResponse : σ → Except String Unit × σ
  status : σ → UInt16 × σ
  header : String → σ → Option String × σ
  read : σ → Except String Chunk × σ

/-- What is asked of a connection, and whether it could do it. -/
inductive ConnectionCall where
  | request (ok : Bool)
  | response (ok : Bool)
  /-- The status or a header of the response. -/
  | look
  | read (ok : Bool)
  deriving DecidableEq, Repr

abbrev HttpEvent := Entry Nat ConnectionCall

/-- The stream, and how many connections have been made. -/
structure EspHttpStream where
  made : Nat
  /-- `None` after a failed open, until the next opens a fresh one. -/
  connection : Option Nat
  deriving DecidableEq, Repr

abbrev HttpProg (σ α : Type) := Prog σ HttpEvent EspHttpStream Error α

def downloadError {α : Type} (r : Except String α) : Except Error α := r.mapError .download

namespace EspHttpStream

section
variable {σ : Type} (idf : EspHttp σ)

/-- `EspHttpConnection::new`. -/
def newConnection : HttpProg σ Nat := fun s =>
  match idf.newConnection s.env with
  | (.ok (), env) => (.ret s.own.made, { s with
    env := env, own := { s.own with made := s.own.made + 1 }, trace := .made s.own.made :: s.trace })
  | (.error e, env) => (.err (.download e), { s with env := env })

/-- A call on a connection that may fail. -/
def tryConnection {α : Type} (c : Nat) (f : σ → Except String α × σ) (ev : Bool → ConnectionCall) : HttpProg σ α :=
  tryCall (fun env => ((downloadError (f env).1), (f env).2)) fun r => [.called c (ev r.isOk)]

/-- The connection goes, if there is one. -/
def dropConnection : HttpProg σ Unit := fun s =>
  (.ret (), { s with own := { s.own with connection := none }, trace := s.own.connection.toList.map .dropped ++ s.trace })

def new : HttpProg σ Unit := do
  let connection ← newConnection idf
  modifyOwn fun o => { o with connection := some connection }

/-- The stream's connection, or a fresh one. -/
def takeConnection : HttpProg σ Nat := do
  let o ← own
  match o.connection with
  | some connection => pure connection
  | none => do
    let connection ← newConnection idf
    modifyOwn fun o => { o with connection := some connection }
    pure connection

def request (url : String) : HttpProg σ (Option Nat) := do
  let connection ← takeConnection idf
  tryConnection connection (idf.initiateRequest url) .request
  tryConnection connection idf.initiateResponse .response
  let status ← call idf.status fun _ => [.called connection .look]
  if ¬(200 ≤ status.toNat ∧ status.toNat < 300) then do
    let header ← call (idf.header "Retry-After") fun _ => [.called connection .look]
    throw (.downloadStatus status.toNat (header.bind fun value => parseU64 (trim value)))
  else do
    let header ← call (idf.header "Content-Length") fun _ => [.called connection .look]
    pure (header.bind parseU64)

/-- A connection that failed is not used again. -/
def openUrl (url : String) : HttpProg σ (Option Nat) := do
  match ← attempt (request idf url) with
  | .ok contentLength => pure contentLength
  | .error e => do
    dropConnection
    throw e

def read : HttpProg σ Chunk := do
  let o ← own
  match o.connection with
  | none => throw (.download "read before a successful open")
  | some connection => tryConnection connection idf.read .read

def stream : HttpStream (Rec σ HttpEvent EspHttpStream) := ⟨openUrl idf, read idf⟩

end

end EspHttpStream

end NervesHub
