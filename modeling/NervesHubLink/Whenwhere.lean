import NervesHubLink.Extensions
import NervesHubLink.Http

/-! The default GeoIP resolver (`whenwhere.rs`). -/

namespace NervesHub
open Act Prog Typestate

structure Whenwhere where
  url : String
  deriving DecidableEq, Repr

/-- A reply from the service. -/
structure Reading where
  latitude : F64
  longitude : F64
  now : Option String
  timeZone : Option String
  city : Option String
  country : Option String
  deriving DecidableEq, Repr

def Reading.location (r : Reading) : Location := ⟨r.latitude, r.longitude, "geoip", none⟩

/-- Reading JSON and numbers, from outside the repository. -/
class Parsing where
  /-- `serde_json::from_str`, of any value. -/
  fromStr : String → Except String Value
  /-- `Number::as_f64`. -/
  asF64 : Number → F64
  /-- `str::parse::<f64>`. -/
  parseF64 : String → Option F64

namespace Whenwhere

def defaultUrl : String := "https://whenwhere.nerves-project.org/"
def nonceHeader : String := "x-nonce"
def nonceLen : Nat := 31
def nonceAlphabet : List Char := "0123456789abcdefghijklmnopqrstuvwxyz".toList

def new : Whenwhere := ⟨defaultUrl⟩

/-- A nonce from bytes, which must be random. -/
def nonce (bytes : List UInt8) : String :=
  String.ofList ((bytes.take nonceLen).map fun byte => nonceAlphabet.getD (byte.toNat % nonceAlphabet.length) '0')

section
variable [Parsing]

/-- A field that is a number, or a text that reads as one. -/
def number (value : Value) (key : String) : Option F64 := do
  let field ← value.get key
  match field with
  | .number n => some (Parsing.asF64 n)
  | .string s => Parsing.parseF64 (trim s)
  | _ => none

def text (value : Value) (key : String) : Option String := (value.get key).bind Value.asStr

/-- Parses a reply, having checked that it answers the nonce that was sent. -/
def parse (body sentNonce : String) (returnedNonce : Option String) : Except String Reading :=
  match returnedNonce with
  | none => .error ("the reply carried no " ++ nonceHeader ++ " header")
  | some returned =>
    if returned ≠ sentNonce then .error "the reply answered a different nonce"
    else do
      let value ← (Parsing.fromStr body).mapError ("the reply was not JSON: " ++ ·)
      match number value "latitude", number value "longitude" with
      | some latitude, some longitude =>
        .ok ⟨latitude, longitude, text value "now", text value "time_zone", text value "city", text value "country"⟩
      | _, _ => .error "the reply carried no position"

end

end Whenwhere

/-! ### A lookup -/

structure HttpConfiguration where
  crtBundleAttach : Bool
  useGlobalCaStore : Bool
  timeoutSecs : Nat
  deriving DecidableEq, Repr

/-- What a read of 256 bytes at most gives. -/
abbrev ReplyChunk := { bytes : List UInt8 // bytes.length ≤ 256 }

/-- The client and the random numbers of ESP-IDF. Its errors are given as they print. -/
structure LookupIdf (σ : Type) where
  fillRandom : σ → { bytes : List UInt8 // bytes.length = Whenwhere.nonceLen } × σ
  newConnection : HttpConfiguration → σ → Except String Unit × σ
  initiateRequest : String → List (String × String) → σ → Except String Unit × σ
  initiateResponse : σ → Except String Unit × σ
  status : σ → UInt16 × σ
  header : String → σ → Option String × σ
  read : σ → Except String ReplyChunk × σ

inductive LookupEvent where
  | random (bytes : List UInt8)
  | http (e : HttpEvent)
  | requested (url : String)
  | status (code : UInt16)
  | nonce (returned : Option String)
  | chunk (bytes : List UInt8)
  | answered (r : Except String Reading)
  | located (l : Option Location)

/-- The resolver owns no connection between lookups: what is counted is how many have been made. -/
abbrev LookupProg (σ α : Type) := Prog σ LookupEvent Nat String α

namespace Whenwhere

def configuration : HttpConfiguration := ⟨true, true, 10⟩

/-- How long a reply may be. -/
def replyLimit : Nat := 4096

section
variable {σ : Type} (idf : LookupIdf σ)

/-- `EspHttpConnection::new`. -/
def newConnection : LookupProg σ Nat := fun s =>
  match idf.newConnection configuration s.env with
  | (.ok (), env) => (.ret s.own, ⟨env, s.own + 1, .http (.made s.own) :: s.trace, s.gas⟩)
  | (.error e, env) => (.err ("http client: " ++ e), { s with env := env })

/-- A call on a connection that may fail, for a reason that begins with `label`. -/
def tryConnection {α : Type} (c : Nat) (label : String) (f : σ → Except String α × σ) (ev : Bool → ConnectionCall)
    (seen : α → List LookupEvent) : LookupProg σ α :=
  tryCall (fun env => ((f env).1.mapError (label ++ ·), (f env).2)) fun
    | .ok a => seen a ++ [.http (.called c (ev true))]
    | .error _ => [.http (.called c (ev false))]

def dropConnection (c : Nat) : LookupProg σ Unit := fun s => (.ret (), { s with trace := .http (.dropped c) :: s.trace })

/-- Reads the rest of the reply. Each chunk but the last is of one byte or more, so there are not more of them than the
    limit. -/
def readBody (c : Nat) (body : List UInt8) : LookupProg σ (List UInt8) := do
  let chunk ← tryConnection c "reading the reply: " idf.read .read fun chunk => [.chunk chunk.val]
  if _ : chunk.val = [] then pure body
  else if _ : (body ++ chunk.val).length > replyLimit then throw "the reply was too large to be a whenwhere answer"
  else readBody c (body ++ chunk.val)
termination_by replyLimit - body.length
decreasing_by
  rename_i hend hlong
  have hpos : 0 < chunk.val.length := List.length_pos_iff.mpr hend
  rw [List.length_append] at hlong ⊢
  omega

variable [Parsing]

/-- What is asked of one connection. -/
def exchange (c : Nat) (url sent : String) : LookupProg σ Reading := do
  tryConnection c "request: " (idf.initiateRequest url [("user-agent", "whenwhere")]) .request fun _ => [.requested url]
  tryConnection c "response: " idf.initiateResponse .response fun _ => []
  let status ← call idf.status fun code => [.status code, .http (.called c .look)]
  if ¬(200 ≤ status.toNat ∧ status.toNat < 300) then throw ("the service answered HTTP " ++ toString status.toNat)
  else do
    let returned ← call (idf.header nonceHeader) fun value => [.nonce value, .http (.called c .look)]
    let body ← readBody idf c []
    match String.fromUTF8? body.toByteArray with
    | none => throw "the reply was not text"
    | some body => ofExcept (parse body sent returned)

variable (w : Whenwhere)

def requestUrl (sent : String) : String :=
  w.url ++ (if w.url.toList.contains '?' then "&" else "?") ++ "nonce=" ++ sent

/-- One lookup, with the reason on failure. Its connection goes with it. -/
def read : LookupProg σ Reading := do
  let entropy ← call idf.fillRandom fun bytes => [.random bytes.val]
  let sent := nonce entropy.val
  let connection ← newConnection idf
  let r ← attempt (exchange idf connection (w.requestUrl sent) sent)
  dropConnection connection
  ofExcept r

/-- `LocationProvider::location`. A lookup that fails is a position that is not reported. -/
def location : LookupProg σ (Option Location) := do
  let r ← attempt (w.read idf)
  update (fun made => ((), made)) fun _ => [.answered r]
  match r with
  | .ok reading => pure (some reading.location)
  | .error _ => pure none

/-- One lookup after another. -/
def lookups (ws : List Whenwhere) : LookupProg σ Unit :=
  ws.forM fun w => do
    let l ← w.location idf
    update (fun made => ((), made)) fun _ => [.located l]

end

end Whenwhere

end NervesHub
