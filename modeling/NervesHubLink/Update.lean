import NervesHubLink.Error

/-! The update payload, the decision about it, and the progress throttle (`update.rs`). -/

namespace NervesHub

/-! ### Reading a payload

`#[derive(Deserialize)]` from a `Value`: a struct is read from an object, its fields in the order of the
keys, or from an array, its fields in the order they are declared. -/

namespace De

abbrev Reader (α : Type) := Value → Except DeError α

def bool : Reader Bool
  | .bool b => .ok b
  | v => .error (.invalidType v "a boolean")

def string : Reader String
  | .string s => .ok s
  | v => .error (.invalidType v "a string")

def u64 : Reader Nat
  | .number (.posInt n) => .ok n
  | .number (.negInt n) => if 0 ≤ n then .ok n.toNat else .error (.invalidValue (.number (.negInt n)) "u64")
  | v => .error (.invalidType v "u64")

def i64 : Reader Int
  | .number (.posInt n) => if n < 2 ^ 63 then .ok n else .error (.invalidValue (.number (.posInt n)) "i64")
  | .number (.negInt n) => .ok n
  | v => .error (.invalidType v "i64")

def option {α : Type} (read : Reader α) : Reader (Option α)
  | .null => .ok none
  | v => (read v).map some

def vec {α : Type} (read : Reader α) : Reader (List α)
  | .array items => items.mapM read
  | v => .error (.invalidType v "a sequence")

/-- A field of an object, with `#[serde(default)]`. -/
def field {α : Type} (fields : Fields) (name : String) (read : Reader α) (dflt : α) : Except DeError α :=
  match (Value.object fields).get name with
  | some v => read v
  | none => .ok dflt

/-- The field at a place in an array, with `#[serde(default)]`. -/
def element {α : Type} (items : List Value) (i : Nat) (read : Reader α) (dflt : α) : Except DeError α :=
  match items[i]? with
  | some v => read v
  | none => .ok dflt

end De

structure FirmwareMeta where
  uuid : String
  version : Option String
  product : Option String
  platform : Option String
  architecture : Option String
  deriving DecidableEq, Repr

/-- What NervesHub sends on the `update` event, and in the reply to `phx_join`. -/
structure UpdatePayload where
  updateAvailable : Bool
  firmwareUrl : Option String
  firmwareMeta : Option FirmwareMeta
  size : Option Nat
  /-- SHA-256 of the whole image, in hex. -/
  checksum : Option String
  partialsChecksums : Option (List String)
  deploymentId : Option Int
  deriving DecidableEq, Repr

open De in
def FirmwareMeta.deserialize : Reader FirmwareMeta
  | .object fields => do
    let architecture ← field fields "architecture" (option string) none
    let platform ← field fields "platform" (option string) none
    let product ← field fields "product" (option string) none
    let uuid ← field fields "uuid" (fun v => (string v).map some) none
    let version ← field fields "version" (option string) none
    match uuid with
    | some uuid => return { uuid, version, product, platform, architecture }
    | none => throw (.missingField "uuid")
  | .array items => do
    let uuid ← match items[0]? with
      | some v => string v
      | none => throw (.invalidLength 0 "struct FirmwareMeta with 5 elements")
    let version ← element items 1 (option string) none
    let product ← element items 2 (option string) none
    let platform ← element items 3 (option string) none
    let architecture ← element items 4 (option string) none
    if items.length ≤ 5 then
      return { uuid, version, product, platform, architecture }
    else throw (.invalidLength items.length "fewer elements in array")
  | v => throw (.invalidType v "struct FirmwareMeta")

open De in
def UpdatePayload.deserialize : Reader UpdatePayload
  | .object fields => do
    let checksum ← field fields "checksum" (option string) none
    let deploymentId ← field fields "deployment_id" (option i64) none
    let firmwareMeta ← field fields "firmware_meta" (option FirmwareMeta.deserialize) none
    let firmwareUrl ← field fields "firmware_url" (option string) none
    let partialsChecksums ← field fields "partials_checksums" (option (vec string)) none
    let size ← field fields "size" (option u64) none
    let updateAvailable ← field fields "update_available" bool false
    return { updateAvailable, firmwareUrl, firmwareMeta, size, checksum, partialsChecksums, deploymentId }
  | .array items => do
    let updateAvailable ← element items 0 bool false
    let firmwareUrl ← element items 1 (option string) none
    let firmwareMeta ← element items 2 (option FirmwareMeta.deserialize) none
    let size ← element items 3 (option u64) none
    let checksum ← element items 4 (option string) none
    let partialsChecksums ← element items 5 (option (vec string)) none
    let deploymentId ← element items 6 (option i64) none
    if items.length ≤ 7 then
      return { updateAvailable, firmwareUrl, firmwareMeta, size, checksum, partialsChecksums, deploymentId }
    else throw (.invalidLength items.length "fewer elements in array")
  | v => throw (.invalidType v "struct UpdatePayload")

namespace UpdatePayload

/-- An unreadable payload is a protocol error, as the `?` of its callers makes it. -/
def parse [Serde] (payload : Value) : Except Error UpdatePayload :=
  match deserialize payload with
  | .ok update => .ok update
  | .error e => .error (.protocol (Serde.deText e))

/-- The url and uuid, if this payload describes an update. -/
def actionable (u : UpdatePayload) : Option (String × String) :=
  if !u.updateAvailable then none
  else match u.firmwareUrl, u.firmwareMeta with
    | some url, some md => some (url, md.uuid)
    | _, _ => none

end UpdatePayload

inductive UpdateDecision where
  | apply
  | ignore (reason : String)
  | reschedule (delayMs : Nat) (reason : String)
  deriving DecidableEq, Repr

inductive Stage where
  | downloading
  | updating
  deriving DecidableEq, Repr

def Stage.asStr : Stage → String
  | .downloading => "downloading"
  | .updating => "updating"

/-- Decides when a progress message is worth sending. -/
structure ProgressThrottle where
  lastReported : Option Nat
  step : Nat
  deriving DecidableEq, Repr

namespace ProgressThrottle

def new (step : Nat) : ProgressThrottle := ⟨none, max step 1⟩

/-- The percentage to report, or `none` to stay quiet. A percentage is a `u8`, and its sum with the step
    saturates. -/
def take (t : ProgressThrottle) (downloaded total : Nat) : Option Nat × ProgressThrottle :=
  if total = 0 then (none, t)
  else
    let percent := min downloaded total * 100 / total
    let report := match t.lastReported with
      | none => true
      | some last => percent == 100 || decide (min (last + t.step) 255 ≤ percent)
    if report && t.lastReported != some percent then (some percent, { t with lastReported := some percent })
    else (none, t)

end ProgressThrottle

end NervesHub
