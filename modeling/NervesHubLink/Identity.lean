import NervesHubLink.Credentials
import NervesHubLink.Lib.Threads

/-! Loading the device's client certificate (`identity.rs`). -/

namespace NervesHub.Identity
open Threads Thread

/-- `PARTITION`. -/
def certsPartition : String := "certs"

/-- `NAMESPACE`. -/
def certsNamespace : String := "nerves_hub"

def certificateKey : String := "device.crt"
def privateKeyKey : String := "device.key"

/-- The largest blob that is read. -/
def maxBlob : Nat := 8 * 1024

/-- What `get_blob` says: an error as it prints, that there is no such key, or what was read into the buffer. -/
abbrev BlobRead : Type := Except String (Option { value : List UInt8 // value.length ≤ maxBlob })

/-- The calls of the non-volatile storage, whose state is `σ`. -/
structure Nvs (σ : Type) where
  takePartition : String → σ → Except String Unit × σ
  /-- `EspNvs::new`, which gives the partition back when it fails. -/
  openNamespace : String → σ → Except String Unit × σ
  getBlob : String → σ → BlobRead × σ
  drop : σ → σ

inductive LoadEvent where
  | looked (found : Option Credentials)
  | took (r : Except String Unit)
  | opened (r : Except String Unit)
  | read (key : String) (r : BlobRead)
  | leaked (pem : CStr)
  | gotOrInit (made got : Credentials)
  | dropped

/-- What the callers share: the storage and `LOADED`, with the record of what each of them did. -/
structure Boot (ι σ : Type) where
  env : σ
  loaded : Option Credentials
  trace : List (ι × LoadEvent)

abbrev Load (ι σ α : Type) : Type := Thread (Boot ι σ) Error α

section
variable {ι σ α : Type}

def Boot.start (env : σ) : Boot ι σ := ⟨env, none, []⟩

def Boot.note (s : Boot ι σ) (i : ι) (e : LoadEvent) : Boot ι σ := { s with trace := (i, e) :: s.trace }

variable (nvs : Nvs σ) (i : ι)

/-- A call of the storage. -/
def call (f : σ → α × σ) (ev : α → LoadEvent) : Load ι σ α :=
  atom fun s => ((f s.env).1, { s.note i (ev (f s.env).1) with env := (f s.env).2 })

/-- `map_err` to an error of the identity. -/
def described (r : Except String α) (text : String → String) : Except Error α := r.mapError fun e => .identity (text e)

def blobOf (key : String) (r : BlobRead) : Except Error (List UInt8) :=
  match r with
  | .error e => .error (.identity s!"could not read '{key}': {e}")
  | .ok none => .error (.identity s!"'{key}' is not provisioned")
  | .ok (some value) => if value.1.length = 0 then .error (.identity s!"'{key}' is empty") else .ok value.1

def readBlob (key : String) : Load ι σ (List UInt8) := do
  let value ← call i (nvs.getBlob key) (.read key)
  ofExcept (blobOf key value)

/-- `leak_pem`, with its leak. -/
def leak (bytes : List UInt8) (what : String) : Load ι σ CStr := do
  let pem ← ofExcept (leakPem bytes what)
  atom fun s => (pem, s.note i (.leaked pem))

/-- `client_certificate`, with what it leaks. -/
def leakedCredentials (certificate privateKey : List UInt8) : Load ι σ Credentials := do
  let certificate ← leak i certificate "certificate"
  let privateKey ← leak i privateKey "private key"
  pure (.clientCertificate certificate privateKey)

/-- `LOADED.get_or_init`. -/
def getOrInit (credentials : Credentials) : Load ι σ Credentials :=
  atom fun s => (s.loaded.getD credentials,
    { s.note i (.gotOrInit credentials (s.loaded.getD credentials)) with loaded := some (s.loaded.getD credentials) })

/-- What `load` does with the namespace open. -/
def loadOpened : Load ι σ Credentials := do
  let certificate ← readBlob nvs i certificateKey
  let privateKey ← readBlob nvs i privateKeyKey
  let credentials ← leakedCredentials i certificate privateKey
  getOrInit i credentials

/-- What `load` does when it has found nothing. -/
def loadAfresh : Load ι σ Credentials := do
  let taken ← call i (nvs.takePartition certsPartition) .took
  ofExcept (described taken fun e => s!"could not open the '{certsPartition}' partition: {e}")
  let opened ← call i (nvs.openNamespace certsNamespace) .opened
  ofExcept (described opened fun e => s!"could not open namespace '{certsNamespace}': {e}")
  (loadOpened nvs i).ensuring fun s => { s.note i .dropped with env := nvs.drop s.env }

def load : Load ι σ Credentials := do
  match ← atom (fun s => (s.loaded, s.note i (.looked s.loaded))) with
  | some credentials => pure credentials
  | none => loadAfresh nvs i

/-- Some steps of any callers of `load`, from the start of the program. -/
def loads [DecidableEq ι] (env : σ) (order : List ι) : Boot ι σ × (ι → Load ι σ Credentials) :=
  Threads.run order (.start env, load nvs)

end

end NervesHub.Identity
