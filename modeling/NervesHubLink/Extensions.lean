import NervesHubLink.Config

/-! The extensions channel, as a state machine (`extensions.rs`). -/

namespace NervesHub

def extensionVersion : String := "0.0.1"
def loggingBatchedVersion : String := "0.1.0"

def geoKey : String := "geo"
def healthKey : String := "health"
def loggingKey : String := "logging"

/-- Every version spoken of an extension, newest first. -/
def implemented (key : String) : List String :=
  if key = loggingKey then [loggingBatchedVersion, extensionVersion] else [extensionVersion]

structure Location where
  latitude : F64
  longitude : F64
  source : String
  accuracy : Option F64
  deriving DecidableEq, Repr

def Location.payload (l : Location) : Value :=
  .obj ([("latitude", .f64 l.latitude), ("longitude", .f64 l.longitude), ("source", .string l.source)] ++
    match l.accuracy with
      | some accuracy => [("accuracy", .f64 accuracy)]
      | none => [])

structure HealthReport where
  metrics : List (String × F64)
  metadata : List (String × String)
  deriving DecidableEq, Repr

def HealthReport.payload (r : HealthReport) : Value :=
  .obj [("value", .obj [
    ("metrics", .obj (r.metrics.map fun (k, v) => (k, .f64 v))),
    ("metadata", .obj (r.metadata.map fun (k, v) => (k, .string v)))])]

def Enabled.offered (e : Enabled) : List String :=
  (if e.geo then [geoKey] else []) ++ (if e.health then [healthKey] else []) ++ (if e.logging then [loggingKey] else [])

/-- What the caller should do next. -/
inductive Outgoing where
  | send (event : String) (payload : Value)
  | needLocation
  | needHealth
  deriving Repr

/-- `needs.contains(&Outgoing::NeedHealth)`, for one of them. -/
def Outgoing.isNeedHealth : Outgoing → Bool
  | .needHealth => true
  | _ => false

structure Extensions where
  enabled : Enabled
  attached : List String
  joined : Bool
  invited : Bool
  /-- What the invitation said the platform has: `none` when it named nothing, or has not arrived. -/
  advertised : Option Fields
  deriving Repr

namespace Extensions

def new (enabled : Enabled) : Extensions := ⟨enabled, [], false, false, none⟩

def onInvitation (x : Extensions) (payload : Value) : Extensions :=
  { x with invited := true, advertised := (payload.get "extensions").bind Value.asObject }

/-- The version to declare for `key`: the newest both sides have. -/
def version (x : Extensions) (key : String) : Option String :=
  match x.advertised with
  | some advertised =>
    (((Value.object advertised).get key).bind Value.asArray).bind fun theirs =>
      (implemented key).find? fun version => theirs.any fun v => v.asStr == some version
  | none => (implemented key).getLast?

def isAttached (x : Extensions) (key : String) : Bool := x.attached.any (· == key)

/-- Whether log lines go as batches: logging is attached, at 0.1.0. -/
def loggingBatched (x : Extensions) : Bool :=
  x.isAttached loggingKey && x.version loggingKey == some loggingBatchedVersion

def wanted (x : Extensions) : Bool := x.enabled.any

def joinParams (x : Extensions) : Value :=
  .obj (x.enabled.offered.filterMap fun key => (x.version key).map fun v => (key, .string v))

/-- Handles the join reply: a list of the extensions the platform attached. -/
def onJoinReply (x : Extensions) (response : Value) : List Outgoing × Extensions :=
  let attached := match response.asArray with
    | some keys => keys.filterMap Value.asStr
    | none => []
  (attached.map fun key => .send s!"{key}:attached" (.obj []), { x with joined := true, attached := attached })

def disconnected (x : Extensions) : Extensions :=
  { x with joined := false, attached := [], invited := false, advertised := none }

def onEvent (x : Extensions) (event : String) : List Outgoing :=
  if event = "geo:location:request" && x.isAttached geoKey then [.needLocation]
  else if event = "health:check" && x.isAttached healthKey then [.needHealth]
  else []

/-- The answer to `needLocation`: a device that cannot fix its position stays quiet. -/
def location : Option Location → List Outgoing
  | some l => [.send "geo:location:update" l.payload]
  | none => []

def healthReport (report : HealthReport) : List Outgoing := [.send "health:report" report.payload]

def log (x : Extensions) (line : LogLine) : List Outgoing :=
  if !x.isAttached loggingKey then [] else [.send event.loggingSend line.payload]

/-- Log lines, as few messages as the attached version allows. -/
def logs (x : Extensions) (lines : List LogLine) : List Outgoing :=
  if lines.isEmpty || !x.isAttached loggingKey then []
  else if !x.loggingBatched then lines.flatMap x.log
  else [.send event.loggingSend (LogBatch.ser lines).toValue]

/-- The lines as one batch, if they go as one and there are any. -/
def logBatch (x : Extensions) (lines : List LogLine) : Option (List LogLine) :=
  if !lines.isEmpty && x.loggingBatched then some lines else none

end Extensions

end NervesHub
