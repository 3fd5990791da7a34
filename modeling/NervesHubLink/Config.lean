import NervesHubLink.Wire

/-! What the device is configured with and what it says of itself (`config.rs`, `metadata.rs`). -/

namespace NervesHub

/-- Which extensions an application wants. -/
structure Enabled where
  geo : Bool
  health : Bool
  logging : Bool
  deriving DecidableEq, Repr

namespace Enabled

def none : Enabled := ⟨false, false, false⟩

def any (e : Enabled) : Bool := e.geo || e.health || e.logging

end Enabled

structure Config where
  deviceApiVersion : String
  heartbeatIntervalSecs : Nat
  reconnectBackoffSecs : List Nat
  progressStepPercent : Nat
  extensions : Enabled
  serializer : Serializer
  deriving DecidableEq, Repr

namespace Config

/-- The backoff is walked in order, and then its last wait is repeated. -/
def backoffFor (c : Config) (attempt : Nat) : Nat :=
  match c.reconnectBackoffSecs.getLast? with
  | none => 5
  | some last => c.reconnectBackoffSecs[attempt]?.getD last

/-- The interval in milliseconds, as the agent computes it: in 64 bits. -/
def heartbeatMs (c : Config) : Nat := c.heartbeatIntervalSecs * 1000 % 2 ^ 64

end Config

structure FirmwareMetadata where
  projectName : String
  version : String
  appElfSha256 : String
  idfVer : String
  chipId : Nat
  deriving DecidableEq, Repr

/-- What the device can say at join time about the image it is running. -/
structure BootReport where
  firmwareValidated : Bool
  firmwareAutoRevertDetected : Bool
  deriving DecidableEq, Repr

def BootReport.payload (b : BootReport) : Value :=
  .obj [("firmware_validated", .bool b.firmwareValidated),
    ("firmware_auto_revert_detected", .bool b.firmwareAutoRevertDetected)]

/-- The `phx_join` payload. -/
def FirmwareMetadata.joinParams (md : FirmwareMetadata) (deviceApiVersion : String)
    (currentlyDownloadingUuid : Option String) (boot : BootReport) : Value :=
  let params : Value := .obj [
    ("device_api_version", .string deviceApiVersion),
    ("update_tool", .string "esp-idf"),
    ("esp_idf_project_name", .string md.projectName),
    ("esp_idf_version", .string md.version),
    ("esp_idf_app_elf_sha256", .string md.appElfSha256),
    ("esp_idf_ver", .string md.idfVer),
    ("esp_idf_chip_id", .nat md.chipId)]
  let params := match currentlyDownloadingUuid with
    | some uuid => params.set "currently_downloading_uuid" (.string uuid)
    | none => params
  params.set "meta" boot.payload

end NervesHub
