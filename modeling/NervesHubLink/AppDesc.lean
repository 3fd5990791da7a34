import NervesHubLink.Config
import NervesHubLink.Console
import NervesHubLink.Credentials
import NervesHubLink.Lib.Occurs
import NervesHubLink.Lib.Utf8

/-! What an image says of itself: how a build names the project in it (`set_app_desc.py`), and what the device that runs
it reads there (`metadata.rs`). -/

namespace NervesHub

/-! ### Naming the project -/

/-- The magic number, little end first. -/
def appDescMagic : List UInt8 := [0x32, 0x54, 0xCD, 0xAB]

def versionOffset : Nat := 16
def projectNameOffset : Nat := 48
def idfVerOffset : Nat := 112
def fieldSize : Nat := 32

/-- What the script exits with. -/
inductive ScriptExit where
  | noDescriptor
  | candidates (hits : List Nat)
  | tooLong (value : String) (bytes : Nat)
  | nothingToDo
  deriving DecidableEq, Repr

def findDescriptor (data : List UInt8) : Except ScriptExit Nat :=
  match Occurs.findAll appDescMagic data with
  | [] => .error .noDescriptor
  | [hit] => .ok hit
  | hits => .error (.candidates hits)

/-- A field of the descriptor at `base`, as far as the data goes. -/
def fieldAt (data : List UInt8) (base offset : Nat) : List UInt8 := (data.drop (base + offset)).take fieldSize

def readField (data : List UInt8) (base offset : Nat) : String :=
  Utf8.lossy ((fieldAt data base offset).takeWhile (· ≠ 0))

/-- The value over the whole field, padded. -/
def writeField (data : List UInt8) (base offset : Nat) (value : String) : Except ScriptExit (List UInt8) :=
  let encoded := asBytes value
  if fieldSize ≤ encoded.length then .error (.tooLong value encoded.length)
  else .ok (data.take (base + offset) ++ encoded.rightpad fieldSize 0 ++ data.drop (base + offset + fieldSize))

/-- What is asked of the script. -/
structure ScriptArgs where
  projectName : Option String
  dryRun : Bool
  deriving DecidableEq, Repr

/-- What it prints of the descriptor. -/
structure Description where
  base : Nat
  projectName : String
  version : String
  idfVer : String
  deriving DecidableEq, Repr

def describe (data : List UInt8) (base : Nat) : Description :=
  ⟨base, readField data base projectNameOffset, readField data base versionOffset, readField data base idfVerOffset⟩

/-- `main`, from the bytes of the file to the bytes that are written, if any are. -/
def setAppDesc (args : ScriptArgs) (data : List UInt8) : Except ScriptExit (Description × Option (List UInt8)) := do
  let base ← findDescriptor data
  let printed := describe data base
  if args.dryRun then pure (printed, none)
  else
    match args.projectName.filter (· ≠ "") with
    | none => .error .nothingToDo
    | some name => do
      let out ← writeField data base projectNameOffset name
      pure (printed, some out)

/-! ### What the device reads -/

/-- `str::trim`. -/
def trim (s : String) : String := String.ofList ((s.toList.dropWhile isWhiteSpace).rdropWhile isWhiteSpace)

/-- The text of an array of C characters: up to its NUL. -/
def cstr (bytes : List UInt8) : String := trim (Utf8.lossy (bytes.takeWhile (· ≠ 0)))

def lowerHexDigit (n : Nat) : Char := if n < 10 then Char.ofNat (48 + n) else Char.ofNat (87 + n)

/-- Each byte as two lower case digits. -/
def hex (bytes : List UInt8) : String :=
  String.ofList (bytes.flatMap fun b => [lowerHexDigit (b.toNat / 16), lowerHexDigit (b.toNat % 16)])

/-- `esp_app_desc_t`, as far as it is looked at. -/
structure EspAppDesc where
  projectName : List UInt8
  version : List UInt8
  appElfSha256 : List UInt8
  idfVer : List UInt8
  deriving DecidableEq, Repr

/-- ESP-IDF, from outside the repository. -/
structure EspApp where
  appDescription : Option EspAppDesc
  /-- The partition's first 24 bytes or an error of reading them, if there is a running partition. -/
  runningPartition : Option (Except Int { bytes : List UInt8 // bytes.length = 24 })

/-- `esp_image_header_t.chip_id`: a `u16` at offset 12. -/
def runningChipId (idf : EspApp) : Except Error Nat :=
  match idf.runningPartition with
  | none => .error (.metadata "no running partition")
  | some (.error _) => .error (.metadata "could not read image header")
  | some (.ok header) => .ok ((header.val.getD 12 0).toNat + 256 * (header.val.getD 13 0).toNat)

def runningFirmware (idf : EspApp) : Except Error FirmwareMetadata :=
  match idf.appDescription with
  | none => .error (.metadata "no app description")
  | some desc => do
    let chipId ← runningChipId idf
    pure ⟨cstr desc.projectName, cstr desc.version, hex desc.appElfSha256, cstr desc.idfVer, chipId⟩

/-- The part name for a chip id. -/
def chipName (chipId : Nat) : Option String :=
  match chipId with
  | 0x0000 => some "esp32"
  | 0x0002 => some "esp32s2"
  | 0x0005 => some "esp32c3"
  | 0x0009 => some "esp32s3"
  | 0x000C => some "esp32c2"
  | 0x000D => some "esp32c6"
  | 0x0010 => some "esp32h2"
  | 0x0012 => some "esp32p4"
  | 0x0017 => some "esp32c5"
  | _ => none

end NervesHub
