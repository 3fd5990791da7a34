import NervesHubLink.Agent

/-! A device on a bench, for the runs that are looked at one by one: JSON as `serde_json` writes it, a socket
that carries a script, a clock that moves with every reading, and a sink that takes everything. -/

namespace NervesHub

/-! ### JSON -/

/-- A character of a string, escaped. -/
def jsonChar (c : Char) : List Char :=
  if c = '"' then ['\\', '"']
  else if c = '\\' then ['\\', '\\']
  else if c = '\n' then ['\\', 'n']
  else if c = '\r' then ['\\', 'r']
  else if c = '\t' then ['\\', 't']
  else if c = '\x08' then ['\\', 'b']
  else if c = '\x0c' then ['\\', 'f']
  else if c.toNat < 0x20 then ['\\', 'u', '0', '0', Nat.digitChar (c.toNat / 16), Nat.digitChar (c.toNat % 16)]
  else [c]

def jsonString (s : String) : String := "\"" ++ String.ofList (s.toList.flatMap jsonChar) ++ "\""

mutual
/-- What a tree of calls writes, where no number is a float. -/
def Ser.json : Ser → String
  | .unit => "null"
  | .bool b => if b then "true" else "false"
  | .u64 n => toString n
  | .i64 n => toString n
  | .f64 _ => "null"
  | .str s => jsonString s
  | .none => "null"
  | .some v => v.json
  | .seq _ items => "[" ++ ",".intercalate (Ser.jsonAll items) ++ "]"
  | .tuple items => "[" ++ ",".intercalate (Ser.jsonAll items) ++ "]"
  | .map _ entries => "\x7b" ++ ",".intercalate (Ser.jsonEntries entries) ++ "\x7d"

def Ser.jsonAll : List Ser → List String
  | [] => []
  | v :: rest => v.json :: Ser.jsonAll rest

def Ser.jsonEntries : List (String × Ser) → List String
  | [] => []
  | (k, v) :: rest => (jsonString k ++ ":" ++ v.json) :: Ser.jsonEntries rest
end

/-- A message as it is scripted, to be read from its JSON. -/
structure Script where
  text : String
  message : Message

/-- JSON on a socket that carries only the messages of a script. -/
@[reducible] def benchSerde (script : List Script) : Serde where
  toJson v := v.json
  toMsgPack _ := []
  fromJson text :=
    match script.find? (·.text == text) with
    | some ⟨_, m⟩ => .ok (m.joinRef, m.reference, m.topic, m.event, m.payload)
    | none => .error "expected value at line 1 column 1"
  fromMsgPack _ := .error "unexpected end of file"
  display v := v.ser.json
  deText
    | .invalidType found expected => "invalid type: " ++ found.ser.json ++ ", expected " ++ expected
    | .invalidValue found expected => "invalid value: " ++ found.ser.json ++ ", expected " ++ expected
    | .invalidLength len expected => "invalid length " ++ toString len ++ ", expected " ++ expected
    | .missingField name => "missing field `" ++ name ++ "`"
  debugStr := jsonString

/-! ### Images -/

def digestOfTwo : List UInt8 :=
  [0xdb, 0xc1, 0xb4, 0xc9, 0x00, 0xff, 0xe4, 0x8d, 0x57, 0x5b, 0x5d, 0xa5, 0xc6, 0x38, 0x04, 0x01,
    0x25, 0xf6, 0x5d, 0xb0, 0xfe, 0x3e, 0x24, 0x49, 0x4b, 0x76, 0xea, 0x98, 0x64, 0x57, 0xd9, 0x86]

/-- SHA-256 as far as it is looked at here: on an image of one byte. -/
@[reducible] def sha256OfByte : Sha256 where
  Ctx := List UInt8
  new := []
  update ctx chunk := ctx ++ chunk
  finalize ctx := if ctx = [0x02] then digestOfTwo else []
  digest bytes := if bytes = [0x02] then digestOfTwo else []
  finalize_foldl chunks := by
    have h : ∀ (l : List (List UInt8)) ctx, l.foldl (· ++ ·) ctx = ctx ++ l.flatten := by
      intro l
      induction l with
      | nil => simp
      | cons a l ih => simp [ih]
    rw [h, List.nil_append]

/-- An update of which nothing is known but where it is. -/
def bareUpdate : UpdatePayload :=
  ⟨true, some "https://files.test/fw.bin", some ⟨"f2c1", none, none, none, none⟩, none, none, none, none⟩

/-- A stream that delivers the chunks it holds. -/
def scripted : HttpCalls (List Chunk) where
  openUrl _ s := (.ok none, s)
  read
    | [] => (.ok ⟨[], Nat.zero_le _⟩, [])
    | chunk :: s => (.ok chunk, s)

/-- A one-byte download whose first byte makes it a patch. -/
def patchScript : List Chunk := [⟨[0x02], by decide⟩]

/-! ### The device -/

/-- What the world has in store. -/
structure Bench where
  /-- What is read from the socket; then it is closed. -/
  incoming : List (Option Frame)
  /-- How many frames can be sent before the socket is gone. -/
  sends : Nat
  chunks : List Chunk
  clock : Nat
  /-- Whether the running image is on probation. -/
  pending : Bool
  /-- What other tasks offer to the log buffer, each time it is looked at. -/
  offers : List (List Offer)

def Bench.closed : Error := .transport "closed"

def Bench.send (_ : Frame) (b : Bench) : Except Error Unit × Bench :=
  match b.sends with
  | 0 => (.error closed, b)
  | n + 1 => (.ok (), { b with sends := n })

def Bench.recv (b : Bench) : Except Error (Option Frame) × Bench :=
  match b.incoming with
  | [] => (.error closed, b)
  | frame :: rest => (.ok frame, { b with incoming := rest })

def Bench.platform : Platform Bench where
  connect b := (.ok (), b)
  send := Bench.send
  recvFrame := Bench.recv
  http b := (.ok (), b)
  beginUpdate b := (.ok (), b)
  pendingVerify b := (b.pending, b)
  autoRevertDetected b := (false, b)
  markValid b := (.ok (), b)
  restart b := ((), b)
  sleep _ b := ((), b)
  nowMs b := (b.clock, { b with clock := b.clock + 1000 })
  stream :=
    { openUrl := fun _ b => (.ok none, b)
      read := fun b =>
        match b.chunks with
        | [] => (.ok ⟨[], Nat.zero_le _⟩, b)
        | chunk :: rest => (.ok chunk, { b with chunks := rest }) }
  sink := ⟨fun _ b => (.ok (), b), fun b => (.ok (), b), id⟩

def benchConfig (extensions : Enabled) : Config where
  deviceApiVersion := "2.2.0"
  heartbeatIntervalSecs := 30
  reconnectBackoffSecs := [1, 2, 5, 10, 30, 60]
  progressStepPercent := 5
  extensions := extensions
  serializer := .json

def benchMetadata : FirmwareMetadata where
  projectName := "my_app"
  version := "1.0.0"
  appElfSha256 := "abababababababababababababababababababababababababababababababab"
  idfVer := "v5.2.1"
  chipId := 9

/-- An agent that applies every update, with a location and no health provider. -/
def benchAgent (extensions : Enabled) : Agent Bench where
  config := benchConfig extensions
  metadata := benchMetadata
  platform := Bench.platform
  handler := ⟨fun _ b => (.apply, b), fun _ _ b => ((), b)⟩
  location := some fun b => (some ⟨0, 0, "gnss", none⟩, b)
  health := none
  identify := none
  console := none
  tasks b :=
    match b.offers with
    | [] => ([], b)
    | offers :: rest => (offers, { b with offers := rest })
  wallMicros b := (some 1790000000000000, b)

/-- The device before its first session, with or without a log buffer. -/
def benchDevice (extensions : Enabled) (logs : Option LogBuffer) : Device where
  link := .new (benchConfig extensions) benchMetadata
  logs := logs
  reader := .new
  joined := false
  pump := ⟨0, 0⟩

end NervesHub
