import Mathlib.Algebra.Group.Int.Defs
import Mathlib.Algebra.GroupWithZero.Nat
import Mathlib.Data.List.Basic

/-! Values, messages and frames (`message.rs`), and what the serializers are asked to write.

`serde_json` and `rmp_serde` are not in the repository. Reading a frame with them is a function that may
answer anything (`Serde`); writing is a function of the tree of serializer calls (`Ser`), and does not
fail: every payload here is made of strings, numbers and maps with string keys, written to memory. -/

namespace NervesHub

/-! ### Values -/

/-- The bits of an `f64`. -/
abbrev F64 := UInt64

/-- Neither an infinity nor a NaN: not all of the exponent's bits are set. -/
def F64.isFinite (x : F64) : Bool := (x >>> 52) &&& 0x7FF != 0x7FF

inductive Number where
  | posInt (n : Nat)
  | negInt (n : Int)
  | float (bits : F64)
  deriving DecidableEq, Repr

/-- `serde_json::Value`. The fields of an object are kept in the order of their keys. -/
inductive Value where
  | null
  | bool (b : Bool)
  | number (n : Number)
  | string (s : String)
  | array (items : List Value)
  | object (fields : List (String × Value))
  deriving Repr, Inhabited

abbrev Fields := List (String × Value)

/-- Puts a field in its place in the order of the keys, over an earlier one of the same key. -/
def Fields.insert (key : String) (value : Value) : Fields → Fields
  | [] => [(key, value)]
  | (k, v) :: rest =>
    if key < k then (key, value) :: (k, v) :: rest
    else if key = k then (key, value) :: rest
    else (k, v) :: Fields.insert key value rest

def Fields.ofList (l : List (String × Value)) : Fields := l.foldl (fun m kv => Fields.insert kv.1 kv.2 m) []

namespace Value

/-- `json!({...})`. -/
def obj (l : List (String × Value)) : Value := .object (Fields.ofList l)

/-- `json!(n)` of an unsigned number. -/
def nat (n : Nat) : Value := .number (.posInt n)

/-- `json!(x)` of an `f64`: JSON has no infinities and no NaN. -/
def f64 (x : F64) : Value := if x.isFinite then .number (.float x) else .null

def get (key : String) : Value → Option Value
  | .object fields => (fields.find? (·.1 == key)).map (·.2)
  | _ => none

def asStr : Value → Option String
  | .string s => some s
  | _ => none

def asArray : Value → Option (List Value)
  | .array items => some items
  | _ => none

def asObject : Value → Option Fields
  | .object fields => some fields
  | _ => none

/-- `payload[key] = value`, on an object. -/
def set (payload : Value) (key : String) (value : Value) : Value :=
  match payload with
  | .object fields => .object (Fields.insert key value fields)
  | v => v

end Value

theorem Fields.find?_insert (key : String) (value : Value) (fields : Fields) (k : String) :
    (Fields.insert key value fields).find? (·.1 == k) =
      if key = k then some (key, value) else fields.find? (·.1 == k) := by
  induction fields with
  | nil => by_cases hk : key = k <;> simp [Fields.insert, hk]
  | cons kv rest ih =>
    obtain ⟨k', v'⟩ := kv
    unfold Fields.insert
    by_cases hlt : key < k'
    · rw [if_pos hlt]
      by_cases hk : key = k <;> simp [hk]
    rw [if_neg hlt]
    by_cases heq : key = k'
    · subst heq
      by_cases hk : key = k <;> simp [hk]
    · rw [if_neg heq, List.find?_cons, List.find?_cons, ih]
      by_cases hk : key = k
      · have hne : (k' == k) = false := beq_false_of_ne fun h => heq (hk.trans h.symm)
        simp [hk, hne]
      · simp [hk]

theorem Value.get_set {key k : String} (h : key ≠ k) (payload value : Value) :
    (payload.set key value).get k = payload.get k := by
  cases payload with
  | object fields => simp [Value.set, Value.get, Fields.find?_insert, h]
  | _ => rfl

theorem Value.get_obj {l : List (String × Value)} (hkeys : (l.map Prod.fst).Nodup) {key : String} {v : Value} :
    (Value.obj l).get key = some v ↔ (key, v) ∈ l := by
  have hfold : ∀ (l : List (String × Value)) (fields : Fields), (l.map Prod.fst).Nodup →
      (((l.foldl (fun m kv => Fields.insert kv.1 kv.2 m) fields).find? (·.1 == key)).map (·.2) = some v ↔
        (key, v) ∈ l ∨ (key ∉ l.map Prod.fst ∧ (fields.find? (·.1 == key)).map (·.2) = some v)) := by
    intro l
    induction l with
    | nil => simp
    | cons kv l ih =>
      obtain ⟨k, w⟩ := kv
      intro fields hnodup
      obtain ⟨hk, hrest⟩ := List.nodup_cons.mp hnodup
      rw [List.foldl_cons, ih _ hrest, Fields.find?_insert]
      by_cases heq : k = key
      · subst heq
        have hnot : ∀ x, (k, x) ∉ l := fun x hx => hk (List.mem_map.mpr ⟨_, hx, rfl⟩)
        simp only [List.map_cons, List.mem_cons, if_true]
        constructor
        · rintro (h | ⟨-, h⟩)
          · exact absurd h (hnot v)
          · left; left
            cases h
            rfl
        · rintro ((h | h) | ⟨h, -⟩)
          · cases h
            exact Or.inr ⟨hk, rfl⟩
          · exact absurd h (hnot v)
          · exact absurd (Or.inl trivial) h
      · have hne : (key, v) ≠ (k, w) := fun h => heq (Prod.mk.inj h).1.symm
        simp [heq, hne, Ne.symm heq]
  have h := hfold l [] hkeys
  simpa [Value.obj, Fields.ofList, Value.get] using h

/-! ### Serializer calls -/

/-- The calls that a `Serialize` makes on a serializer, nested as they are made. -/
inductive Ser where
  | unit
  | bool (b : Bool)
  | u64 (n : Nat)
  | i64 (n : Int)
  | f64 (x : F64)
  | str (s : String)
  | none
  | some (v : Ser)
  | seq (len : Nat) (items : List Ser)
  | tuple (items : List Ser)
  | map (len : Nat) (entries : List (String × Ser))
  deriving Repr, Inhabited

def Number.ser : Number → Ser
  | .posInt n => .u64 n
  | .negInt n => .i64 n
  | .float x => .f64 x

def Ser.ofOption : Option String → Ser
  | Option.some s => .some (.str s)
  | Option.none => .none

mutual
/-- `Serialize for Value`. -/
def Value.ser : Value → Ser
  | .null => .unit
  | .bool b => .bool b
  | .number n => n.ser
  | .string s => .str s
  | .array items => .seq items.length (Value.serAll items)
  | .object fields => .map fields.length (Value.serFields fields)

def Value.serAll : List Value → List Ser
  | [] => []
  | v :: rest => v.ser :: Value.serAll rest

def Value.serFields : List (String × Value) → List (String × Ser)
  | [] => []
  | (k, v) :: rest => (k, v.ser) :: Value.serFields rest
end

mutual
/-- `serde_json::to_value`: a map is collected field by field. -/
def Ser.toValue : Ser → Value
  | .unit => .null
  | .bool b => .bool b
  | .u64 n => .number (.posInt n)
  | .i64 n => .number (if 0 ≤ n then .posInt n.toNat else .negInt n)
  | .f64 x => Value.f64 x
  | .str s => .string s
  | .none => .null
  | .some v => v.toValue
  | .seq _ items => .array (Ser.toValues items)
  | .tuple items => .array (Ser.toValues items)
  | .map _ entries => .object (Ser.toFields [] entries)

def Ser.toValues : List Ser → List Value
  | [] => []
  | v :: rest => v.toValue :: Ser.toValues rest

def Ser.toFields (acc : Fields) : List (String × Ser) → Fields
  | [] => acc
  | (k, v) :: rest => Ser.toFields (Fields.insert k v.toValue acc) rest
end

/-! ### Log lines

A line belongs to `extensions.rs`. It is here because a batch of lines is written into a frame as it is. -/

/-- A line of the log. `spare` is the room its strings and its `meta` vector have allocated beyond what they
    hold, in bytes: the queue counts allocations, not contents. -/
structure LogLine where
  level : String
  message : String
  timestamp : Option String
  metaPairs : List (String × String)
  spare : Nat
  deriving DecidableEq, Repr

namespace LogLine

def new (level message : String) : LogLine := ⟨level, message, none, [], 0⟩

def addMeta (line : LogLine) (key value : String) : LogLine := { line with metaPairs := line.metaPairs ++ [(key, value)] }

/-- Stamps the line, in microseconds since the epoch. -/
def withTime (line : LogLine) (unixMicros : Nat) : LogLine := line.addMeta "time" (toString unixMicros)

def hasTime (line : LogLine) : Bool := line.metaPairs.any (·.1 == "time")

end LogLine

/-- The smallest key after `after`, with its last value. -/
def Meta.nextAfter (pairs : List (String × String)) (after : Option String) : Option (String × String) :=
  pairs.foldl (fun next kv =>
    if after.any (fun a => decide (kv.1 ≤ a)) then next
    else match next with
      | some (smallest, v) => if smallest < kv.1 then some (smallest, v) else some kv
      | none => some kv) none

/-- The entries written from `after` on. Each has a larger key than the one before, so there are at most
    as many as there are pairs. -/
def Meta.entriesFrom (pairs : List (String × String)) : Nat → Option String → List (String × Ser)
  | 0, _ => []
  | n + 1, after =>
    match Meta.nextAfter pairs after with
    | some (key, value) => (key, .str value) :: Meta.entriesFrom pairs n (some key)
    | none => []

/-- How many keys there are: each pair whose key no earlier pair has. -/
def Meta.distinct : List (String × String) → List String → Nat
  | [], _ => 0
  | (key, _) :: rest, earlier => (if earlier.contains key then 0 else 1) + Meta.distinct rest (key :: earlier)

/-- `Serialize for Meta`. -/
def Meta.ser (pairs : List (String × String)) : Ser :=
  .map (Meta.distinct pairs []) (Meta.entriesFrom pairs pairs.length none)

/-- `Serialize for LogLine`. -/
def LogLine.ser (line : LogLine) : Ser :=
  .map (2 + (if line.metaPairs.isEmpty then 0 else 1) + (if line.timestamp.isSome then 1 else 0))
    ([("level", .str line.level), ("message", .str line.message)] ++
      (if line.metaPairs.isEmpty then [] else [("meta", Meta.ser line.metaPairs)]) ++
      (match line.timestamp with
        | some timestamp => [("timestamp", .str timestamp)]
        | none => []))

/-- The line as a `Value`. -/
def LogLine.payload (line : LogLine) : Value := line.ser.toValue

/-- `Serialize for LogBatch`: `{"lines": [..]}`. -/
def LogBatch.ser (lines : List LogLine) : Ser := .map 1 [("lines", .seq lines.length (lines.map LogLine.ser))]

/-! ### Messages -/

def deviceTopic : String := "device"
def consoleTopic : String := "console"
def consoleVersion : String := "1.0.0"
def controlTopic : String := "phoenix"
def extensionsTopic : String := "extensions"

namespace event
def join : String := "phx_join"
def reply : String := "phx_reply"
def close : String := "phx_close"
def error : String := "phx_error"
def heartbeat : String := "heartbeat"
def update : String := "update"
def updateProgress : String := "update_progress"
def firmwareValidated : String := "firmware_validated"
def statusUpdate : String := "status_update"
def rebooting : String := "rebooting"
def reboot : String := "reboot"
def identify : String := "identify"
def extensionsGet : String := "extensions:get"
def up : String := "up"
def down : String := "dn"
def restart : String := "restart"
def fileDataStart : String := "file-data/start"
def fileData : String := "file-data"
def fileDataStop : String := "file-data/stop"
/-- What `Link::send_logs` and `Extensions::log` write. -/
def loggingSend : String := "logging:send"
end event

inductive Serializer where
  | json
  | msgPack
  deriving DecidableEq, Repr

/-- One websocket message: text for JSON, binary for msgpack. -/
inductive Frame where
  | text (text : String)
  | binary (bytes : List UInt8)
  deriving DecidableEq, Repr

def Frame.len : Frame → Nat
  | .text s => s.utf8ByteSize
  | .binary bytes => bytes.length

/-- A message as it is read. -/
structure Message where
  joinRef : Option String
  reference : Option String
  topic : String
  event : String
  payload : Value
  deriving Repr, Inhabited

namespace Message

def isOkReplyTo (m : Message) (reference : String) : Bool :=
  m.event == event.reply && m.reference == some reference && (m.payload.get "status").bind Value.asStr == some "ok"

def replyResponse (m : Message) : Option Value := m.payload.get "response"

end Message

/-- What a message carries: a value, or lines that write themselves. -/
inductive Payload where
  | value (v : Value)
  | batch (lines : List LogLine)
  deriving Repr, Inhabited

def Payload.ser : Payload → Ser
  | .value v => v.ser
  | .batch lines => LogBatch.ser lines

/-- A message as it is written: the five elements that `encode_frame` is given. -/
structure Envelope where
  joinRef : Option String
  reference : Option String
  topic : String
  event : String
  payload : Payload
  deriving Repr, Inhabited

/-- A tuple, so an array, in both serializers. -/
def Envelope.ser (m : Envelope) : Ser :=
  .tuple [.ofOption m.joinRef, .ofOption m.reference, .str m.topic, .str m.event, m.payload.ser]

/-- What `serde_json` finds wrong with a value. -/
inductive DeError where
  | invalidType (found : Value) (expected : String)
  | invalidValue (found : Value) (expected : String)
  | invalidLength (len : Nat) (expected : String)
  | missingField (name : String)
  deriving Repr

/-- The serializers, from outside the repository, and the texts that `Debug` makes. -/
class Serde where
  /-- `serde_json::to_writer`, whose output is UTF-8. -/
  toJson : Ser → String
  /-- `rmp_serde::encode::write`. -/
  toMsgPack : Ser → List UInt8
  /-- `serde_json::from_str` of the tuple, or the text of its error. -/
  fromJson : String → Except String (Option String × Option String × String × String × Value)
  /-- `rmp_serde::from_slice` of the tuple, with any value for a ref. -/
  fromMsgPack : List UInt8 → Except String (Value × Value × String × String × Value)
  /-- `Value::to_string`. -/
  display : Value → String
  /-- The text of an error in reading a value. -/
  deText : DeError → String
  /-- `Debug` of a string: quoted, with escapes. -/
  debugStr : String → String

variable [Serde]

/-- A message as `serializer` writes it. -/
def encodeFrame (serializer : Serializer) (m : Envelope) : Frame :=
  match serializer with
  | .json => .text (Serde.toJson m.ser)
  | .msgPack => .binary (Serde.toMsgPack m.ser)

def referenceText : Value → Option String
  | .null => none
  | .string text => some text
  | other => some (Serde.display other)

/-- Reads a frame by its kind: text is JSON, binary is msgpack. The error is the serializer's text. -/
def Message.decodeFrame : Frame → Except String Message
  | .text text => do
    let (joinRef, reference, topic, event, payload) ← Serde.fromJson text
    return ⟨joinRef, reference, topic, event, payload⟩
  | .binary bytes => do
    let (joinRef, reference, topic, event, payload) ← Serde.fromMsgPack bytes
    return ⟨referenceText joinRef, referenceText reference, topic, event, payload⟩

/-- Message references, counted in a `u64` that wraps. -/
structure RefGenerator where
  next : Nat
  deriving DecidableEq, Repr

def RefGenerator.nextRef (r : RefGenerator) : String × RefGenerator :=
  let next := (r.next + 1) % 2 ^ 64
  (toString next, ⟨next⟩)

end NervesHub
