import NervesHubLink.Error

/-! The terminal: what a command prints, and what is typed (`console.rs`). -/

namespace NervesHub

def prompt : String := "esp32> "

/-- The most one command may print, in bytes. -/
def maxOutput : Nat := 2048

structure Output where
  text : String
  truncated : Bool
  deriving DecidableEq, Repr

namespace Output

def new : Output := ⟨"", false⟩

def finish (o : Output) : String := if o.truncated then o.text ++ "\r\n[output truncated]" else o.text

/-- As many characters as fit into `room` bytes. -/
def cut : Nat → List Char → List Char
  | _, [] => []
  | room, c :: rest => if c.utf8Size ≤ room then c :: cut (room - c.utf8Size) rest else []

def writeStr (o : Output) (s : String) : Output :=
  let room := maxOutput - o.text.utf8ByteSize
  if room = 0 then { o with truncated := true }
  else if room < s.utf8ByteSize then ⟨o.text ++ String.ofList (cut room s.toList), true⟩
  else { o with text := o.text ++ s }

/-- `write!`, which writes the pieces of its format one after another. -/
def writePieces (o : Output) (pieces : List String) : Output := pieces.foldl writeStr o

end Output

/-- Where the reader is in an escape sequence. -/
inductive Escape where
  | no
  | started
  | csi
  deriving DecidableEq, Repr

/-- Assembles the terminal's keystrokes into lines. -/
structure LineReader where
  line : List Char
  escape : Escape
  /-- A carriage return just ended a line. -/
  pendingNewline : Bool
  deriving DecidableEq, Repr

/-- `char::is_control`: the characters of the category `Cc`. -/
def isControl (c : Char) : Bool := c.toNat < 0x20 || decide (0x7F ≤ c.toNat ∧ c.toNat < 0xA0)

/-- `char::is_whitespace`: the property `White_Space`. -/
def isWhiteSpace (c : Char) : Bool :=
  decide (0x09 ≤ c.toNat ∧ c.toNat ≤ 0x0D) || c.toNat == 0x20 || c.toNat == 0x85 || c.toNat == 0xA0 ||
    c.toNat == 0x1680 || decide (0x2000 ≤ c.toNat ∧ c.toNat ≤ 0x200A) || c.toNat == 0x2028 || c.toNat == 0x2029 ||
    c.toNat == 0x202F || c.toNat == 0x205F || c.toNat == 0x3000

def byteLength (line : List Char) : Nat := (line.map Char.utf8Size).sum

namespace LineReader

def new : LineReader := ⟨[], .no, false⟩

/-- What one keystroke leaves of the reader, echoes, and completes. -/
def step (r : LineReader) (c : Char) : LineReader × List Char × Option (List Char) :=
  match r.escape with
  | .started => ({ r with escape := if c = '[' then .csi else .no }, [], none)
  | .csi => (if 0x40 ≤ c.toNat ∧ c.toNat ≤ 0x7E then { r with escape := .no } else r, [], none)
  | .no =>
    let wasPending := r.pendingNewline
    let r := { r with pendingNewline := false }
    if c = '\x1b' then ({ r with escape := .started }, [], none)
    else if c = '\n' && wasPending then (r, [], none)
    else if c = '\r' || c = '\n' then ({ r with pendingNewline := c == '\r', line := [] }, ['\r', '\n'], some r.line)
    else if c = '\x08' || c = '\x7f' then
      if r.line.isEmpty then (r, [], none) else ({ r with line := r.line.dropLast }, ['\x08', ' ', '\x08'], none)
    else if isControl c then (r, [], none)
    else if byteLength r.line < 256 then ({ r with line := r.line ++ [c] }, [c], none)
    else (r, [], none)

def feedChars : LineReader → List Char → LineReader × List Char × List (List Char)
  | r, [] => (r, [], [])
  | r, c :: rest =>
    let (r, echo, line) := r.step c
    let (r, echoes, lines) := feedChars r rest
    (r, echo ++ echoes, line.toList ++ lines)

/-- Feeds what was typed; what to echo and the completed lines come back. -/
def feed (r : LineReader) (data : String) : (String × List String) × LineReader :=
  let (r, echo, lines) := r.feedChars data.toList
  ((String.ofList echo, lines.map String.ofList), r)

end LineReader

/-- The words of a line, of which the first is `word` so far. -/
def splitWhitespace : List Char → List Char → List (List Char)
  | word, [] => if word.isEmpty then [] else [word]
  | word, c :: rest =>
    if isWhiteSpace c then (if word.isEmpty then [] else [word]) ++ splitWhitespace [] rest
    else splitWhitespace (word ++ [c]) rest

/-- Splits a line into a command and its arguments. -/
def parse (line : String) : Option (String × List String) :=
  match (splitWhitespace [] line.toList).map String.ofList with
  | [] => none
  | name :: args => some (name, args)

/-! ### Commands -/

/-- A command: its name, its help, and what it does. It writes pieces of text and may fail. -/
structure Command (σ : Type) where
  name : String
  help : String
  run : List String → σ → (List String × Except Error Unit) × σ

section
variable {σ : Type}

/-- `{name:<14} {help}`, on a line of its own. -/
def helpLine (name help : String) : List String :=
  ["  ", name] ++ List.replicate (14 - name.length) " " ++ [" ", help, "\r\n"]

/-- What `help` prints: the agent's own commands, and then those registered, by name. -/
def helpOutput (commands : List (Command σ)) : String :=
  let names := commands.mergeSort fun a b => a.name ≤ b.name
  (Output.new.writePieces (["commands:\r\n"] ++
    helpLine "help" "this list" ++ helpLine "log [level]" "what is sent to NervesHub" ++
    helpLine "reboot" "restart the device" ++ names.flatMap fun c => helpLine c.name c.help)).finish

/-- What a command that ran leaves on the terminal. -/
def commandOutput (name : String) (written : List String) (result : Except Error Unit) : String :=
  let out := Output.new.writePieces written
  (match result with
    | .ok () => out
    | .error err => out.writePieces (["\r\n", name, ": "] ++ err.pieces)).finish

def unknownCommand (name : String) : String :=
  (Output.new.writePieces [name, ": unknown command, try `help`"]).finish

end

end NervesHub
