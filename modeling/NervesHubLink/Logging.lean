import NervesHubLink.Extensions

/-! The queue of log lines waiting to be sent (`logging.rs`).

The queue is shared with whatever is logging. Each function here is one critical section, or one atomic
operation, of the source's; the agent puts them together, with the other tasks in between. -/

namespace NervesHub

/-- `log::Level`. -/
inductive Level where
  | error
  | warn
  | info
  | debug
  | trace
  deriving DecidableEq, Repr

namespace Level

def toNat : Level → Nat
  | .error => 1
  | .warn => 2
  | .info => 3
  | .debug => 4
  | .trace => 5

def ofThreshold (n : Nat) : Level :=
  if n = Level.error.toNat then .error
  else if n = Level.warn.toNat then .warn
  else if n = Level.info.toNat then .info
  else if n = Level.debug.toNat then .debug
  else .trace

def asStr : Level → String
  | .error => "ERROR"
  | .warn => "WARN"
  | .info => "INFO"
  | .debug => "DEBUG"
  | .trace => "TRACE"

/-- `FromStr`: any case will do. -/
def parse (s : String) : Option Level :=
  [Level.error, .warn, .info, .debug, .trace].find? fun l => s.toLower = l.asStr.toLower

/-- The level names NervesHub stores. -/
def name : Level → String
  | .error => "error"
  | .warn => "warning"
  | .info => "info"
  | .debug => "debug"
  | .trace => "debug"

end Level

/-- Before this many microseconds since the epoch, the clock has not been set. -/
def plausibleMicros : Nat := 1577836800000000

/-- What the wall clock reads, in 64 bits, once it has been set. -/
def unixMicros (micros : Option Nat) : Option Nat := (micros.map (· % 2 ^ 64)).filter (plausibleMicros ≤ ·)

/-- The time that the line at a place of a batch is given: a microsecond apart, in 64 bits. -/
def atPlace (micros place : Nat) : Nat := (micros + place) % 2 ^ 64

def stamp (line : LogLine) (nowMicros : Option Nat) : LogLine :=
  match line.hasTime, nowMicros with
  | false, some micros => line.withTime micros
  | _, _ => line

/-- `size_of::<LogLine>()` and `size_of::<(String, String)>()`, with pointers of 32 bits. -/
def logLineSize : Nat := 48
def metaPairSize : Nat := 24

/-- The heap a held line takes: the line itself and the buffer behind each of its strings. -/
def heapCost (line : LogLine) : Nat :=
  logLineSize + line.metaPairs.length * metaPairSize + line.level.utf8ByteSize + line.message.utf8ByteSize +
    (line.timestamp.map String.utf8ByteSize).getD 0 +
    (line.metaPairs.map fun kv => kv.1.utf8ByteSize + kv.2.utf8ByteSize).sum + line.spare

/-- About what a line costs as JSON in a batch. -/
def approximateJsonLen (line : LogLine) : Nat :=
  line.level.utf8ByteSize + line.message.utf8ByteSize + (line.timestamp.map fun t => t.utf8ByteSize + 16).getD 0 +
    (line.metaPairs.map fun kv => kv.1.utf8ByteSize + kv.2.utf8ByteSize + 6).sum + 40

/-- The held lines, and the heap they hold. -/
structure Backlog where
  lines : List LogLine
  bytes : Nat
  deriving DecidableEq, Repr

structure LogBuffer where
  backlog : Backlog
  capacity : Nat
  maxBytes : Nat
  /-- A `usize`, of 32 bits on the device. -/
  dropped : UInt32
  /-- The lowest level that is forwarded, as a number. -/
  threshold : Nat
  deriving DecidableEq, Repr

/-- The lines taken for one message: as they were held, and as they will be sent. -/
structure Batch where
  raw : List LogLine
  lines : List LogLine
  deriving DecidableEq, Repr

namespace LogBuffer

def withThreshold (capacity : Nat) (threshold : Level) : LogBuffer :=
  ⟨⟨[], 0⟩, capacity, 8 * 1024, 0, threshold.toNat⟩

def level (b : LogBuffer) : Level := Level.ofThreshold b.threshold

def setLevel (b : LogBuffer) (l : Level) : LogBuffer := { b with threshold := l.toNat }

/-- Queues a line, or counts it as lost. -/
def push (b : LogBuffer) (line : LogLine) : Bool × LogBuffer :=
  if b.capacity ≤ b.backlog.lines.length || b.maxBytes < b.backlog.bytes + heapCost line then
    (false, { b with dropped := b.dropped + 1 })
  else (true, { b with backlog := ⟨b.backlog.lines ++ [line], b.backlog.bytes + heapCost line⟩ })

/-- Whether a line could be queued now, counting it as lost if not. -/
def hasRoom (b : LogBuffer) : Bool × LogBuffer :=
  if b.backlog.lines.length < b.capacity && b.backlog.bytes + logLineSize ≤ b.maxBytes then (true, b)
  else (false, { b with dropped := b.dropped + 1 })

/-- The note about lines that were lost. -/
def lossNote (n : Nat) : LogLine :=
  .new "warning" s!"{n} log lines were dropped: the device logged more than it keeps waiting to send"

/-- What one `pop` takes. -/
inductive Popped where
  | line (line : LogLine)
  | note (lost : Nat)
  | nothing
  deriving DecidableEq, Repr

def Popped.sent : Popped → Option LogLine
  | .line held => some held
  | .note lost => some (lossNote lost)
  | .nothing => none

/-- The next line to send; or, once the backlog has cleared, a note of what was lost. -/
def pop (b : LogBuffer) : Popped × LogBuffer :=
  match b.backlog.lines with
  | line :: rest => (.line line, { b with backlog := ⟨rest, b.backlog.bytes - heapCost line⟩ })
  | [] => if b.dropped = 0 then (.nothing, b) else (.note b.dropped.toNat, { b with dropped := 0 })

/-- The locked section of `take_stamped`: lines as long as there is room for them in the batch. Whether it
    stopped at the size limit comes with them. -/
def fill (maxLines maxBytes : Nat) (nowMicros : Option Nat) :
    List LogLine → Batch → Nat → Nat → (Batch × Bool) × Backlog
  | [], batch, _, held => ((batch, false), ⟨[], held⟩)
  | next :: rest, batch, bytes, held =>
    if batch.lines.length < maxLines then
      if !batch.lines.isEmpty && decide (maxBytes < bytes + approximateJsonLen next) then
        ((batch, true), ⟨next :: rest, held⟩)
      else
        fill maxLines maxBytes nowMicros rest
          ⟨batch.raw ++ [next], batch.lines ++ [stamp next (nowMicros.map (atPlace · batch.lines.length))]⟩
          (bytes + approximateJsonLen next) (held - heapCost next)
    else ((batch, false), ⟨next :: rest, held⟩)

def drain (b : LogBuffer) (maxLines maxBytes : Nat) (nowMicros : Option Nat) : (Batch × Bool) × LogBuffer :=
  let (r, backlog) := fill maxLines maxBytes nowMicros b.backlog.lines ⟨[], []⟩ 0 b.backlog.bytes
  (r, { b with backlog := backlog })

def len (b : LogBuffer) : Nat := b.backlog.lines.length

def isEmpty (b : LogBuffer) : Bool := b.len == 0

end LogBuffer

/-! ### The capturing logger -/

/-- What a `log` macro hands to the logger. -/
structure Record where
  level : Level
  target : String
  args : String
  deriving DecidableEq, Repr

/-- What another task does to the queue: it pushes a line of its own, or it logs, at a time the wall clock
    reads. `spare` is what the strings of the line it makes have allocated beyond what they hold. -/
inductive Offer where
  | push (line : LogLine)
  | record (r : Record) (micros : Option Nat) (spare : Nat)
  deriving DecidableEq, Repr

/-- What became of a line that was offered. -/
inductive Fate where
  /-- Below the level that is forwarded: not offered after all. -/
  | below
  | kept (line : LogLine)
  | lost
  deriving DecidableEq, Repr

namespace Capture

def line (r : Record) (micros : Option Nat) (spare : Nat) : LogLine :=
  let line := (LogLine.new r.level.name r.args).addMeta "target" r.target
  { (match unixMicros micros with
      | some micros => line.withTime micros
      | none => line) with spare := spare }

/-- `Log::log`, after the console has had its line. -/
def log (b : LogBuffer) (r : Record) (micros : Option Nat) (spare : Nat) : Fate × LogBuffer :=
  if b.level.toNat < r.level.toNat then (.below, b)
  else
    match b.hasRoom with
    | (false, b) => (.lost, b)
    | (true, b) =>
      match b.push (line r micros spare) with
      | (true, b) => (.kept (line r micros spare), b)
      | (false, b) => (.lost, b)

end Capture

def LogBuffer.offer (b : LogBuffer) : Offer → Fate × LogBuffer
  | .push line =>
    match b.push line with
    | (true, b) => (.kept line, b)
    | (false, b) => (.lost, b)
  | .record r micros spare => Capture.log b r micros spare

/-- What other tasks do to the queue, one after another. -/
def LogBuffer.offers (b : LogBuffer) : List Offer → List Fate × LogBuffer
  | [] => ([], b)
  | o :: rest =>
    let (fate, b) := b.offer o
    let (fates, b) := b.offers rest
    (fate :: fates, b)

/-- `take_stamped`. The lock is released once in between: `meanwhile` is what other tasks do then. -/
def LogBuffer.takeStamped (b : LogBuffer) (maxLines maxBytes : Nat) (nowMicros : Option Nat) (meanwhile : List Offer) :
    List LogLine × LogBuffer :=
  let ((batch, full), b) := b.drain maxLines maxBytes nowMicros
  if full || decide (maxLines ≤ batch.lines.length) then (batch.lines, b)
  else
    let (popped, b) := (b.offers meanwhile).2.pop
    match popped.sent with
    | some note => (batch.lines ++ [stamp note (nowMicros.map (atPlace · batch.lines.length))], b)
    | none => (batch.lines, b)

end NervesHub
