import NervesHubLink.Logging
import NervesHubLink.Lib.Counter
import NervesHubLink.Lib.Machine

/-! The log queue between threads (`logging.rs`). Each section under the lock is one step, and so is an atomic
addition made outside it; the steps of different threads come in any order. -/

namespace NervesHub

/-- A thread between the two sections of `take_stamped`. -/
structure Taking where
  maxLines : Nat
  micros : Option Nat
  batch : List LogLine

structure Queue where
  buffer : LogBuffer
  /-- How many threads were turned away by `has_room`, and have not counted it yet. -/
  refusing : Nat
  taking : List Taking

def Queue.new (capacity maxBytes : Nat) (threshold : Level) : Queue :=
  ⟨{ LogBuffer.withThreshold capacity threshold with maxBytes := maxBytes }, 0, []⟩

/-- What a step did. Lines are given as they were held and as they are returned. -/
inductive QueueEvent where
  | pushed (line : LogLine) (kept : Bool)
  | asked (room : Bool)
  | counted
  | filled (batch : Batch)
  | popped (taken : LogBuffer.Popped) (returned : Option LogLine)

inductive Queue.Step : Queue → QueueEvent → Queue → Prop
  | push {q : Queue} (line : LogLine) :
    Step q (.pushed line (q.buffer.push line).1) { q with buffer := (q.buffer.push line).2 }
  | ask {q : Queue} :
    Step q (.asked q.buffer.hasRoom.1) { q with refusing := q.refusing + if q.buffer.hasRoom.1 then 0 else 1 }
  | count {q : Queue} : 0 < q.refusing →
    Step q .counted
      { q with buffer := { q.buffer with dropped := q.buffer.dropped + 1 }, refusing := q.refusing - 1 }
  | pop {q : Queue} :
    Step q (.popped q.buffer.pop.1 q.buffer.pop.1.sent) { q with buffer := q.buffer.pop.2 }
  | popStamped {q : Queue} (micros : Option Nat) :
    Step q (.popped q.buffer.pop.1 (q.buffer.pop.1.sent.map (stamp · micros))) { q with buffer := q.buffer.pop.2 }
  | fill {q : Queue} (maxLines maxBytes : Nat) (micros : Option Nat) {r : Batch × Bool} {buffer : LogBuffer} :
    q.buffer.drain maxLines maxBytes micros = (r, buffer) →
    Step q (.filled r.1)
      { q with
        buffer := buffer
        taking := if r.2 || maxLines ≤ r.1.lines.length then q.taking else ⟨maxLines, micros, r.1.lines⟩ :: q.taking }
  | finish {q : Queue} {before after : List Taking} {t : Taking} : q.taking = before ++ t :: after →
    Step q (.popped q.buffer.pop.1 (q.buffer.pop.1.sent.map (stamp · (t.micros.map (atPlace · t.batch.length)))))
      { q with buffer := q.buffer.pop.2, taking := before ++ after }

namespace QueueEvent

def accepts : QueueEvent → List LogLine
  | .pushed line true => [line]
  | _ => []

def takes : QueueEvent → List LogLine
  | .filled batch => batch.raw
  | .popped (.line line) _ => [line]
  | _ => []

/-- One for a push, and for a refusal by `has_room`. -/
def offers : QueueEvent → Nat
  | .pushed _ _ | .counted => 1
  | _ => 0

/-- The count in a loss note. -/
def notes : QueueEvent → Nat
  | .popped (.note lost) _ => lost
  | _ => 0

def isNote : QueueEvent → Bool
  | .popped (.note _) _ => true
  | _ => false

/-- A line is counted as lost. -/
def isLoss : QueueEvent → Bool
  | .pushed _ false | .counted => true
  | _ => false

/-- What is returned is what was taken, stamped; in a batch, a microsecond apart. -/
def Returns : QueueEvent → Prop
  | .filled batch => ∃ micros : Option Nat, batch.lines = batch.raw.mapIdx fun i line =>
      stamp line (micros.map (atPlace · i))
  | .popped taken returned => ∃ micros, returned = taken.sent.map (stamp · micros)
  | _ => True

end QueueEvent

/-- The lines accepted, the oldest first. -/
def acceptedLines (t : List QueueEvent) : List LogLine := t.reverse.flatMap QueueEvent.accepts

/-- The lines taken out, the first one first. -/
def takenLines (t : List QueueEvent) : List LogLine := t.reverse.flatMap QueueEvent.takes

def offered (t : List QueueEvent) : Nat := (t.map QueueEvent.offers).sum

def reported (t : List QueueEvent) : Nat := (t.map QueueEvent.notes).sum

/-- How many losses no note has told of yet. -/
def untold (t : List QueueEvent) : Nat := Trace.since QueueEvent.isLoss QueueEvent.isNote 0 t

/-! ### Asking first

A thread that logs a line may ask whether there is room for any before it builds it. -/

/-- The queue behind its lock, which a thread that panicked may have left poisoned. -/
structure LockedQueue where
  buffer : LogBuffer
  poisoned : Bool

namespace LockedQueue

def count (q : LockedQueue) : LockedQueue := { q with buffer := { q.buffer with dropped := q.buffer.dropped + 1 } }

/-- A poisoned lock is treated as a full queue. -/
def push (q : LockedQueue) (line : LogLine) : Bool × LockedQueue :=
  if q.poisoned then (false, q.count) else ((q.buffer.push line).1, { q with buffer := (q.buffer.push line).2 })

/-- What `has_room` reads under the lock. -/
def room (q : LockedQueue) : Bool := !q.poisoned && q.buffer.hasRoom.1

def hasRoom (q : LockedQueue) : Bool × LockedQueue := if q.room then (true, q) else (false, q.count)

/-- Pushes a line if there is room for any. -/
def pushIfRoom (q : LockedQueue) (line : LogLine) : Bool × LockedQueue :=
  match q.hasRoom with
  | (true, q) => q.push line
  | (false, q) => (false, q)

end LockedQueue

/-- The count that a note tells. -/
def LogBuffer.Popped.lost : LogBuffer.Popped → Nat
  | .note lost => lost
  | _ => 0

inductive LogPhase where
  /-- There was room, and it goes on to push. -/
  | cleared
  /-- There was none, and it goes on to count the line as lost. -/
  | refused
  | kept
  | lost
  deriving DecidableEq, Repr

structure LogCall where
  line : LogLine
  phase : LogPhase

/-- Threads that log to one queue, with the lines that it accepted, and how many notes have told to be lost. -/
structure Loggers where
  queue : LockedQueue
  calls : List LogCall
  accepted : List LogLine
  noted : Nat

namespace Loggers

/-- A call that pushes now, before the others in `after` and behind those in `before`. -/
def push (k : Loggers) (before after : List LogCall) (line : LogLine) : Loggers where
  queue := (k.queue.push line).2
  calls := before ++ ⟨line, if (k.queue.push line).1 then .kept else .lost⟩ :: after
  accepted := k.accepted ++ if (k.queue.push line).1 then [line] else []
  noted := k.noted

inductive Step : Loggers → Loggers → Prop
  | direct {k : Loggers} (line : LogLine) : Step k (k.push k.calls [] line)
  | ask {k : Loggers} (line : LogLine) :
    Step k { k with calls := k.calls ++ [⟨line, if k.queue.room then .cleared else .refused⟩] }
  | proceed {k : Loggers} {before after : List LogCall} {line : LogLine} : k.calls = before ++ ⟨line, .cleared⟩ :: after →
    Step k (k.push before after line)
  | count {k : Loggers} {before after : List LogCall} {line : LogLine} : k.calls = before ++ ⟨line, .refused⟩ :: after →
    Step k { k with queue := k.queue.count, calls := before ++ ⟨line, .lost⟩ :: after }
  | pop {k : Loggers} : k.queue.poisoned = false →
    Step k { k with
      queue := { k.queue with buffer := k.queue.buffer.pop.2 }
      noted := k.noted + k.queue.buffer.pop.1.lost }
  | drain {k : Loggers} (maxLines maxBytes : Nat) (micros : Option Nat) : k.queue.poisoned = false →
    Step k { k with queue := { k.queue with buffer := (k.queue.buffer.drain maxLines maxBytes micros).2 } }
  | setLevel {k : Loggers} (l : Level) : Step k { k with queue := { k.queue with buffer := k.queue.buffer.setLevel l } }
  | poison {k : Loggers} : Step k { k with queue := { k.queue with poisoned := true } }

end Loggers

end NervesHub
