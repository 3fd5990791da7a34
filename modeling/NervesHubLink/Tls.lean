import Mathlib.Logic.Function.Basic
import NervesHubLink.Lib.Machine

/-! The socket of a TLS transport between the transport's task and the threads that stop it (`tls.rs`). A step is a
section that no other thread can come into: a reading or writing of the flag, the taking or giving back of the lock, what
is done under it, a call of esp-tls or lwIP. The steps of different threads come in any order. -/

namespace NervesHub
namespace Tls

/-- Whom a socket was opened for. -/
inductive Owner where
  | transport
  | other
  deriving DecidableEq

/-- An open socket, and whether it was shut down. -/
structure Socket where
  owner : Owner
  shut : Bool

/-- What `Context::close` is called for. -/
inductive Purpose where
  | close
  | connect
  | destroy
  deriving DecidableEq

/-- Where the transport's task is: between two calls, or before the step that is named. -/
inductive Task where
  | idle
  | gone
  /-- `close`: takes the lock. -/
  | closing (why : Purpose)
  /-- Gives the socket up. -/
  | withdrawing (why : Purpose)
  /-- Gives the lock back. -/
  | withdrawn (why : Purpose)
  /-- Destroys the connection. -/
  | destroying (why : Purpose)
  /-- `connect`: looks at the flag. -/
  | checking
  /-- Opens a connection. -/
  | opening
  /-- Gives up a connection that was not made, with its socket if it has one. -/
  | failing (fd : Option Int)
  /-- Asks for the socket of the connection that was made. -/
  | opened (fd : Int)
  /-- Takes the lock. -/
  | locking
  /-- Publishes the socket. -/
  | publishing
  /-- Gives the lock back. -/
  | published
  /-- `wait`: looks at the flag. -/
  | waiting
  /-- Calls `select`. -/
  | selecting
  /-- In `select`. -/
  | asleep (fd : Int)
  /-- Looks at the flag again. -/
  | woken
  deriving DecidableEq

/-- Where a call of `Stopper::stop` is. -/
inductive Call where
  /-- Sets the flag. -/
  | idle
  /-- Takes the lock. -/
  | flagged
  /-- Looks at the published socket. -/
  | locked
  /-- Shuts it down. -/
  | reaching (fd : Int)
  /-- Gives the lock back. -/
  | shut
  | returned
  deriving DecidableEq

/-- Who holds the lock. -/
inductive Holder (ι : Type) where
  | task
  | call (i : ι)

/-- `Stop`, `Context`, the threads, and lwIP's sockets by their numbers. Any number of calls of `stop` are under way. -/
structure State (ι : Type) where
  stopping : Bool
  socket : Int
  lock : Option (Holder ι)
  tls : Option Int
  sockfd : Int
  task : Task
  calls : ι → Call
  sockets : Int → Option Socket

variable {ι : Type} [DecidableEq ι]

/-- A new transport, beside any sockets of other connections. -/
def State.new (sockets : Int → Option Socket) : State ι where
  stopping := false
  socket := -1
  lock := none
  tls := none
  sockfd := -1
  task := .idle
  calls _ := .idle
  sockets := sockets

/-- What a step did, as far as it is of interest. -/
inductive Event (ι : Type) where
  /-- `lwip_shutdown`, and what was open under the number. -/
  | shutdown (i : ι) (fd : Int) (reached : Option Socket)
  /-- A `stop` returned. -/
  | stopped (i : ι)
  /-- A wait began. -/
  | waits
  /-- It called `select`. -/
  | selects (fd : Int)
  | internal

/-- What comes after `Context::close`. -/
def Purpose.next : Purpose → Task
  | .close => .idle
  | .connect => .checking
  | .destroy => .gone

namespace State

/-- The connection's socket is closed, if there is one. -/
def free (s : State ι) : Option Int → Int → Option Socket
  | some fd => Function.update s.sockets fd none
  | none => s.sockets

/-- The socket under a number is shut down, if there is one. -/
def shutDown (s : State ι) (fd : Int) : Int → Option Socket :=
  Function.update s.sockets fd ((s.sockets fd).map fun socket => { socket with shut := true })

def callAt (s : State ι) (i : ι) (c : Call) : ι → Call := Function.update s.calls i c

end State

/-- The transport's task, in its callbacks. -/
inductive TaskStep : State ι → Event ι → State ι → Prop
  | close {s : State ι} (why : Purpose) : s.task = .idle → TaskStep s .internal { s with task := .closing why }
  | withdrawLock {s : State ι} {why : Purpose} : s.task = .closing why → s.lock = none →
    TaskStep s .internal { s with task := .withdrawing why, lock := some .task }
  | withdraw {s : State ι} {why : Purpose} : s.task = .withdrawing why →
    TaskStep s .internal { s with task := .withdrawn why, socket := -1 }
  | withdrawUnlock {s : State ι} {why : Purpose} : s.task = .withdrawn why →
    TaskStep s .internal { s with task := .destroying why, lock := none }
  | destroy {s : State ι} {why : Purpose} : s.task = .destroying why →
    TaskStep s .internal { s with task := why.next, tls := none, sockfd := -1, sockets := s.free s.tls }
  | connectStopped {s : State ι} : s.task = .checking → s.stopping = true →
    TaskStep s .internal { s with task := .idle }
  | connectGoes {s : State ι} : s.task = .checking → s.stopping = false →
    TaskStep s .internal { s with task := .opening }
  | openNothing {s : State ι} : s.task = .opening → TaskStep s .internal { s with task := .failing none }
  | openFails {s : State ι} (fd : Int) : s.task = .opening → 0 ≤ fd → s.sockets fd = none →
    TaskStep s .internal { s with
      task := .failing (some fd), sockets := Function.update s.sockets fd (some ⟨.transport, false⟩) }
  | openMade {s : State ι} (fd : Int) : s.task = .opening → 0 ≤ fd → s.sockets fd = none →
    TaskStep s .internal { s with
      task := .opened fd, sockets := Function.update s.sockets fd (some ⟨.transport, false⟩) }
  | noSockfd {s : State ι} {fd : Int} : s.task = .opened fd →
    TaskStep s .internal { s with task := .failing (some fd) }
  | giveUp {s : State ι} {fd : Option Int} : s.task = .failing fd →
    TaskStep s .internal { s with task := .idle, sockets := s.free fd }
  | made {s : State ι} {fd : Int} : s.task = .opened fd →
    TaskStep s .internal { s with task := .locking, tls := some fd, sockfd := fd }
  | publishLock {s : State ι} : s.task = .locking → s.lock = none →
    TaskStep s .internal { s with task := .publishing, lock := some .task }
  | publish {s : State ι} : s.task = .publishing →
    TaskStep s .internal { s with task := .published, socket := s.sockfd }
  | publishUnlock {s : State ι} : s.task = .published → TaskStep s .internal { s with task := .idle, lock := none }
  -- A poll waits unless there is no connection. With bytes that are there already it need not.
  | wait {s : State ι} : s.task = .idle → s.tls.isSome = true → TaskStep s .waits { s with task := .waiting }
  | waitStopped {s : State ι} : s.task = .waiting → s.stopping = true → TaskStep s .internal { s with task := .idle }
  | waitGoes {s : State ι} : s.task = .waiting → s.stopping = false →
    TaskStep s .internal { s with task := .selecting }
  | select {s : State ι} : s.task = .selecting → TaskStep s (.selects s.sockfd) { s with task := .asleep s.sockfd }
  -- A number that does not fit in the set.
  | unselectable {s : State ι} : s.task = .selecting → TaskStep s .internal { s with task := .woken }
  | wake {s : State ι} {fd : Int} : s.task = .asleep fd → TaskStep s .internal { s with task := .woken }
  | waited {s : State ι} : s.task = .woken → TaskStep s .internal { s with task := .idle }

/-- A call of `Stopper::stop`. -/
inductive StopStep (i : ι) : State ι → Event ι → State ι → Prop
  | flag {s : State ι} : s.calls i = .idle →
    StopStep i s .internal { s with calls := s.callAt i .flagged, stopping := true }
  | lock {s : State ι} : s.calls i = .flagged → s.lock = none →
    StopStep i s .internal { s with calls := s.callAt i .locked, lock := some (.call i) }
  | socket {s : State ι} : s.calls i = .locked → 0 ≤ s.socket →
    StopStep i s .internal { s with calls := s.callAt i (.reaching s.socket) }
  | noSocket {s : State ι} : s.calls i = .locked → s.socket < 0 →
    StopStep i s .internal { s with calls := s.callAt i .shut }
  | shutdown {s : State ι} {fd : Int} : s.calls i = .reaching fd →
    StopStep i s (.shutdown i fd (s.sockets fd)) { s with calls := s.callAt i .shut, sockets := s.shutDown fd }
  | unlock {s : State ι} : s.calls i = .shut →
    StopStep i s (.stopped i) { s with calls := s.callAt i .returned, lock := none }

/-- The device's other connections, which get any number that is free. -/
inductive OtherStep : State ι → Event ι → State ι → Prop
  | opens {s : State ι} (fd : Int) : 0 ≤ fd → s.sockets fd = none →
    OtherStep s .internal { s with sockets := Function.update s.sockets fd (some ⟨.other, false⟩) }
  | closes {s : State ι} {fd : Int} {socket : Socket} : s.sockets fd = some socket → socket.owner = .other →
    OtherStep s .internal { s with sockets := Function.update s.sockets fd none }

inductive Step : State ι → Event ι → State ι → Prop
  | task {s s' : State ι} {e : Event ι} : TaskStep s e s' → Step s e s'
  | stop {s s' : State ι} {e : Event ι} (i : ι) : StopStep i s e s' → Step s e s'
  | other {s s' : State ι} {e : Event ι} : OtherStep s e s' → Step s e s'

/-- The record before the latest wait began. -/
def beforeWait : List (Event ι) → List (Event ι)
  | [] => []
  | .waits :: older => older
  | _ :: older => beforeWait older

end Tls
end NervesHub
