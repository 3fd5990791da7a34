import NervesHubLink.Theorems.LogQueue
import Mathlib.Logic.Relation

/-! Asking for room first comes to the same as pushing. -/

namespace NervesHub
open Trace

/-! ### One call -/

theorem logLineSize_le_heapCost (line : LogLine) : logLineSize ≤ heapCost line := by
  unfold heapCost
  omega

/-- A queue without room for the smallest line refuses every line. -/
theorem LogBuffer.push_of_noRoom {b : LogBuffer} (h : b.hasRoom.1 = false) (line : LogLine) :
    b.push line = (false, { b with dropped := b.dropped + 1 }) := by
  have hcost := logLineSize_le_heapCost line
  have hfull : b.capacity ≤ b.backlog.lines.length ∨ b.maxBytes < b.backlog.bytes + logLineSize := by
    by_contra hroom
    rw [not_or, Nat.not_le, Nat.not_lt] at hroom
    rw [LogBuffer.hasRoom, if_pos (by simpa using hroom)] at h
    cases h
  unfold LogBuffer.push
  rw [if_pos]
  simp only [Bool.or_eq_true, decide_eq_true_eq]
  rcases hfull with hcount | hbytes
  · exact .inl hcount
  · exact .inr (by omega)

namespace LockedQueue

theorem push_of_noRoom {q : LockedQueue} (h : q.room = false) (line : LogLine) : q.push line = (false, q.count) := by
  unfold push
  split_ifs with hpoisoned
  · rfl
  · have hroom : q.buffer.hasRoom.1 = false := by simpa [room, hpoisoned] using h
    rw [LogBuffer.push_of_noRoom hroom]
    rfl

theorem pushIfRoom_eq (q : LockedQueue) (line : LogLine) : q.pushIfRoom line = q.push line := by
  unfold pushIfRoom hasRoom
  cases hroom : q.room with
  | true => rfl
  | false => exact (push_of_noRoom hroom line).symm

end LockedQueue

/-- A push keeps its line, or counts one as lost. -/
theorem LogBuffer.push_dropped (b : LogBuffer) (line : LogLine) :
    (b.push line).2.dropped = b.dropped + if (b.push line).1 then 0 else 1 := by
  by_cases hfull : (b.capacity ≤ b.backlog.lines.length || b.maxBytes < b.backlog.bytes + heapCost line) = true
  · rw [LogBuffer.push, if_pos hfull]
    rfl
  · rw [LogBuffer.push, if_neg hfull]
    exact (UInt32.add_zero _).symm

theorem LockedQueue.push_dropped (q : LockedQueue) (line : LogLine) :
    (q.push line).2.buffer.dropped = q.buffer.dropped + if (q.push line).1 then 0 else 1 := by
  unfold LockedQueue.push
  cases q.poisoned with
  | true => rfl
  | false => exact q.buffer.push_dropped line

theorem LogBuffer.pop_dropped (b : LogBuffer) : b.pop.2.dropped.toNat + b.pop.1.lost = b.dropped.toNat := by
  unfold LogBuffer.pop
  cases b.backlog.lines with
  | cons line rest => rfl
  | nil =>
    by_cases hdropped : b.dropped = 0
    · simp [hdropped, Popped.lost]
    · simp [hdropped, Popped.lost]

/-! ### Many calls -/

namespace Loggers

/-- Each call that ended has kept its line or counted it as lost, once, and no other has done either: the count of losses,
with what notes have told, has moved on by one for each. -/
structure Counted (q : LockedQueue) (k : Loggers) : Prop where
  kept : k.accepted.Perm ((k.calls.filter fun c => c.phase = .kept).map LogCall.line)
  lost : MovedOn q.buffer.dropped k.queue.buffer.dropped k.noted (k.calls.countP fun c => c.phase = .lost)

variable {q : LockedQueue} {k k' : Loggers}

/-- A thread comes to its push, with nothing kept or lost of its line before. -/
theorem Counted.push {before after : List LogCall} (line : LogLine)
    (hkept : k.accepted.Perm (((before ++ after).filter fun c => c.phase = .kept).map LogCall.line))
    (hlost : MovedOn q.buffer.dropped k.queue.buffer.dropped k.noted ((before ++ after).countP fun c => c.phase = .lost)) :
    Counted q (k.push before after line) := by
  have hdropped := k.queue.push_dropped line
  rw [List.filter_append, List.map_append] at hkept
  rw [List.countP_append] at hlost
  cases hpush : (k.queue.push line).1 with
  | true =>
    rw [hpush, if_pos rfl] at hdropped
    constructor
    · have hmoved : (k.accepted ++ [line]).Perm (((before.filter fun c => c.phase = .kept).map LogCall.line) ++
          line :: ((after.filter fun c => c.phase = .kept).map LogCall.line)) :=
        (List.perm_append_singleton line _).trans ((hkept.cons line).trans List.perm_middle.symm)
      simpa [Loggers.push, hpush] using hmoved
    · simp only [Loggers.push, hpush, if_true, List.countP_append, List.countP_cons, hdropped]
      simpa using hlost
  | false =>
    rw [hpush, if_neg Bool.false_ne_true] at hdropped
    constructor
    · simpa [Loggers.push, hpush] using hkept
    · simp only [Loggers.push, hpush, Bool.false_eq_true, if_false, List.countP_append, List.countP_cons, hdropped]
      simpa [← Nat.add_assoc] using hlost.succ

theorem Counted.step (h : Counted q k) (hs : Step k k') : Counted q k' := by
  obtain ⟨hkept, hlost⟩ := h
  cases hs with
  | direct line => exact .push line (by rwa [List.append_nil]) (by rwa [List.append_nil])
  | ask line =>
    constructor
    · cases k.queue.room <;> simpa using hkept
    · cases k.queue.room <;> simpa using hlost
  | @proceed before after line hcalls =>
    rw [hcalls] at hkept hlost
    exact .push line (by simpa using hkept) (by simpa using hlost)
  | @count before after line hcalls =>
    rw [hcalls] at hkept hlost
    constructor
    · simpa using hkept
    · simp only [List.countP_append, List.countP_cons, LockedQueue.count] at hlost ⊢
      simp only [reduceCtorEq, decide_false, Bool.false_eq_true, decide_true, if_true, if_false] at hlost ⊢
      exact hlost.succ
  | pop =>
    have hpop := k.queue.buffer.pop_dropped
    exact ⟨hkept, hlost.told hpop⟩
  | drain maxLines maxBytes micros =>
    obtain ⟨-, hdropped, -⟩ := LogBuffer.drain_lines k.queue.buffer maxLines maxBytes micros
    refine ⟨hkept, ?_⟩
    simp only [hdropped]
    exact hlost
  | setLevel l => exact ⟨hkept, hlost⟩
  | poison => exact ⟨hkept, hlost⟩

end Loggers

/-- To ask first and then push is to push; and with other threads in between too, each call that ended has kept its line or
counted it as lost, once. -/
theorem pushIfRoom_counts :
    (∀ (q : LockedQueue) (line : LogLine), q.pushIfRoom line = q.push line) ∧
      (∀ (q : LockedQueue) (line : LogLine), q.room = false → (q.push line).1 = false) ∧
      ∀ (q : LockedQueue) (k : Loggers), Relation.ReflTransGen Loggers.Step ⟨q, [], [], 0⟩ k → Loggers.Counted q k := by
  refine ⟨LockedQueue.pushIfRoom_eq, fun q line h => ?_, fun q k h => ?_⟩
  · rw [LockedQueue.push_of_noRoom h]
  · induction h with
    | refl => exact ⟨.nil, .start _⟩
    | tail _ hs ih => exact ih.step hs

end NervesHub
