import Mathlib.Algebra.GroupWithZero.Nat
import NervesHubLink.Lib.Trace

/-! A counter of 32 bits that some events move on by one and others read and clear. It shows how often it was moved on since
it was last cleared, as long as it has not come round. -/

namespace Trace

variable {E : Type} {counts clears : E → Bool} {base n : Nat} {d : UInt32} {e : E} {t : List E}

/-! ### What it ought to show -/

/-- How often an event of one kind happened since the last of another; on top of `base`, if there was none. -/
def since (counts clears : E → Bool) (base : Nat) : List E → Nat
  | [] => base
  | e :: older => if clears e then 0 else since counts clears base older + (counts e).toNat

theorem since_counts (h : clears e = false) (hc : counts e = true) :
    since counts clears base (e :: t) = since counts clears base t + 1 := by
  simp [since, h, hc]

/-- At no time are there as many events to show as would bring the counter round. -/
def NeverRound (counts clears : E → Bool) (base : Nat) (t : List E) : Prop :=
  Throughout (fun e older => since counts clears base (e :: older) < 2 ^ 32) t

instance : Decidable (NeverRound counts clears base t) :=
  inferInstanceAs (Decidable (Throughout (fun e older => since counts clears base (e :: older) < 2 ^ 32) t))

theorem neverRound_cons : NeverRound counts clears base (e :: t) ↔
    since counts clears base (e :: t) < 2 ^ 32 ∧ NeverRound counts clears base t := throughout_cons

theorem NeverRound.suffix {u : List E} (h : NeverRound counts clears base t) (hu : u <:+ t) :
    NeverRound counts clears base u :=
  Throughout.suffix h hu

theorem NeverRound.lt (h : NeverRound counts clears base t) (hbase : base < 2 ^ 32) :
    since counts clears base t < 2 ^ 32 := by
  cases t with
  | nil => exact hbase
  | cons e t => exact (neverRound_cons.mp h).1

/-! ### What it shows -/

/-- The counter shows `n`, as far as it can. -/
def Shows (d : UInt32) (n : Nat) : Prop := d.toNat = n % 2 ^ 32

theorem shows_toNat (d : UInt32) : Shows d d.toNat := (Nat.mod_eq_of_lt d.toNat_lt).symm

theorem Shows.eq (h : Shows d n) (hn : n < 2 ^ 32) : d.toNat = n := Eq.trans h (Nat.mod_eq_of_lt hn)

theorem Shows.succ (h : Shows d n) : Shows (d + 1) (n + 1) := by
  unfold Shows at *
  rw [UInt32.toNat_add, h, UInt32.toNat_one, Nat.mod_add_mod]

/-- Moved on, it shows one more, or it has come round. -/
theorem toNat_succ_cases (d : UInt32) :
    (d + 1).toNat = d.toNat + 1 ∨ (d + 1).toNat + 2 ^ 32 = d.toNat + 1 := by
  have hlt := d.toNat_lt
  rw [UInt32.toNat_add, UInt32.toNat_one]
  omega

theorem Shows.toNat_succ (h : Shows d n) (hn : n + 1 < 2 ^ 32) : (d + 1).toNat = d.toNat + 1 := by
  rw [h.succ.eq hn, h.eq (Nat.lt_of_succ_lt hn)]

/-- A counter that stood at `m` has been moved on by `n`, of which `noted` were read since and cleared. It may have come
    round. -/
def MovedOn (m d : UInt32) (noted n : Nat) : Prop := ∃ rounds, d.toNat + noted + 2 ^ 32 * rounds = m.toNat + n

section
variable {m d' : UInt32} {noted cleared : Nat}

theorem MovedOn.start (d : UInt32) : MovedOn d d 0 0 := ⟨0, rfl⟩

theorem MovedOn.succ (h : MovedOn m d noted n) : MovedOn m (d + 1) noted (n + 1) := by
  obtain ⟨rounds, h⟩ := h
  rcases toNat_succ_cases d with hnext | hround
  · refine ⟨rounds, ?_⟩
    omega
  · refine ⟨rounds + 1, ?_⟩
    calc (d + 1).toNat + noted + 2 ^ 32 * (rounds + 1) = (d + 1).toNat + 2 ^ 32 + noted + 2 ^ 32 * rounds := by
          rw [Nat.mul_succ]
          ac_rfl
      _ = d.toNat + 1 + noted + 2 ^ 32 * rounds := by rw [hround]
      _ = m.toNat + (n + 1) := by omega

theorem MovedOn.told (h : MovedOn m d noted n) (htold : d'.toNat + cleared = d.toNat) :
    MovedOn m d' (noted + cleared) n := by
  obtain ⟨rounds, h⟩ := h
  refine ⟨rounds, ?_⟩
  omega

end

end Trace
