import NervesHubLink.Theorems.Delivery
import NervesHubLink.Theorems.Window

/-! What a bounded session leaves behind in the log buffer. The losses that the buffer counts are left to send as
well as its lines, but it is called empty once the lines have gone. -/

namespace NervesHub
open Act Prog Machine Trace

/-! ### An empty buffer -/

namespace LogBuffer
variable {b : LogBuffer}

/-- The lines have gone, and losses are counted that no note has told of. -/
def OnlyLosses (b : LogBuffer) : Prop := b.backlog.lines = [] ∧ b.dropped ≠ 0

theorem isEmpty_iff : b.isEmpty = true ↔ b.backlog.lines = [] := by
  rw [isEmpty, len, beq_iff_eq, List.length_eq_zero_iff]

theorem pop_nothing_iff : b.pop.1 = .nothing ↔ b.backlog.lines = [] ∧ b.dropped = 0 := by
  unfold pop
  cases hlines : b.backlog.lines with
  | cons line rest => simp
  | nil =>
    by_cases hdropped : b.dropped = 0
    · simp [hdropped]
    · simp [hdropped]

theorem isEmpty_iff_pop : (b.isEmpty = true ↔ b.pop.1 = .nothing) ↔ ¬b.OnlyLosses := by
  rw [isEmpty_iff, pop_nothing_iff]
  constructor
  · rintro h ⟨hlines, hdropped⟩
    exact hdropped (h.mp hlines).2
  · intro h
    refine ⟨fun hlines => ⟨hlines, ?_⟩, fun hspent => hspent.1⟩
    by_contra hdropped
    exact h ⟨hlines, hdropped⟩

end LogBuffer

/-! ### What has been sent -/

/-- Every line that was queued is in a frame that was sent, and every loss is told of in one. -/
structure EverythingSent (was : Option LogBuffer) (t : List Event) : Prop where
  lines : queuedLines was ++ keptLines t = (ledger t).carried
  losses : droppedLines was + lostLines t = (ledger t).told

/-- A step that leaves no line queued but losses to tell of: the last line is taken while losses are counted, or an empty
    backlog turns a line away. -/
def strands (was : Option LogBuffer) : Event → List Event → Bool
  | .took _, older => heldLines was older == 1 && untoldLosses was older != 0
  | .offered .lost, older => heldLines was older == 0
  | _, _ => false

/-- Since the last note there was such a step; or there was no note, and the buffer was handed over in such a state. -/
def stranded (was : Option LogBuffer) : List Event → Bool
  | [] => (queuedLines was).isEmpty && droppedLines was != 0
  | .noted _ :: _ => false
  | e :: older => strands was e older || stranded was older

section
variable {was now : Option LogBuffer} {t : List Event}

/-- With none stranded, an empty backlog has nothing to tell of. -/
theorem untold_eq_zero (h : stranded was t = false) (hheld : heldLines was t = 0) : untoldLosses was t = 0 := by
  induction t with
  | nil =>
    have hempty : (queuedLines was).isEmpty = true := List.isEmpty_iff.mpr (List.length_eq_zero_iff.mp hheld)
    rw [stranded, hempty, Bool.true_and] at h
    exact (bne_eq_false_iff_eq.mp h)
  | cons e older ih =>
    cases e
    case noted lost => rfl
    case took line =>
      obtain ⟨hstep, holder⟩ := Bool.or_eq_false_iff.mp h
      have hheld : heldLines was older - 1 = 0 := hheld
      show untoldLosses was older = 0
      rcases Nat.eq_zero_or_pos (heldLines was older) with hzero | hpos
      · exact ih holder hzero
      · have hone : heldLines was older = 1 := by omega
        rw [strands, hone, beq_self_eq_true, Bool.true_and] at hstep
        exact bne_eq_false_iff_eq.mp hstep
    case offered fate =>
      obtain ⟨hstep, holder⟩ := Bool.or_eq_false_iff.mp h
      cases fate with
      | below => exact ih holder hheld
      | kept line => cases hheld
      | lost => exact absurd hheld (beq_eq_false_iff_ne.mp hstep)
    all_goals exact ih (Bool.or_eq_false_iff.mp h).2 hheld

/-- A loss that is stranded stays untold until the next note. -/
theorem untold_ne_zero (h : stranded was t = true) : untoldLosses was t ≠ 0 := by
  induction t with
  | nil => exact bne_iff_ne.mp (Bool.and_eq_true_iff.mp h).2
  | cons e older ih =>
    cases e
    case noted lost => cases h
    case took line =>
      rcases Bool.or_eq_true_iff.mp h with hstep | holder
      · exact bne_iff_ne.mp (Bool.and_eq_true_iff.mp hstep).2
      · exact ih holder
    case offered fate =>
      cases fate with
      | lost => exact Nat.succ_ne_zero _
      | below => exact ih h
      | kept line => exact ih h
    all_goals exact ih h

theorem Booked.sent_iff (h : Booked was now t) (hfit : LossesFit was t) (hempty : ∀ b, now = some b → b.isEmpty = true) :
    EverythingSent was t ↔ stranded was t = false := by
  have hgone : queuedLines now = [] := by
    cases now with
    | none => rfl
    | some b => exact LogBuffer.isEmpty_iff.mp (hempty b rfl)
  obtain ⟨hlines, hlosses, -, -⟩ := h.accounted hfit
  have huntold : droppedLines now = untoldLosses was t := h.untold.eq (hfit.lt (UInt32.toNat_lt _))
  rw [hgone, List.append_nil] at hlines
  constructor
  · rintro ⟨-, htold⟩
    by_contra hstranded
    have hne := untold_ne_zero (Bool.not_eq_false _ ▸ hstranded)
    omega
  · intro hnone
    have hheld : heldLines was t = 0 := by rw [h.held, hgone, List.length_nil]
    have hzero := untold_eq_zero hnone hheld
    exact ⟨hlines, by omega⟩

end

/-! ### A session that leaves -/

/-- By the session's own count, its limit has passed. -/
def AtLimit (w : SessionWindow) (t : List Event) : Prop :=
  ∃ now started, (readings t).head? = some now ∧ startedAt t = some started ∧ w.limit.asMillis ≤ now - started

section
variable {σ : Type} [Serde] [Sha256]

/-- A session that finishes is at its limit, or it found the buffer empty. -/
theorem runSession_leaves (agent : Agent σ) (w : SessionWindow) (env : σ) (own : Device) (gas : Nat)
    (hret : (runSession agent w ⟨env, own, [], gas⟩).1 = .ret .finished) :
    AtLimit w (runSession agent w ⟨env, own, [], gas⟩).2.trace ∨
      ((runSession agent w ⟨env, own, [], gas⟩).2.own.link.loggingAttached = true →
        ∀ b, (runSession agent w ⟨env, own, [], gas⟩).2.own.logs = some b → b.isEmpty = true) := by
  have hrun := runSession_spec (fun _ _ _ => trivial) (fun _ _ => trivial) (session_over agent w) ⟨env, own, [], gas⟩ rfl
  rw [hret] at hrun
  obtain ⟨started, now, a, -, ⟨htracks, hnow⟩, hover⟩ := hrun rfl
  cases hover with
  | limit hjoined hlimit => exact Or.inl ⟨now, started, hnow, htracks.started, hlimit⟩
  | linger joinedAt hat hlinger hwanted hhealth hlogs => exact Or.inr hlogs

/-- A buffer says that it is empty just when nothing is left to send, unless only losses are left. So a session whose log
    frames were all sent, and that leaves because nothing is outstanding, has sent everything unless losses were stranded
    in an empty backlog since the last note. -/
theorem leaves_sent_iff :
    (∀ b : LogBuffer, (b.isEmpty = true ↔ b.pop.1 = .nothing) ↔ ¬b.OnlyLosses) ∧
      ∀ (agent : Agent σ) (w : SessionWindow) (env : σ) (own : Device) (gas : Nat),
        (runSession agent w ⟨env, own, [], gas⟩).1 = .ret .finished →
        ¬AtLimit w (runSession agent w ⟨env, own, [], gas⟩).2.trace →
        (runSession agent w ⟨env, own, [], gas⟩).2.own.link.loggingAttached = true →
        NoneLost (runSession agent w ⟨env, own, [], gas⟩).2.trace →
        LossesFit own.logs (runSession agent w ⟨env, own, [], gas⟩).2.trace →
          (EverythingSent own.logs (runSession agent w ⟨env, own, [], gas⟩).2.trace ↔
            stranded own.logs (runSession agent w ⟨env, own, [], gas⟩).2.trace = false) := by
  refine ⟨fun b => LogBuffer.isEmpty_iff_pop, ?_⟩
  intro agent w env own gas hret hlimit hatt hnone hfit
  have haccounts : Runs agent (Accounts own.logs) := (accounts_lasts agent).runs (by decide)
  have hbooked : Booked own.logs (runSession agent w ⟨env, own, [], gas⟩).2.own.logs
      (runSession agent w ⟨env, own, [], gas⟩).2.trace :=
    (haccounts.once (some w) none _).2 hnone (booked_nil own.logs)
  have hempty := (runSession_leaves agent w env own gas hret).resolve_left hlimit hatt
  exact hbooked.sent_iff hfit hempty

end

/-! ### Sessions with a loss to tell of -/

section
attribute [local instance] sha256OfByte extensionsSerde

/-- Two lines were logged, and there was room for so many. -/
def crowded (capacity : Nat) : LogBuffer :=
  ((LogBuffer.withThreshold capacity .info).offers [.push (.new "info" "one"), .push (.new "info" "two")]).2

def crowdedDevice (capacity : Nat) : Device := benchDevice loggingOnly (some (crowded capacity))

/-- A server that attaches logging when the device has lingered long enough. -/
def lateServer : Bench := { logging 40 with incoming := (logging 40).incoming ++ [none, none, none] }

theorem lateServer_within {t : List Event} (hreadings : readings t =
    [14000, 13000, 12000, 11000, 10000, 9000, 8000, 7000, 6000, 5000, 4000, 3000, 2000, 1000, 0]) :
    ¬AtLimit shortWindow t := by
  rintro ⟨now, started, hnow, hstarted, hlimit⟩
  rw [hreadings] at hnow
  rw [startedAt, hreadings] at hstarted
  cases hnow
  cases hstarted
  exact absurd hlimit (by decide)

/-- There is no room for either line, and the session tells of both. -/
theorem leaves_sent_all :
    let out := runSession (benchAgent loggingOnly) shortWindow ⟨lateServer, crowdedDevice 0, [], 20⟩
    (ledger out.2.trace).told = 2 ∧ (EverythingSent (crowdedDevice 0).logs out.2.trace ↔
      stranded (crowdedDevice 0).logs out.2.trace = false) :=
  ⟨by decide +kernel, (leaves_sent_iff (σ := Bench)).2 (benchAgent loggingOnly) shortWindow lateServer (crowdedDevice 0) 20
    (by decide +kernel) (lateServer_within (by decide +kernel)) (by decide +kernel) (by decide +kernel) (by decide +kernel)⟩

/-- There is room for one, which is sent by itself; and then the buffer is called empty. -/
theorem leaves_losses_untold :
    let out := runSession (benchAgent loggingOnly) shortWindow ⟨lateServer, crowdedDevice 1, [], 20⟩
    ((crowded 1).pop.2.isEmpty = true ∧ (crowded 1).pop.2.pop.1 = .note 1) ∧
      out.1 = .ret .finished ∧ ¬AtLimit shortWindow out.2.trace ∧ out.2.own.link.loggingAttached = true ∧
        NoneLost out.2.trace ∧ ¬EverythingSent (crowdedDevice 1).logs out.2.trace := by
  refine ⟨⟨by decide, by decide⟩, by decide +kernel, lateServer_within (by decide +kernel), by decide +kernel,
    by decide +kernel, ?_⟩
  rintro ⟨-, hlosses⟩
  exact absurd hlosses (by decide +kernel)

end

end NervesHub
