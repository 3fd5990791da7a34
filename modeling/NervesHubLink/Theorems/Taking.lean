import Mathlib.Data.Nat.Find
import NervesHubLink.Lib.Keyed
import NervesHubLink.Platform
import NervesHubLink.Theorems.LogQueue

/-! What `take_stamped` takes for a batch: the most lines from the front that fit, and what is found after them
when they were all there was. Each is stamped by its place. -/

namespace NervesHub
open Act Prog

namespace LogBuffer

/-! ### The lines that fit -/

/-- As long as they were held: at most `maxLines`, and past the first only within `maxBytes`. -/
def Fits (maxLines maxBytes : Nat) (lines : List LogLine) (n : Nat) : Prop :=
  n ≤ maxLines ∧ (n ≤ 1 ∨ ((lines.take n).map approximateJsonLen).sum ≤ maxBytes)

instance (maxLines maxBytes : Nat) (lines : List LogLine) (n : Nat) : Decidable (Fits maxLines maxBytes lines n) :=
  inferInstanceAs (Decidable (_ ∧ _))

/-- How many lines from the front fit. -/
def fitting (maxLines maxBytes : Nat) (lines : List LogLine) : Nat :=
  Nat.findGreatest (Fits maxLines maxBytes lines) lines.length

def emptied (b : LogBuffer) : LogBuffer := { b with backlog := ⟨[], b.backlog.bytes - (b.backlog.lines.map heapCost).sum⟩ }

/-- What the second look finds once the lines are out: a line that came in meanwhile, or the note about lost ones. -/
def follower (b : LogBuffer) (meanwhile : List Offer) : Option LogLine := (b.emptied.offers meanwhile).2.pop.1.sent

/-- What goes into a batch, as it is held. -/
def gathered (b : LogBuffer) (maxLines maxBytes : Nat) (meanwhile : List Offer) : List LogLine :=
  b.backlog.lines.take (fitting maxLines maxBytes b.backlog.lines) ++
    if fitting maxLines maxBytes b.backlog.lines = b.backlog.lines.length ∧ b.backlog.lines.length < maxLines then
      (b.follower meanwhile).toList
    else []

theorem sum_take_le (lines : List LogLine) {m n : Nat} (h : m ≤ n) :
    ((lines.take m).map approximateJsonLen).sum ≤ ((lines.take n).map approximateJsonLen).sum := by
  have htake : lines.take m = (lines.take n).take m := by rw [List.take_take, Nat.min_eq_left h]
  conv_rhs => rw [← List.take_append_drop m (lines.take n)]
  rw [List.map_append, List.sum_append, ← htake]
  exact Nat.le_add_right _ _

/-- Filling stops where nothing more fits, which the first line that is left over shows. -/
theorem fitting_eq {maxLines maxBytes : Nat} {taken rest : List LogLine} (hcount : taken.length ≤ maxLines)
    (hwithin : taken.length ≤ 1 ∨ (taken.map approximateJsonLen).sum ≤ maxBytes)
    (hstop : rest = [] ∨ taken.length = maxLines ∨ (taken.length ≠ 0 ∧ ∃ next left, rest = next :: left ∧
      maxBytes < (taken.map approximateJsonLen).sum + approximateJsonLen next)) :
    fitting maxLines maxBytes (taken ++ rest) = taken.length := by
  have htake : (taken ++ rest).take taken.length = taken := List.take_left' rfl
  refine Nat.findGreatest_eq_iff.mpr ⟨by simp, fun _ => ⟨hcount, by rwa [htake]⟩, fun n hn hle hfits => ?_⟩
  obtain ⟨hmax, hbytes⟩ := hfits
  rcases hstop with rfl | hfull | ⟨hne, next, left, rfl, hover⟩
  · rw [List.append_nil] at hle
    omega
  · omega
  · have hnext : ((taken ++ next :: left).take (taken.length + 1)) = taken ++ [next] := by
      rw [List.append_cons]
      exact List.take_left' (by simp)
    have hle := sum_take_le (taken ++ next :: left) (Nat.succ_le_of_lt hn)
    rw [Nat.succ_eq_add_one, hnext, List.map_append, List.sum_append] at hle
    simp only [List.map_singleton, List.sum_singleton] at hle
    omega

/-- What draining takes is what fits. It leaves room for another look if that was all, and fewer than `maxLines`. -/
theorem drain_fitting (b : LogBuffer) (maxLines maxBytes : Nat) (micros : Option Nat) :
    ∃ taken rest full, b.backlog.lines = taken ++ rest ∧ fitting maxLines maxBytes b.backlog.lines = taken.length ∧
      b.drain maxLines maxBytes micros = ((⟨taken, taken.mapIdx fun i line => stamp line (micros.map (atPlace · i))⟩, full),
        { b with backlog := ⟨rest, b.backlog.bytes - (taken.map heapCost).sum⟩ }) ∧
      ((full || decide (maxLines ≤ taken.length)) = false ↔ rest = [] ∧ taken.length < maxLines) := by
  obtain ⟨taken, rest, full, hfill, hlines, hcount, hwithin, hnot, hfull⟩ :=
    fill_spec maxLines maxBytes micros b.backlog.lines ⟨[], []⟩ 0 b.backlog.bytes rfl (Nat.zero_le _)
  simp only [List.length_nil, Nat.zero_add, List.nil_append] at hfill hcount hwithin hnot hfull
  have hfits : taken.length ≤ 1 ∨ (taken.map approximateJsonLen).sum ≤ maxBytes := by
    rcases hwithin with rfl | hwithin
    · exact Or.inl (Nat.zero_le 1)
    · exact hwithin
  have hstop : rest = [] ∨ taken.length = maxLines ∨ (taken.length ≠ 0 ∧ ∃ next left, rest = next :: left ∧
      maxBytes < (taken.map approximateJsonLen).sum + approximateJsonLen next) := by
    cases full with
    | false => exact (hnot rfl).imp_right Or.inl
    | true =>
      obtain ⟨hne, -, hover⟩ := hfull rfl
      exact Or.inr (Or.inr ⟨hne, hover⟩)
  have hfitting := fitting_eq hcount hfits hstop
  refine ⟨taken, rest, full, hlines, by rw [hlines, hfitting], by rw [drain, hfill], ?_⟩
  rw [Bool.or_eq_false_iff, decide_eq_false_iff_not, Nat.not_le]
  constructor
  · rintro ⟨rfl, hless⟩
    exact ⟨(hnot rfl).resolve_right hless.ne, hless⟩
  · rintro ⟨rfl, hless⟩
    refine ⟨?_, hless⟩
    by_contra hne
    obtain ⟨-, -, next, left, hcons, -⟩ := hfull (Bool.not_eq_false _ ▸ hne)
    cases hcons

/-- A batch is what it gathers, each line stamped by its place. -/
theorem takeStamped_fst (b : LogBuffer) (maxLines maxBytes : Nat) (micros : Option Nat) (meanwhile : List Offer) :
    (b.takeStamped maxLines maxBytes micros meanwhile).1 =
      (b.gathered maxLines maxBytes meanwhile).mapIdx fun i line => stamp line (micros.map (atPlace · i)) := by
  obtain ⟨taken, rest, full, hlines, hfitting, hdrain, hroom⟩ := b.drain_fitting maxLines maxBytes micros
  have htake : b.backlog.lines.take taken.length = taken := by rw [hlines, List.take_left' rfl]
  have hall : taken.length = b.backlog.lines.length ↔ rest = [] := by
    rw [hlines, List.length_append, ← List.length_eq_zero_iff]
    omega
  unfold takeStamped gathered
  simp only [hdrain, hfitting, htake, List.length_mapIdx]
  cases hdone : full || decide (maxLines ≤ taken.length) with
  | true =>
    have hno : ¬(taken.length = b.backlog.lines.length ∧ b.backlog.lines.length < maxLines) := by
      rintro ⟨heq, hless⟩
      rw [hroom.mpr ⟨hall.mp heq, heq ▸ hless⟩] at hdone
      cases hdone
    rw [if_pos rfl, if_neg hno, List.append_nil]
  | false =>
    obtain ⟨hrest, hless⟩ := hroom.mp hdone
    have heq := hall.mpr hrest
    subst hrest
    rw [List.append_nil] at hlines
    have hemptied : b.emptied = { b with backlog := ⟨[], b.backlog.bytes - (taken.map heapCost).sum⟩ } := by rw [emptied,
      hlines]
    rw [if_neg Bool.false_ne_true, if_pos ⟨heq, heq ▸ hless⟩, follower, hemptied]
    generalize ((LogBuffer.mk ⟨[], b.backlog.bytes - (taken.map heapCost).sum⟩ b.capacity b.maxBytes b.dropped
      b.threshold).offers
      meanwhile).2.pop = r
    obtain ⟨popped, b'⟩ := r
    cases hsent : popped.sent with
    | none => simp
    | some note => simp [List.mapIdx_append]

end LogBuffer

/-! ### In the agent -/

variable {σ : Type}

theorem overhear_some (agent : Agent σ) {b : LogBuffer} {s : World σ} (hlogs : s.own.logs = some b) :
    ∃ t : World σ, overhear agent s = (.ret (), t) ∧ t.env = (agent.tasks s.env).2 ∧
      t.own.logs = some (b.offers (agent.tasks s.env).1).2 := by
  refine ⟨_, rfl, rfl, ?_⟩
  show (LogBuffer.overhear (agent.tasks s.env).1 s.own.logs).2 = _
  rw [hlogs]
  rfl

theorem onLogs_some {α : Type} (f : LogBuffer → α × LogBuffer) (otherwise : α) (ev : α → List Event) {b : LogBuffer}
    {s : World σ} (hlogs : s.own.logs = some b) : ∃ t : World σ, onLogs f otherwise ev s = (.ret (f b).1, t) ∧
      t.env = s.env ∧ t.own.logs = some (f b).2 := by
  simp only [onLogs, update_apply, hlogs]
  exact ⟨_, rfl, rfl, rfl⟩

section
variable {X C : World σ → Prop}

/-- The rule for a critical section, by what it does to a buffer that is there. -/
theorem onLogs_rule {α : Type} {f : LogBuffer → α × LogBuffer} {otherwise : α} {ev : α → List Event} {P : World σ → Prop}
    {Q : α → World σ → Prop} (hev : ev otherwise = []) (hnone : ∀ s, P s → Q otherwise s)
    (hsome : ∀ (s : World σ) b, P s → s.own.logs = some b →
      Q (f b).1 { s with own := { s.own with logs := some (f b).2 }, trace := ev (f b).1 ++ s.trace }) :
    Spec P (onLogs f otherwise ev) (Ends Q X C) := by
  intro s hs
  cases hlogs : s.own.logs with
  | none =>
    simp only [onLogs, update_apply, hlogs, hev]
    exact hnone s hs
  | some b =>
    simp only [onLogs, update_apply, hlogs]
    exact hsome s b hs hlogs

/-- The rule for taking a batch: `M` holds of what is drained, and a second look adds to it while there is room. -/
theorem takeStamped_rule (agent : Agent σ) {maxLines maxBytes : Nat} {micros : Option Nat} {P : World σ → Prop}
    {M : Batch → World σ → Prop} {Q : List LogLine → World σ → Prop}
    (hears : Spec P (overhear agent) (Ends (fun _ => P) X C))
    (hearsAgain : ∀ batch, Spec (M batch) (overhear agent) (Ends (fun _ => M batch) X C))
    (hnone : ∀ s, P s → M ⟨[], []⟩ s)
    (hdrain : ∀ (s : World σ) b, P s → s.own.logs = some b → M (b.drain maxLines maxBytes micros).1.1
      { s with own := { s.own with logs := some (b.drain maxLines maxBytes micros).2 },
               trace := ((b.drain maxLines maxBytes micros).1.1.raw.map Event.took).reverse ++ s.trace })
    (hdone : ∀ batch s, M batch s → Q batch.lines s)
    (hpop : ∀ batch (s : World σ) b, batch.lines.length < maxLines → M batch s → s.own.logs = some b →
      Q (batch.lines ++ (b.pop.1.sent.map fun note => stamp note (micros.map (atPlace · batch.lines.length))).toList)
        { s with own := { s.own with logs := some b.pop.2 }, trace := b.pop.1.events ++ s.trace }) :
    Spec P (takeStamped agent maxLines maxBytes micros) (Ends Q X C) := by
  refine Spec.bind hears fun _ => ?_
  refine Spec.bind (R := fun r => M r.1) (onLogs_rule rfl hnone hdrain) fun r => ?_
  obtain ⟨batch, full⟩ := r
  refine Spec.ite (fun _ => Spec.ret (hdone batch)) fun hroom => ?_
  have hless : batch.lines.length < maxLines := by
    simp only [Bool.or_eq_true, decide_eq_true_eq, not_or, Nat.not_le] at hroom
    exact hroom.2
  refine Spec.bind (hearsAgain batch) fun _ => ?_
  refine Spec.bind (R := fun popped =>
    Q (batch.lines ++ (popped.sent.map fun note => stamp note (micros.map (atPlace · batch.lines.length))).toList)) ?_
      fun popped => ?_
  · refine onLogs_rule rfl (fun s hs => ?_) fun s b hs hlogs => hpop batch s b hless hs hlogs
    simpa [LogBuffer.Popped.sent] using hdone batch s hs
  · cases hsent : popped.sent with
    | none => exact Spec.ret fun s hs => by simpa using hs
    | some note => exact Spec.ret fun s hs => hs

end

/-- The agent takes what the queue gives it, after what other tasks did to it before, and with what they do to
    it meanwhile. -/
theorem takeStamped_returns (agent : Agent σ) (maxLines maxBytes : Nat) (micros : Option Nat) {b : LogBuffer} {s : World σ}
    (hlogs : s.own.logs = some b) : ∃ before meanwhile : List Offer, ∃ t : World σ,
      takeStamped agent maxLines maxBytes micros s =
        (.ret ((b.offers before).2.takeStamped maxLines maxBytes micros meanwhile).1, t) := by
  obtain ⟨t, hrun, -, hlogs⟩ := overhear_some agent hlogs
  obtain ⟨u, hdrain, -, hu⟩ := onLogs_some (fun b => b.drain maxLines maxBytes micros) (⟨[], []⟩, true)
    (fun r => (r.1.raw.map Event.took).reverse) hlogs
  refine ⟨(agent.tasks s.env).1, (agent.tasks u.env).1, ?_⟩
  rw [NervesHub.takeStamped, bind_ret hrun, bind_ret hdrain, LogBuffer.takeStamped]
  generalize (b.offers (agent.tasks s.env).1).2.drain maxLines maxBytes micros = r at hu
  obtain ⟨⟨batch, full⟩, b'⟩ := r
  cases hdone : full || decide (maxLines ≤ batch.lines.length) with
  | true =>
    simp only [hdone, if_true]
    exact ⟨u, rfl⟩
  | false =>
    obtain ⟨v, hagain, -, hv⟩ := overhear_some agent hu
    obtain ⟨w, hpop, -, -⟩ := onLogs_some LogBuffer.pop .nothing LogBuffer.Popped.events hv
    simp only [hdone, Bool.false_eq_true, if_false]
    rw [bind_ret hagain, bind_ret hpop]
    cases hsent : (b'.offers (agent.tasks u.env).1).2.pop.1.sent with
    | none => exact ⟨w, rfl⟩
    | some note => exact ⟨w, rfl⟩

end NervesHub
