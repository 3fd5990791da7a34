import Mathlib.Data.List.Chain
import Mathlib.Data.List.Induction
import Mathlib.Data.List.ReduceOption
import NervesHubLink.Bench
import NervesHubLink.Lib.Transducer
import NervesHubLink.Theorems.InstallSafe

/-! The percentages of a download. What the throttle lets through of counts that do not fall is the percentage
of its count, each a step or more above the last or the hundred that ends it; and the installer shows it such
counts. -/

namespace NervesHub

namespace ProgressThrottle
open Transducer

/-! ### What a throttle says -/

def percentOf (downloaded total : Nat) : Nat := 100 * min downloaded total / total

def answer (total : Nat) (t : ProgressThrottle) (downloaded : Nat) : ProgressThrottle × Option Nat :=
  ((t.take downloaded total).2, (t.take downloaded total).1)

/-- A new throttle that has been queried about each of `counts`. -/
def queried (step total : Nat) (counts : List Nat) : ProgressThrottle := after (answer total) (.new step) counts

/-- What it answered to each. -/
def told (step total : Nat) (counts : List Nat) : List (Option Nat) := answers (answer total) (.new step) counts

def reports (step total : Nat) (counts : List Nat) : List Nat := (told step total counts).reduceOption

/-- What a report is, after the report before it. -/
structure Follows (step last percent : Nat) : Prop where
  rises : last < percent
  apart : percent ≠ 100 → last + max step 1 ≤ percent

/-- What the reports of a download of `total` bytes are. -/
structure Throttled (step total : Nat) (counts : List Nat) : Prop where
  percents : List.Forall₂ (fun d r => ∀ p, r = some p → p = percentOf d total) counts (told step total counts)
  rises : (reports step total counts).Pairwise (· < ·)
  follows : (reports step total counts).IsChain (Follows step)
  completes : (reports step total counts).count 100 = if ∃ d ∈ counts, total ≤ d then 1 else 0
  silent : ∀ before d rest, counts = before ++ d :: rest → ((queried step total before).take d total).1 = none →
    ∃ last, (reports step total before).getLast? = some last ∧ last ≤ percentOf d total ∧
      percentOf d total < last + max step 1

variable {step total d : Nat} {t : ProgressThrottle} {counts : List Nat}

theorem percentOf_le : percentOf d total ≤ 100 := by
  refine Nat.div_le_of_le_mul ?_
  rw [Nat.mul_comm total]
  exact Nat.mul_le_mul_left 100 (Nat.min_le_right d total)

theorem percentOf_mono {d' : Nat} (h : d ≤ d') : percentOf d total ≤ percentOf d' total := by
  refine Nat.div_le_div_right (Nat.mul_le_mul_left 100 ?_)
  exact Nat.le_min.mpr ⟨(Nat.min_le_left d total).trans h, Nat.min_le_right d total⟩

theorem percentOf_eq_hundred (htotal : 0 < total) : percentOf d total = 100 ↔ total ≤ d := by
  constructor
  · intro h
    have hle : 100 * total ≤ 100 * min d total := by
      have := Nat.div_mul_le_self (100 * min d total) total
      rwa [show 100 * min d total / total = 100 from h] at this
    have hmin : total ≤ min d total := Nat.le_of_mul_le_mul_left hle (by decide)
    exact hmin.trans (Nat.min_le_left d total)
  · intro h
    rw [percentOf, Nat.min_eq_right h]
    exact Nat.mul_div_cancel _ htotal

/-! ### One answer -/

/-- A percentage is worth a message: it is the first, the hundred, or a step above the last. -/
def Due (t : ProgressThrottle) (percent : Nat) : Prop :=
  ∀ last, t.lastReported = some last → percent ≠ last ∧ (percent = 100 ∨ last + t.step ≤ percent)

theorem take_of_due (htotal : 0 < total) (h : Due t (percentOf d total)) :
    t.take d total = (some (percentOf d total), { t with lastReported := some (percentOf d total) }) := by
  have hp : min d total * 100 / total = percentOf d total := by rw [percentOf, Nat.mul_comm]
  unfold take
  rw [if_neg htotal.ne', hp]
  rcases hlast : t.lastReported with _ | last
  · rfl
  · obtain ⟨hne, hdue⟩ := h last hlast
    refine if_pos ?_
    have hstep : percentOf d total = 100 ∨ min (last + t.step) 255 ≤ percentOf d total :=
      hdue.imp_right fun hle => (Nat.min_le_left _ _).trans hle
    simpa [hne.symm] using hstep

theorem take_of_not_due (htotal : 0 < total) (h : ¬Due t (percentOf d total)) :
    t.take d total = (none, t) ∧ ∃ last, t.lastReported = some last ∧
      (percentOf d total ≠ last → percentOf d total ≠ 100 ∧ percentOf d total < last + t.step) := by
  have hp : min d total * 100 / total = percentOf d total := by rw [percentOf, Nat.mul_comm]
  have hle : percentOf d total ≤ 100 := percentOf_le
  unfold Due at h
  push Not at h
  obtain ⟨last, hlast, hclose⟩ := h
  refine ⟨?_, last, hlast, hclose⟩
  unfold take
  rw [if_neg htotal.ne', hp, hlast]
  refine if_neg ?_
  intro hreport
  simp only [Bool.and_eq_true, Bool.or_eq_true, beq_iff_eq, decide_eq_true_eq, bne_iff_ne, ne_eq,
    Option.some.injEq] at hreport
  obtain ⟨hdue, hne⟩ := hreport
  obtain ⟨hhundred, hlt⟩ := hclose (Ne.symm hne)
  rcases hdue with hdue | hdue
  · exact hhundred hdue
  · omega

/-! ### A whole download -/

theorem queried_snoc : queried step total (counts ++ [d]) = ((queried step total counts).take d total).2 := by
  rw [queried, after_append]
  rfl

theorem told_snoc : told step total (counts ++ [d]) =
    told step total counts ++ [((queried step total counts).take d total).1] := by
  rw [told, answers_append]
  rfl

theorem reports_snoc : reports step total (counts ++ [d]) =
    reports step total counts ++ ((queried step total counts).take d total).1.toList := by
  rw [reports, told_snoc, List.reduceOption_append, List.reduceOption_singleton]
  rfl

/-- What holds between the counts, carried from one to the next. -/
structure Stepwise (step total : Nat) (counts : List Nat) : Prop where
  keeps : (queried step total counts).step = max step 1
  last : (queried step total counts).lastReported = (reports step total counts).getLast?
  follows : (reports step total counts).IsChain (Follows step)
  percents : List.Forall₂ (fun d r => ∀ p, r = some p → p = percentOf d total) counts (told step total counts)
  counted : ∀ p ∈ reports step total counts, ∃ d ∈ counts, p = percentOf d total
  hundred : ∀ d ∈ counts, percentOf d total = 100 → 100 ∈ reports step total counts

theorem stepwise_nil : Stepwise step total [] where
  keeps := rfl
  last := rfl
  follows := List.IsChain.nil
  percents := List.Forall₂.nil
  counted p hp := by cases hp
  hundred d hd := by cases hd

theorem Stepwise.last_le (h : Stepwise step total counts) (hd : ∀ c ∈ counts, c ≤ d) {last : Nat}
    (hlast : (queried step total counts).lastReported = some last) :
    (reports step total counts).getLast? = some last ∧ last ≤ percentOf d total := by
  have hreported : (reports step total counts).getLast? = some last := h.last ▸ hlast
  obtain ⟨c, hc, rfl⟩ := h.counted last (List.mem_of_getLast? hreported)
  exact ⟨hreported, percentOf_mono (hd c hc)⟩

theorem Stepwise.report (htotal : 0 < total) (h : Stepwise step total counts) (hd : ∀ c ∈ counts, c ≤ d)
    (hdue : Due (queried step total counts) (percentOf d total)) : Stepwise step total (counts ++ [d]) := by
  have htake := take_of_due htotal hdue
  have hreports : reports step total (counts ++ [d]) = reports step total counts ++ [percentOf d total] := by
    rw [reports_snoc, htake]
    rfl
  refine ⟨?_, ?_, ?_, ?_, ?_, ?_⟩
  · rw [queried_snoc, htake]
    exact h.keeps
  · rw [queried_snoc, htake, hreports, List.getLast?_concat]
  · rw [hreports, List.isChain_append]
    refine ⟨h.follows, List.isChain_singleton _, ?_⟩
    intro last hlast p hp
    cases hp
    have hqueried : (queried step total counts).lastReported = some last := h.last.trans hlast
    obtain ⟨hne, hfar⟩ := hdue last hqueried
    obtain ⟨-, hle⟩ := h.last_le hd hqueried
    rw [h.keeps] at hfar
    exact ⟨lt_of_le_of_ne hle hne.symm, fun hhundred => hfar.resolve_left hhundred⟩
  · rw [told_snoc, htake]
    refine List.rel_append h.percents (.cons ?_ .nil)
    intro p hp
    cases hp
    rfl
  · rw [hreports]
    intro p hp
    rcases List.mem_append.mp hp with hp | hp
    · obtain ⟨c, hc, rfl⟩ := h.counted p hp
      exact ⟨c, List.mem_append_left _ hc, rfl⟩
    · rw [List.mem_singleton] at hp
      exact ⟨d, List.mem_append_right _ List.mem_cons_self, hp⟩
  · rw [hreports]
    intro c hc hhundred
    rcases List.mem_append.mp hc with hc | hc
    · exact List.mem_append_left _ (h.hundred c hc hhundred)
    · rw [List.mem_singleton] at hc
      subst hc
      rw [hhundred]
      exact List.mem_append_right _ List.mem_cons_self

theorem Stepwise.quiet (htotal : 0 < total) (h : Stepwise step total counts) (hd : ∀ c ∈ counts, c ≤ d)
    (hdue : ¬Due (queried step total counts) (percentOf d total)) : Stepwise step total (counts ++ [d]) := by
  obtain ⟨htake, last, hlast, hclose⟩ := take_of_not_due htotal hdue
  have hreports : reports step total (counts ++ [d]) = reports step total counts := by
    rw [reports_snoc, htake]
    exact List.append_nil _
  refine ⟨?_, ?_, ?_, ?_, ?_, ?_⟩
  · rw [queried_snoc, htake]
    exact h.keeps
  · rw [queried_snoc, htake, hreports]
    exact h.last
  · rw [hreports]
    exact h.follows
  · rw [told_snoc, htake]
    exact List.rel_append h.percents (.cons (fun p hp => by cases hp) .nil)
  · rw [hreports]
    intro p hp
    obtain ⟨c, hc, rfl⟩ := h.counted p hp
    exact ⟨c, List.mem_append_left _ hc, rfl⟩
  · rw [hreports]
    intro c hc hhundred
    rcases List.mem_append.mp hc with hc | hc
    · exact h.hundred c hc hhundred
    · rw [List.mem_singleton] at hc
      subst hc
      -- The hundred is only kept back when it is the last report already.
      have hrepeat : percentOf c total = last := by
        by_contra hne
        exact (hclose hne).1 hhundred
      obtain ⟨hreported, -⟩ := h.last_le hd hlast
      rw [← hhundred, hrepeat]
      exact List.mem_of_getLast? hreported

theorem stepwise (htotal : 0 < total) (hcounts : counts.Pairwise (· ≤ ·)) : Stepwise step total counts := by
  induction counts using List.reverseRecOn with
  | nil => exact stepwise_nil
  | append_singleton counts d ih =>
    obtain ⟨hbefore, -, hd⟩ := List.pairwise_append.mp hcounts
    have hd : ∀ c ∈ counts, c ≤ d := fun c hc => hd c hc d List.mem_cons_self
    by_cases hdue : Due (queried step total counts) (percentOf d total)
    · exact (ih hbefore).report htotal hd hdue
    · exact (ih hbefore).quiet htotal hd hdue

theorem Stepwise.rises (h : Stepwise step total counts) : (reports step total counts).Pairwise (· < ·) :=
  List.isChain_iff_pairwise.mp (h.follows.imp fun _ _ hf => hf.rises)

theorem Stepwise.hundred_iff (htotal : 0 < total) (h : Stepwise step total counts) :
    100 ∈ reports step total counts ↔ ∃ d ∈ counts, total ≤ d := by
  constructor
  · intro hmem
    obtain ⟨d, hd, hp⟩ := h.counted 100 hmem
    exact ⟨d, hd, (percentOf_eq_hundred htotal).mp hp.symm⟩
  · rintro ⟨d, hd, hle⟩
    exact h.hundred d hd ((percentOf_eq_hundred htotal).mpr hle)

theorem throttled (htotal : 0 < total) (hcounts : counts.Pairwise (· ≤ ·)) : Throttled step total counts where
  percents := (stepwise htotal hcounts).percents
  rises := (stepwise htotal hcounts).rises
  follows := (stepwise htotal hcounts).follows
  completes := by
    have h : Stepwise step total counts := stepwise htotal hcounts
    have hnodup : (reports step total counts).Nodup := h.rises.imp fun hlt => hlt.ne
    rw [List.Nodup.count hnodup]
    exact if_congr (h.hundred_iff htotal) rfl rfl
  silent := by
    rintro before d rest rfl hnone
    obtain ⟨hbefore, -, hd⟩ := List.pairwise_append.mp hcounts
    have h : Stepwise step total before := stepwise htotal hbefore
    have hdue : ¬Due (queried step total before) (percentOf d total) := by
      intro hdue
      rw [take_of_due htotal hdue] at hnone
      cases hnone
    obtain ⟨-, last, hlast, hclose⟩ := take_of_not_due htotal hdue
    obtain ⟨hreported, hle⟩ := h.last_le (fun c hc => hd c hc d List.mem_cons_self) hlast
    refine ⟨last, hreported, hle, ?_⟩
    rw [h.keeps] at hclose
    by_cases hrepeat : percentOf d total = last
    · omega
    · exact (hclose hrepeat).2

end ProgressThrottle
open Act Prog InstallEvent ProgressThrottle

/-! ### What an install reports -/

def InstallEvent.percents : List InstallEvent → List Nat
  | [] => []
  | .reported _ percent _ :: t => percents t ++ [percent]
  | _ :: t => percents t

/-- The throttle has been shown `counts`, none above `bound`, and what it let through is what was reported. -/
structure Shown (step total : Nat) (throttle : ProgressThrottle) (bound : Nat) (t : List InstallEvent)
    (counts : List Nat) : Prop where
  rise : counts.Pairwise (· ≤ ·)
  below : ∀ d ∈ counts, d ≤ bound
  throttle : throttle = queried step total counts
  told : percents t = reports step total counts

/-- Between the chunks, where the size is known, the last count shown is that of all that was written. -/
def Reporting (step : Nat) (size : Option Nat) (throttle : ProgressThrottle) (written : Nat)
    (t : List InstallEvent) : Prop :=
  ∀ total, size = some total →
    ∃ counts, Shown step total throttle written t counts ∧ (written ≠ 0 → written ∈ counts)

/-- What the reports of an install are once the whole image is there. -/
structure ReportedWhole (t : List InstallEvent) : Prop where
  rises : (percents t).Pairwise (· < ·)
  last : (percents t).getLast? = some 100

section
variable {step total bound written d : Nat} {throttle : ProgressThrottle} {size : Option Nat} {t : List InstallEvent}
  {counts : List Nat}

theorem Shown.slack (h : Shown step total throttle bound t counts) {bound' : Nat} (hle : bound ≤ bound') :
    Shown step total throttle bound' t counts :=
  ⟨h.rise, fun d hd => (h.below d hd).trans hle, h.throttle, h.told⟩

theorem Shown.rise_snoc (h : Shown step total throttle bound t counts) : (counts ++ [bound]).Pairwise (· ≤ ·) := by
  refine List.pairwise_append.mpr ⟨h.rise, List.pairwise_singleton _ _, fun d hd b hb => ?_⟩
  rw [List.mem_singleton] at hb
  exact hb ▸ h.below d hd

theorem below_snoc (h : ∀ d ∈ counts, d ≤ bound) : ∀ d ∈ counts ++ [bound], d ≤ bound := by
  intro d hd
  rcases List.mem_append.mp hd with hd | hd
  · exact h d hd
  · exact (List.mem_singleton.mp hd).le

/-- A count that the throttle lets through, and its report. -/
theorem Shown.report (h : Shown step total throttle bound t counts) {p : Nat} {throttle' : ProgressThrottle}
    (htake : throttle.take bound total = (some p, throttle')) (stage : Stage) (r : Except Error Unit) :
    Shown step total throttle' bound (.reported stage p r :: t) (counts ++ [bound]) where
  rise := h.rise_snoc
  below := below_snoc h.below
  throttle := by rw [queried_snoc, ← h.throttle, htake]
  told := by
    rw [reports_snoc, ← h.throttle, htake, ← h.told]
    rfl

theorem Shown.quiet (h : Shown step total throttle bound t counts) {throttle' : ProgressThrottle}
    (htake : throttle.take bound total = (none, throttle')) :
    Shown step total throttle' bound t (counts ++ [bound]) where
  rise := h.rise_snoc
  below := below_snoc h.below
  throttle := by rw [queried_snoc, ← h.throttle, htake]
  told := by
    rw [reports_snoc, ← h.throttle, htake, h.told]
    exact (List.append_nil _).symm

/-- All of the image has been shown to the throttle, so the hundred came, and came last. -/
theorem Shown.whole (h : Shown step total throttle total t counts) (htotal : 0 < total) (hmem : total ∈ counts) :
    ReportedWhole t := by
  have hstepwise : Stepwise step total counts := stepwise htotal h.rise
  have hhundred : 100 ∈ reports step total counts := (hstepwise.hundred_iff htotal).mpr ⟨total, hmem, le_rfl⟩
  refine ⟨h.told ▸ hstepwise.rises, ?_⟩
  rw [h.told]
  rcases hlast : (reports step total counts).getLast? with _ | last
  · rw [List.getLast?_eq_none_iff.mp hlast] at hhundred
    cases hhundred
  · obtain ⟨before, hsplit⟩ := List.getLast?_eq_some_iff.mp hlast
    obtain ⟨d, -, rfl⟩ := hstepwise.counted last (List.mem_of_getLast? hlast)
    rcases List.mem_append.mp (hsplit ▸ hhundred) with hbefore | hend
    · -- A report after the hundred would be above it.
      have hrises := hstepwise.rises
      rw [hsplit] at hrises
      have hlt : 100 < percentOf d total := (List.pairwise_append.mp hrises).2.2 100 hbefore _ List.mem_cons_self
      exact absurd percentOf_le (Nat.not_le.mpr hlt)
    · rw [List.mem_singleton.mp hend]

theorem Shown.of_percents (h : Shown step total throttle bound t counts) {t' : List InstallEvent}
    (ht : percents t' = percents t) : Shown step total throttle bound t' counts :=
  ⟨h.rise, h.below, h.throttle, ht.trans h.told⟩

theorem Reporting.start (ht : percents t = []) : Reporting step size (.new step) 0 t := by
  intro total hsize
  refine ⟨[], ⟨List.Pairwise.nil, ?_, rfl, ht⟩, fun h => absurd rfl h⟩
  intro d hd
  cases hd

end

section
variable {σ : Type} (http : HttpCalls σ) (sink : SinkCalls σ) (progress : ProgressCalls σ)
variable {step : Nat} {size : Option Nat}

/-- Nothing was reported between the two states. -/
def SameReports (s s' : Rig σ) : Prop := percents s'.trace = percents s.trace

theorem openImage_percents (url : String) (waits : List Duration) :
    Spec (fun s => percents s.trace = []) (openImage url http.rig progress.rig waits)
      (Post (fun _ s => percents s.trace = []) fun s => percents s.trace = []) := by
  have hsteps : Steps (SameReports (σ := σ)) := ⟨fun _ => rfl, fun h h' => Eq.trans h' h⟩
  have hopen : ∀ url, Keeps SameReports (http.rig.openUrl url) := fun url => keeps_tryCall fun _ _ _ => rfl
  have hwait : ∀ d, Keeps SameReports (progress.rig.wait d) := fun d => keeps_tryCall fun _ _ _ => rfl
  have hkeeps := keeps_openImage hsteps hopen hwait url waits
  exact Spec.of_state fun s hs => (hkeeps s).trans hs

/-- Between a write and its check: the count that the throttle is shown next is below none before it. -/
def Rising (step : Nat) (size : Option Nat) (throttle : ProgressThrottle) (written : Nat) (t : List InstallEvent) : Prop :=
  ∀ total, size = some total → ∃ counts, Shown step total throttle written t counts

theorem checkProgress_reports (throttle : ProgressThrottle) (written : Nat) :
    Spec (fun s => Rising step size throttle written s.trace) (checkProgress size progress.rig throttle written)
      (Post (fun throttle s => Reporting step size throttle written s.trace) fun _ => True) := by
  unfold checkProgress
  cases size with
  | none => exact Spec.ret fun s _ total htotal => by cases htotal
  | some total =>
    refine Spec.ite (fun _ => Spec.fail fun _ _ => trivial) fun _ => ?_
    have hmem : ∀ counts : List Nat, written ≠ 0 → written ∈ counts ++ [written] :=
      fun counts _ => List.mem_append_right _ List.mem_cons_self
    split
    · rename_i percent throttle' htake
      have hreport : Spec (fun s => Rising step (some total) throttle written s.trace)
          (progress.rig.report .downloading percent)
          (Post (fun _ s => Reporting step (some total) throttle' written s.trace) fun _ => True) := by
        refine spec_tryCall ?_ fun _ _ _ _ => trivial
        intro s _ a hs total' htotal
        cases htotal
        obtain ⟨counts, hshown⟩ := hs total rfl
        exact ⟨_, hshown.report htake _ _, hmem counts⟩
      exact Spec.bind hreport fun _ => Spec.ret fun s hs => hs
    · rename_i throttle' htake
      refine Spec.ret ?_
      intro s hs total' htotal
      cases htotal
      obtain ⟨counts, hshown⟩ := hs total rfl
      exact ⟨_, hshown.quiet htake, hmem counts⟩

variable [Sha256]

theorem copyChunk_reports (c : Copied) :
    Spec (fun s => Reporting step size c.throttle c.written s.trace)
      (copyChunk http.rig sink.rig size progress.rig c)
      (Post (Turn.Post (fun c s => Reporting step size c.throttle c.written s.trace)
        fun r s => ∃ throttle, Reporting step size throttle r.1 s.trace) fun _ => True) := by
  have hread : Spec (fun s => Reporting step size c.throttle c.written s.trace) http.rig.read
      (Post (fun _ s => Reporting step size c.throttle c.written s.trace) fun _ => True) := by
    refine spec_tryCall ?_ fun _ _ _ _ => trivial
    intro s _ _ hs total htotal
    obtain ⟨counts, hshown, hmem⟩ := hs total htotal
    exact ⟨counts, hshown.of_percents rfl, hmem⟩
  refine Spec.bind hread fun chunk => Spec.ite (fun _ => Spec.ret fun s hs => ⟨_, hs⟩) fun _ => ?_
  have hwrite : Spec (fun s => Reporting step size c.throttle c.written s.trace) (sink.rig.write chunk.val)
      (Post (fun _ s => Rising step size c.throttle (c.written + chunk.val.length) s.trace) fun _ => True) := by
    refine spec_tryCall ?_ fun _ _ _ _ => trivial
    intro s _ _ hs total htotal
    obtain ⟨counts, hshown, -⟩ := hs total htotal
    exact ⟨counts, (hshown.slack (Nat.le_add_right _ _)).of_percents rfl⟩
  have htick : Spec (fun s => Rising step size c.throttle (c.written + chunk.val.length) s.trace) progress.rig.tick
      (Post (fun _ s => Rising step size c.throttle (c.written + chunk.val.length) s.trace) fun _ => True) := by
    refine spec_tryCall ?_ fun _ _ _ _ => trivial
    intro s _ _ hs total htotal
    obtain ⟨counts, hshown⟩ := hs total htotal
    exact ⟨counts, hshown.of_percents rfl⟩
  refine Spec.bind hwrite fun _ => Spec.bind htick fun _ => ?_
  exact Spec.bind (checkProgress_reports progress c.throttle _) fun throttle => Spec.ret fun s hs => hs

theorem copyImage_reports (step : Nat) :
    Spec (fun s => percents s.trace = []) (copyImage http.rig sink.rig size step progress.rig)
      (Post (fun r s => ∃ throttle, Reporting step size throttle r.1 s.trace) fun _ => True) := by
  have hloop := loop_spec (I := fun (c : Copied) (s : Rig σ) => Reporting step size c.throttle c.written s.trace)
    (C := fun _ => True) (fun _ _ _ h => h) (fun _ _ _ => trivial) (fun c => copyChunk_reports http sink progress c)
    ⟨.new step, Sha256.new, 0⟩
  exact hloop.pre fun _ hs => Reporting.start hs

/-- A download that returned has reported every count up to the whole. -/
theorem download_reports (update : UpdatePayload) (url : String) (step : Nat) :
    Spec (fun s => Untouched s.trace ∧ percents s.trace = []) (download update url http.rig sink.rig step progress.rig)
      (Post (fun _ s => ∀ n, knownSize update s.trace = some n → ReportedWhole s.trace) fun _ => True) := by
  have hopen : Spec (fun s => Untouched s.trace ∧ percents s.trace = []) (openImage url http.rig progress.rig retryWaits)
      (Post (fun n s => InStep update (expectedSize update n) Sha256.new 0 s.trace ∧ percents s.trace = [])
        fun _ => True) := by
    refine ((openImage_spec http progress url retryWaits).both (openImage_percents http progress url retryWaits)).mono
      ?_ (fun _ _ => trivial) fun _ _ => trivial
    rintro n s ⟨⟨huntouched, hlength⟩, hpercents⟩
    exact ⟨huntouched.level (by rw [hlength]; rfl), hpercents⟩
  refine Spec.bind hopen fun contentLength => ?_
  have hcopy : Spec (fun s => InStep update (expectedSize update contentLength) Sha256.new 0 s.trace ∧
    percents s.trace = [])
      (copyImage http.rig sink.rig (expectedSize update contentLength) step progress.rig)
      (Post (fun r s => Copied.Done update (expectedSize update contentLength) r s ∧
        ∃ throttle, Reporting step (expectedSize update contentLength) throttle r.1 s.trace) fun _ => True) :=
    ((copyImage_spec http sink progress step).both (copyImage_reports http sink progress step)).mono (fun _ _ h => h)
      (fun _ _ => trivial) fun _ _ => trivial
  refine Spec.bind hcopy ?_
  rintro ⟨written, actual⟩
  refine Spec.ofExcept ?_ fun _ _ _ _ => trivial
  rintro report hv s ⟨⟨hasher, hstep, -, -, -⟩, throttle, hreporting⟩ n hn
  obtain ⟨-, hsize, hne, -⟩ := verify_ok hv
  have hknown : expectedSize update contentLength = some n := hstep.known ▸ hn
  have hall : written = n := hsize n hknown
  obtain ⟨counts, hshown, hmem⟩ := hreporting n hknown
  subst hall
  exact hshown.whole (Nat.pos_of_ne_zero hne) (hmem hne)

/-- An install that came back with its report downloaded the image, and then committed it. -/
theorem install_returned {update : UpdatePayload} {s₀ s : Rig σ} {report : InstallReport}
    (hrun : install update http.rig sink.rig step progress.rig s₀ = (.ret report, s)) :
    ∃ url t, download update url http.rig sink.rig step progress.rig s₀ = (.ret report, t) ∧
      s.trace = .committed (.ok ()) :: t.trace := by
  cases hact : update.actionable with
  | none =>
    unfold install at hrun
    rw [hact] at hrun
    cases hrun
  | some urlUuid =>
    obtain ⟨url, uuid⟩ := urlUuid
    rcases hdown : download update url http.rig sink.rig step progress.rig s₀ with ⟨report' | e | _, t⟩
    · rw [install_of_ret hact hdown] at hrun
      obtain ⟨-, t', hret, htrace⟩ | ⟨e, -, t', herr, -⟩ := commit_cases sink report' t
      · rw [hret] at hrun
        cases hrun
        exact ⟨url, t, hdown, htrace⟩
      · rw [herr] at hrun
        cases hrun
    · rw [install_of_err hact hdown] at hrun
      cases hrun
    · rw [install_of_cut hact hdown] at hrun
      cases hrun

/-- What has been reported by the end of an install that came back with its report. -/
theorem install_reports (update : UpdatePayload) (step : Nat) (env : σ) (gas : Nat) {report : InstallReport}
    {s : Rig σ} (hrun : install update http.rig sink.rig step progress.rig (Rig.start env gas) = (.ret report, s))
    {n : Nat} (hn : knownSize update s.trace = some n) : ReportedWhole s.trace := by
  obtain ⟨url, t, hdown, htrace⟩ := install_returned http sink progress hrun
  have hd := download_reports http sink progress update url step (Rig.start env gas) ⟨untouched_nil, rfl⟩
  rw [hdown] at hd
  rw [htrace] at hn ⊢
  obtain ⟨hrises, hlast⟩ := hd n hn
  exact ⟨hrises, hlast⟩

end

/-- The percentages that are let through of counts that do not fall, and those of an install that came back and
    whose size was known. -/
theorem percents_rise :
    (∀ (step total : Nat) (counts : List Nat), 0 < total → counts.Pairwise (· ≤ ·) → Throttled step total counts) ∧
      ∀ (σ : Type) [Sha256] (http : HttpCalls σ) (sink : SinkCalls σ) (progress : ProgressCalls σ)
        (update : UpdatePayload) (step : Nat) (env : σ) (gas : Nat) (report : InstallReport) (s : Rig σ) (n : Nat),
        install update http.rig sink.rig step progress.rig (Rig.start env gas) = (.ret report, s) →
          knownSize update s.trace = some n → ReportedWhole s.trace := by
  refine ⟨fun step total counts htotal hcounts => throttled htotal hcounts, ?_⟩
  intro σ _ http sink progress update step env gas report s n hrun hn
  exact install_reports http sink progress update step env gas hrun hn

def accepting : SinkCalls (List Chunk) := ⟨fun _ s => (.ok (), s), fun s => (.ok (), s), id⟩

def listening : ProgressCalls (List Chunk) :=
  ⟨fun s => (.ok (), s), fun _ _ s => (.ok (), s), fun _ s => (.ok (), s)⟩

def sizedUpdate : UpdatePayload := { bareUpdate with size := some 3 }

def threeBytes : List Chunk := [⟨[1], by decide⟩, ⟨[2, 3], by decide⟩]

section
attribute [local instance] sha256OfByte

def threeInstalled : Outcome Error InstallReport × Rig (List Chunk) :=
  install sizedUpdate scripted.rig accepting.rig 5 listening.rig (Rig.start threeBytes 9)

theorem threeInstalled_ret : ∃ report, threeInstalled.1 = .ret report := by
  have hret : (match threeInstalled.1 with | .ret report => report.bytes | _ => 0) = 3 := by decide +kernel
  rcases hout : threeInstalled.1 with report | e | _
  · exact ⟨report, rfl⟩
  · rw [hout] at hret
    cases hret
  · rw [hout] at hret
    cases hret

theorem percents_rise_in_two :
    (reports 5 100 [1, 2, 6, 7, 100, 100] = [1, 6, 100] ∧ Throttled 5 100 [1, 2, 6, 7, 100, 100]) ∧
      percents threeInstalled.2.trace = [33, 100] ∧ ReportedWhole threeInstalled.2.trace := by
  refine ⟨⟨by decide, percents_rise.1 5 100 _ (by decide) (by decide)⟩, by decide +kernel, ?_⟩
  obtain ⟨report, hret⟩ := threeInstalled_ret
  have hrun : threeInstalled = (.ret report, threeInstalled.2) := by rw [← hret]
  exact percents_rise.2 _ scripted accepting listening sizedUpdate 5 threeBytes 9 report threeInstalled.2 3 hrun rfl

end

end NervesHub
