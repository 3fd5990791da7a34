import NervesHubLink.Theorems.OptIn
import NervesHubLink.Theorems.Pumping
import NervesHubLink.Theorems.Taking

/-! The pace of log messages. The session's loop and a download each keep the time of the last one, and a download hands its
own back to nobody. -/

namespace NervesHub
open Act Prog Trace

/-! ### What the record says of the pace -/

def reading (t : List Event) : Nat := (readings t).headD 0

/-- The record up to the last log message that the session has sent. -/
def beforeLog : List Event → Option (List Event)
  | [] => none
  | .connected _ :: _ => none
  | .sent m (.ok ()) :: older => if m.kind = .logging then some older else beforeLog older
  | _ :: older => beforeLog older

/-- The interval that lies before a log message. -/
def Payload.interval : Payload → Nat
  | .batch _ => logBatchIntervalMs
  | .value _ => logSendIntervalMs

/-- A log message is sent when its interval since the one before is over. -/
def paced : Event → List Event → Bool
  | .sent m (.ok ()), older => m.kind != .logging ||
      (beforeLog older).all fun before => decide (reading before + m.payload.interval ≤ reading older)
  | _, _ => true

/-- The clock does not go back. -/
def Onward (e : Event) (older : List Event) : Prop := ∀ now ∈ e.now, reading older ≤ now

instance (e : Event) (older : List Event) : Decidable (Onward e older) := inferInstanceAs (Decidable (∀ now ∈ e.now, _))

def Kind.isTaken (k : Kind) : Bool := k == .took || k == .noted

section
variable [Serde]

/-- The interval that goes with the latest invitation. -/
def logInterval (t : List Event) : Nat :=
  if loggingVersion t = some loggingBatchedVersion then logBatchIntervalMs else logSendIntervalMs

/-- The loop takes what the log buffer holds, and the interval is not over since a log message that a download sent. -/
def hurries (e : Event) (older : List Event) : Bool :=
  e.kind.isTaken && !downloading older && (beforeLog older).any fun before =>
    downloading before && decide (reading older < reading before + logInterval older)

end

/-! ### What the loop and a download leave -/

/-- A message of the loop carries what was just taken, and the one before is one of a download. -/
def Rushed (t : List Event) : Prop :=
  ∃ es e older, t = es ++ e :: older ∧ (∀ e ∈ es, e.kind ∈ Admits.logKinds) ∧ e.kind.isTaken = true ∧
    downloading t = false ∧ ∃ before, beforeLog t = some before ∧ downloading before = true

/-- The log messages so far: those that came too soon were rushed, and the last one was sent by `last`, or by a download. -/
structure Spaced (last : Nat) (t : List Event) : Prop where
  fine : Throughout (fun e older => paced e older = true ∨ Rushed older) t
  past : ∀ before, beforeLog t = some before → reading before ≤ reading t
  base : ∀ before, beforeLog t = some before → downloading before = true ∨ reading before ≤ last

variable {last : Nat} {e : Event} {t : List Event}

theorem beforeLog_cons (hconn : e.kind ≠ .connected) (hlog : e.kind ≠ .logging) : beforeLog (e :: t) = beforeLog t := by
  cases e
  case connected r => exact absurd rfl hconn
  case sent m r =>
    rcases r with err | _
    · rfl
    · exact if_neg hlog
  all_goals rfl

theorem paced_other (hlog : e.kind ≠ .logging) : paced e t = true := by
  cases e
  case sent m r =>
    rcases r with err | _
    · rfl
    · simp [paced, show m.kind ≠ .logging from hlog]
  all_goals rfl

theorem reading_le (hconn : e.kind ≠ .connected) (hjoin : e.kind ≠ .deviceJoin) (honward : Onward e t) :
    reading t ≤ reading (e :: t) := by
  cases e
  case connected r => exact absurd rfl hconn
  case clock now => exact honward now rfl
  case sent m r => simp [reading, readings, show m.kind ≠ .deviceJoin from hjoin]
  all_goals exact Nat.le_refl _

def endKinds : List Kind := [.connected, .deviceJoin]

theorem Spaced.add (h : Spaced last t) (he : e.kind ∉ endKinds) (hlog : e.kind ≠ .logging) (honward : Onward e t) :
    Spaced last (e :: t) := by
  have hconn : e.kind ≠ .connected := fun heq => he (by simp [heq, endKinds])
  have hjoin : e.kind ≠ .deviceJoin := fun heq => he (by simp [heq, endKinds])
  have hbefore : beforeLog (e :: t) = beforeLog t := beforeLog_cons hconn hlog
  refine ⟨throughout_cons.mpr ⟨Or.inl (paced_other hlog), h.fine⟩, fun before hb => ?_, fun before hb => ?_⟩
  · exact (h.past before (hbefore ▸ hb)).trans (reading_le hconn hjoin honward)
  · exact h.base before (hbefore ▸ hb)

section Message
variable {m : Envelope} (hm : m.kind = .logging)
include hm

theorem reading_logged (r : Except Error Unit) : reading (.sent m r :: t) = reading t := by
  simp [reading, readings, hm]

theorem Spaced.lose (h : Spaced last t) (err : Error) : Spaced last (.sent m (.error err) :: t) := by
  refine ⟨throughout_cons.mpr ⟨Or.inl rfl, h.fine⟩, fun before hb => ?_, h.base⟩
  rw [reading_logged hm]
  exact h.past before hb

theorem Spaced.log (h : Spaced last t) {last' : Nat} (hlast : downloading t = true ∨ reading t ≤ last')
    (hfine : (∀ before, beforeLog t = some before → reading before + m.payload.interval ≤ reading t) ∨ Rushed t) :
    Spaced last' (.sent m (.ok ()) :: t) := by
  have hbefore : beforeLog (.sent m (.ok ()) :: t) = some t := if_pos hm
  refine ⟨throughout_cons.mpr ⟨hfine.imp_left fun hpace => ?_, h.fine⟩, fun before hb => ?_, fun before hb => ?_⟩
  · simpa [paced, hm, Option.all_eq_true] using hpace
  · rw [hbefore] at hb
    cases hb
    rw [reading_logged hm]
  · rw [hbefore] at hb
    cases hb
    exact hlast

end Message

/-! ### Where the loop does not hurry -/

section
variable [Serde]

theorem loggingVersion_cons (hconn : e.kind ≠ .connected) (hreceived : e.kind ≠ .received) :
    loggingVersion (e :: t) = loggingVersion t := by
  rw [loggingVersion, loggingVersion, advertised_cons hconn hreceived]

/-- What is done to the log buffer changes neither the readings nor what goes with them. -/
theorem buffer_cons (he : e.kind ∈ Admits.logKinds) : reading (e :: t) = reading t ∧ beforeLog (e :: t) = beforeLog t ∧
    downloading (e :: t) = downloading t ∧ logInterval (e :: t) = logInterval t := by
  have hnone : ∀ k ∈ Admits.logKinds, k ≠ .connected ∧ k ≠ .deviceJoin ∧ k ≠ .clock ∧ k ≠ .logging ∧ k ≠ .httpStarted ∧
    k ≠ .status ∧ k ≠ .received := by decide
  obtain ⟨hconn, hjoin, hclock, hlog, hstarted, hstatus, hreceived⟩ := hnone _ he
  refine ⟨?_, beforeLog_cons hconn hlog, downloading_cons hconn hstarted hstatus, ?_⟩
  · rw [reading, reading, readings_cons hconn hjoin hclock]
  · rw [logInterval, logInterval, loggingVersion_cons hconn hreceived]

theorem buffer_append {es : List Event} (hes : ∀ e ∈ es, e.kind ∈ Admits.logKinds) : reading (es ++ t) = reading t ∧
    beforeLog (es ++ t) = beforeLog t ∧ downloading (es ++ t) = downloading t ∧ logInterval (es ++ t) = logInterval t := by
  induction es with
  | nil => exact ⟨rfl, rfl, rfl, rfl⟩
  | cons e es ih =>
    obtain ⟨hreading, hbefore, hdown, hinterval⟩ := ih fun e' he' => hes e' (List.mem_cons_of_mem _ he')
    obtain ⟨hreading', hbefore', hdown', hinterval'⟩ := buffer_cons (t := es ++ t) (hes e List.mem_cons_self)
    exact ⟨hreading'.trans hreading, hbefore'.trans hbefore, hdown'.trans hdown, hinterval'.trans hinterval⟩

omit [Serde] in
theorem mem_logKinds {k : Kind} (h : k.isTaken = true) : k ∈ Admits.logKinds := by
  rcases Bool.or_eq_true_iff.mp h with h | h
  · rw [beq_iff_eq.mp h]
    decide
  · rw [beq_iff_eq.mp h]
    decide

/-- A log message whose lines the loop did not take in a hurry is sent in time. -/
theorem Rushed.paced (h : Rushed t) (hcalm : Throughout (fun e older => hurries e older = false) t)
    (hinterval : ∀ m r, e = .sent m r → m.kind = .logging → m.payload.interval = logInterval t) : paced e t = true := by
  obtain ⟨es, e', older, rfl, hes, htaken, hdown, before, hbefore, hload⟩ := h
  obtain ⟨hreading, hbefore', hdown', hinterval'⟩ := buffer_append (t := e' :: older) hes
  obtain ⟨hreading'', hbefore'', hdown'', hinterval''⟩ := buffer_cons (t := older) (mem_logKinds htaken)
  have hnone : hurries e' older = false := hcalm e' older (List.suffix_append _ _)
  rw [hbefore', hbefore''] at hbefore
  rw [hdown', hdown''] at hdown
  have htime : reading before + logInterval older ≤ reading older := by
    simpa [hurries, htaken, hdown, hbefore, hload] using hnone
  cases e
  case sent m r =>
    rcases r with err | _
    · rfl
    · by_cases hm : m.kind = .logging
      · have hpace : m.payload.interval = logInterval older := (hinterval m _ rfl hm).trans (hinterval'.trans hinterval'')
        simp [NervesHub.paced, hbefore', hbefore'', hbefore, hreading, hreading'', hpace, htime]
      · simp [NervesHub.paced, hm]
  all_goals rfl

end

/-! ### What draining the log buffer records -/

section
variable {σ : Type} {agent : Agent σ} {X C : World σ → Prop} {s₀ : World σ}

/-- Since `s₀` nothing but `lines` has been taken from the log buffer. -/
def Drained (s₀ : World σ) (lines : List LogLine) (s : World σ) : Prop :=
  (∃ es, s.trace = es ++ s₀.trace ∧ (∀ e ∈ es, e.kind ∈ Admits.logKinds) ∧ (lines ≠ [] → ∃ e ∈ es, e.kind.isTaken = true)) ∧
    s.own.link = s₀.own.link ∧ s.own.pump = s₀.own.pump

theorem Drained.more {lines lines' : List LogLine} {s s' : World σ} (h : Drained s₀ lines s) (es : List Event)
    (htrace : s'.trace = es ++ s.trace) (hes : ∀ e ∈ es, e.kind ∈ Admits.logKinds) (hlink : s'.own.link = s.own.link)
    (hpump : s'.own.pump = s.own.pump) (hlines : lines' ≠ [] → lines ≠ [] ∨ ∃ e ∈ es, e.kind.isTaken = true) :
    Drained s₀ lines' s' := by
  obtain ⟨⟨es₀, hes₀, hkinds, htaken⟩, hlink₀, hpump₀⟩ := h
  refine ⟨⟨es ++ es₀, ?_, List.forall_mem_append.mpr ⟨hes, hkinds⟩, fun hne => ?_⟩, hlink.trans hlink₀, hpump.trans hpump₀⟩
  · rw [htrace, hes₀, List.append_assoc]
  · rcases hlines hne with hne | ⟨e, he, htaken'⟩
    · obtain ⟨e, he, htaken'⟩ := htaken hne
      exact ⟨e, List.mem_append_right _ he, htaken'⟩
    · exact ⟨e, List.mem_append_left _ he, htaken'⟩

theorem overhear_drained (lines : List LogLine) :
    Spec (Drained s₀ lines) (overhear agent) (Ends (fun _ => Drained s₀ lines) X C) := by
  refine Spec.bind (R := fun _ => Drained s₀ lines) (spec_call fun s env offers hs => hs) fun offers => ?_
  refine Spec.bind (R := fun _ => Drained s₀ lines) (fun s hs => ?_) fun _ => Spec.ret fun s hs => hs
  refine Drained.more hs _ rfl (fun e he => ?_) rfl rfl Or.inl
  obtain ⟨fate, -, rfl⟩ := List.mem_map.mp (List.mem_reverse.mp he)
  simp [Event.kind, Admits.logKinds]

theorem takeStamped_drained (maxLines maxBytes : Nat) (micros : Option Nat) :
    Spec (Drained s₀ []) (takeStamped agent maxLines maxBytes micros)
    (Ends (fun lines s => Drained s₀ lines s ∧ lines.length ≤ maxLines) X C) := by
  refine takeStamped_rule agent (M := fun batch s => Drained s₀ batch.lines s ∧ batch.lines.length ≤ maxLines)
    (overhear_drained []) (fun batch s hs => ?_) (fun s hs => ⟨hs, Nat.zero_le _⟩) (fun s b hs hlogs => ?_)
    (fun batch s hs => hs) fun batch s b hless hs hlogs => ?_
  · exact ((overhear_drained _).mono (fun _ u hu => ⟨hu, hs.2⟩) (fun _ h => h) fun _ h => h) s hs.1
  · obtain ⟨-, -, hcount, hstamped⟩ := b.drain_lines maxLines maxBytes micros
    have hlen := congrArg List.length hstamped
    rw [List.length_mapIdx] at hlen
    refine ⟨hs.more _ rfl (fun e he => ?_) rfl rfl fun hne => Or.inr ?_, hlen ▸ hcount⟩
    · obtain ⟨line, -, rfl⟩ := List.mem_map.mp (List.mem_reverse.mp he)
      simp [Event.kind, Admits.logKinds]
    · cases hraw : (b.drain maxLines maxBytes micros).1.1.raw with
      | nil =>
        rw [hraw] at hlen
        exact absurd (List.length_eq_zero_iff.mp hlen) hne
      | cons line rest => exact ⟨.took line, by simp, rfl⟩
  · refine ⟨hs.1.more _ rfl (fun e he => ?_) rfl rfl fun hne => ?_, ?_⟩
    · cases hpop : b.pop.1 <;> simp only [hpop, LogBuffer.Popped.events, List.mem_singleton, List.not_mem_nil] at he
      all_goals simp [he, Event.kind, Admits.logKinds]
    · cases hpop : b.pop.1 with
      | nothing =>
        rw [hpop, LogBuffer.Popped.sent, Option.map_none, Option.toList_none, List.append_nil] at hne
        exact Or.inl hne
      | line line => exact Or.inr ⟨.took line, List.mem_singleton.mpr rfl, rfl⟩
      | note lost => exact Or.inr ⟨.noted lost, List.mem_singleton.mpr rfl, rfl⟩
    · cases b.pop.1 <;> simp only [LogBuffer.Popped.sent, Option.map_some, Option.map_none, Option.toList_some,
        Option.toList_none,
        List.length_append, List.length_singleton, List.length_nil] <;> omega

variable [Serde]

/-- Lines that go as a batch make one message, and a line that goes by itself makes one. -/
theorem linkSendLogs_sends (agent : Agent σ) {lines : List LogLine} {s : World σ} (hlines : lines ≠ [])
    (hatt : s.own.link.loggingAttached = true)
    (hone : lines.length ≤ s.own.link.logPace.2) : ∃ m t, m.kind = .logging ∧ m.payload.interval = s.own.link.logPace.1 ∧
      t.own.pump = s.own.pump ∧ ((Link.sendLogs agent lines s = (.ret (), t) ∧ t.trace = .sent m (.ok ()) :: s.trace) ∨
        ∃ e, Link.sendLogs agent lines s = (.err e, t) ∧ t.trace = .sent m (.error e) :: s.trace) := by
  let ref := s.own.link.refs.nextRef.1
  let s' : World σ := { s with own := { s.own with link := { s.own.link with refs := s.own.link.refs.nextRef.2 } } }
  cases hbatched : s.own.link.extensions.loggingBatched with
  | true =>
    let m : Envelope := ⟨s.own.link.extensionsJoinRef, some ref, extensionsTopic, event.loggingSend, .batch lines⟩
    have hrun : Link.sendLogs agent lines s = Link.write agent m s' := by
      have hbatch : s.own.link.extensions.logBatch lines = some lines := by simp [Extensions.logBatch, hbatched, hlines]
      simp only [Link.sendLogs, NervesHub.link, gets_bind_apply, hbatch]
      rfl
    obtain ⟨t, hown, h⟩ := write_sends agent m s'
    exact ⟨m, t, rfl, by simp [Link.logPace, hbatched, m, Payload.interval], by simp [hown, s'], hrun ▸ h⟩
  | false =>
    obtain ⟨line, rfl⟩ : ∃ line, lines = [line] := by
      have hpos := List.length_pos_iff.mpr hlines
      have hpace : s.own.link.logPace.2 = 1 := by simp [Link.logPace, hbatched]
      exact List.length_eq_one_iff.mp (by omega)
    let m : Envelope := ⟨s.own.link.extensionsJoinRef, some ref, extensionsTopic, event.loggingSend, .value line.payload⟩
    have hrun : Link.sendLogs agent [line] s = (Link.write agent m >>= fun _ => pure ()) s' := by
      have hnone : s.own.link.extensions.logBatch [line] = none := by simp [Extensions.logBatch, hbatched]
      have hlogs : s.own.link.extensions.logs [line] = [.send event.loggingSend line.payload] := by
        have hattached : s.own.link.extensions.isAttached loggingKey = true := hatt
        simp [Extensions.logs, Extensions.log, hattached, hbatched]
      simp only [Link.sendLogs, NervesHub.link, gets_bind_apply, hnone, hlogs]
      rfl
    obtain ⟨t, hown, h⟩ := write_sends agent m s'
    refine ⟨m, t, rfl, by simp [Link.logPace, hbatched, m, Payload.interval], by simp [hown, s'], ?_⟩
    rw [hrun, bind_apply]
    rcases h with ⟨h, htrace⟩ | ⟨e, h, htrace⟩
    · rw [h]
      exact Or.inl ⟨rfl, htrace⟩
    · rw [h]
      exact Or.inr ⟨e, rfl, htrace⟩

/-- The rule for draining the log buffer: nothing is sent; or one message is, that carries what was taken, once its interval
    since `last` is over. -/
theorem sendLogs_rule {P : World σ → Prop} {Q : Nat → World σ → Prop} {now last : Nat}
    (hquiet : ∀ (s t : World σ) es, P s → (∀ e ∈ es, e.kind ∈ Admits.logKinds) → t.own.pump = s.own.pump →
      t.trace = es ++ s.trace → Q last t)
    (hsent : ∀ (s t : World σ) es m r, P s → (∀ e ∈ es, e.kind ∈ Admits.logKinds) → (∃ e ∈ es, e.kind.isTaken = true) →
      m.kind = .logging →
      last + m.payload.interval ≤ now → t.own.pump = s.own.pump → t.trace = .sent m r :: (es ++ s.trace) →
      (r = .ok () → Q now t) ∧ ∀ err, r = .error err → X t) :
    Spec P (sendLogs agent now last) (Ends Q X C) := by
  refine spec_own fun d => Spec.ite (fun _ => Spec.ret ?_) fun hatt => Spec.ite (fun _ => Spec.ret ?_) fun hover => ?_
  · exact fun s hs => hquiet s s [] hs.1 (fun e he => by cases he) rfl rfl
  · exact fun s hs => hquiet s s [] hs.1 (fun e he => by cases he) rfl rfl
  rintro s ⟨hs, rfl⟩
  have htake : Spec (Drained s []) (drainLogs agent s.own.link.logPace.2 now last) (Ends Q X C) := by
    refine Spec.bind (R := fun _ => Drained s []) (spec_call fun s env micros hs => hs) fun micros => ?_
    refine Spec.bind (takeStamped_drained _ _ _) fun lines => ?_
    rintro t ⟨hdrained, hcount⟩
    obtain ⟨⟨es, htrace, hkinds, htaken⟩, hlink, hpump⟩ := hdrained
    by_cases hempty : lines = []
    · subst hempty
      exact hquiet s t es hs hkinds hpump htrace
    rw [if_neg (by simpa using hempty)]
    have hattached : t.own.link.loggingAttached = true := by
      rw [hlink]
      simp only [Bool.or_eq_true, Bool.not_eq_true', not_or, Bool.not_eq_false] at hatt
      exact hatt.2
    obtain ⟨m, u, hm, hpace, hpump', h⟩ := linkSendLogs_sends agent hempty hattached (by rw [hlink]; exact hcount)
    have hdue : last + m.payload.interval ≤ now := by
      have hpos : 0 < m.payload.interval := by cases m.payload <;> exact Nat.succ_pos _
      rw [hlink] at hpace
      omega
    have hsent : ∀ r, u.trace = .sent m r :: t.trace → (r = .ok () → Q now u) ∧ ∀ err, r = .error err → X u := fun r hr =>
      hsent s u es m r hs hkinds (htaken hempty) hm hdue (hpump'.trans hpump) (by rw [hr, htrace])
    rw [bind_apply]
    rcases h with ⟨h, hr⟩ | ⟨err, h, hr⟩
    · rw [h]
      exact (hsent _ hr).1 rfl
    · rw [h]
      exact (hsent _ hr).2 err rfl
  exact htake s ⟨⟨[], rfl, (fun e he => by cases he), fun h => absurd rfl h⟩, rfl, rfl⟩

end

/-! ### A download -/

/-- As long as the clock does not go back. -/
def Forth (J : List Event → Prop) (t : List Event) : Prop := Throughout Onward t → J t

theorem Forth.cons {J K : List Event → Prop} (h : Forth J t) (hstep : Onward e t → J t → K (e :: t)) : Forth K (e :: t) :=
  fun honward => hstep (throughout_cons.mp honward).1 (h (throughout_cons.mp honward).2)

theorem Forth.imp {J K : List Event → Prop} (h : Forth J t) (hJK : J t → K t) : Forth K t := fun honward => hJK (h honward)

def Fine (t : List Event) : Prop := Throughout (fun e older => paced e older = true ∨ Rushed older) t

/-- The loop goes on, and keeps `last` as the time of the last log message. -/
def Roving (last : Nat) (t : List Event) : Prop := Spaced last t ∧ downloading t = false

/-- A download, while the loop waits. -/
def Hauling (last : Nat) (t : List Event) : Prop := Spaced last t ∧ downloading t = true

/-- And it keeps the time of the last log message too. -/
def Towing (last own : Nat) (t : List Event) : Prop :=
  Hauling last t ∧ ∀ before, beforeLog t = some before → reading before ≤ own

def roveKinds : List Kind := .httpStarted :: .logging :: endKinds
def haulKinds : List Kind := .status :: .logging :: endKinds

theorem Roving.add (h : Roving last t) (he : e.kind ∉ roveKinds) (honward : Onward e t) : Roving last (e :: t) := by
  simp only [roveKinds, endKinds, List.mem_cons, List.not_mem_nil, or_false, not_or] at he
  obtain ⟨hstarted, hlog, hconn, hjoin⟩ := he
  exact ⟨h.1.add (by simp [endKinds, hconn, hjoin]) hlog honward, downloading_false hconn hstarted h.2⟩

theorem Hauling.add (h : Hauling last t) (he : e.kind ∉ haulKinds) (honward : Onward e t) : Hauling last (e :: t) := by
  simp only [haulKinds, endKinds, List.mem_cons, List.not_mem_nil, or_false, not_or] at he
  obtain ⟨hstatus, hlog, hconn, hjoin⟩ := he
  refine ⟨h.1.add (by simp [endKinds, hconn, hjoin]) hlog honward, ?_⟩
  by_cases hstarted : e.kind = .httpStarted
  · cases e
    case httpStarted r => rfl
    case sent m r => simp [downloading, h.2, show m.kind ≠ .status from hstatus]
    case image ie => cases ie <;> cases hstarted
    all_goals cases hstarted
  · rw [downloading_cons hconn hstarted hstatus]
    exact h.2

theorem Roving.start (h : Roving last t) (r : Except Error Unit) (honward : Onward (.httpStarted r) t) :
    Hauling last (.httpStarted r :: t) :=
  ⟨h.1.add (by simp [Event.kind, endKinds]) (by simp [Event.kind]) honward, rfl⟩

theorem Hauling.over {m : Envelope} (h : Hauling last t) (hm : m.kind = .status) (r : Except Error Unit) :
    Roving last (.sent m r :: t) :=
  ⟨h.1.add (by simp [Event.kind, hm, endKinds]) (by simp [Event.kind, hm])
    (fun now heq => by cases heq), by simp [downloading, hm]⟩

theorem Towing.add {own : Nat} (h : Towing last own t) (he : e.kind ∉ haulKinds) (honward : Onward e t) :
    Towing last own (e :: t) := by
  have hbefore : beforeLog (e :: t) = beforeLog t :=
    beforeLog_cons (fun heq => he (by simp [heq, haulKinds, endKinds])) fun heq => he (by simp [heq, haulKinds])
  exact ⟨h.1.add he honward, fun before hb => h.2 before (hbefore ▸ hb)⟩

/-! ### What draining does to each -/

theorem onward_other (h : e.kind ≠ .clock) : Onward e t := by
  intro now hnow
  cases e
  case clock now => exact absurd rfl h
  all_goals cases hnow

theorem reading_cons (hconn : e.kind ≠ .connected) (hjoin : e.kind ≠ .deviceJoin) (hclock : e.kind ≠ .clock) :
    reading (e :: t) = reading t := by rw [reading, reading, readings_cons hconn hjoin hclock]

theorem not_mem_of_logKinds {k : Kind} (h : k ∈ Admits.logKinds) : k ∉ roveKinds ∧ k ∉ haulKinds ∧ k ≠ .clock := by
  revert k
  decide

section Message
variable [Serde] {es : List Event} (hes : ∀ e ∈ es, e.kind ∈ Admits.logKinds)
include hes

omit [Serde] in
theorem Roving.append (h : Roving last t) : Roving last (es ++ t) :=
  append_holds (fun _ _ he hJ => hJ.add (not_mem_of_logKinds he).1 (onward_other (not_mem_of_logKinds he).2.2)) hes h

omit [Serde] in
theorem Towing.append {own : Nat} (h : Towing last own t) : Towing last own (es ++ t) :=
  append_holds (fun _ _ he hJ => hJ.add (not_mem_of_logKinds he).2.1 (onward_other (not_mem_of_logKinds he).2.2)) hes h

variable {m : Envelope} (hm : m.kind = .logging)
include hm

theorem Towing.log {own now : Nat} (h : Towing last own t) (hnow : reading t = now)
    (hdue : own + m.payload.interval ≤ now) :
    Towing last now (.sent m (.ok ()) :: (es ++ t)) := by
  have hes' := h.append hes
  have hreading : reading (es ++ t) = now := (buffer_append hes).1.trans hnow
  refine ⟨⟨hes'.1.1.log hm (Or.inl hes'.1.2) (Or.inl fun before hb => ?_), ?_⟩, fun before hb => ?_⟩
  · have hlast := hes'.2 before hb
    omega
  · simp [downloading, hm, hes'.1.2]
  · have hbefore : beforeLog (.sent m (.ok ()) :: (es ++ t)) = some (es ++ t) := if_pos hm
    rw [hbefore] at hb
    cases hb
    exact hreading.le

omit [Serde] in
theorem Towing.lose {own : Nat} (h : Towing last own t) (err : Error) :
    Hauling last (.sent m (.error err) :: (es ++ t)) := by
  have hes' := h.append hes
  exact ⟨hes'.1.1.lose hm err, by simp [downloading, hm, hes'.1.2]⟩

/-- The loop sends what it took, in a rush if the message before is one of a download. -/
theorem Roving.log {now : Nat} (h : Roving last t) (hnow : reading t = now) (hdue : last + m.payload.interval ≤ now)
    (htaken : ∃ e ∈ es, e.kind.isTaken = true) : Roving now (.sent m (.ok ()) :: (es ++ t)) := by
  have hes' := h.append hes
  have hreading : reading (es ++ t) = now := (buffer_append hes).1.trans hnow
  refine ⟨hes'.1.log hm (Or.inr hreading.le) ?_, by simp [downloading, hes'.2]⟩
  by_cases hrush : ∃ before, beforeLog (es ++ t) = some before ∧ downloading before = true
  · obtain ⟨e, he, htaken⟩ := htaken
    obtain ⟨later, older, rfl⟩ := List.append_of_mem he
    refine Or.inr ⟨later, e, older ++ t, by simp, fun e' he' => hes e' (by simp [he']), htaken, hes'.2, hrush⟩
  · refine Or.inl fun before hb => ?_
    have hlast : reading before ≤ last := (hes'.1.base before hb).resolve_left fun hload => hrush ⟨before, hb, hload⟩
    omega

omit [Serde] in
theorem Roving.lose (h : Roving last t) (err : Error) :
    Fine (.sent m (.error err) :: (es ++ t)) := ((h.append hes).1.lose hm err).fine

end Message

/-! ### What they come to -/

section
variable {σ : Type} [Serde] {agent : Agent σ}

/-- The download goes on, and so does the loop behind it. -/
def Tows (last : Nat) (s : World σ) : Prop := Forth (Towing last s.own.pump.lastLog) s.trace
def Hauls (last : Nat) (s : World σ) : Prop := Forth (Hauling last) s.trace
def Roves (a : Session) (s : World σ) : Prop := Forth (Roving a.lastLog) s.trace
def Fares (s : World σ) : Prop := Forth Fine s.trace

omit [Serde] in
theorem Hauls.fares {s : World σ} (h : Hauls last s) : Fares s := h.imp fun hJ => hJ.1.fine

omit [Serde] in
theorem Roves.fares {a : Session} {s : World σ} (h : Roves a s) : Fares s := h.imp fun hJ => hJ.1.fine

omit [Serde] in
theorem Tows.hauls {s : World σ} (h : Tows last s) : Hauls last s := h.imp And.left

theorem tick_paces : Spec (Tows last) (Pump.tick agent) (Ends (fun _ => Tows last) (Hauls last) Fares) := by
  let Read (now : Nat) (s : World σ) : Prop := Forth (fun t => Towing last s.own.pump.lastLog t ∧ reading t = now) s.trace
  refine Spec.bind (R := Read) (spec_call fun s env now hs => ?_) fun now => spec_own fun d => ?_
  · exact hs.cons fun honward hJ => ⟨hJ.add (by simp [Event.kind, haulKinds, endKinds]) honward, rfl⟩
  refine Spec.bind (R := fun _ => Read now) (Spec.when (fun _ => ?_) fun _ s hs => hs.1) fun _ => spec_own fun d' => ?_
  · refine Spec.bind (R := fun _ => Read now) ?_ fun _ s hs => hs
    have hbeat : ∀ {t : List Event} {m : Envelope} {own : Nat} (r : Except Error Unit), m.kind = .heartbeat →
        Towing last own t ∧ reading t = now → Towing last own (.sent m r :: t) ∧ reading (.sent m r :: t) = now :=
            fun r hm hJ => by
      refine ⟨hJ.1.add (by simp [Event.kind, hm, haulKinds, endKinds]) (onward_other (by simp [Event.kind, hm])), ?_⟩
      rw [reading_cons (by simp [Event.kind, hm]) (by simp [Event.kind, hm]) (by simp [Event.kind, hm])]
      exact hJ.2
    refine sendHeartbeat_sends.spec ?_ ?_
    · rintro s m t ⟨hs, -⟩ hm ⟨hpump, -⟩ hsent
      simp only [Read, hsent, hpump]
      exact hs.cons fun _ hJ => hbeat _ hm hJ
    · rintro s m e t ⟨hs, -⟩ hm - hsent
      rw [Hauls, hsent]
      exact hs.cons fun _ hJ => (hbeat _ hm hJ).1.1
  · refine Spec.bind (R := fun lastLog (s : World σ) => Forth (Towing last lastLog) s.trace) ?_ fun lastLog s hs => hs
    refine sendLogs_rule ?_ ?_
    · rintro s t es ⟨hs, rfl⟩ hes - htrace
      rw [htrace]
      exact fun honward => (hs (honward.suffix (List.suffix_append es _))).1.append hes
    · rintro s t es m r ⟨hs, rfl⟩ hes - hm hdue - htrace
      simp only [Hauls, htrace]
      refine ⟨?_, ?_⟩
      · rintro rfl honward
        exact (hs honward.before).1.log hes hm (hs honward.before).2 hdue
      · rintro err rfl honward
        exact (hs honward.before).1.lose hes hm err

omit [Serde] in
/-- Whatever each event of such a kind leaves true, as long as the clock does not go back. -/
theorem Forth.keep {p : Kind → Prop} {J : List Event → Prop} {s u : World σ} (h : Forth J s.trace) (hsu : Only p s u)
    (hJ : ∀ e t, p (Event.kind e) → Onward e t → J t → J (e :: t)) : Forth J u.trace :=
  hsu.holds (J := Forth J) (fun e t he hJt => hJt.cons (hJ e t he)) h

omit [Serde] in
theorem Tows.add {s : World σ} (h : Tows last s) (env : σ) {e : Event} (he : e.kind ∉ haulKinds) :
    Tows last { s with env := env, trace := e :: s.trace } := Forth.cons h fun honward hJ => hJ.add he honward

omit [Serde] in
theorem Hauls.add {s : World σ} (h : Hauls last s) (env : σ) {e : Event} (he : e.kind ∉ haulKinds) :
    Hauls last { s with env := env, trace := e :: s.trace } := Forth.cons h fun honward hJ => hJ.add he honward

theorem paces_pumps (last : Nat) : Pumps agent (Tows last) (Tows last) (Tows last) (Hauls last) (Hauls last) Fares where
  gas s g hs := hs
  gasTick s g hs := hs
  opens url := by
    simp only [imageStream, HttpCalls.recorded_openUrl]
    exact spec_tryCall (fun s env size hs => hs.add env (by simp [Event.kind, haulKinds, endKinds])) fun s env e hs =>
      hs.add env (by simp [Event.kind, haulKinds, endKinds])
  waits := spec_call fun s env now hs => hs.add env (by simp [Event.kind, haulKinds, endKinds])
  tick := tick_paces
  clock := spec_call fun s env now hs => hs.add env (by simp [Event.kind, haulKinds, endKinds])
  sleeps d := spec_call fun s env _ hs => hs.add env (by simp [Event.kind, haulKinds, endKinds])
  reads := by
    simp only [imageStream, HttpCalls.recorded_read]
    exact spec_tryCall (fun s env chunk hs => hs.add env (by simp [Event.kind, haulKinds, endKinds])) fun s env e hs =>
      hs.hauls.add env (by simp [Event.kind, haulKinds, endKinds])
  writes chunk := by
    simp only [imageSink, SinkCalls.recorded_write]
    exact spec_tryCall (fun s env u hs => hs.add env (by simp [Event.kind, haulKinds, endKinds])) fun s env e hs =>
      hs.hauls.add env (by simp [Event.kind, haulKinds, endKinds])
  reports percent := by
    have hkept : Keeps (Beside (· ∉ haulKinds)) (Pump.report agent .downloading percent) :=
      (beside_admits _).report (by decide) .downloading percent
    refine (Spec.of_keeps hkept fun s u hs hsu => ?_).mono (fun _ _ hs => hs) (fun _ hs => hs.hauls) fun _ hs =>
      hs.hauls.fares
    rw [Tows, hsu.2]
    exact hs.keep hsu.1 fun e t he honward hJ => hJ.add he honward
  commits := by
    simp only [imageSink, SinkCalls.recorded_commit]
    exact spec_tryCall (fun s env u hs => hs.hauls.add env (by simp [Event.kind, haulKinds, endKinds])) fun s env e hs =>
      hs.hauls.add env (by simp [Event.kind, haulKinds, endKinds])
  aborts s hs := hs.add _ (by simp [Event.kind, haulKinds, endKinds])
  idle s hs := hs.hauls
  fails s hs := hs.hauls
  refused s hs := hs.hauls
  cuts s hs := hs.hauls.fares
  cutsTick s hs := hs.hauls.fares

omit [Serde] in
theorem Roves.add {a : Session} {s : World σ} (h : Roves a s) (env : σ) {e : Event} (he : e.kind ∉ roveKinds) :
    Roves a { s with env := env, trace := e :: s.trace } := Forth.cons h fun honward hJ => hJ.add he honward

omit [Serde] in
theorem Roves.keep {a : Session} {s u : World σ} (h : Roves a s) (hsu : Only (· ∉ roveKinds) s u) : Roves a u :=
  Forth.keep h hsu fun _ _ he honward hJ => hJ.add he honward

theorem check_paces (a : Session) : Spec (Roves a) (Spans.check agent a) (Ends (fun r => Roves r.2) Fares Fares) := by
  let Read (now : Nat) (a : Session) (s : World σ) : Prop := Forth (fun t => Roving a.lastLog t ∧ reading t = now) s.trace
  refine Spec.bind (R := fun now => Read now a) (spec_call fun s env now hs => ?_) fun now => ?_
  · exact Forth.cons hs fun honward hJ => ⟨hJ.add (by simp [Event.kind, roveKinds, endKinds]) honward, rfl⟩
  refine Spec.bind (R := Read now) ?_ fun a' => Spec.bind (R := Roves) ?_ fun a'' => Spec.ret fun s hs => hs
  · have hroams : Roams (Only (σ := σ) fun k => k ∉ roveKinds ∧ k ≠ .clock) _ := only_roams _
    have hkept : Keeps (Only fun k => k ∉ roveKinds ∧ k ≠ .clock) (heartbeat agent now a) :=
      hroams.heartbeat (fun _ _ => .nothing rfl) (by decide) now a
    have hread : Spec (Read now a) (heartbeat agent now a) (Ends (fun _ => Read now a) (Read now a) (Read now a)) := by
      refine Spec.of_keeps hkept fun s u hs hsu => Forth.keep hs hsu fun e t he honward hJ => ⟨hJ.1.add he.1 honward, ?_⟩
      rw [reading_cons (fun heq => he.1 (by simp [heq, roveKinds, endKinds]))
        (fun heq => he.1 (by simp [heq, roveKinds, endKinds])) he.2]
      exact hJ.2
    refine (hread.returns (Spans.heartbeat_returns now a)).mono ?_ (fun s hs => ?_) fun s hs => ?_
    · rintro _ s ⟨hs, lastHeartbeat, rfl⟩
      exact hs
    · exact Forth.imp hs fun hJ => hJ.1.1.fine
    · exact Forth.imp hs fun hJ => hJ.1.1.fine
  · refine Spec.bind (R := fun lastLog (s : World σ) => Forth (Roving lastLog) s.trace) ?_ fun lastLog =>
      Spec.ret fun s hs => hs
    refine sendLogs_rule ?_ ?_
    · intro s t es hs hes _ htrace
      rw [htrace]
      exact fun honward => (hs (honward.suffix (List.suffix_append es _))).1.append hes
    · intro s t es m r hs hes htaken hm hdue _ htrace
      simp only [Fares, htrace]
      refine ⟨?_, ?_⟩
      · rintro rfl honward
        exact (hs honward.before).1.log hes hm (hs honward.before).2 hdue htaken
      · rintro err rfl honward
        exact (hs honward.before).1.lose hes hm err

variable [Sha256]

theorem update_paces (a : Session) (update : UpdatePayload) : Spec (Roves a) (perform agent a (.applyUpdate update))
    (Ends (Turn.Post Roves fun _ => Fares) Fares Fares) := by
  have hfetch : Spec (Roves a) (agent.fetch update) (Ends (fun _ => Hauls a.lastLog) Fares Fares) := by
    refine (paces_pumps a.lastLog).fetch (A := Hauls a.lastLog) (B := Hauls a.lastLog) (fun s uuid hs => hs)
      (fun s hs => hs) ?_ ?_ ?_ update
    · exact spec_tryCall (fun s env u hs => Forth.cons hs fun honward hJ => hJ.start _ honward) fun s env e hs =>
        Forth.cons hs fun honward hJ => hJ.start _ honward
    · exact spec_tryCall (fun s env u hs => hs.add env (by simp [Event.kind, haulKinds, endKinds])) fun s env e hs =>
        hs.add env (by simp [Event.kind, haulKinds, endKinds])
    · refine spec_call fun s env now hs => Forth.cons hs fun honward hJ =>
        ⟨hJ.add (by simp [Event.kind, haulKinds, endKinds]) honward, fun before hb => ?_⟩
      exact (hJ.1.past before hb).trans (honward now rfl)
  refine (only_admits (· ∉ roveKinds)).update_rule (by decide) (F := Hauls a.lastLog) (G := Roves a) (E := Fares)
    (fun s t hs hst => ?_) (fun s hs => hs.fares) (fun s hs => hs) hfetch (fun extra => ?_) ?_
  · refine Forth.keep hs hst fun e t he _ hJ => throughout_cons.mpr ⟨Or.inl (paced_other fun heq => he ?_), hJ⟩
    simp [heq, roveKinds]
  · refine (sendStatus_sends "failed" extra).spec ?_ ?_
    · intro s m t hs hm _ hsent
      rw [Roves, hsent]
      exact Forth.cons hs fun _ hJ => hJ.over hm _
    · intro s m e t hs hm _ hsent
      rw [Fares, hsent]
      exact Forth.cons hs fun _ hJ => (hJ.over hm _).1.fine
  · exact spec_call fun s env now hs => hs.add env (by simp [Event.kind, roveKinds, endKinds])

omit [Serde] [Sha256] in
theorem fine_opened {m : Envelope} {pending detected : Bool} (hm : m.kind = .deviceJoin) (r : Except Error Unit) :
    Fine [.sent m r, .autoRevert detected, .pendingVerify pending] := by
  have hother : ∀ {e : Event} {t : List Event}, e.kind ≠ .logging → Fine t → Fine (e :: t) := fun hlog h =>
    throughout_cons.mpr ⟨Or.inl (paced_other hlog), h⟩
  exact hother (by simp [Event.kind, hm]) (hother (by simp [Event.kind]) (hother (by simp [Event.kind]) throughout_nil))

omit [Serde] [Sha256] in
theorem roving_opened {m : Envelope} {pending detected : Bool} (hm : m.kind = .deviceJoin) :
    Roving last [.sent m (.ok ()), .autoRevert detected, .pendingVerify pending] := by
  have hnone : beforeLog [.sent m (.ok ()), .autoRevert detected, .pendingVerify pending] = none := by simp [beforeLog, hm]
  refine ⟨⟨fine_opened hm _, fun before hb => ?_, fun before hb => ?_⟩, by simp [downloading]⟩
  · cases hnone.symm.trans hb
  · cases hnone.symm.trans hb

theorem session_paces (agent : Agent σ) (window : Option SessionWindow) (control : Option (σ → Control × σ)) :
    Spec (fun s => s.trace = []) (sessionWithin agent window control) (Ends (fun _ => Fares) Fares Fares) := by
  have hroams : Roams (Only (σ := σ) (· ∉ roveKinds)) (· ∉ roveKinds) := only_roams _
  have hkeep : ∀ (a : Session) (s u : World σ), Roves a s → Only (· ∉ roveKinds) s u → Roves a u :=
    fun _ _ _ hs hsu => hs.keep hsu
  refine Spans.session_rule (I := fun _ => Roves) (M := fun _ _ => Roves) (fun _ _ _ _ hs => hs)
    (fun _ _ s hs => hs.fares) ?_ (fun started a => ?_) (fun started now a => ?_) fun started now a => ?_
  · have hadd : ∀ {a : Session} {t : List Event} {now : Nat}, Forth (Roving a.lastLog) t →
      Forth (Roving a.lastLog) (.clock now :: t) :=
      fun h => h.cons fun honward hJ => hJ.add (by simp [Event.kind, roveKinds, endKinds]) honward
    refine (openSession_opens (C := Fares) []).mono ?_ ?_ fun _ hs => hs
    · rintro ⟨started, a⟩ s ⟨m, pending, detected, lastLog, lastHeartbeat, hm, rfl, -, htrace⟩
      rw [Roves, htrace]
      exact hadd (hadd (hadd fun _ => roving_opened hm))
    · rintro s ⟨m, e, pending, detected, hm, htrace⟩
      rw [Fares, htrace]
      exact fun _ => fine_opened hm _
  · refine hroams.attend_rule (I := Roves) (J := fun r => Roves r.2) (by decide)
      (hroams.joinConsole (by decide) fun s ref => .nothing rfl)
      hkeep (fun _ _ hs => hs.fares) (fun _ _ _ _ _ hs => hs) ?_ check_paces a
    exact hroams.confirm_rule (by decide) hkeep (fun _ _ hs => hs.fares) fun _ _ _ _ hs => hs
  · exact hroams.mid_rule (Q := fun _ => Fares) ((only_admits _).overhear (fun _ _ => .nothing rfl) (by decide)) (by decide)
      (hkeep a) (fun _ hs => hs.fares) (fun _ hs => hs.fares) window control started now a
  · refine hroams.listen_rule (I := Roves) (fun _ _ => .nothing rfl) (by decide) hkeep (fun _ _ hs => hs.fares)
      (fun _ _ _ _ hs => hs.fares) (fun _ _ _ hs => hs) update_paces a fun s env r hs => hs.add env ?_
    simp [Event.kind, roveKinds, endKinds]

/-- Log messages keep their intervals by a clock that does not go back, if the loop takes nothing from the log buffer while
    the interval since the last message of a download is not over. -/
theorem logs_paced (agent : Agent σ) (window : Option SessionWindow) (control : Option (σ → Control × σ)) (env : σ)
    (own : Device)
    (gas : Nat) (honward : Throughout Onward (sessionWithin agent window control ⟨env, own, [], gas⟩).2.trace)
    (hcalm : Throughout (fun e older => hurries e older = false)
      (sessionWithin agent window control ⟨env, own, [], gas⟩).2.trace) :
    Throughout (fun e older => paced e older = true) (sessionWithin agent window control ⟨env, own, [], gas⟩).2.trace := by
  have hfine : Fine (sessionWithin agent window control ⟨env, own, [], gas⟩).2.trace :=
    (session_paces agent window control).state (s := ⟨env, own, [], gas⟩) rfl honward
  obtain ⟨k, hreads, -⟩ := session_tells agent window control env own gas
  have hinterval : Throughout (fun e older => ∀ m r, e = .sent m r → m.kind = .logging →
    m.payload.interval = logInterval older)
      (sessionWithin agent window control ⟨env, own, [], gas⟩).2.trace := by
    refine hreads.throughout throughout_nil fun hr hs m r he hm => ?_
    subst he
    rcases hs.frame (declares_of_reads hr) hm with ⟨⟨lines, hp⟩, hversion⟩ | ⟨⟨line, hp⟩, hversion⟩
    · rw [hp, logInterval, if_pos hversion, Payload.interval]
    · rw [hp, logInterval, if_neg hversion, Payload.interval]
  intro e older he
  rcases hfine e older he with hpaced | hrushed
  · exact hpaced
  · exact hrushed.paced (hcalm.suffix ((List.suffix_cons e older).trans he)) (hinterval e older he)

end

/-! ### A download that fails -/

section
attribute [local instance] sha256OfByte

@[reducible] def paceSerde : Serde := benchSerde [joinReply, lateInvitation, loggingAttached, updatePush]

attribute [local instance] paceSerde

/-- Every reading takes a tenth of a second, and every chunk of the image a second; then the file server takes `wait` to
    hang up. -/
def hangingPlatform (wait : Nat) : Platform Bench :=
  { Bench.platform with
    nowMs := fun b => (b.clock, { b with clock := b.clock + 100 })
    stream := { Bench.platform.stream with
      read := fun b =>
        match b.chunks with
        | [] => (.error Bench.closed, { b with clock := b.clock + wait })
        | chunk :: rest => (.ok chunk, { b with chunks := rest, clock := b.clock + 1000 }) } }

def hangingAgent (wait : Nat) : Agent Bench := { benchAgent loggingOnly with platform := hangingPlatform wait }

/-- A server that attaches logging, and tasks that log a line whenever the log buffer is drained. -/
def chatty (rest : List (Option Frame)) : Bench :=
  ⟨[joinReply, lateInvitation, loggingAttached].map (fun m => some (.text m.text)) ++ rest, 40, patchScript, 0, false,
    [[.push (.new "info" "one")], [], [.push (.new "info" "two")], [], [.push (.new "info" "three")]]⟩

def emptyLog : Device := benchDevice loggingOnly (some ⟨⟨[], 0⟩, 10, 4096, 0, Level.info.toNat⟩)

/-- A server that sends an update. -/
def chattyUpdate : Bench := chatty [some (.text updatePush.text), none]

/-- A line goes out in the download, which fails when the file server hangs up a second later; then the next goes out in the
    loop. -/
theorem logs_paced_failed :
    let t := (sessionWithin (hangingAgent 1000) none none ⟨chattyUpdate, emptyLog, [], 20⟩).2.trace
    ¬Throughout (fun e older => e.kind = .logging → downloading older = false) t ∧
      t.countP (fun e => e.kind == .logging) = 3 ∧
      Throughout (fun e older => paced e older = true) t :=
  ⟨by decide +kernel, by decide +kernel,
    logs_paced (hangingAgent 1000) none none chattyUpdate emptyLog 20 (by decide +kernel) (by decide +kernel)⟩

/-- Where the file server hangs up at once, the loop sends the next line at once. -/
theorem logs_hurried :
    let t := (sessionWithin (hangingAgent 0) none none ⟨chattyUpdate, emptyLog, [], 20⟩).2.trace
    Throughout Onward t ∧ ¬Throughout (fun e older => paced e older = true) t := by decide +kernel

end

end NervesHub
