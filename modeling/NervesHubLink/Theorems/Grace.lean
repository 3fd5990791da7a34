import NervesHubLink.Theorems.Beats
import NervesHubLink.Theorems.Failures

/-! The grace that a reply to a heartbeat is given. The loop takes a reply for missing once the interval is over, whether or
not it has come: behind other frames it waits to be read for as long as the application takes with what these ask for. -/

namespace NervesHub
open Act Prog Trace Talk

/-! ### The reply to a heartbeat -/

/-- The message is the reply to the heartbeat sent as `ref`. -/
def Message.answersBeat (m : Message) (ref : Option String) : Bool :=
  m.topic == controlTopic && (m.event == event.reply && m.reference.isSome && m.reference == ref)

def Event.isCallback : Event → Bool
  | .decided _ _ | .progressed _ _ | .located _ | .healthRead _ | .identified | .ran _ _ | .controlled _ => true
  | _ => false

def Event.isDownload : Event → Bool
  | .httpStarted _ | .updateBegun _ | .image _ | .slept _ _ => true
  | _ => false

/-- Heartbeats come right after a reading. -/
def BeatsRead (e : Event) (older : List Event) : Prop := e.kind = .heartbeat → ∃ now before, older = .clock now :: before

/-- The world outside a session, by what the session has done so far: its clock, and what can be received. -/
structure Outside where
  clock : List Event → Nat
  queue : List Event → List Frame

section
variable [Serde]

/-- The heartbeat that waits for its reply. -/
def awaiting : List Event → Option String
  | [] => none
  | .connected _ :: _ => none
  | .sent m _ :: older => if m.kind = .heartbeat then m.reference else awaiting older
  | .received r :: older => if (heard r).any (·.answersBeat (awaiting older)) then none else awaiting older
  | _ :: older => awaiting older

namespace Outside

/-- Frames are received in the order in which they came, a heartbeat's reply comes as soon as the heartbeat is sent, and
    time passes only in receptions from an empty queue, in callbacks and in downloads. No error of the platform is `err`. -/
structure Lawful (o : Outside) (err : Error) (e : Event) (older : List Event) : Prop where
  reads : ∀ now ∈ e.now, now = o.clock older
  onward : o.clock older ≤ o.clock (e :: older)
  still : e.isCallback = false → e.isDownload = false → e.kind ≠ .received → o.clock (e :: older) = o.clock older
  waits : ∀ r, e = .received r → o.queue older = [] → o.clock (e :: older) ≤ o.clock older + 500
  fifo : ∀ r frame rest, e = .received r → o.queue older = frame :: rest → r = .ok (some frame) ∧
    o.clock (e :: older) = o.clock older ∧ rest <+: o.queue (e :: older)
  queues : e.kind ≠ .received → o.queue older <+: o.queue (e :: older)
  replies : ∀ m r, e = .sent m r → m.kind = .heartbeat → r = .ok () ∧
    ∃ frame ∈ o.queue (e :: older), (heard (.ok (some frame))).any (·.answersBeat m.reference) = true
  errors : ∀ failure ∈ e.failure, failure ≠ err

/-- What callbacks and downloads have taken of the interval that the loop counts. -/
def busy (o : Outside) : List Event → Nat
  | [] => 0
  | e :: older =>
    if (loopMark e older).isSome then 0
    else o.busy older + if e.isCallback || e.isDownload then o.clock (e :: older) - o.clock older else 0

/-- At a reading of the loop's, they have taken the whole of it, and the reply to a heartbeat has not been read. -/
def hogs (o : Outside) (interval : Nat) (e : Event) (older : List Event) : Bool :=
  e.kind == .clock && !downloading older && !updateOver older && (awaiting older).isSome && decide (interval ≤ o.busy older)

end Outside

/-! ### What a record shows of it -/

variable {e : Event} {t : List Event} {o : Outside} {err : Error} {interval last : Nat}

def beatKinds : List Kind := [.connected, .heartbeat, .received]

omit [Serde] in
theorem Envelope.kind_not_mem (m : Envelope) (hm : m.kind ≠ .heartbeat) : m.kind ∉ beatKinds := by
  have hframe : m.kind ≠ .connected ∧ m.kind ≠ .received := by
    unfold Envelope.kind extensionKind deviceKind
    repeat' split
    all_goals decide
  simp [beatKinds, hm, hframe]

theorem awaiting_cons (he : e.kind ∉ beatKinds) : awaiting (e :: t) = awaiting t := by
  cases e
  case connected r => exact absurd (by simp [Event.kind, beatKinds]) he
  case received r => exact absurd (by simp [Event.kind, beatKinds]) he
  case sent m r => exact if_neg fun heq => he (by simp [Event.kind, beatKinds, heq])
  all_goals rfl

/-- The reply that is awaited can be received, and nothing but callbacks and downloads has taken time since the interval
    began. -/
def Waiting (o : Outside) (t : List Event) : Prop := ∀ ref, awaiting t = some ref →
  (∃ frame ∈ o.queue t, (heard (.ok (some frame))).any (·.answersBeat (some ref)) = true) ∧
    ∃ base, marked loopMark t = some base ∧ o.clock t = base + o.busy t

omit [Serde] in
theorem loopMark_now (hbeat : e.kind ≠ .heartbeat) {base : Nat} (h : loopMark e t = some base) : e.now = some base := by
  have hother : openMark e t = some base ∨ endMark e t = some base := by
    rw [loopMark, lastMark, beatMark_none hbeat, Option.none_or, Option.or_eq_some_iff] at h
    exact h.imp_right And.right
  cases e
  case clock now =>
    rcases hother with h | h
    · simp only [openMark, Option.ite_none_right_eq_some] at h
      exact h.2
    · simp only [endMark, Option.ite_none_right_eq_some] at h
      exact h.2
  all_goals rcases hother with h | h <;> cases h

theorem Waiting.add (h : Waiting o t) (hlaw : o.Lawful err e t) (he : e.kind ∉ beatKinds) : Waiting o (e :: t) := by
  have hconn : e.kind ≠ .connected := Kind.ne_of_not_mem he (by decide)
  have hbeat : e.kind ≠ .heartbeat := Kind.ne_of_not_mem he (by decide)
  have hreceived : e.kind ≠ .received := Kind.ne_of_not_mem he (by decide)
  intro ref href
  rw [awaiting_cons he] at href
  obtain ⟨⟨frame, hframe, hanswers⟩, base, hbase, hclock⟩ := h ref href
  refine ⟨⟨frame, (hlaw.queues hreceived).subset hframe, hanswers⟩, ?_⟩
  cases hmark : loopMark e t with
  | some now =>
    have hread : now = o.clock t := hlaw.reads now (loopMark_now hbeat hmark)
    have hstill : o.clock (e :: t) = o.clock t := by
      have hnow := loopMark_now hbeat hmark
      refine hlaw.still ?_ ?_ hreceived
      all_goals cases e <;> first | rfl | cases hnow
    exact ⟨now, marked_mark hconn hmark, by simp [Outside.busy, hmark, hstill, hread]⟩
  | none =>
    refine ⟨base, (marked_cons hconn hmark).trans hbase, ?_⟩
    simp only [Outside.busy, hmark, Option.isSome_none, Bool.false_eq_true, if_false]
    split
    · have honward := hlaw.onward
      omega
    · rename_i hidle
      simp only [Bool.or_eq_true, not_or, Bool.not_eq_true] at hidle
      rw [hlaw.still hidle.1 hidle.2 hreceived]
      omega

theorem Waiting.beat {m : Envelope} {r : Except Error Unit} (hlaw : o.Lawful err (.sent m r) t)
    (hthen : Throughout (o.Lawful err) t)
    (hm : m.kind = .heartbeat) (hread : BeatsRead (.sent m r) t) : Waiting o (.sent m r :: t) := by
  intro ref href
  obtain ⟨-, frame, hframe, hanswers⟩ := hlaw.replies m r rfl hm
  have href : m.reference = some ref := (if_pos hm).symm.trans href
  rw [href] at hanswers
  refine ⟨⟨frame, hframe, hanswers⟩, ?_⟩
  obtain ⟨now, before, rfl⟩ := hread hm
  have hmark : loopMark (.sent m r) (.clock now :: before) =
    some now := by simp [loopMark, lastMark, beatMark, Event.kind, hm, readings]
  have hclock : o.clock (.sent m r :: .clock now :: before) = now := by
    have hlaw' := (throughout_cons.mp hthen).1
    rw [hlaw.still rfl rfl (by simp [Event.kind, hm]), hlaw'.still rfl rfl (by simp [Event.kind])]
    exact (hlaw'.reads now rfl).symm
  exact ⟨now, marked_mark (by simp [Event.kind, hm]) hmark, by simp [Outside.busy, hmark, hclock]⟩

/-- What is received comes from the front of the queue, and in no time as long as a reply is in it. -/
theorem Waiting.receive {r : Except Error (Option Frame)} (h : Waiting o t) (hlaw : o.Lawful err (.received r) t) :
    Waiting o (.received r :: t) := by
  intro ref href
  have hnone : ¬(heard r).any (·.answersBeat (awaiting t)) = true := fun hanswers => by
    have hread : awaiting (.received r :: t) = none := if_pos hanswers
    rw [hread] at href
    cases href
  have hsame : awaiting (.received r :: t) = awaiting t := if_neg hnone
  rw [hsame] at href
  obtain ⟨⟨frame, hframe, hanswers⟩, base, hbase, hclock⟩ := h ref href
  cases hqueue : o.queue t with
  | nil =>
    rw [hqueue] at hframe
    cases hframe
  | cons front rest =>
    obtain ⟨rfl, hstill, hrest⟩ := hlaw.fifo r front rest rfl hqueue
    rw [hqueue] at hframe
    refine ⟨⟨frame, hrest.subset ?_, hanswers⟩, base, hbase, ?_⟩
    · rcases List.mem_cons.mp hframe with rfl | hmem
      · rw [href] at hnone
        exact absurd hanswers hnone
      · exact hmem
    · rw [hstill, hclock]
      rfl

/-- The reply waits as long as it is awaited. -/
theorem waiting_of_lawful (hlaw : Throughout (o.Lawful err) t) (hread : Throughout BeatsRead t) : Waiting o t := by
  induction t with
  | nil => exact fun ref href => by cases href
  | cons e t ih =>
    rw [throughout_cons] at hlaw hread
    obtain ⟨hlaw, hthen⟩ := hlaw
    obtain ⟨hread, hreads⟩ := hread
    replace ih := ih hthen hreads
    cases e
    case connected r => exact fun ref href => by cases href
    case received r => exact ih.receive hlaw
    case sent m r =>
      by_cases hm : m.kind = .heartbeat
      · exact .beat hlaw hthen hm hread
      · exact ih.add hlaw (m.kind_not_mem hm)
    case image ie => cases ie <;> exact ih.add hlaw (by simp [Event.kind, beatKinds])
    all_goals exact ih.add hlaw (by simp [Event.kind, beatKinds])

end

/-! ### What the link knows of it -/

section
variable {σ : Type} {agent : Agent σ} {p : Kind → Prop}

/-- What is new in the record is of the kinds `p`, and the link waits for the reply that it waited for. -/
def SameBeat (p : Kind → Prop) (s u : World σ) : Prop := Only p s u ∧ u.own.link.heartbeatRef = s.own.link.heartbeatRef

theorem SameBeat.nothing {s u : World σ} (h : u.trace = s.trace)
    (href : u.own.link.heartbeatRef = s.own.link.heartbeatRef) :
    SameBeat p s u := ⟨.nothing h, href⟩

theorem sameBeat_roams (p : Kind → Prop) : Roams (SameBeat (σ := σ) p) p where
  toAdmits := only_admits_keeping p (fun d => d.link.heartbeatRef) (fun _ _ _ => rfl) fun _ _ _ => rfl
  level _ _ := .nothing rfl rfl
  flag _ _ := .nothing rfl rfl
  relink _ _ _ _ _ := .nothing rfl rfl

variable [Serde]

/-- Heartbeats have come right after readings. -/
def Spoken (s : World σ) : Prop := Throughout BeatsRead s.trace

/-- And the link waits for the reply that the record says it waits for. -/
def Tuned (s : World σ) : Prop := s.own.link.heartbeatRef = awaiting s.trace ∧ Spoken s

omit [Serde] in
theorem beatsRead_other {e : Event} {t : List Event} (he : e.kind ∉ beatKinds) : BeatsRead e t := fun hbeat =>
  absurd hbeat (Kind.ne_of_not_mem he (by decide))

omit [Serde] in
theorem Spoken.keep {s u : World σ} (h : Spoken s) (hsu : Only p s u) (hp : ∀ k, p k → k ∉ beatKinds) : Spoken u :=
  hsu.holds (J := Throughout BeatsRead) (fun _ _ he ht => throughout_cons.mpr ⟨beatsRead_other (hp _ he), ht⟩) h

theorem Tuned.add {s : World σ} (h : Tuned s) (env : σ) {e : Event} (he : e.kind ∉ beatKinds) :
    Tuned { s with env := env, trace := e :: s.trace } :=
  ⟨h.1.trans (awaiting_cons he).symm, throughout_cons.mpr ⟨beatsRead_other he, h.2⟩⟩

theorem Tuned.keep {s u : World σ} (h : Tuned s) (hsu : SameBeat p s u) (hp : ∀ k, p k → k ∉ beatKinds) : Tuned u := by
  let J (t : List Event) : Prop := u.own.link.heartbeatRef = awaiting t ∧ Throughout BeatsRead t
  refine hsu.1.holds (J := J) (fun e t he hJ => ?_) ⟨hsu.2.trans h.1, h.2⟩
  exact ⟨hJ.1.trans (awaiting_cons (hp _ he)).symm, throughout_cons.mpr ⟨beatsRead_other (hp _ he), hJ.2⟩⟩

theorem Tuned.beat {now : Nat} : Spec (fun s : World σ => Tuned s ∧ ∃ older, s.trace = .clock now :: older)
    (Link.sendHeartbeat agent)
    (Ends (fun _ => Tuned) Tuned Spoken) := by
  have hsent : ∀ (s t : World σ) m r, (Tuned s ∧ ∃ older, s.trace = .clock now :: older) → m.kind = .heartbeat →
      t.own.link.heartbeatRef = m.reference → t.trace = .sent m r :: s.trace → Tuned t := by
    rintro s t m r ⟨hs, older, htrace⟩ hm href hsent
    refine ⟨?_, ?_⟩
    · rw [href, hsent]
      exact (if_pos hm).symm
    · rw [Spoken, hsent]
      exact throughout_cons.mpr ⟨fun _ => ⟨now, older, htrace⟩, hs.2⟩
  exact sendHeartbeat_sends.spec (fun s m t hs hm hown htrace => hsent s t m _ hs hm hown.2 htrace)
    fun s m e t hs hm hown htrace => hsent s t m _ hs hm hown.2 htrace

theorem tick_tuned : Spec Tuned (Pump.tick agent) (Ends (fun _ => Tuned) Tuned Spoken) := by
  let Read (now : Nat) (s : World σ) : Prop := Tuned s ∧ ∃ older, s.trace = .clock now :: older
  refine Spec.bind (R := Read) (spec_call fun s env now hs =>
    ⟨hs.add env (by simp [Event.kind, beatKinds]), s.trace, rfl⟩) fun now => ?_
  refine spec_own fun d => Spec.bind (R := fun _ => Tuned) (Spec.when (fun _ => ?_) fun _ s hs => hs.1.1) fun _ =>
    spec_own fun d' => ?_
  · refine Spec.bind (R := fun _ => Tuned) (Tuned.beat.pre fun s hs => hs.1) fun _ s hs => hs
  · have hlogs : Keeps (SameBeat (· ∉ beatKinds)) (sendLogs agent now d'.pump.lastLog) :=
      (sameBeat_roams _).sendLogs (fun _ _ => .nothing rfl rfl) (by decide) now _
    have hkept : Spec Tuned (sendLogs agent now d'.pump.lastLog) (Ends (fun _ => Tuned) Tuned Spoken) :=
      (Spec.of_keeps hlogs fun s u hs hsu => hs.keep hsu fun _ h => h).mono (fun _ _ hs => hs)
        (fun _ hs => hs) fun _ hs => hs.2
    exact Spec.bind (hkept.pre fun s hs => hs.1) fun _ s hs => hs

theorem tuned_pumps : Pumps agent Tuned Tuned Tuned Tuned Tuned Spoken where
  gas s g hs := hs
  gasTick s g hs := hs
  opens url := by
    simp only [imageStream, HttpCalls.recorded_openUrl]
    exact spec_tryCall (fun s env size hs => hs.add env (by simp [Event.kind, beatKinds])) fun s env e hs =>
      hs.add env (by simp [Event.kind, beatKinds])
  waits := spec_call fun s env now hs => hs.add env (by simp [Event.kind, beatKinds])
  tick := tick_tuned
  clock := spec_call fun s env now hs => hs.add env (by simp [Event.kind, beatKinds])
  sleeps d := spec_call fun s env _ hs => hs.add env (by simp [Event.kind, beatKinds])
  reads := by
    simp only [imageStream, HttpCalls.recorded_read]
    exact spec_tryCall (fun s env chunk hs => hs.add env (by simp [Event.kind, beatKinds])) fun s env e hs =>
      hs.add env (by simp [Event.kind, beatKinds])
  writes chunk := by
    simp only [imageSink, SinkCalls.recorded_write]
    exact spec_tryCall (fun s env u hs => hs.add env (by simp [Event.kind, beatKinds])) fun s env e hs =>
      hs.add env (by simp [Event.kind, beatKinds])
  reports percent := by
    have hkept : Keeps (SameBeat (· ∉ beatKinds)) (Pump.report agent .downloading percent) :=
      (sameBeat_roams _).report (by decide) .downloading percent
    exact (Spec.of_keeps hkept fun s u hs hsu => hs.keep hsu fun _ h => h).mono (fun _ _ hs => hs)
      (fun _ hs => hs) fun _ hs => hs.2
  commits := by
    simp only [imageSink, SinkCalls.recorded_commit]
    exact spec_tryCall (fun s env u hs => hs.add env (by simp [Event.kind, beatKinds])) fun s env e hs =>
      hs.add env (by simp [Event.kind, beatKinds])
  aborts s hs := hs.add _ (by simp [Event.kind, beatKinds])
  idle s hs := hs
  fails s hs := hs
  refused s hs := hs
  cuts _ hs := hs.2
  cutsTick _ hs := hs.2

/-! ### A frame -/

/-- A frame was received, and the link has not seen it. -/
def Unheard (frame : Frame) (s : World σ) : Prop :=
  (∃ older, s.trace = .received (.ok (some frame)) :: older ∧ s.own.link.heartbeatRef = awaiting older) ∧
    Throughout BeatsRead s.trace

theorem Unheard.tuned {frame : Frame} {s : World σ} (h : Unheard frame s)
    (hother : ∀ ref, (heard (.ok (some frame))).any (·.answersBeat ref) = false) : Tuned s := by
  obtain ⟨⟨older, htrace, href⟩, hread⟩ := h
  refine ⟨?_, hread⟩
  rw [href, htrace]
  exact (if_neg (by rw [hother]; exact Bool.false_ne_true)).symm

theorem handle_tuned (frame : Frame) : Spec (Unheard frame) (Link.handle agent frame)
    (Ends (fun _ => Tuned) Tuned Spoken) := by
  unfold Link.handle
  cases hdecode : Message.decodeFrame frame with
  | error text => exact Spec.fail fun s hs => hs.tuned fun ref => by simp [heard, hdecode, Except.toOption]
  | ok m =>
    by_cases hcontrol : m.topic = controlTopic
    · have hhandle : Link.handleMessage agent m = Link.handleControlFrame m := by
        unfold Link.handleMessage
        rw [if_neg (by rw [hcontrol]; decide), if_neg (by rw [hcontrol]; decide), if_pos hcontrol]
      rintro s ⟨⟨older, htrace, href⟩, hread⟩
      show Ends _ _ _ (Link.handleMessage agent m s).1 (Link.handleMessage agent m s).2
      rw [hhandle]
      have hheard : heard (.ok (some frame)) = some m := by simp [heard, hdecode, Except.toOption]
      have hawaiting : awaiting s.trace = if m.answersBeat (awaiting older) then none else awaiting older := by
        rw [htrace, awaiting, hheard]
        rfl
      refine ⟨?_, hread⟩
      show (if (m.event = event.reply && m.reference.isSome && m.reference = s.own.link.heartbeatRef) = true then
        { s.own.link with heartbeatRef := none } else s.own.link).heartbeatRef = awaiting s.trace
      rw [hawaiting, ← href]
      by_cases hreply : (m.event = event.reply && m.reference.isSome && m.reference = s.own.link.heartbeatRef) = true
      · rw [if_pos hreply, if_pos]
        simpa [Message.answersBeat, hcontrol] using hreply
      · rw [if_neg hreply, if_neg]
        simpa [Message.answersBeat, hcontrol] using hreply
    · have hkept : Keeps (SameBeat (· ∉ beatKinds)) (Link.handleMessage agent m) :=
        (sameBeat_roams _).handleMessage (fun h => absurd h hcontrol) fun k hk => by
          have hall : ∀ k ∈ Roams.allMessageKinds, k ∉ beatKinds := by decide
          exact hall k (Roams.mem_allMessageKinds hk)
      have htuned : Spec Tuned (Link.handleMessage agent m) (Ends (fun _ => Tuned) Tuned Spoken) :=
        (Spec.of_keeps hkept fun s u hs hsu => hs.keep hsu fun _ h => h).mono (fun _ _ hs => hs)
          (fun _ hs => hs) fun _ hs => hs.2
      exact htuned.pre fun s hs => hs.tuned fun ref => by simp [heard, hdecode, Except.toOption,
        Message.answersBeat, hcontrol]

/-! ### A turn -/

theorem heartbeat_tuned (now : Nat) (a : Session) :
    Spec (fun s : World σ => Tuned s ∧ ∃ older, s.trace = .clock now :: older)
    (heartbeat agent now a) (Ends (fun _ => Tuned) Spoken Spoken) := by
  refine Spec.ite (fun _ => ?_) fun _ => Spec.ret fun s hs => hs.1
  refine Spec.bind (R := fun _ s => Tuned s ∧ ∃ older, s.trace = .clock now :: older) (fun s hs => hs) fun l => ?_
  refine Spec.ite (fun _ => Spec.fail fun _ hs => hs.1.2) fun _ => ?_
  exact Spec.bind (Tuned.beat.mono (fun _ _ hs => hs) (fun _ hs => hs.2) fun _ hs => hs) fun _ => Spec.ret fun s hs => hs

theorem check_tuned (a : Session) : Spec Tuned (Spans.check agent a) (Ends (fun _ => Tuned) Spoken Spoken) := by
  refine Spec.bind (R := fun now s => Tuned s ∧ ∃ older, s.trace = .clock now :: older) (spec_call fun s env now hs =>
    ?_) fun now => ?_
  · exact ⟨hs.add env (by simp [Event.kind, beatKinds]), s.trace, rfl⟩
  refine Spec.bind (heartbeat_tuned now a) fun a' => Spec.bind (R := fun _ => Tuned) ?_ fun a'' => Spec.ret fun s hs => hs
  have hlogs : Keeps (SameBeat (· ∉ beatKinds)) (pumpLogs agent now a') :=
    Keeps.bind (sameBeat_roams _).steps ((sameBeat_roams _).sendLogs (fun _ _ => .nothing rfl rfl)
        (by decide) now _) fun _ =>
      Keeps.pure (sameBeat_roams _).steps _
  exact (Spec.of_keeps hlogs fun s u hs hsu => hs.keep hsu fun _ h => h).mono (fun _ _ hs => hs)
    (fun _ hs => hs.2) fun _ hs => hs.2

/-- The loop goes on with `a`, and its link is in tune with the record. -/
def Heeding (agent : Agent σ) (a : Session) (s : World σ) : Prop := Rounding agent a s ∧ Tuned s

theorem Heeding.keep {a : Session} {s u : World σ} (h : Heeding agent a s) (hsu : SameBeat Kind.isRound s u) :
    Heeding agent a u := by
  have hround : ∀ k : Kind, k.isRound → k ∉ beatKinds := fun k hk hmem => by
    simp only [beatKinds, List.mem_cons, List.not_mem_nil, or_false] at hmem
    rcases hmem with rfl | rfl | rfl
    · exact hk.1 (by decide)
    · exact hk.1 (by decide)
    · exact hk.2.1 rfl
  exact ⟨h.1.keep hsu.1, h.2.keep hsu hround⟩

theorem prepare_heeds (a : Session) : Spec (Heeding agent a) (Spans.prepare agent a)
    (Ends (Heeding agent) Spoken Spoken) := by
  have hroams : Roams (SameBeat (σ := σ) Kind.isRound) Kind.isRound := sameBeat_roams _
  refine hroams.prepare_rule (by decide) (hroams.joinConsole (by decide) fun s ref => .nothing rfl rfl)
    (fun _ _ _ hs hsu => hs.keep hsu)
    (fun _ _ hs => hs.2.2) (fun _ _ _ _ _ hs => hs) ?_ a
  exact hroams.confirm_rule (by decide) (fun _ _ _ hs hsu => hs.keep hsu) (fun _ _ hs => hs.2.2) fun _ _ _ _ hs => hs

/-- A check has been made. -/
def Heeded (agent : Agent σ) (a : Session) (s : World σ) : Prop := Minded agent a s ∧ Tuned s

theorem check_heeds (a : Session) : Spec (Heeding agent a) (Spans.check agent a)
    (Ends (fun r => Heeded agent r.2) Spoken Spoken) :=
  ((check_beats a).both (check_tuned a)).mono (fun _ _ hs => hs) (fun _ hs => hs.2) fun _ hs => hs.2

variable [Sha256]

theorem update_tuned (a : Session) (update : UpdatePayload) : Spec Tuned (perform agent a (.applyUpdate update))
    (Ends (Turn.Post (fun _ => Tuned) fun _ => Spoken) Spoken Spoken) := by
  have hfetch : Spec Tuned (agent.fetch update) (Ends (fun _ => Tuned) Spoken Spoken) := by
    refine tuned_pumps.fetch (A := Tuned) (B := Tuned) (fun s uuid hs => hs) (fun s hs => hs) ?_ ?_ ?_ update
    · exact spec_tryCall (fun s env u hs => hs.add env (by simp [Event.kind, beatKinds])) fun s env e hs =>
        hs.add env (by simp [Event.kind, beatKinds])
    · exact spec_tryCall (fun s env u hs => hs.add env (by simp [Event.kind, beatKinds])) fun s env e hs =>
        hs.add env (by simp [Event.kind, beatKinds])
    · exact spec_call fun s env now hs => hs.add env (by simp [Event.kind, beatKinds])
  refine (only_admits (· ∈ closingKinds)).update_rule (fun _ hk => hk) (F := Tuned) (G := Tuned) (E := Spoken)
    (fun _ _ hs hsu => hs.keep hsu (by decide)) (fun _ hs => hs.2) (fun _ hs => hs) hfetch (fun extra => ?_) ?_
  · have hkept : Keeps (SameBeat (· ∉ beatKinds)) (Link.sendStatus agent "failed" extra) :=
      (sameBeat_roams _).sendStatus (by decide) _ _
    exact (Spec.of_keeps hkept fun s u hs hsu => hs.keep hsu fun _ h => h).mono (fun _ _ hs => hs)
      (fun _ hs => hs.2) fun _ hs => hs.2
  · exact spec_call fun s env now hs => hs.add env (by simp [Event.kind, beatKinds])

theorem update_heeds (a : Session) (update : UpdatePayload) : Spec (Heeding agent a) (perform agent a (.applyUpdate update))
    (Ends (Turn.Post (Heeding agent) fun _ => Spoken) Spoken Spoken) := by
  refine ((update_beats a update).both (update_tuned a update)).mono (fun d s hs => ?_) (fun _ hs => hs.2) fun _ hs => hs.2
  cases d with
  | next a' => exact hs
  | done stopped => exact hs.2

theorem listen_heeds (a : Session) : Spec (Heeded agent a) (listen agent a)
    (Ends (Turn.Post (Heeding agent) fun _ => Spoken) Spoken Spoken) := by
  have hroams : Roams (SameBeat (σ := σ) Kind.isRound) Kind.isRound := sameBeat_roams _
  let Unread (r : Except Error (Option Frame)) (s : World σ) : Prop :=
    (∃ older, s.trace = .received r :: older ∧ s.own.link.heartbeatRef = awaiting older) ∧ Throughout BeatsRead s.trace
  refine hroams.hear_rule (J := fun r s => Rounding agent a s ∧ Unread r s) (by decide) (fun _ _ _ hs hsu => hs.keep hsu)
    (fun _ _ hs => hs.2.2) (fun _ _ _ _ hs => hs.2.2) (fun _ _ _ hs => hs) update_heeds a (fun s env r hs => ?_)
      (fun _ _ hs => hs.2.2)
    (fun s hs => ⟨hs.1, ?_⟩) fun frame => ?_
  · refine ⟨hs.1.1.add (by simp [Event.kind, loopKinds, clearKinds]) fun _ => hs.1.2, ⟨s.trace, rfl, hs.2.1⟩, ?_⟩
    exact throughout_cons.mpr ⟨fun hbeat => by simp [Event.kind] at hbeat, hs.2.2⟩
  · obtain ⟨-, ⟨older, htrace, href⟩, hread⟩ := hs
    refine ⟨?_, hread⟩
    rw [href, htrace]
    rfl
  · have hrounds : Keeps (Only (σ := σ) Kind.isRound) (Link.handle agent frame) := by
      unfold Link.handle
      cases Message.decodeFrame frame with
      | error text => exact Keeps.throw (only_admits _).steps _
      | ok m =>
        refine (only_roams _).handleMessage (fun _ _ _ => .nothing rfl) fun k hk => ?_
        have hall : ∀ k ∈ Roams.allMessageKinds, Kind.isRound k := by decide
        exact hall k (Roams.mem_allMessageKinds hk)
    have hshort : Returns Roams.Short (Link.handle agent frame) := by
      unfold Link.handle
      cases Message.decodeFrame frame with
      | error text => exact fun s a t hs => by cases hs
      | ok m => exact Roams.handleMessage_short m
    have hround : Spec (Rounding agent a) (attempt (Link.handle agent frame))
        (Post (fun _ => Rounding agent a) (Rounding agent a)) :=
      Spec.of_keeps hrounds.attempt fun s u hs hsu => hs.keep hsu
    refine ((hround.both ((handle_tuned frame).attempt (X := Tuned))).returns hshort.attempt).mono (fun r s hs => ?_)
      (fun _ hs => hs.2.2) fun _ hs => hs.2
    cases r with
    | ok action => exact hs
    | error err => exact hs

theorem turn_heeds (window : Option SessionWindow) (control : Option (σ → Control × σ)) (started : Nat) (a : Session) :
    Spec (Heeding agent a) (turn agent window control started a)
      (Ends (Turn.Post (Heeding agent) fun _ => Spoken) Spoken Spoken) := by
  refine Spans.turn_rule (M := fun _ => Heeded agent) ?_ (fun now a => ?_) fun now a => listen_heeds a
  · rw [Spans.attend_eq]
    exact Spec.bind (prepare_heeds a) check_heeds
  · have hroams : Roams (SameBeat (σ := σ) fun k => k.isSince ∧ k ∉ beatKinds) fun k => k.isSince ∧ k ∉ beatKinds :=
      sameBeat_roams _
    refine hroams.mid_rule (Q := fun _ => Spoken) (hroams.overhear (fun _ _ => .nothing rfl rfl) (by decide)) (by decide)
      (fun s u hs hsu => ?_) (fun _ hs => hs.2.2) (fun _ hs => hs.2.2) window control started now a
    refine ⟨hs.1.keep ?_, hs.2.keep hsu fun _ h => h.2⟩
    obtain ⟨⟨es, htrace, hkinds⟩, -⟩ := hsu
    exact ⟨es, htrace, fun e he => (hkinds e he).1⟩

/-- Where a session may begin: what came before it was in order. -/
def SessionStart (agent : Agent σ) (s : World σ) : Prop := SessionBegins s.trace ∧ Quits agent s ∧ Spoken s

omit [Sha256] in
theorem openSession_heeds : Spec (SessionStart agent) (openSession agent)
    (Ends (fun r => Heeding agent r.2) Spoken Spoken) := by
  rintro s ⟨hbegins, hquits, hspoken⟩
  have hother : ∀ {e : Event} {t : List Event}, e.kind ≠ .heartbeat → Throughout BeatsRead t →
      Throughout BeatsRead (e :: t) := fun h ht =>
    throughout_cons.mpr ⟨fun hbeat => absurd hbeat h, ht⟩
  have hjoin : ∀ m r pending detected, m.kind = .deviceJoin →
      Throughout BeatsRead (.sent m r :: .autoRevert detected :: .pendingVerify pending :: s.trace) :=
    fun m r pending detected hm =>
      hother (by simp [Event.kind, hm]) (hother (by simp [Event.kind]) (hother (by simp [Event.kind]) hspoken))
  refine (openSession_opens (C := Spoken) s.trace).mono ?_ ?_ (fun _ hs => hs) s rfl
  · rintro ⟨started, a⟩ t ⟨m, pending, detected, lastLog, lastHeartbeat, hm, rfl, href, htrace⟩
    refine ⟨?_, ?_, ?_⟩
    · rw [Rounding, htrace]
      exact looping_opened hquits hbegins hm
    · rw [href, htrace]
      rcases hbegins with hbegins | ⟨r, older, hbegins⟩ <;> simp [hbegins, awaiting, hm]
    · rw [Spoken, htrace]
      exact hother (by simp [Event.kind]) (hother (by simp [Event.kind])
        (hother (by simp [Event.kind]) (hjoin m _ pending detected hm)))
  · rintro t ⟨m, e, pending, detected, hm, htrace⟩
    rw [Spoken, htrace]
    exact hjoin m _ pending detected hm

/-- However a session ends, and wherever it is cut. -/
theorem session_spoken (window : Option SessionWindow) (control : Option (σ → Control × σ)) :
    Spec (SessionStart agent) (sessionWithin agent window control) (Post (fun _ => Spoken) Spoken) :=
  Spec.bind openSession_heeds fun r => loop_spec (I := Heeding agent) (fun _ _ _ hs => hs) (fun _ _ hs => hs.2.2)
    (turn_heeds window control r.1) r.2

/-! ### The error that is left -/

/-- The error is not that of a missing reply, as long as the world outside is as it should be and does not hog the
    device. -/
def Heard (o : Outside) (agent : Agent σ) (err : Error) (s : World σ) : Prop :=
  Throughout (o.Lawful agent.unanswered) s.trace →
    Throughout (fun e older => o.hogs agent.config.heartbeatMs e older = false) s.trace → err ≠ agent.unanswered

omit [Sha256] in
theorem heard_covers (o : Outside) (agent : Agent σ) : Covers (Heard o agent) := by
  rintro err s ⟨e, older, htrace, hfailure⟩ hlaw -
  rw [htrace] at hlaw
  exact (throughout_cons.mp hlaw).1.errors err hfailure

omit [Serde] [Sha256] in
theorem unjoined_ne (agent : Agent σ) : unjoined ≠ agent.unanswered := by
  intro h
  injection h with h
  have htext : "no join reply inside the session limit" = "no reply to a heartbeat in " ++
    toString (agent.config.heartbeatMs / 1000) ++ "s" := h
  have hletter := congrArg (fun text : String => text.toList[3]?) htext
  simp at hletter

omit [Sha256] in
/-- Where the link waits for a reply once the interval is over, the reply has come, and callbacks have taken all the
    interval. -/
theorem check_heard (o : Outside) (a : Session) : Spec (Heeding agent a) (Spans.check agent a) (Errs (Heard o agent)) := by
  have hcovers : Covers (Heard o agent) := heard_covers o agent
  let Read (now : Nat) (s : World σ) : Prop := ∃ older, s.trace = .clock now :: older ∧
    Looping agent.config.heartbeatMs a.lastHeartbeat older ∧ s.own.link.heartbeatRef = awaiting older ∧
      Throughout BeatsRead older
  refine Spec.bind_errs (R := Read) (X := fun _ => True) (C := fun _ => True)
    (spec_call fun s env now hs => ⟨s.trace, rfl, hs.1, hs.2.1, hs.2.2⟩)
      (Spec.of_raises (hcovers.careful .nowMs)) fun now => ?_
  refine Spec.bind_raises (Spec.ite (fun hdue => ?_) fun _ => Spec.ret_errs) fun a' =>
    Raises.bind (hcovers.careful (.pumpLogs _ _)) fun _ => Raises.pure _
  refine Spec.bind_errs (R := fun l s => Read now s ∧ s.own.link = l) (X := fun _ => True) (C := fun _ => True)
    (fun s hs => ⟨hs, rfl⟩)
    (Spec.of_raises (Raises.gets _)) fun l => ?_
  refine Spec.ite (fun hwaits => ?_) fun _ => Spec.of_raises (Raises.bind (hcovers.careful .sendHeartbeat) fun _ =>
    Raises.pure _)
  rintro s ⟨⟨older, htrace, hloop, href, hread⟩, rfl⟩ err herr hlaw hcalm
  change Throughout _ s.trace at hlaw
  change Throughout _ s.trace at hcalm
  rw [htrace] at hlaw hcalm
  exfalso
  obtain ⟨hlaw, hthen⟩ := throughout_cons.mp hlaw
  obtain ⟨ref, href'⟩ := Option.isSome_iff_exists.mp hwaits
  rw [href] at href'
  obtain ⟨-, base, hbase, hclock⟩ := waiting_of_lawful hthen hread ref href'
  rw [hloop.base] at hbase
  cases hbase
  have hnow : now = o.clock older := hlaw.reads now rfl
  have hhogs : o.hogs agent.config.heartbeatMs (.clock now) older = true := by
    have hbusy : agent.config.heartbeatMs ≤ o.busy older := by omega
    simp [Outside.hogs, Event.kind, hloop.idle, hloop.ready, href', hbusy]
  exact Bool.false_ne_true ((throughout_cons.mp hcalm).1.symm.trans hhogs)

/-- A session does not take the reply to a heartbeat for missing, if at no reading of its loop's the reply is unread and
    callbacks have taken a whole interval since the heartbeat was sent, or since the last download was over. -/
theorem reply_not_missed (agent : Agent σ) (window : Option SessionWindow) (control : Option (σ → Control × σ)) (env : σ)
    (own : Device) (gas : Nat) (o : Outside) (hlaw : Throughout (o.Lawful agent.unanswered)
      (sessionWithin agent window control ⟨env, own, [], gas⟩).2.trace)
    (hcalm : Throughout (fun e older => o.hogs agent.config.heartbeatMs e older = false)
      (sessionWithin agent window control ⟨env, own, [], gas⟩).2.trace) :
    (sessionWithin agent window control ⟨env, own, [], gas⟩).1 ≠ .err agent.unanswered := by
  have hopen : Spec (fun s : World σ => s.trace = []) (openSession agent)
      (Ends (fun r => Heeding agent r.2) Spoken Spoken) :=
    openSession_heeds.pre fun s hs => by
      rw [SessionStart, Quits, Spoken, hs]
      exact ⟨Or.inl rfl, square_nil, throughout_nil⟩
  have herrs : Spec (fun s : World σ => s.trace = []) (sessionWithin agent window control) (Errs (Heard o agent)) :=
    (heard_covers o agent).session (I := fun _ => Heeding agent) (fun s _ _ => unjoined_ne agent)
      (fun _ _ _ _ hs => hs) hopen
      (fun started a => turn_heeds window control started a) (fun _ a => prepare_heeds a) fun _ a => check_heard o a
  exact fun herr => herrs ⟨env, own, [], gas⟩ rfl agent.unanswered herr hlaw hcalm rfl

end

/-! ### A device that is slow to identify itself -/

section
attribute [local instance] sha256OfByte

def identifyPush : Script := ⟨"identify", ⟨none, none, deviceTopic, event.identify, .obj []⟩⟩

/-- The reply to the heartbeat, which is the third message of a session here. -/
def beatReply : Script := ⟨"heartbeat reply", ⟨none, some "3", controlTopic, event.reply, .obj [("status", .string "ok")]⟩⟩

@[reducible] def graceSerde : Serde := benchSerde [joinReply, identifyPush, beatReply]

attribute [local instance] graceSerde

/-- A server that answers the heartbeat at once, behind whatever is queued. -/
structure Mailbox where
  /-- How many messages have been sent: the heartbeat is the third. -/
  sends : Nat
  queue : List Frame
  clock : Nat
  /-- What comes in each time that the device has found nothing to receive. -/
  arrivals : List (List Frame)
  /-- How long the device takes to identify itself. -/
  blinking : Nat

namespace Mailbox

def answer (q : Mailbox) : Mailbox := { q with queue := q.queue ++ [.text beatReply.text] }

def send (_ : Frame) (q : Mailbox) : Except Error Unit × Mailbox :=
  (.ok (), { if q.sends = 2 then q.answer else q with sends := q.sends + 1 })

def recv (q : Mailbox) : Except Error (Option Frame) × Mailbox :=
  match q.queue with
  | [] => (.ok none, { q with clock := q.clock + 500, queue := q.arrivals.headD [], arrivals := q.arrivals.tail })
  | frame :: rest => (.ok (some frame), { q with queue := rest })

def blink (q : Mailbox) : Unit × Mailbox := ((), { q with clock := q.clock + q.blinking })

def platform : Platform Mailbox where
  connect q := (.ok (), q)
  send := send
  recvFrame := recv
  http q := (.ok (), q)
  beginUpdate q := (.ok (), q)
  pendingVerify q := (false, q)
  autoRevertDetected q := (false, q)
  markValid q := (.ok (), q)
  restart q := ((), q)
  sleep _ q := ((), q)
  nowMs q := (q.clock, q)
  stream := ⟨fun _ q => (.ok none, q), fun q => (.ok ⟨[], Nat.zero_le _⟩, q)⟩
  sink := ⟨fun _ q => (.ok (), q), fun q => (.ok (), q), id⟩

/-- An agent with a heartbeat every second. -/
def agent : Agent Mailbox where
  config := { benchConfig .none with heartbeatIntervalSecs := 1 }
  metadata := benchMetadata
  platform := platform
  handler := ⟨fun _ q => (.apply, q), fun _ _ q => ((), q)⟩
  location := none
  health := none
  identify := some blink
  console := none
  tasks q := ([], q)
  wallMicros q := (none, q)

/-- What the record leaves of it. -/
def after (q : Mailbox) : List Event → Mailbox
  | [] => q
  | .sent m _ :: older => if m.kind = .heartbeat then (q.after older).answer else q.after older
  | .received _ :: older => (q.after older).recv.2
  | .identified :: older => (q.after older).blink.2
  | _ :: older => q.after older

def outside (q : Mailbox) : Outside := ⟨fun t => (q.after t).clock, fun t => (q.after t).queue⟩

/-- The event is one that a session with it records. -/
def fits (q : Mailbox) : Event → List Event → Bool
  | .clock now, older => now == (q.after older).clock
  | .received r, older => decide (r = (q.after older).recv.1)
  | .sent m r, _ => decide (r = .ok ()) && (m.kind != .heartbeat || m.reference == some "3")
  | .markedValid r, _ => decide (r = .ok ())
  | _, _ => true

theorem after_sent (q : Mailbox) (m : Envelope) (r : Except Error Unit) (older : List Event) :
    (q.after older).queue <+: (q.after (.sent m r :: older)).queue ∧
      (q.after (.sent m r :: older)).clock = (q.after older).clock := by
  rw [after]
  split
  · exact ⟨List.prefix_append _ _, rfl⟩
  · exact ⟨List.prefix_refl _, rfl⟩

theorem lawful {q : Mailbox} {err : Error} {e : Event} {older : List Event} (h : q.fits e older = true) :
    q.outside.Lawful err e older where
  reads now hnow := by
    cases e
    case clock now' =>
      cases hnow
      exact beq_iff_eq.mp h
    all_goals cases hnow
  onward := by
    cases e
    case sent m r => exact (q.after_sent m r older).2.ge
    case received r =>
      show (q.after older).clock ≤ (q.after older).recv.2.clock
      unfold recv
      split
      · exact Nat.le_add_right _ _
      · exact Nat.le_refl _
    case identified => exact Nat.le_add_right _ _
    all_goals exact Nat.le_refl _
  still hcall hdown hreceived := by
    cases e
    case sent m r => exact (q.after_sent m r older).2
    case received r => exact absurd rfl hreceived
    case identified => cases hcall
    all_goals rfl
  waits r he hqueue := by
    subst he
    have hempty : (q.after older).queue = [] := hqueue
    show (q.after older).recv.2.clock ≤ (q.after older).clock + 500
    simp [recv, hempty]
  fifo r frame rest he hqueue := by
    subst he
    have hfront : (q.after older).queue = frame :: rest := hqueue
    have hr : r = (q.after older).recv.1 := of_decide_eq_true h
    have hrecv : (q.after older).recv = (.ok (some frame),
      { q.after older with queue := rest }) := by simp only [recv, hfront]
    rw [hrecv] at hr
    refine ⟨hr, ?_, ?_⟩
    · show (q.after older).recv.2.clock = _
      rw [hrecv]
      rfl
    · show rest <+: (q.after older).recv.2.queue
      rw [hrecv]
  queues hreceived := by
    cases e
    case sent m r => exact (q.after_sent m r older).1
    case received r => exact absurd rfl hreceived
    all_goals exact List.prefix_refl _
  replies m r he hm := by
    subst he
    obtain ⟨hr, hbeat⟩ := Bool.and_eq_true_iff.mp h
    simp only [hm, bne_self_eq_false, Bool.false_or, beq_iff_eq] at hbeat
    refine ⟨of_decide_eq_true hr, .text beatReply.text, ?_, ?_⟩
    · show _ ∈ (if m.kind = .heartbeat then (q.after older).answer else q.after older).queue
      rw [if_pos hm]
      exact List.mem_append_right _ (List.mem_singleton.mpr rfl)
    · rw [hbeat]
      decide +kernel
  errors failure hfailure := by
    cases e
    case sent m r =>
      cases of_decide_eq_true (Bool.and_eq_true_iff.mp h).1
      cases hfailure
    case markedValid r =>
      cases of_decide_eq_true h
      cases hfailure
    all_goals cases hfailure

/-- A device is asked to identify itself just before its heartbeat is due. -/
def asked (blinking : Nat) : Mailbox := ⟨0, [.text joinReply.text], 0, [[], [.text identifyPush.text]], blinking⟩

end Mailbox

/-- It takes less than the interval. -/
theorem reply_not_missed_quick :
    (sessionWithin Mailbox.agent none none ⟨.asked 400, benchDevice .none none, [], 7⟩).1 ≠
      .err Mailbox.agent.unanswered := by
  refine reply_not_missed Mailbox.agent none none (.asked 400) (benchDevice .none none) 7 (Mailbox.asked 400).outside ?_ ?_
  · have hfits : Throughout (fun e older => (Mailbox.asked 400).fits e older = true)
        (sessionWithin Mailbox.agent none none ⟨.asked 400, benchDevice .none none, [], 7⟩).2.trace := by decide +kernel
    exact hfits.mono fun _ _ h => Mailbox.lawful h
  · decide +kernel

/-- It takes a whole interval, and the reply that waits behind is taken for missing. -/
theorem reply_missed_slow :
    1 ≤ Mailbox.agent.config.heartbeatIntervalSecs ∧
      Throughout ((Mailbox.asked 1000).outside.Lawful Mailbox.agent.unanswered)
        (sessionWithin Mailbox.agent none none ⟨.asked 1000, benchDevice .none none, [], 7⟩).2.trace ∧
      (sessionWithin Mailbox.agent none none ⟨.asked 1000, benchDevice .none none, [], 7⟩).1 =
        .err Mailbox.agent.unanswered := by
  have hfits : Throughout (fun e older => (Mailbox.asked 1000).fits e older = true)
      (sessionWithin Mailbox.agent none none ⟨.asked 1000, benchDevice .none none, [], 7⟩).2.trace := by decide +kernel
  exact ⟨by decide, hfits.mono fun _ _ h => Mailbox.lawful h, by decide +kernel⟩

end

end NervesHub
