import NervesHubLink.Theorems.Closes
import NervesHubLink.Theorems.Window

/-! A session that lasts until its caller says so: when the caller is asked, and what comes of the answer. -/

namespace NervesHub
open Act Prog Machine Trace Talk

/-- The caller was asked since the session last waited for a frame. -/
def consulted : List Event → Bool
  | [] => false
  | .controlled _ :: _ => true
  | .received _ :: _ => false
  | _ :: older => consulted older

def Envelope.IsHealthReport (m : Envelope) (report : HealthReport) : Prop :=
  m.topic = extensionsTopic ∧ m.event = "health:report" ∧ m.payload = .value report.payload

section
variable {σ : Type} [Serde] (agent : Agent σ)

/-- A health report has somewhere to go, and something to say. -/
def CanReport (t : List Event) : Prop :=
  (coreOf agent.config.extensions t).extensions.isAttached healthKey = true ∧ agent.health.isSome = true

/-- The caller has just been asked, and what it said has been done. -/
inductive Followed : List Event → Prop
  | stay (older : List Event) : Followed (.controlled .stay :: older)
  | unable {older : List Event} : ¬CanReport agent older → Followed (.controlled .reportHealth :: older)
  | reported {older : List Event} {report : HealthReport} {m : Envelope} : CanReport agent older → m.IsHealthReport report →
    Followed (.sent m (.ok ()) :: .healthRead report :: .controlled .reportHealth :: older)

/-- The caller is asked once before each wait for a frame, and never in the middle of an update. -/
def Polled : Event → List Event → Prop
  | .received _, older => Followed agent older
  | .controlled _, older => consulted older = false ∧ downloading older = false
  | _, _ => True

/-- What holds of a run until the caller wants to leave, ended or not. -/
structure HeedsControl (o : Outcome Error Stopped) (t : List Event) : Prop where
  polled : Throughout (Polled agent) t
  left : o = .ret .finished ↔ ∃ older, t = .controlled .leave :: older
  last : Throughout (fun _ older => .controlled .leave ∉ older) t
  restarted : o = .ret .rebooting ↔ ∃ e ∈ t, e.kind = .restarted
  connects : AtMostOnce (fun e => e.kind == .connected) t

/-! ### Between two answers -/

/-- An event that is of no concern to the caller. -/
def Kind.isBeside (k : Kind) : Prop := k ∉ [Kind.connected, .received, .controlled]

instance (k : Kind) : Decidable k.isBeside := inferInstanceAs (Decidable (_ ∉ _))

variable {agent} {e : Event} {t u : List Event} {s : World σ}

omit [Serde] in
theorem Kind.isBeside_cases (h : e.kind.isBeside) : e.kind ≠ .connected ∧ e.kind ≠ .received ∧ e.kind ≠ .controlled := by
  simpa [Kind.isBeside] using h

omit [Serde] in
theorem consulted_cons (h : e.kind.isBeside) : consulted (e :: t) = consulted t := by
  obtain ⟨-, hreceived, hcontrolled⟩ := Kind.isBeside_cases h
  cases e
  case received r => exact absurd rfl hreceived
  case controlled c => exact absurd rfl hcontrolled
  all_goals rfl

theorem polled_beside (h : e.kind.isBeside) : Polled agent e t := by
  obtain ⟨-, hreceived, hcontrolled⟩ := Kind.isBeside_cases h
  cases e
  case received r => exact absurd rfl hreceived
  case controlled c => exact absurd rfl hcontrolled
  all_goals trivial

/-- The caller has not said that it wants to leave. -/
structure Staying (agent : Agent σ) (t : List Event) : Prop where
  polled : Throughout (Polled agent) t
  stays : .controlled .leave ∉ t

namespace Staying

theorem cons (h : Staying agent t) (he : Polled agent e t) (hne : e ≠ .controlled .leave) : Staying agent (e :: t) :=
  ⟨throughout_cons.mpr ⟨he, h.polled⟩, fun hmem => (List.mem_cons.mp hmem).elim (fun heq => hne heq.symm) h.stays⟩

theorem beside (h : Staying agent t) (he : e.kind.isBeside) : Staying agent (e :: t) :=
  h.cons (polled_beside he) fun heq => (Kind.isBeside_cases he).2.2 (by rw [heq]; rfl)

theorem last (h : Staying agent t) : Throughout (fun _ older => .controlled .leave ∉ older) t :=
  fun _ _ hs hmem => h.stays (hs.subset (List.mem_cons_of_mem _ hmem))

end Staying

/-- The caller has to be asked before the next frame. -/
structure Unconsulted (agent : Agent σ) (t : List Event) : Prop where
  staying : Staying agent t
  pending : consulted t = false

theorem Unconsulted.beside (h : Unconsulted agent t) (he : e.kind.isBeside) : Unconsulted agent (e :: t) :=
  ⟨h.staying.beside he, (consulted_cons he).trans h.pending⟩

theorem Unconsulted.keep {v : World σ} (h : Unconsulted agent s.trace) (hsv : Only Kind.isBeside s v) :
    Unconsulted agent v.trace :=
  hsv.holds (J := Unconsulted agent) (fun _ _ he hu => hu.beside he) h

/-- And no update is going on. -/
def Unoccupied (agent : Agent σ) (s : World σ) : Prop := Unconsulted agent s.trace ∧ downloading s.trace = false

/-- An event that does not begin an update, either. -/
def Kind.isIdle (k : Kind) : Prop := k.isBeside ∧ k ≠ .httpStarted

instance (k : Kind) : Decidable k.isIdle := inferInstanceAs (Decidable (_ ∧ _))

theorem Unoccupied.keep {v : World σ} (h : Unoccupied agent s) (hsv : Only Kind.isIdle s v) : Unoccupied agent v :=
  hsv.holds (J := fun t => Unconsulted agent t ∧ downloading t = false)
    (fun _ _ he hu => ⟨hu.1.beside he.1, downloading_false (Kind.isBeside_cases he.1).1 he.2 hu.2⟩) h

/-- The caller was asked, it stays, and what it said was done. -/
structure Consulted (agent : Agent σ) (s : World σ) : Prop where
  staying : Staying agent s.trace
  followed : Followed agent s.trace
  free : downloading s.trace = false

/-- How a session ends. -/
structure TakenLeave (agent : Agent σ) (stopped : Option Stopped) (s : World σ) : Prop where
  polled : Throughout (Polled agent) s.trace
  left : stopped = some .finished ↔ ∃ older, s.trace = .controlled .leave :: older
  last : Throughout (fun _ older => .controlled .leave ∉ older) s.trace

theorem Staying.ended (h : Staying agent s.trace) {stopped : Option Stopped} (hne : stopped ≠ some .finished) :
    TakenLeave agent stopped s :=
  ⟨h.polled, iff_of_false hne fun ⟨older, heq⟩ => h.stays (by rw [heq]; exact List.mem_cons_self), h.last⟩

/-! ### Asking -/

/-- The caller was asked just now, and what it said has not been done. -/
structure Answer (agent : Agent σ) (c : Control) (s : World σ) : Prop where
  last : ∃ older, s.trace = .controlled c :: older ∧ Unconsulted agent older ∧ downloading older = false ∧
    s.own.link.core = coreOf agent.config.extensions older

namespace Answer
variable {c : Control}

theorem staying (h : Answer agent c s) (hc : c ≠ .leave) : Staying agent s.trace := by
  obtain ⟨older, htrace, hdue, hfree, -⟩ := h.last
  rw [htrace]
  exact hdue.staying.cons ⟨hdue.pending, hfree⟩ fun heq => hc (Event.controlled.inj heq)

theorem free (h : Answer agent c s) : downloading s.trace = false := by
  obtain ⟨older, htrace, -, hfree, -⟩ := h.last
  rw [htrace]
  exact hfree

theorem stay (h : Answer agent .stay s) : Consulted agent s := by
  obtain ⟨older, htrace, -⟩ := h.last
  exact ⟨h.staying (by decide), by rw [htrace]; exact .stay older, h.free⟩

theorem leave (h : Answer agent .leave s) : TakenLeave agent (some .finished) s := by
  obtain ⟨older, htrace, hdue, hfree, -⟩ := h.last
  refine ⟨?_, iff_of_true rfl ⟨older, htrace⟩, ?_⟩
  · rw [htrace]
    exact throughout_cons.mpr ⟨⟨hdue.pending, hfree⟩, hdue.staying.polled⟩
  · rw [htrace]
    exact throughout_cons.mpr ⟨hdue.staying.stays, hdue.staying.last⟩

theorem attached (h : Answer agent c s) {older : List Event} (htrace : s.trace = .controlled c :: older) :
    s.own.link.healthAttached = (coreOf agent.config.extensions older).extensions.isAttached healthKey := by
  obtain ⟨older', htrace', -, -, hcore⟩ := h.last
  rw [htrace'] at htrace
  cases htrace
  rw [← hcore]
  rfl

theorem unable (h : Answer agent .reportHealth s) (hno : ¬(s.own.link.healthAttached = true ∧ agent.health.isSome = true)) :
    Consulted agent s := by
  obtain ⟨older, htrace, -⟩ := h.last
  refine ⟨h.staying (by decide), ?_, h.free⟩
  rw [h.attached htrace] at hno
  rw [htrace]
  exact .unable hno

end Answer

omit [Serde] in
theorem healthReport_kind (joinRef reference : Option String) (payload : Payload) :
    Envelope.kind ⟨joinRef, reference, extensionsTopic, "health:report", payload⟩ = .healthReport := rfl

/-- A health report that the caller asked for. -/
theorem report_ready (hattached : s.own.link.healthAttached = true) (h : Answer agent .reportHealth s) :
    Ends (fun _ => Consulted agent) (fun s => Staying agent s.trace) (fun s => Staying agent s.trace)
      (answerExtension agent [.needHealth] s).1 (answerExtension agent [.needHealth] s).2 := by
  obtain ⟨older, htrace, -⟩ := h.last
  let Read (report : HealthReport) (v : World σ) : Prop := v.trace = .healthRead report :: s.trace
  suffices hspec : Spec (· = s) (answerExtension agent [.needHealth])
      (Ends (fun _ => Consulted agent) (fun s => Staying agent s.trace) fun s => Staying agent s.trace) from hspec s rfl
  unfold answerExtension answerNeed
  cases hhealth : agent.health with
  | none =>
    rintro v rfl
    exact h.unable fun hcan => by rw [hhealth] at hcan; cases hcan.2
  | some provider =>
    refine Spec.bind (R := fun out v => ∃ report, out = Extensions.healthReport report ∧ Read report v) ?_ fun out => ?_
    · refine Spec.bind (R := Read) (spec_call fun v env report hv => ?_) fun report => Spec.ret fun v hv =>
        ⟨report, rfl, hv⟩
      rw [hv]
      rfl
    rintro v ⟨report, rfl, hread⟩
    have hread' : Spec (Read report) (Link.sendExtension agent (Extensions.healthReport report) >>= fun _ =>
      answerExtension agent [])
        (Ends (fun _ => Consulted agent) (fun s => Staying agent s.trace) fun s => Staying agent s.trace) := by
      have hsent : ∀ (joinRef reference : Option String) (r : Except Error Unit) (v : World σ), Read report v →
          Staying agent
            (.sent ⟨joinRef, reference, extensionsTopic, "health:report", .value report.payload⟩ r :: v.trace) := by
        intro joinRef reference r v hv
        rw [hv]
        have hstaying : Staying agent (.healthRead report :: s.trace) :=
          (h.staying (by decide)).beside (by decide : Kind.isBeside .healthRead)
        refine hstaying.beside ?_
        rw [Event.kind, healthReport_kind]
        decide
      refine Spec.bind (R := fun _ => Consulted agent) ?_ fun _ => Spec.ret fun v hv => hv
      refine Spec.bind (R := fun _ => Read report) (fun v hv => hv) fun reference =>
        Spec.bind (R := fun _ => Read report) (fun v hv => hv) fun l => ?_
      refine Spec.bind (R := fun _ => Consulted agent) ?_ fun _ => Spec.ret fun v hv => hv
      refine Spec.bind (R := fun _ => Read report) (fun v hv => hv) fun l' =>
        spec_tryCall (fun v env u hv => ?_) fun v env e hv => ?_
      · refine ⟨hsent _ _ _ v hv, ?_, ?_⟩
        · show Followed agent (.sent _ (.ok ()) :: v.trace)
          rw [hv, htrace]
          exact .reported ⟨(h.attached htrace).symm.trans hattached, by rw [hhealth]; rfl⟩ ⟨rfl, rfl, rfl⟩
        · show (Envelope.kind _ != .status && downloading v.trace) = false
          rw [hv]
          show (_ && downloading s.trace) = false
          rw [h.free, Bool.and_false]
      · exact hsent _ _ _ v hv
    exact hread' v hread

theorem askControl_heeds (ask : σ → Control × σ) :
    Spec (fun s => Unoccupied agent s ∧ s.own.link.core = coreOf agent.config.extensions s.trace)
      (askControl agent (some ask))
      (Ends (fun leave s => if leave then TakenLeave agent (some .finished) s else Consulted agent s)
        (fun s => Staying agent s.trace)
        fun s => Staying agent s.trace) := by
  refine Spec.bind (R := Answer agent) (spec_call fun s env c hs => ⟨s.trace, rfl, hs.1.1, hs.1.2, hs.2⟩) fun c => ?_
  cases c with
  | stay => exact Spec.ret fun s hs => hs.stay
  | leave => exact Spec.ret fun s hs => hs.leave
  | reportHealth =>
    refine Spec.bind (R := fun l s => Answer agent .reportHealth s ∧ s.own.link = l) (fun s hs => ⟨hs, rfl⟩) fun l => ?_
    refine Spec.bind (R := fun _ => Consulted agent) ?_ fun _ => Spec.ret fun s hs => hs
    refine Spec.when (fun hattached s hs => ?_) fun hattached s hs => ?_
    · obtain ⟨hs, rfl⟩ := hs
      exact report_ready hattached hs
    · obtain ⟨hs, rfl⟩ := hs
      exact hs.unable fun hcan => hattached hcan.1

/-! ### Updates and frames -/

theorem sendStatus_over (status : String) (extra : Value) : Spec (fun _ => True) (Link.sendStatus agent status extra)
    (Ends (fun _ s => downloading s.trace = false) (fun _ => True) fun _ => True) := by
  refine Spec.bind (R := fun _ _ => True) (fun _ h => h) fun reference =>
    Spec.bind (R := fun _ _ => True) (fun _ h => h) fun l => ?_
  refine Spec.bind (R := fun _ _ => True) (fun _ h => h) fun l' => spec_tryCall (fun s env u _ => ?_) fun _ _ _ _ => trivial
  show (Envelope.kind _ != .status && downloading s.trace) = false
  rw [show Envelope.kind _ = .status from rfl, bne_self_eq_false, Bool.false_and]

variable [Sha256]

/-- An update that the session survives is over. -/
theorem apply_over (update : UpdatePayload) : Spec (fun _ => True) (agent.apply update)
    (Ends (fun rebooting s => rebooting = false → downloading s.trace = false) (fun _ => True) fun _ => True) := by
  refine Spec.bind (R := fun _ _ => True) (Spec.of_state fun _ _ => trivial) fun outcome => ?_
  cases outcome with
  | ok u =>
    refine Spec.bind (R := fun _ _ => True) (Spec.of_state fun _ _ => trivial) fun _ => ?_
    refine Spec.bind (R := fun _ _ => True) (Spec.of_state fun _ _ => trivial) fun _ => ?_
    exact Spec.bind (R := fun _ _ => True) (Spec.of_state fun _ _ => trivial) fun _ => Spec.ret fun _ _ h => by cases h
  | error err => exact Spec.bind (sendStatus_over _ _) fun _ => Spec.ret fun s hs _ => hs

theorem applyUpdate_free (a : Session) (update : UpdatePayload) :
    Spec (Unoccupied agent) (perform agent a (.applyUpdate update))
    (Ends (Turn.Post (fun _ => Unoccupied agent) (TakenLeave agent)) (fun s => Staying agent s.trace) fun s =>
      Staying agent s.trace) := by
  have hspans : Spans agent (Only Kind.isBeside) Kind.isBeside := only_spans agent (by decide)
  have hkept : Spec (fun s => Unconsulted agent s.trace) (agent.apply update)
      (Post (fun _ s => Unconsulted agent s.trace) fun s => Unconsulted agent s.trace) :=
    Spec.of_keeps (hspans.apply (by decide) update) fun _ _ hs hsu => hs.keep hsu
  refine Spec.bind (R := fun rebooting s => Unconsulted agent s.trace ∧
    (rebooting = false → downloading s.trace = false)) ?_
    fun rebooting => ?_
  · exact ((hkept.both (apply_over update)).pre fun s hs => ⟨hs.1, trivial⟩).mono (fun _ _ h => h) (fun _ h => h.1.staying)
      fun _ h => h.1.staying
  · cases rebooting with
    | true => exact Spec.ret fun s hs => hs.1.staying.ended (by decide)
    | false =>
      refine Spec.bind (R := fun _ => Unoccupied agent) (spec_call fun s env now hs => ?_) fun now =>
        Spec.ret fun s hs => hs
      exact ⟨hs.1.beside (by decide : Kind.isBeside .clock), hs.2 rfl⟩

/-- The next frame is waited for once the caller was followed, and the session goes on to ask again. -/
theorem listen_free (a : Session) : Spec (Consulted agent) (listen agent a)
    (Ends (Turn.Post (fun _ => Unoccupied agent) (TakenLeave agent)) (fun s => Staying agent s.trace) fun s =>
      Staying agent s.trace) := by
  refine (only_roams Kind.isIdle).listen_rule (I := fun _ => Unoccupied agent) (fun _ _ => .nothing rfl) (by decide)
    (fun _ _ _ hs hsu => hs.keep hsu)
    (fun _ _ hs => hs.1.staying) (fun _ s stopped hne hs => hs.1.staying.ended hne) (fun _ _ _ hs => hs) applyUpdate_free a
    fun s env r hs => ?_
  exact ⟨⟨hs.staying.cons hs.followed (fun heq => by cases heq), rfl⟩, hs.free⟩

/-! ### The session -/

omit [Sha256] in
theorem coreOf_of_at {P : Talk → Bool → Prop} (h : At agent windowOutset P s) :
    s.own.link.core = coreOf agent.config.extensions s.trace := by
  obtain ⟨k, b, hs, -⟩ := h
  rw [hs.core]
  exact (hs.reads.always (I := fun k t => coreOf agent.config.extensions t = k.core) rfl fun hI hstep =>
    coreOf_step hI hstep).symm

omit [Sha256] in
theorem free_outset (h : windowOutset.Holds s) : Unoccupied agent s := by
  rw [Unoccupied, h.1]
  exact ⟨⟨⟨throughout_cons.mpr ⟨trivial, throughout_nil⟩, by simp [windowOutset]⟩, rfl⟩, rfl⟩

omit [Sha256] in
theorem free_spec (agent : Agent σ) {α : Type} {m : Run σ α} (hm : Keeps (Only Kind.isIdle) m) :
    Spec (Unoccupied agent) m (Post (fun _ => Unoccupied agent) fun s => Staying agent s.trace) :=
  (Spec.of_keeps hm fun _ _ hs hsu => hs.keep hsu).mono (fun _ _ h => h) (fun _ h => h.1.staying) fun _ h => h.1.staying

variable (agent) in
theorem session_heeds (ask : σ → Control × σ) : Spec windowOutset.Holds (sessionWithin agent none (some ask))
    (Ends (TakenLeave agent) (fun s => Staying agent s.trace) fun s => Staying agent s.trace) := by
  have h : Spans agent (Only (σ := σ) Kind.isIdle) Kind.isIdle := only_spans agent (by decide)
  let Turning (a : Session) (s : World σ) : Prop := At agent windowOutset (Head a) s ∧ Unoccupied agent s
  refine Spec.bind (R := fun r => Turning r.2) ?_ fun r => ?_
  · have hopen := free_spec agent (h.openSession (by decide) fun s => .nothing rfl)
    exact (((goes_openSession agent windowOutset).both hopen).pre fun s hs => ⟨hs, free_outset hs⟩).mono (fun _ _ hs => hs)
      (fun _ hs => hs.2) fun _ hs => hs.2
  refine loop_spec (I := Turning) ?_ (fun _ _ hs => hs.2.1.staying) (fun a => ?_) r.2
  · rintro a s g ⟨⟨k, b, hs, hhead⟩, hfree⟩
    exact ⟨⟨k, b, ⟨hs.reads, hs.core, hs.joined⟩, hhead⟩, hfree⟩
  refine Spec.bind (R := fun r s => At agent windowOutset (Settled r.2) s ∧ Unoccupied agent s) ?_ fun r => ?_
  · have hattend := free_spec agent (h.attend (by decide)
      (fun a => h.joinConsole (by decide) (fun s ref => .nothing rfl) a) a)
    exact ((goes_attend agent windowOutset a).both hattend).mono (fun _ _ hs => hs) (fun _ hs => hs.2) fun _ hs => hs.2
  obtain ⟨now, a⟩ := r
  refine Spec.bind (R := fun leave s =>
      if leave then TakenLeave agent (some .finished) s else At agent windowOutset (Settled a) s ∧ Consulted agent s)
    ?_ fun leave => ?_
  · have hask := (goes_askControl agent windowOutset a (some ask)).both (askControl_heeds ask)
    refine (hask.pre fun s hs => ⟨hs.1, hs.2, coreOf_of_at hs.1⟩).mono (fun leave s hs => ?_)
      (fun _ hs => hs.2) fun _ hs => hs.2
    cases leave with
    | true => exact hs.2
    | false => exact hs
  cases leave with
  | true => exact Spec.ret fun s hs => hs
  | false =>
    refine Spec.bind (R := fun ends s => ends = false ∧ At agent windowOutset (Settled a) s ∧ Consulted agent s)
      (fun s hs => ⟨rfl, hs⟩) fun ends => ?_
    refine Spec.ite (fun hends s hs => absurd hs.1 (by simp [hends])) fun _ => ?_
    refine (((goes_listen a).both (listen_free a)).pre fun s hs => hs.2).mono (fun d s hs => ?_)
      (fun _ hs => hs.2) fun _ hs => hs.2
    cases d with
    | next a' => exact hs
    | done stopped => exact hs.2

/-! ### The run -/

omit [Sha256] [Serde] in
/-- A session that did not end with a wish to leave has not heard of one. -/
theorem TakenLeave.staying [Serde] (h : TakenLeave agent none s) : Staying agent s.trace := by
  refine ⟨h.polled, fun hmem => ?_⟩
  rcases ht : s.trace with _ | ⟨e, older⟩
  · rw [ht] at hmem
    cases hmem
  rw [ht] at hmem
  rcases List.mem_cons.mp hmem with rfl | hmem
  · cases h.left.mpr ⟨older, ht⟩
  · exact h.last e older (by rw [ht]) hmem

/-- What holds of the session's end, and of its record: it has been restarted or not, and has connected once. -/
structure Closing (rebooting : Prop) (s : World σ) : Prop where
  told : RestartTold rebooting s
  once : AtMostOnce (fun e => e.kind == .connected) s.trace

omit [Serde] [Sha256] in
theorem Closing.congr {p q : Prop} (h : Closing p s) (hpq : p ↔ q) : Closing q s := ⟨hpq.symm.trans h.told, h.once⟩

variable (agent) in
theorem session_closes (ask : σ → Control × σ) : Spec windowOutset.Holds (sessionWithin agent none (some ask))
    (Post (fun stopped => Closing (stopped = some .rebooting)) (Closing False)) := by
  have honce : Spec windowOutset.Holds (sessionWithin agent none (some ask)) (Post
      (fun _ s => AtMostOnce (fun e => e.kind == .connected) s.trace) fun s =>
          AtMostOnce (fun e => e.kind == .connected) s.trace) := by
    refine Spec.of_state fun s hs => ?_
    obtain ⟨k, b, hk, -⟩ := session_at agent none (some ask) s
    rw [hs.1] at hk
    refine hk.reads.always (I := fun _ t => t.countP (fun e => e.kind == .connected) ≤ 1) ?_ fun ht hstep => ?_
    · exact Nat.le_refl 1
    rw [List.countP_cons_of_neg (by simpa using hstep.not_connected)]
    exact ht
  have hunrestarted : ∀ s : World σ, windowOutset.Holds s → Unrestarted s := fun s hs e he => by
    rw [hs.1] at he
    rw [List.mem_singleton.mp he]
    decide
  exact (((session_told agent none (some ask)).both honce).pre fun s hs => ⟨hunrestarted s hs, hs⟩).mono
    (fun _ _ h => ⟨h.1, h.2⟩)
    (fun _ h => ⟨h.1.told id, h.2⟩) fun _ h => ⟨h.1.told id, h.2⟩

variable (agent) in
theorem runSessionUntil_heeds (ask : σ → Control × σ) : Spec (fun s => s.trace = []) (runSessionUntil agent ask)
    (Post (fun stopped s => TakenLeave agent (some stopped) s ∧ Closing (stopped = .rebooting) s)
      fun s => Staying agent s.trace ∧ Closing False s) := by
  refine Spec.bind (R := fun _ s => s.trace = [.connected (.ok ())]) ?_ fun _ => ?_
  · refine spec_tryCall (fun s env u hs => by rw [hs]; rfl) fun s env e hs => ?_
    rw [hs]
    exact ⟨⟨throughout_cons.mpr ⟨trivial, throughout_nil⟩, by simp⟩, iff_of_false id (by simp [Event.kind]), Nat.le_refl 1⟩
  refine Spec.bind (R := fun _ => windowOutset.Holds) (fun s hs => ⟨hs, rfl⟩) fun _ => ?_
  have hsession := ((session_heeds agent ask).both (session_closes agent ask)).pre
    fun s (hs : windowOutset.Holds s) => ⟨hs, hs⟩
  refine Spec.bind hsession fun stopped => ?_
  cases stopped with
  | some stopped => exact Spec.ret fun s hs => ⟨hs.1, hs.2.congr (by simp)⟩
  | none =>
    refine Spec.bind (R := fun _ s => TakenLeave agent none s ∧ Closing False s)
      (fun s hs => ⟨hs.1, hs.2.congr (by simp)⟩) fun d => ?_
    exact Spec.fail fun s hs => ⟨hs.1.staying, hs.2⟩

/-- A session that lasts until its caller says so asks it once before each wait for a frame, and never during an update;
    reports the health exactly if asked to while it can; and is finished exactly if the caller said that it wants to leave,
    with nothing done after that. It says that the device is rebooting exactly if it restarted it, and it connects at most
    once. -/
theorem run_session_heeds_control (agent : Agent σ) (ask : σ → Control × σ) (env : σ) (own : Device) (gas : Nat) :
    HeedsControl agent (runSessionUntil agent ask ⟨env, own, [], gas⟩).1
      (runSessionUntil agent ask ⟨env, own, [], gas⟩).2.trace := by
  have h := runSessionUntil_heeds agent ask ⟨env, own, [], gas⟩ rfl
  have hstaying : ∀ {o : Outcome Error Stopped} {s : World σ}, (∀ stopped, o ≠ .ret stopped) → Staying agent s.trace →
    Closing False s →
      HeedsControl agent o s.trace := fun ho hs hc =>
    ⟨hs.polled, iff_of_false (ho _) fun ⟨older, heq⟩ => hs.stays (by rw [heq]; exact List.mem_cons_self), hs.last,
      iff_of_false (ho _) hc.told.mpr, hc.once⟩
  rcases ho : (runSessionUntil agent ask ⟨env, own, [], gas⟩).1 with stopped | e | _ <;> rw [ho] at h
  · exact ⟨h.1.polled, by simpa using h.1.left, h.1.last, by simpa [RestartTold] using h.2.told, h.2.once⟩
  · exact hstaying (fun _ => by simp) h.1 h.2
  · exact hstaying (fun _ => by simp) h.1 h.2

end

end NervesHub
