import NervesHubLink.Theorems.OptIn
import NervesHubLink.Theorems.Rounds

/-! What becomes of a channel that the server has closed. -/

namespace NervesHub
open Act Prog Machine Trace Talk

section
variable [Serde] {k k' : Talk} {e : Event} {t : List Event} {enabled : Enabled}

/-! ### The core that the record leaves -/

theorem coreOf_step (h : coreOf enabled t = k.core) (hs : Talk.Step k e k') : coreOf enabled (e :: t) = k'.core := by
  have other : e.kind ≠ .received → (∀ kd ∈ [Kind.deviceJoin, .extensionsJoin, .consoleJoin], e.kind ≠ kd) →
      coreOf enabled (e :: t) = k.core := fun hr hj => (coreOf_cons hs.not_connected hr hj).trans h
  have plain : ∀ kd, e.kind = kd → kd ∉ [Kind.received, .deviceJoin, .extensionsJoin, .consoleJoin] →
      coreOf enabled (e :: t) = k.core := by
    rintro kd rfl hkd
    simp only [List.mem_cons, List.not_mem_nil, or_false, not_or] at hkd
    exact other hkd.1 (by simpa using hkd.2)
  cases hs with
  | @join m r ho hm => rw [← h]; exact if_pos hm
  | @joinExtensions m r hopen hfresh hj hx hm hp =>
    rw [show coreOf enabled (.sent m r :: t) = (coreOf enabled t).send m from rfl, h, Core.send,
      if_neg (by simp [hm]), if_pos hm]
    rfl
  | @joinConsole m r hopen hfresh hj hx hm =>
    rw [show coreOf enabled (.sent m r :: t) = (coreOf enabled t).send m from rfl, h, Core.send, if_neg (by simp [hm]),
      if_neg (by simp [hm]), if_pos hm]
    rfl
  | @hear r m hopen hfresh hm =>
    rw [show coreOf enabled (.received r :: t) = ((heard r).map (coreOf enabled t).hear).getD
      (coreOf enabled t) from rfl, hm, h]
    rfl
  | @nothing r hopen hfresh hm =>
    rw [show coreOf enabled (.received r :: t) = ((heard r).map (coreOf enabled t).hear).getD
      (coreOf enabled t) from rfl, hm, h]
    rfl
  | report pending ho => exact h
  | reverted detected ho => exact h
  | ask pending hfresh hopen => exact h
  | mark r hst => exact h
  | decide decision he => exact h
  | download r he => exact h
  | begin r he => exact h
  | validate r hst hm => exact plain .validated hm (by decide)
  | lose e hfresh hidle hm =>
    rcases Envelope.kind_of_isClosing hm with hk | hk | hk <;> exact plain _ hk (by decide)
  | aside hopen hperm =>
    have hplain := hperm.isPlain
    refine other (Event.not_plain hplain rfl) ?_
    simp only [List.mem_cons, List.not_mem_nil, or_false, forall_eq_or_imp, forall_eq]
    exact ⟨Event.not_plain hplain rfl, Event.not_plain hplain rfl, Event.not_plain hplain rfl⟩

theorem coreOf_of_reads (h : Reads Talk.Step (Talk.start enabled) [] k t) : coreOf enabled t = k.core :=
  h.always (I := fun k t => coreOf enabled t = k.core) rfl fun hI hs => coreOf_step hI hs

end

/-! ### Channels -/

inductive Channel where
  | device
  | extensions
  | console
  deriving DecidableEq, Repr

def Channel.topic : Channel → String
  | .device => deviceTopic
  | .extensions => extensionsTopic
  | .console => consoleTopic

def Channel.joinKind : Channel → Kind
  | .device => .deviceJoin
  | .extensions => .extensionsJoin
  | .console => .consoleJoin

/-- The link goes by the channel's being joined, or by what is attached on it. Of the terminal it keeps the join's ref. -/
def Core.counts (c : Core) : Channel → Bool
  | .device => c.joined
  | .extensions => c.extensions.joined || !c.extensions.attached.isEmpty
  | .console => c.consoleJoinRef.isSome

/-- The server closes the channel. -/
def Message.closes (m : Message) (ch : Channel) : Bool :=
  m.topic == ch.topic && (m.event == event.close || m.event == event.error)

/-- The event is of the channel, and is not its join. -/
def Event.uses : Event → Channel → Bool
  | .sent m _, ch => m.topic == ch.topic && m.kind != ch.joinKind
  | .took _, ch | .noted _, ch => ch == .extensions
  | _, _ => false

section
variable [Serde] (enabled : Enabled)

/-- The terminal's latest join was accepted. -/
def terminalJoined : List Event → Bool
  | [] => false
  | .connected _ :: _ => false
  | .sent m _ :: older => decide (m.kind ≠ .consoleJoin) && terminalJoined older
  | .received r :: older =>
    (heard r).any (fun m => m.topic == consoleTopic && (coreOf enabled older).consoleJoinRef.any m.isOkReplyTo) ||
      terminalJoined older
  | _ :: older => terminalJoined older

/-- The link has joined the channel. -/
def Channel.joined (ch : Channel) (t : List Event) : Bool :=
  match ch with
  | .device => (coreOf enabled t).joined
  | .extensions => (coreOf enabled t).extensions.joined
  | .console => terminalJoined enabled t

/-- A channel that the link has joined is closed. -/
def Channel.shuts (ch : Channel) : Event → List Event → Bool
  | .received r, older => ch.joined enabled older && (heard r).any (·.closes ch)
  | _, _ => false

/-- The channel was closed, and has not been joined anew since. -/
def Channel.closed (ch : Channel) : List Event → Bool
  | [] => false
  | e :: older => ch.shuts enabled e older || decide (e.kind ≠ .connected ∧ e.kind ≠ ch.joinKind) && ch.closed older

/-- A closed channel does not count as joined, and is left alone. -/
structure LeavesClosed (t : List Event) : Prop where
  counts : ∀ older, older <:+ t → ∀ ch : Channel, ch.closed enabled older = true → (coreOf enabled older).counts ch = false
  unused : Throughout (fun e older => ∀ ch : Channel, ch.closed enabled older = true → e.uses ch = false) t

/-- No close comes for a channel other than the device's while it is joined. -/
def NeverShut (t : List Event) : Prop :=
  Throughout (fun e older => Channel.shuts enabled .extensions e older = false ∧
    Channel.shuts enabled .console e older = false) t

/-! ### The extensions' channel and the terminal's -/

variable {enabled} {t older : List Event} {e : Event} {m : Message} {ch : Channel}

theorem consoleJoinRef_of_joined (h : terminalJoined enabled t = true) :
    (coreOf enabled t).consoleJoinRef.isSome = true := by
  induction t with
  | nil => cases h
  | cons e t ih =>
    cases e
    case connected r => cases h
    case sent m r =>
      simp only [terminalJoined, Bool.and_eq_true, decide_eq_true_eq] at h
      show ((coreOf enabled t).send m).consoleJoinRef.isSome = true
      have hkeep : ((coreOf enabled t).send m).consoleJoinRef = (coreOf enabled t).consoleJoinRef := by
        unfold Core.send
        rw [if_neg h.1]
        repeat' split
        all_goals rfl
      rw [hkeep]
      exact ih h.2
    case received r =>
      have hkeep : (coreOf enabled (.received r :: t)).consoleJoinRef = (coreOf enabled t).consoleJoinRef := by
        show (((heard r).map (coreOf enabled t).hear).getD (coreOf enabled t)).consoleJoinRef = _
        cases heard r with
        | none => rfl
        | some m => exact (Core.hear_refs _ m).2.2
      rw [hkeep]
      simp only [terminalJoined, Bool.or_eq_true, Option.any_eq_true, Bool.and_eq_true] at h
      rcases h with ⟨m, -, -, ref, href, -⟩ | h
      · rw [href]
        rfl
      · exact ih h
    all_goals exact ih h

omit [Serde] in
theorem Core.hear_closed (hevent : m.event = event.close ∨ m.event = event.error)
    (htopic : m.topic = extensionsTopic ∨ m.topic = consoleTopic) (c : Core) : c.hear m = c := by
  have hreply : m.event ≠ event.reply := by rcases hevent with h | h <;> rw [h] <;> decide
  rcases htopic with h | h
  · rw [Core.hear, if_pos h, if_neg (by simp [Message.answersExtensions, hreply])]
  · rw [Core.hear, if_neg (by rw [h]; decide), if_pos (by simp [Message.onDevice, h])]

theorem counts_of_shuts (hch : ch ≠ .device) (h : ch.shuts enabled e t = true) :
    (coreOf enabled (e :: t)).counts ch = true := by
  cases e
  case received r =>
    obtain ⟨hjoined, hany⟩ := (Bool.and_eq_true _ _).mp h
    obtain ⟨m, hm, hcloses⟩ := (Option.any_eq_true _ _).mp hany
    simp only [Message.closes, Bool.and_eq_true, Bool.or_eq_true, beq_iff_eq] at hcloses
    have hsame : coreOf enabled (.received r :: t) = coreOf enabled t := by
      show ((heard r).map (coreOf enabled t).hear).getD (coreOf enabled t) = _
      rw [hm]
      refine Core.hear_closed hcloses.2 ?_ _
      rw [hcloses.1]
      cases ch
      · exact absurd rfl hch
      · exact Or.inl rfl
      · exact Or.inr rfl
    rw [hsame]
    cases ch with
    | device => exact absurd rfl hch
    | extensions =>
      rw [Core.counts, show (coreOf enabled t).extensions.joined = true from hjoined, Bool.true_or]
    | console => exact consoleJoinRef_of_joined hjoined
  all_goals cases h

theorem closed_of_neverShut (h : NeverShut enabled t) (hch : ch ≠ .device) : ch.closed enabled t = false := by
  induction t with
  | nil => rfl
  | cons e t ih =>
    obtain ⟨⟨hext, hcon⟩, ht⟩ := throughout_cons.mp h
    have hshuts : ch.shuts enabled e t = false := by
      cases ch
      · exact absurd rfl hch
      · exact hext
      · exact hcon
    rw [Channel.closed, hshuts, ih ht, Bool.and_false, Bool.or_false]

/-- A record in which closed channels are left alone has no such close. -/
theorem LeavesClosed.neverShut (h : LeavesClosed enabled t) : NeverShut enabled t := by
  have hnot : ∀ e older, e :: older <:+ t → ∀ ch : Channel, ch ≠ .device → ch.shuts enabled e older = false := by
    intro e older hs ch hch
    cases hshuts : ch.shuts enabled e older with
    | false => rfl
    | true =>
      have hclosed : ch.closed enabled (e :: older) = true := by rw [Channel.closed, hshuts, Bool.true_or]
      have hcounts := h.counts _ hs ch hclosed
      rw [counts_of_shuts hch hshuts] at hcounts
      cases hcounts
  exact fun e older hs => ⟨hnot e older hs .extensions (by decide), hnot e older hs .console (by decide)⟩

/-! ### The device's channel -/

/-- The latest thing that happened is that the server closed the device's channel. -/
def hungUp : List Event → Bool
  | .received r :: _ => (heard r).any (·.closes .device)
  | _ => false

/-- Nothing happens after the device's channel is closed. -/
def HangsUp (t : List Event) : Prop := Throughout (fun _ older => hungUp older = false) t

theorem hungUp_of_closed (h : HangsUp t) (hclosed : Channel.closed enabled .device t = true) : hungUp t = true := by
  induction t with
  | nil => cases hclosed
  | cons e t ih =>
    obtain ⟨hlast, ht⟩ := throughout_cons.mp h
    simp only [Channel.closed, Bool.or_eq_true, Bool.and_eq_true] at hclosed
    rcases hclosed with hshuts | ⟨-, hclosed⟩
    · cases e
      case received r => exact ((Bool.and_eq_true _ _).mp hshuts).2
      all_goals cases hshuts
    · rw [ih ht hclosed] at hlast
      cases hlast

theorem counts_of_hungUp (h : hungUp t = true) : (coreOf enabled t).counts .device = false := by
  cases t with
  | nil => cases h
  | cons e t =>
    cases e
    case received r =>
      obtain ⟨m, hm, hcloses⟩ := (Option.any_eq_true _ _).mp h
      simp only [Message.closes, Bool.and_eq_true, Bool.or_eq_true, beq_iff_eq] at hcloses
      obtain ⟨htopic, hevent⟩ := hcloses
      have hdevice : m.onDevice = true := by
        rw [Message.onDevice, htopic]
        decide
      show (((heard r).map (coreOf enabled t).hear).getD (coreOf enabled t)).joined = false
      rw [hm]
      show ((coreOf enabled t).hear m).joined = false
      rw [Core.hear_device hdevice]
      rcases hevent with hevent | hevent
      all_goals
        rw [hevent, if_neg (by decide), if_neg (by decide), if_pos (by decide)]
    all_goals cases h

theorem leavesClosed_of_neverShut (h : NeverShut enabled t) (hhangs : HangsUp t) : LeavesClosed enabled t := by
  have hdevice : ∀ older, older <:+ t → ∀ ch : Channel, ch.closed enabled older = true →
      ch = .device ∧ hungUp older = true := by
    intro older hs ch hclosed
    by_cases hch : ch = .device
    · subst hch
      exact ⟨rfl, hungUp_of_closed (hhangs.suffix hs) hclosed⟩
    · rw [closed_of_neverShut (h.suffix hs) hch] at hclosed
      cases hclosed
  refine ⟨fun older hs ch hclosed => ?_, fun e older hs ch hclosed => ?_⟩
  · obtain ⟨rfl, hhung⟩ := hdevice older hs ch hclosed
    exact counts_of_hungUp hhung
  · have hhung := (hdevice older ((List.suffix_cons e older).trans hs) ch hclosed).2
    rw [hhangs e older hs] at hhung
    cases hhung

/-! ### The session -/

variable {σ : Type} {agent : Agent σ}

/-- The session goes on: the device's channel has never been closed. -/
def Going (t : List Event) : Prop := hungUp t = false ∧ HangsUp t

theorem Going.add {es : List Event} (h : Going t) (hes : ∀ e ∈ es, e.kind ≠ .received) : Going (es ++ t) := by
  induction es with
  | nil => exact h
  | cons e es ih =>
    have hgoing := ih fun e he => hes e (List.mem_cons_of_mem _ he)
    refine ⟨?_, throughout_cons.mpr hgoing⟩
    have hne := hes e List.mem_cons_self
    cases e
    case received r => exact absurd rfl hne
    all_goals rfl

theorem unheard_spans (agent : Agent σ) : Spans agent (Only (· ≠ .received)) (· ≠ .received) :=
  only_spans agent (by decide)

theorem Going.keep {s u : World σ} (h : Going s.trace) (hsu : Only (· ≠ .received) s u) : Going u.trace := by
  obtain ⟨es, hes, hne⟩ := hsu
  rw [hes]
  exact h.add hne

/-- The close of the device's channel asks for a new connection, and records nothing. -/
theorem handle_closed {frame : Frame} (hm : Message.decodeFrame frame = .ok m) (hcloses : m.closes .device = true)
    (P : World σ → Prop) (hP : ∀ s l, P s → P { s with own := { s.own with link := l } }) :
    Spec P (Link.handle agent frame) (Post (fun action s => action = .reconnect ∧ P s) P) := by
  simp only [Message.closes, Bool.and_eq_true, Bool.or_eq_true, beq_iff_eq] at hcloses
  obtain ⟨htopic, hevent⟩ := hcloses
  have hhandle : Link.handle agent frame = Link.handleDeviceFrame agent m := by
    unfold Link.handle Link.handleMessage
    rw [hm]
    simp only
    rw [htopic, if_neg (by decide), if_neg (by decide), if_neg (by decide)]
  have hdevice : Link.handleDeviceFrame agent m = (do
      modifyLink fun l => { l with joined := false, extensions := l.extensions.disconnected }
      pure .reconnect) := by
    unfold Link.handleDeviceFrame
    rcases hevent with h | h
    all_goals
      rw [h, if_neg (by decide), if_neg (by decide), if_neg (by decide), if_neg (by decide), if_neg (by decide),
        if_pos (by decide)]
  rw [hhandle, hdevice]
  exact fun s hs => ⟨rfl, hP s _ hs⟩

variable [Sha256]

theorem listen_going (a : Session) : Spec (fun s => Going s.trace) (listen agent a)
    (Ends (Turn.Post (fun _ s => Going s.trace) fun _ s => HangsUp s.trace) (fun s => HangsUp s.trace)
      fun s => HangsUp s.trace) := by
  -- What was received last, after a record that goes on.
  let Heard (r : Except Error (Option Frame)) (s : World σ) : Prop := ∃ older, s.trace = .received r :: older ∧ Going older
  have hend : ∀ r s, Heard r s → HangsUp s.trace := fun r s ⟨older, heq, hgoing⟩ => heq ▸ throughout_cons.mpr hgoing
  refine Spec.bind (R := Heard) (spec_attempt_tryCall fun s env r hs => ⟨s.trace, rfl, hs⟩) fun r => ?_
  rcases r with err | _ | frame
  · exact Spec.ret (hend _)
  · refine Spec.ret fun s hs => ?_
    have hover := hend _ s hs
    obtain ⟨older, heq, hgoing⟩ := hs
    exact ⟨heq ▸ rfl, hover⟩
  by_cases hclose : ∃ m, Message.decodeFrame frame = .ok m ∧ m.closes .device = true
  · obtain ⟨m, hm, hcloses⟩ := hclose
    refine Spec.bind ((handle_closed hm hcloses (fun s => HangsUp s.trace) fun _ _ hs => hs).attempt.pre
      (hend _)) fun r => ?_
    cases r with
    | ok action =>
      rintro s ⟨rfl, hs⟩
      exact hs
    | error err => exact Spec.ret fun s hs => hs
  · have hnow : ∀ s, Heard (.ok (some frame)) s → Going s.trace := by
      intro s hs
      refine ⟨?_, hend _ s hs⟩
      obtain ⟨older, heq, -⟩ := hs
      rw [heq]
      show ((Message.decodeFrame frame).toOption).any (·.closes .device) = false
      cases hm : Message.decodeFrame frame with
      | error text => rfl
      | ok m =>
        cases hcloses : m.closes .device with
        | false => exact hcloses
        | true => exact absurd ⟨m, hm, hcloses⟩ hclose
    have hreact := (unheard_spans agent).react frame (fun m _ k hk => by
      revert hk
      unfold Roams.messageKinds Roams.answerKinds
      repeat' split
      all_goals revert k; decide) a
    have hkeep := Spec.of_keeps hreact (I := fun s => Going s.trace) fun s u hs hsu => hs.keep hsu
    refine (hkeep.pre hnow).mono (fun d s hs => ?_) (fun s hs => hs.2) fun s hs => hs.2
    cases d with
    | next a' => exact hs
    | done b => exact hs.2

theorem session_hangsUp (agent : Agent σ) (window : Option SessionWindow) (control : Option (σ → Control × σ)) (env : σ)
    (own : Device) (gas : Nat) : HangsUp (sessionWithin agent window control ⟨env, own, [], gas⟩).2.trace := by
  have h := unheard_spans agent
  have hkeep : ∀ s u : World σ, Going s.trace → Only (· ≠ .received) s u → Going u.trace := fun _ _ hs hsu => hs.keep hsu
  have hend : ∀ s : World σ, Going s.trace → HangsUp s.trace := fun s hs => hs.2
  have hkeeps : ∀ {α : Type} {R : α → World σ → Prop} {m : Run σ α}, Keeps (Only (· ≠ .received)) m →
      (∀ r s, Going s.trace → R r s) → Spec (fun s => Going s.trace) m (Post R fun s => HangsUp s.trace) := fun hm hR =>
    (Spec.of_keeps hm hkeep).mono hR hend hend
  have hsession : Spec (fun s => Going s.trace) (sessionWithin agent window control)
      (Post (fun _ s => HangsUp s.trace) fun s => HangsUp s.trace) :=
    Spans.session_rule (I := fun _ _ s => Going s.trace) (M := fun _ _ _ s => Going s.trace) (fun _ _ _ _ hs => hs)
      (fun _ _ => hend) (hkeeps (h.openSession (by decide) fun s => .nothing rfl) fun _ _ hs => hs)
      (fun _ a => hkeeps (h.attend (by decide) (fun a => h.joinConsole (by decide) (fun s ref => .nothing rfl) a) a)
        fun _ _ hs => hs)
      (fun started now a => h.mid_rule (Q := fun _ s => HangsUp s.trace) h.overhear
        (by decide) hkeep hend hend window control started now a) fun _ _ => listen_going
  exact hsession.state ⟨rfl, throughout_nil⟩

/-- At every moment of a session the core of the link is what the record leaves of it; and the channels that the server
    has closed are not counted as joined and left alone exactly if no close comes for another than the device's. -/
theorem closed_left (agent : Agent σ) (window : Option SessionWindow) (control : Option (σ → Control × σ)) (env : σ)
    (own : Device) (gas : Nat) :
    (sessionWithin agent window control ⟨env, own, [], gas⟩).2.own.link.core =
        coreOf agent.config.extensions (sessionWithin agent window control ⟨env, own, [], gas⟩).2.trace ∧
      (LeavesClosed agent.config.extensions (sessionWithin agent window control ⟨env, own, [], gas⟩).2.trace ↔
        NeverShut agent.config.extensions (sessionWithin agent window control ⟨env, own, [], gas⟩).2.trace) := by
  obtain ⟨k, hreads, hcore⟩ := session_tells agent window control env own gas
  refine ⟨hcore.symm.trans (coreOf_of_reads hreads).symm, fun h => h.neverShut, fun h => ?_⟩
  exact leavesClosed_of_neverShut h (session_hangsUp agent window control env own gas)

end

/-! ### The extensions' channel is closed -/

section
attribute [local instance] sha256OfByte

def extensionsClosed : Script := ⟨"extensions are closed", ⟨none, none, extensionsTopic, event.close, .obj []⟩⟩

@[reducible] def closesSerde : Serde := benchSerde [joinReply, loggingAttached, extensionsClosed]

attribute [local instance] closesSerde

/-- The extensions still count as joined, log lines are still taken from the buffer, and they are still sent. -/
theorem closed_used :
    let out := (sessionWithin (benchAgent loggingOnly) none none
      ⟨uninvited [loggingAttached, extensionsClosed], loggingDevice, [], 12⟩).2
    ¬LeavesClosed loggingOnly out.trace ∧ Channel.closed loggingOnly .extensions out.trace = true ∧
      out.own.link.extensions.joined = true := by
  intro out
  have hused : ¬Throughout (fun e older => Channel.closed loggingOnly .extensions older = true → e.uses .extensions = false)
      out.trace := by decide +kernel
  exact ⟨fun h => hused (h.unused.mono fun _ _ hch => hch .extensions), by decide +kernel, by decide +kernel⟩

end

end NervesHub
