import NervesHubLink.Bench
import NervesHubLink.Theorems.Rounds

/-! A device whose application did not ask for the terminal, and what it does on the terminal's channel. -/

namespace NervesHub
open Act Prog

/-- A frame of the terminal's channel, or a command that runs. -/
def Event.onTerminal : Event → Prop
  | .sent m _ => m.topic = consoleTopic
  | .ran _ _ => True
  | _ => False

instance : DecidablePred Event.onTerminal := fun e => by
  cases e <;> unfold Event.onTerminal <;> infer_instance

/-- A frame of the terminal's channel that is answered at once: a reply without a ref, which is taken for the reply
    to a join that was not sent, a restart, or a part of a file. -/
def Message.provokes (m : Message) : Bool :=
  m.topic == consoleTopic && ((m.event == event.reply && m.reference.isNone) || m.event == event.restart ||
    m.event == event.fileDataStart || m.event == event.fileData || m.event == event.fileDataStop)

section
variable [Serde]

def Event.provokes : Event → Prop
  | .received r => (Talk.heard r).any Message.provokes = true
  | _ => False

instance : DecidablePred (Event.provokes) := fun e => by
  cases e <;> unfold Event.provokes <;> infer_instance

/-- Nothing goes out on the terminal's channel and no command runs. -/
def Silent (t : List Event) : Prop := ∀ e ∈ t, ¬e.onTerminal

def Unprovoked (t : List Event) : Prop := ∀ e ∈ t, ¬e.provokes

instance (t : List Event) : Decidable (Silent t) := inferInstanceAs (Decidable (∀ e ∈ t, _))

instance (t : List Event) : Decidable (Unprovoked t) := inferInstanceAs (Decidable (∀ e ∈ t, _))

omit [Serde] in
theorem silent_append {es t : List Event} : Silent (es ++ t) ↔ Silent es ∧ Silent t := List.forall_mem_append

theorem unprovoked_append {es t : List Event} : Unprovoked (es ++ t) ↔ Unprovoked es ∧ Unprovoked t :=
  List.forall_mem_append

end

/-- The terminal was not asked for, and no join was sent. -/
def Link.Unasked (l : Link) : Prop := l.consoleWanted = false ∧ l.consoleJoinRef = none

/-- The kinds of event that are neither. -/
def Kind.isHushed (k : Kind) : Prop := k ≠ .terminal ∧ k ≠ .consoleJoin ∧ k ≠ .ran ∧ k ≠ .received

instance (k : Kind) : Decidable k.isHushed := inferInstanceAs (Decidable (_ ∧ _))

section
variable {σ : Type} [Serde]

/-- From a link that was not asked for the terminal, what is recorded is silent exactly if nothing provokes it. -/
def Hushed (s t : World σ) : Prop :=
  s.own.link.Unasked → t.own.link.Unasked ∧ ∃ es, t.trace = es ++ s.trace ∧ (Silent es ↔ Unprovoked es)

theorem Hushed.nothing {s t : World σ} (ht : s.own.link.Unasked → t.own.link.Unasked) (htrace : t.trace = s.trace) :
    Hushed s t := fun hs => ⟨ht hs, [], htrace, by simp [Silent, Unprovoked]⟩

omit [Serde] in
theorem Event.hushed {e : Event} (h : e.kind.isHushed) : ¬e.onTerminal ∧ ∀ r, e ≠ .received r := by
  cases e
  case sent m r =>
    refine ⟨fun hm => ?_, fun r => by simp⟩
    rcases Envelope.kind_onConsole hm with hkind | hkind
    · exact h.2.1 hkind
    · exact h.1 hkind
  case ran name args => exact absurd rfl h.2.2.1
  case received r => exact absurd rfl h.2.2.2
  all_goals exact ⟨id, fun r => by simp⟩

theorem Event.not_provokes {e : Event} (h : ∀ r, e ≠ .received r) : ¬e.provokes := by
  cases e
  case received r => exact absurd rfl (h r)
  all_goals exact id

theorem silent_iff_of_hushed {es : List Event} (hes : ∀ e ∈ es, e.kind.isHushed) : Silent es ↔ Unprovoked es :=
  ⟨fun _ e he => Event.not_provokes (Event.hushed (hes e he)).2, fun _ e he => (Event.hushed (hes e he)).1⟩

theorem hushed_admits : Admits (Hushed (σ := σ)) Kind.isHushed where
  steps := by
    refine ⟨fun s => .nothing id rfl, fun {s t u} hst htu hs => ?_⟩
    obtain ⟨ht, es, hes, hiff⟩ := hst hs
    obtain ⟨hu, es', hes', hiff'⟩ := htu ht
    refine ⟨hu, es' ++ es, by rw [hes', hes, List.append_assoc], ?_⟩
    rw [silent_append, unprovoked_append, hiff, hiff']
  gas s g := .nothing id rfl
  calls s env es hes hs := ⟨hs, es, rfl, silent_iff_of_hushed hes⟩
  aside s _ _ := .nothing id rfl
  reader _ s _ := .nothing id rfl

theorem hushed_anyBuffer : Admits.AnyBuffer (Hushed (σ := σ)) := fun _ _ => .nothing id rfl

variable (agent : Agent σ)

theorem hushed_allows : Allows agent (Hushed (σ := σ)) Kind.isHushed :=
  hushed_admits.allows hushed_anyBuffer (fun _ _ => .nothing id rfl) (fun _ _ => .nothing id rfl) (by decide)

theorem hushed_spans : Spans agent (Hushed (σ := σ)) Kind.isHushed where
  toAllows := hushed_allows agent
  flag s _ := .nothing id rfl
  relink s _ _ _ _ := .nothing id rfl
  overhear := hushed_admits.overhear hushed_anyBuffer (by decide)

/-! ### What the frames of the channel bring about -/

/-- Something was said on the channel, and nothing else happened. -/
def Said (base : List Event) (s : World σ) : Prop :=
  s.own.link.Unasked ∧ ∃ m r, s.trace = .sent m r :: base ∧ m.topic = consoleTopic

def Quieted (base : List Event) (s : World σ) : Prop := s.own.link.Unasked ∧ s.trace = base

theorem sendConsole_said {text : String} (htext : text.isEmpty = false) (base : List Event) :
    Spec (Quieted base) (Link.sendConsole agent text) (Post (fun _ => Said base) (Said base)) := by
  unfold Link.sendConsole
  rw [if_neg (by simp [htext])]
  refine Spec.bind (R := fun _ => Quieted base) (fun s hs => hs) fun reference => ?_
  refine Spec.bind (R := fun _ => Quieted base) (fun s hs => hs) fun l => ?_
  refine Spec.bind (R := fun _ => Quieted base) (fun s hs => hs) fun l => ?_
  refine spec_tryCall (fun s env _ hs => ⟨hs.1, _, _, congrArg (List.cons _) hs.2, rfl⟩) fun s env _ hs =>
    ⟨hs.1, _, _, congrArg (List.cons _) hs.2, rfl⟩

/-- Since the record was `base`, it has been silent exactly if nothing provoked it. -/
def Answered (base : List Event) (s : World σ) : Prop :=
  s.own.link.Unasked ∧ ∃ es, s.trace = es ++ base ∧ (Silent es ↔ Unprovoked es)

variable {agent} {base : List Event} {r : Except Error (Option Frame)} {m : Message}

omit [Serde] in
theorem quieted_self {s : World σ} (hs : s.own.link.Unasked) : Quieted s.trace s := ⟨hs, rfl⟩

theorem Quieted.answered {s : World σ} (h : Quieted (.received r :: base) s) (hr : ¬(Event.received r).provokes) :
    Answered base s := by
  refine ⟨h.1, [.received r], h.2, fun _ e he => ?_, fun _ e he => ?_⟩
  · rw [List.mem_singleton.mp he]
    exact hr
  · rw [List.mem_singleton.mp he]
    exact id

/-- What is hushed goes on answering nothing that did not provoke it. -/
theorem Hushed.answered {s t : World σ} (h : Hushed s t) (hs : Quieted (.received r :: base) s)
    (hr : ¬(Event.received r).provokes) : Answered base t := by
  obtain ⟨ht, es, hes, hiff⟩ := h hs.1
  obtain ⟨-, es', hes', hiff'⟩ := hs.answered hr
  refine ⟨ht, es ++ es', by rw [hes, hes', List.append_assoc], ?_⟩
  rw [silent_append, unprovoked_append, hiff, hiff']

theorem Said.answered {s : World σ} (h : Said (.received r :: base) s) (hr : (Event.received r).provokes) :
    Answered base s := by
  obtain ⟨hs, m, res, htrace, hm⟩ := h
  refine ⟨hs, [.sent m res, .received r], htrace, fun hsilent => ?_, fun hun => ?_⟩
  · exact absurd hm (hsilent (.sent m res) List.mem_cons_self)
  · exact absurd hr (hun (.received r) (List.mem_cons_of_mem _ List.mem_cons_self))

/-- What a frame of the channel leaves to be done. -/
def Leftover (m : Message) (base : List Event) (action : Action) (s : World σ) : Prop :=
  m.provokes = true ∧ action = .none ∧ Said base s ∨ m.provokes = true ∧ action = .consoleRestart ∧ Quieted base s ∨
    m.provokes = false ∧ (action = .none ∨ ∃ data, action = .console data) ∧ Quieted base s

omit [Serde] in
theorem Message.provokes_eq (htopic : m.topic = consoleTopic) :
    m.provokes = ((m.event == event.reply && m.reference.isNone) || m.event == event.restart ||
      m.event == event.fileDataStart || m.event == event.fileData || m.event == event.fileDataStop) := by
  simp [Message.provokes, htopic]

theorem leftover_console (htopic : m.topic = consoleTopic) (base : List Event) :
    Spec (Quieted base) (Link.handleConsoleFrame agent m)
      (Post (Leftover m base) (fun s => m.provokes = true ∧ Said base s)) := by
  have hprov := Message.provokes_eq htopic
  have hsay : ∀ text, text.isEmpty = false → m.provokes = true →
      Spec (Quieted base) (Link.sendConsole agent text >>= fun _ => pure Action.none)
        (Post (Leftover m base) (fun s => m.provokes = true ∧ Said base s)) := by
    intro text htext hyes
    refine Spec.bind (R := fun _ => Said base) ?_ fun _ => Spec.ret fun s hs => Or.inl ⟨hyes, rfl, hs⟩
    exact Spec.mono (sendConsole_said agent htext base) (fun _ _ h => h) (fun _ h => ⟨hyes, h⟩) fun _ h => ⟨hyes, h⟩
  rintro s hs
  refine Spec.ite (P := Quieted base) (fun hreply => ?_) (fun hreply => ?_) s hs
  · have hiff : (s.own.link.consoleJoinRef = m.reference) ↔ m.provokes = true := by
      rw [hs.1.2, hprov, hreply]
      cases m.reference with
      | none => decide
      | some ref =>
        simp only [Option.isNone_some, Bool.and_false, reduceCtorEq, false_iff]
        decide
    refine Spec.ite (fun href => hsay _ (by decide) (hiff.mp href)) fun href => Spec.ret fun s hs => ?_
    exact Or.inr (Or.inr ⟨Bool.eq_false_iff.mpr fun h => href (hiff.mpr h), Or.inl rfl, hs⟩)
  refine Spec.ite (fun hdown => ?_) fun hdown => Spec.ite (fun hrestart => ?_) fun hrestart =>
    Spec.ite (fun hfile => ?_) fun hfile => ?_
  · have hno : m.provokes = false := by
      rw [hprov, hdown, show (event.down == event.reply) = false by decide, Bool.false_and]
      decide
    split
    · exact Spec.ret fun s hs => Or.inr (Or.inr ⟨hno, Or.inr ⟨_, rfl⟩, hs⟩)
    · exact Spec.ret fun s hs => Or.inr (Or.inr ⟨hno, Or.inl rfl, hs⟩)
  · refine Spec.ret fun s hs => Or.inr (Or.inl ⟨?_, rfl, hs⟩)
    rw [hprov, hrestart]
    simp
  · refine hsay _ (by decide) ?_
    rw [hprov]
    simp only [Bool.or_eq_true, decide_eq_true_eq] at hfile
    rcases hfile with (h | h) | h <;> simp [h]
  · simp only [Bool.or_eq_true, decide_eq_true_eq, not_or] at hfile
    refine Spec.ret fun s hs => Or.inr (Or.inr ⟨?_, Or.inl rfl, hs⟩)
    rw [hprov]
    simp [hreply, hrestart, hfile]

variable [Sha256]

theorem perform_leftover (hnone : agent.console = none) (base : List Event) (a : Session) (action : Action) :
    Spec (Leftover m base action) (perform agent a action)
      (Post (fun _ s => if m.provokes then Said base s else Quieted base s)
        (fun s => if m.provokes then Said base s else Quieted base s)) := by
  rintro s (⟨hyes, rfl, hs⟩ | ⟨hyes, rfl, hs⟩ | ⟨hno, rfl | ⟨data, rfl⟩, hs⟩)
  · rw [hyes]
    exact hs
  · rw [hyes]
    refine Spec.bind (P := Quieted base) (R := fun _ => Quieted base) (fun s hs => ?_) (fun _ => ?_) s hs
    · rw [hnone]
      exact hs
    · have hsaid : Spec (Quieted base) (Link.sendConsole agent ("\r\n" ++ prompt))
        (Post (fun _ => Said base) (Said base)) :=
        sendConsole_said agent (by decide) base
      exact Spec.bind (R := fun _ => Said base) hsaid fun _ => Spec.ret fun _ h => h
  · rw [hno]
    exact hs
  · rw [hno]
    refine Spec.bind (P := Quieted base) (R := fun rebooting s => rebooting = false ∧ Quieted base s) (fun s hs => ?_)
      (fun rebooting => ?_) s hs
    · unfold answerConsole
      rw [hnone]
      exact ⟨rfl, hs⟩
    · rintro s ⟨rfl, hs⟩
      exact hs

/-- What is done about a frame is an answer exactly if the frame provokes one. -/
theorem react_answered (hnone : agent.console = none) (frame : Frame) (base : List Event) (a : Session) :
    Spec (Quieted (.received (.ok (some frame)) :: base)) (attempt (Link.handle agent frame) >>= fun
        | .ok action => perform agent a action
        | .error _ => pure (.done none))
      (Post (fun _ => Answered base) (Answered base)) := by
  unfold Link.handle
  cases hdecode : Message.decodeFrame frame with
  | error text =>
    have hno : ¬(Event.received (.ok (some frame))).provokes := by
      simp [Event.provokes, Talk.heard, hdecode, Except.toOption]
    exact fun s hs => hs.answered hno
  | ok m =>
    have hprov : (Event.received (.ok (some frame))).provokes ↔ m.provokes = true := by
      simp [Event.provokes, Talk.heard, hdecode, Except.toOption]
    by_cases htopic : m.topic = consoleTopic
    · have hhandle : Spec (Quieted (.received (.ok (some frame)) :: base)) (Link.handleMessage agent m)
          (Post (Leftover m (.received (.ok (some frame)) :: base))
              (fun s => m.provokes = true ∧ Said (.received (.ok (some frame)) :: base) s)) := by
        unfold Link.handleMessage
        rw [if_neg (by rw [htopic]; decide), if_pos htopic]
        exact leftover_console htopic _
      have hdone : ∀ s : World σ, (if m.provokes then Said (.received (.ok (some frame)) :: base) s
          else Quieted (.received (.ok (some frame)) :: base) s) → Answered base s := by
        intro s hs
        split at hs
        · exact hs.answered (hprov.mpr ‹_›)
        · exact hs.answered fun h => ‹¬_› (hprov.mp h)
      refine Spec.bind (R := fun
        | .ok action => Leftover m (.received (.ok (some frame)) :: base) action
        | .error _ => fun s => m.provokes = true ∧ Said (.received (.ok (some frame)) :: base) s) ?_ fun r => ?_
      · refine (Spec.attempt hhandle).mono (fun r s hs => ?_) (fun _ h => h) fun s hs => hs.2.answered (hprov.mpr hs.1)
        cases r <;> exact hs
      · cases r with
        | ok action => exact (perform_leftover hnone _ a action).mono (fun _ s => hdone s) hdone hdone
        | error err => exact Spec.ret fun s hs => hs.2.answered (hprov.mpr hs.1)
    · have hno : ¬(Event.received (.ok (some frame))).provokes := by
        rw [hprov, Message.provokes]
        simp [htopic]
      have hreact : Keeps Hushed (attempt (Link.handleMessage agent m) >>= fun
          | .ok action => perform agent a action
          | .error _ => pure (.done none)) := by
        have h := (hushed_spans agent).react frame (fun m' hm' => ?_) a
        · unfold Link.handle at h
          rwa [hdecode] at h
        · rw [hdecode] at hm'
          cases hm'
          unfold Roams.messageKinds Roams.answerKinds
          rw [if_neg htopic, if_neg htopic]
          split
          · decide
          split
          · decide
          · decide
      exact Spec.of_state fun s hs => (hreact s).answered hs hno

theorem listen_hushed (hnone : agent.console = none) (a : Session) : Keeps Hushed (listen agent a) := by
  intro s hs
  have hlisten : Spec (Quieted s.trace) (listen agent a) (Post (fun _ => Answered s.trace) (Answered s.trace)) := by
    refine Spec.bind (R := fun r => Quieted (.received r :: s.trace)) ?_ fun r => ?_
    · exact spec_attempt_tryCall fun s env r hs => ⟨hs.1, congrArg (List.cons _) hs.2⟩
    rcases r with err | _ | frame
    · exact Spec.ret fun s hs => hs.answered (by simp [Event.provokes, Talk.heard])
    · exact Spec.ret fun s hs => hs.answered (by simp [Event.provokes, Talk.heard])
    · exact react_answered hnone frame s.trace a
  exact hlisten.state (quieted_self hs)

/-! ### Whole runs -/

omit [Serde] [Sha256] in
theorem newLink_unasked (hnone : agent.console = none) : agent.newLink = Link.new agent.config agent.metadata := by
  unfold Agent.newLink
  rw [hnone]
  rfl

theorem hushed_lasts (hnone : agent.console = none) : Lasts agent (Hushed (σ := σ)) Kind.isHushed where
  toSpans := hushed_spans agent
  kinds := by decide
  renew s := .nothing (fun _ => by rw [newLink_unasked hnone]; exact ⟨rfl, rfl⟩) rfl
  joinConsole a s hs := by
    have hidle : joinConsole agent a s = (.ret a, s) := by
      show (if (s.own.link.joined && s.own.link.consoleWanted && !a.consoleJoined) = true then _ else _ :
        Run σ Session) s = _
      rw [hs.1, Bool.and_false, Bool.false_and, if_neg (by simp)]
      rfl
    rw [hidle]
    exact hushed_admits.steps.refl s hs
  listen := listen_hushed hnone

/-- What is recorded is silent exactly if nothing provokes it. -/
def Tacit (s t : World σ) : Prop := ∃ es, t.trace = es ++ s.trace ∧ (Silent es ↔ Unprovoked es)

theorem tacit_runs (hnone : agent.console = none) : Runs agent (Tacit (σ := σ)) where
  steps := by
    refine ⟨fun s => ⟨[], rfl, by simp [Silent, Unprovoked]⟩, fun {s t u} ⟨es, hes, hiff⟩ ⟨es', hes', hiff'⟩ => ?_⟩
    refine ⟨es' ++ es, by rw [hes', hes, List.append_assoc], ?_⟩
    rw [silent_append, unprovoked_append, hiff, hiff']
  gas s g := ⟨[], rfl, by simp [Silent, Unprovoked]⟩
  between s env e he := by
    have hkinds : ∀ k ∈ runKinds, k.isHushed := by decide
    refine ⟨[e], rfl, silent_iff_of_hushed fun e' he' => ?_⟩
    rw [List.mem_singleton.mp he']
    exact hkinds _ he
  flag s _ := ⟨[], rfl, by simp [Silent, Unprovoked]⟩
  session window control s := by
    -- A session begins with a link of its own.
    let s' : World σ := { s with own := { s.own with link := Link.new agent.config agent.metadata } }
    have hsame : sessionWithin agent window control s = sessionWithin agent window control s' := by
      unfold sessionWithin openSession
      rw [← Agent.newLink, newLink_unasked hnone]
      rfl
    rw [hsame]
    exact ((hushed_lasts hnone).sessionWithin window control s' ⟨rfl, rfl⟩).2

/-- Begun with an empty record, the program leaves one that is silent exactly if nothing provoked it. -/
def SilentUnprovoked (m : Run σ Stopped) (env : σ) (own : Device) (gas : Nat) : Prop :=
  Silent (m ⟨env, own, [], gas⟩).2.trace ↔ Unprovoked (m ⟨env, own, [], gas⟩).2.trace

omit [Sha256] in
theorem Tacit.silent {m : Run σ Stopped} (h : Keeps Tacit m) (env : σ) (own : Device) (gas : Nat) :
    SilentUnprovoked m env own gas := by
  obtain ⟨es, hes, hiff⟩ := h ⟨env, own, [], gas⟩
  rw [List.append_nil] at hes
  unfold SilentUnprovoked
  rw [hes]
  exact hiff

/-- A device whose application did not ask for the terminal is silent on its channel and runs no command, in each of
    its ways to run, exactly if no frame provokes it. -/
theorem terminal_silent (agent : Agent σ) (hnone : agent.console = none) (env : σ) (own : Device) (gas : Nat) :
    SilentUnprovoked (run agent) env own gas ∧ (∀ window, SilentUnprovoked (runSession agent window) env own gas) ∧
      ∀ control, SilentUnprovoked (runSessionUntil agent control) env own gas :=
  have h := tacit_runs hnone
  ⟨Tacit.silent h.run env own gas, fun window => Tacit.silent (h.once (some window) none) env own gas,
    fun control => Tacit.silent (h.once none (some control)) env own gas⟩

end

/-! ### A reply without a ref -/

section
attribute [local instance] sha256OfByte

def consoleReply : Script :=
  ⟨"reply on the terminal's channel", ⟨none, none, consoleTopic, event.reply, .obj [("status", .string "ok")]⟩⟩

@[reducible] def silenceSerde : Serde := benchSerde [consoleReply]

attribute [local instance] silenceSerde

def oneReply : Bench := ⟨[some (.text consoleReply.text)], 20, [], 0, false, []⟩

theorem terminal_silent_bench :
    (benchAgent .none).console = none ∧
      SilentUnprovoked (run (benchAgent .none)) oneReply (benchDevice .none none) 9 ∧
      (∀ window, SilentUnprovoked (runSession (benchAgent .none) window) oneReply (benchDevice .none none) 9) ∧
      ∀ control, SilentUnprovoked (runSessionUntil (benchAgent .none) control) oneReply (benchDevice .none none) 9 :=
  ⟨rfl, terminal_silent (benchAgent .none) rfl oneReply (benchDevice .none none) 9⟩

/-- The prompt is sent to a terminal that was neither asked for nor joined. -/
theorem terminal_prompted :
    (benchAgent .none).console = none ∧
      ¬Silent (run (benchAgent .none) ⟨oneReply, benchDevice .none none, [], 9⟩).2.trace :=
  ⟨rfl, by decide +kernel⟩

end

end NervesHub
