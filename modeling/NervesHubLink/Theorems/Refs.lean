import NervesHubLink.Lib.Trace
import NervesHubLink.Theorems.Pumping
import NervesHubLink.Theorems.Replies

/-! The refs of the frames that a link writes, whatever is done to it and in whatever order: each frame has one
of its own, and the one of the join that opened its channel. -/

namespace NervesHub
open Act Prog Trace

/-! ### What was done, and what was written then -/

/-- The frames of a record, the newest first. -/
def sentFrames (t : List Event) : List Envelope := t.filterMap fun
  | .sent m _ => some m
  | _ => none

/-- An operation, with the frames that it wrote, the newest first. -/
structure Deed where
  op : LinkOp
  wrote : List Envelope

/-- The refs of the latest joins. -/
structure Labels where
  device : Option String
  extensions : Option String
  console : Option String

/-- The ref of the join of the channel with the topic. -/
def Labels.of (l : Labels) (topic : String) : Option String :=
  if topic = deviceTopic then l.device
  else if topic = extensionsTopic then l.extensions
  else if topic = consoleTopic then l.console
  else none

def Link.labels (l : Link) : Labels := ⟨l.joinRef, l.extensionsJoinRef, l.consoleJoinRef⟩

/-- The ref of the latest frame of some. -/
def latestRef (ms : List Envelope) : Option String := ms.head?.bind (·.reference)

def Labels.after (l : Labels) : Deed → Labels
  | ⟨.join _, ms⟩ => { l with device := latestRef ms }
  | ⟨.extensionsJoin, ms⟩ => { l with extensions := latestRef ms }
  | ⟨.consoleJoin, ms⟩ => { l with console := latestRef ms }
  | _ => l

/-- The refs of the joins that were sent or attempted last. What was done last comes first. -/
def lastJoins : List Deed → Labels
  | [] => ⟨none, none, none⟩
  | d :: older => (lastJoins older).after d

/-- One frame, that has a ref. -/
def Deed.One (d : Deed) (P : Envelope → Prop) : Prop := ∃ m, d.wrote = [m] ∧ m.reference.isSome ∧ P m

/-- A join of the channel has its own ref in both places. -/
def Envelope.Joins (m : Envelope) (topic : String) : Prop :=
  m.topic = topic ∧ m.event = event.join ∧ m.joinRef = m.reference

/-- A frame on a channel has a ref, and that of the channel's join. -/
structure Envelope.LabelledBy (m : Envelope) (l : Labels) : Prop where
  topic : m.topic ∈ [deviceTopic, extensionsTopic, consoleTopic]
  reference : m.reference.isSome
  joinRef : m.joinRef = l.of m.topic

/-- The frames of an operation are labelled as they should be, with `l` from what was done before. -/
def Deed.Labelled (l : Labels) (d : Deed) : Prop :=
  match d.op with
  | .join _ => d.One (·.Joins deviceTopic)
  | .extensionsJoin => d.One (·.Joins extensionsTopic)
  | .consoleJoin => d.One (·.Joins consoleTopic)
  | .heartbeat => d.One fun m => m.topic = controlTopic ∧ m.joinRef = none
  | _ => ∀ m ∈ d.wrote, m.LabelledBy l

section
variable {σ : Type} [Serde] (agent : Agent σ)

/-- The operation handles a reply to the heartbeat that was sent as `ref`. -/
def LinkOp.AnswersBeat (op : LinkOp) (ref : String) : Prop :=
  ∃ frame m, op = .handle frame ∧ Message.decodeFrame frame = .ok m ∧ m.topic = controlTopic ∧ m.event = event.reply ∧
    m.reference = some ref

/-- A heartbeat was sent, and its reply was not handled since. -/
def Unanswered (h : List Deed) : Prop :=
  ∃ newer ms older ref, h = newer ++ ⟨.heartbeat, ms⟩ :: older ∧ latestRef ms = some ref ∧
    ∀ d ∈ newer, d.op ≠ .heartbeat ∧ ¬d.op.AnswersBeat ref

/-- The frames that the operation writes. -/
def LinkOp.wrote (op : LinkOp) (s : World σ) : List Envelope :=
  (sentFrames (op.after agent s).trace).take ((sentFrames (op.after agent s).trace).length - (sentFrames s.trace).length)

/-- What is done in the order of a list, onto what was done before. -/
def performed : List LinkOp → World σ → List Deed → List Deed
  | [], _, h => h
  | op :: rest, s, h => performed rest (op.after agent s) (⟨op, op.wrote agent s⟩ :: h)

def afterAll (ops : List LinkOp) (s : World σ) : World σ := ops.foldl (fun s op => op.after agent s) s

end

/-! ### The numbers of refs -/

/-- The refs drawn after `n` others, the newest first. -/
def refsAfter (n : Nat) : Nat → List (Option String)
  | 0 => []
  | k + 1 => some (toString ((n + k + 1) % 2 ^ 64)) :: refsAfter n k

theorem refsAfter_add {n m : Nat} (k j : Nat) (h : m % 2 ^ 64 = (n + k) % 2 ^ 64) :
    refsAfter n (k + j) = refsAfter m j ++ refsAfter n k := by
  induction j with
  | zero => rfl
  | succ j ih =>
    have hmod : (n + (k + j) + 1) % 2 ^ 64 = (m + j + 1) % 2 ^ 64 := by omega
    rw [← Nat.add_assoc, refsAfter, refsAfter, ih, hmod, List.cons_append]

theorem toString_injective {m n : Nat} (h : toString m = toString n) : m = n := by
  have hlist : Nat.toDigits 10 m = Nat.toDigits 10 n := by
    rw [← Nat.toList_repr, ← Nat.toList_repr]
    exact congrArg String.toList h
  calc m = Nat.ofDigitChars 10 (Nat.toDigits 10 m) 0 := Nat.ofDigitChars_ten_toDigits.symm
    _ = Nat.ofDigitChars 10 (Nat.toDigits 10 n) 0 := by rw [hlist]
    _ = n := Nat.ofDigitChars_ten_toDigits

theorem mem_refsAfter {n k : Nat} {ref : Option String} (h : ref ∈ refsAfter n k) :
    ∃ i, i < k ∧ ref = some (toString ((n + i + 1) % 2 ^ 64)) := by
  induction k with
  | zero => cases h
  | succ k ih =>
    rcases List.mem_cons.mp h with rfl | h
    · exact ⟨k, by omega, rfl⟩
    · obtain ⟨i, hi, heq⟩ := ih h
      exact ⟨i, by omega, heq⟩

theorem nodup_refsAfter {n k : Nat} (h : k < 2 ^ 64) : (refsAfter n k).Nodup := by
  induction k with
  | zero => exact List.nodup_nil
  | succ k ih =>
    refine List.nodup_cons.mpr ⟨fun hmem => ?_, ih (by omega)⟩
    obtain ⟨i, hi, heq⟩ := mem_refsAfter hmem
    have hmod := toString_injective (Option.some.inj heq)
    omega

/-! ### What a part of the agent writes -/

/-- The frames `ms` were written, each with the next ref. -/
structure Writes {σ : Type} (ms : List Envelope) (s t : World σ) : Prop where
  frames : sentFrames t.trace = ms ++ sentFrames s.trace
  count : t.own.link.refs.next % 2 ^ 64 = (s.own.link.refs.next + ms.length) % 2 ^ 64
  refs : ms.map (·.reference) = refsAfter s.own.link.refs.next ms.length

/-- The refs that the link holds stay, and what is written is on a channel and labelled by them. -/
structure Talks {σ : Type} (s t : World σ) : Prop where
  labels : t.own.link.labels = s.own.link.labels
  beat : t.own.link.heartbeatRef = s.own.link.heartbeatRef
  writes : ∃ ms, Writes ms s t ∧ ∀ m ∈ ms, m.LabelledBy s.own.link.labels

section
variable {σ : Type} {s t u : World σ} {m : Envelope}

theorem Writes.none (hframes : sentFrames t.trace = sentFrames s.trace) (hrefs : t.own.link.refs = s.own.link.refs) :
    Writes [] s t := ⟨hframes, by rw [hrefs]; rfl, rfl⟩

theorem Writes.trans {ms ms' : List Envelope} (h : Writes ms s t) (h' : Writes ms' t u) : Writes (ms' ++ ms) s u where
  frames := by rw [h'.frames, h.frames, List.append_assoc]
  count := by
    have hst := h.count
    have htu := h'.count
    rw [List.length_append]
    omega
  refs := by
    rw [List.map_append, List.length_append, h.refs, h'.refs, Nat.add_comm ms'.length, refsAfter_add _ _ h.count]

theorem Writes.wrote [Serde] {agent : Agent σ} {op : LinkOp} {ms : List Envelope} (h : Writes ms s (op.after agent s)) :
    op.wrote agent s = ms := by
  have hcut : (ms ++ sentFrames s.trace).length - (sentFrames s.trace).length = ms.length := by
    rw [List.length_append]
    omega
  rw [LinkOp.wrote, h.frames, hcut, List.take_left' rfl]

theorem talks_steps : Steps (Talks (σ := σ)) where
  refl s := ⟨rfl, rfl, [], .none rfl rfl, nofun⟩
  trans := by
    rintro s t u ⟨hl, hb, ms, hw, hm⟩ ⟨hl', hb', ms', hw', hm'⟩
    refine ⟨hl'.trans hl, hb'.trans hb, ms' ++ ms, hw.trans hw', fun m hmem => ?_⟩
    rcases List.mem_append.mp hmem with hmem | hmem
    · exact hl ▸ hm' m hmem
    · exact hm m hmem

theorem Talks.silent (hframes : sentFrames t.trace = sentFrames s.trace) (hrefs : t.own.link.refs = s.own.link.refs)
    (hlabels : t.own.link.labels = s.own.link.labels)
    (hbeat : t.own.link.heartbeatRef = s.own.link.heartbeatRef) : Talks s t :=
  ⟨hlabels, hbeat, [], .none hframes hrefs, nofun⟩

/-- What follows a program is kept if the program, begun from elsewhere, is. -/
theorem talks_bind {α β : Type} {n : Run σ α} {k : α → Run σ β} (h : Talks s (n t).2) (hk : ∀ a, Keeps Talks (k a)) :
    Talks s ((n >>= k) t).2 := by
  rw [bind_apply]
  rcases hn : n t with ⟨o, u⟩
  rw [hn] at h
  cases o with
  | ret a => exact talks_steps.trans h (hk a u)
  | err e => exact h
  | cut => exact h

variable [Serde] {agent : Agent σ}

theorem write_writes (htrace : t.trace = s.trace) (hrefs : t.own.link.refs = s.own.link.refs.nextRef.2)
    (href : m.reference = some s.own.link.refs.nextRef.1) :
    Writes [m] s (Link.write agent m t).2 ∧ (Link.write agent m t).2.own = t.own := by
  obtain ⟨u, hown, h⟩ := write_sends agent m t
  have hwrites : ∀ r, u.trace = .sent m r :: t.trace → Writes [m] s u := fun r hr => by
    refine ⟨by rw [hr, htrace]; rfl, ?_, ?_⟩
    · rw [hown, hrefs]
      exact Nat.mod_mod _ _
    · rw [List.map_singleton, href]
      rfl
  rcases h with ⟨h, hr⟩ | ⟨e, h, hr⟩
  · rw [h]
    exact ⟨hwrites _ hr, hown⟩
  · rw [h]
    exact ⟨hwrites _ hr, hown⟩

theorem talks_write (htrace : t.trace = s.trace) (hrefs : t.own.link.refs = s.own.link.refs.nextRef.2)
    (hlabels : t.own.link.labels = s.own.link.labels) (hbeat : t.own.link.heartbeatRef = s.own.link.heartbeatRef)
    (href : m.reference = some s.own.link.refs.nextRef.1) (htopic : m.topic ∈ [deviceTopic, extensionsTopic, consoleTopic])
    (hjoin : m.joinRef = s.own.link.labels.of m.topic) : Talks s (Link.write agent m t).2 := by
  have hwrite : Writes [m] s (Link.write agent m t).2 ∧ (Link.write agent m t).2.own = t.own :=
    write_writes htrace hrefs href
  obtain ⟨hwrites, hown⟩ := hwrite
  refine ⟨by rw [hown, hlabels], by rw [hown, hbeat], [m], hwrites, List.forall_mem_singleton.mpr ⟨htopic, ?_, hjoin⟩⟩
  rw [href]
  rfl

/-! ### Sending on a channel -/

theorem talks_sendProgress (stage : Stage) (percent : Nat) : Keeps Talks (Link.sendProgress agent stage percent) :=
  fun s => talks_write (s := s) rfl rfl rfl rfl rfl (by simp) rfl

theorem talks_sendFirmwareValidated : Keeps Talks (Link.sendFirmwareValidated agent) :=
  fun s => talks_write (s := s) rfl rfl rfl rfl rfl (by simp) rfl

theorem talks_sendStatus (status : String) (extra : Value) : Keeps Talks (Link.sendStatus agent status extra) :=
  fun s => talks_write (s := s) rfl rfl rfl rfl rfl (by simp) rfl

theorem talks_sendRebooting : Keeps Talks (Link.sendRebooting agent) :=
  fun s => talks_write (s := s) rfl rfl rfl rfl rfl (by simp) rfl

theorem talks_sendConsole (text : String) : Keeps Talks (Link.sendConsole agent text) := by
  refine Keeps.ite (Keeps.pure talks_steps ()) fun s => ?_
  exact talks_write (s := s) rfl rfl rfl rfl rfl (by simp) rfl

theorem talks_sendExtension (outgoing : List Outgoing) : Keeps Talks (Link.sendExtension agent outgoing) := by
  induction outgoing with
  | nil => exact Keeps.pure talks_steps ()
  | cons out rest ih =>
    cases out with
    | send ev payload =>
      intro s
      let m : Envelope := ⟨s.own.link.extensionsJoinRef, some s.own.link.refs.nextRef.1, extensionsTopic, ev,
        .value payload⟩
      let t : World σ := { s with own := { s.own with link := { s.own.link with refs := s.own.link.refs.nextRef.2 } } }
      have hfirst : Talks s (Link.write agent m t).2 := talks_write rfl rfl rfl rfl rfl (by simp [m]) rfl
      have hboth : Talks s ((Link.write agent m >>= fun _ => Link.sendExtension agent rest) t).2 :=
        talks_bind hfirst fun _ => ih
      exact hboth
    | needLocation => exact ih
    | needHealth => exact ih

theorem talks_linkSendLogs (lines : List LogLine) : Keeps Talks (Link.sendLogs agent lines) := by
  intro s
  simp only [Link.sendLogs, NervesHub.link, gets_bind_apply]
  cases s.own.link.extensions.logBatch lines with
  | none => exact talks_sendExtension _ s
  | some batch => exact talks_write (s := s) rfl rfl rfl rfl rfl (by simp) rfl

/-! ### Handling a message -/

theorem talks_decide (payload : UpdatePayload) : Keeps Talks (Link.decide agent payload) := by
  refine Keeps.ite (Keeps.pure talks_steps _) (Keeps.bind talks_steps
    (keeps_call fun s env a => .silent rfl rfl rfl rfl) fun decision => ?_)
  cases decision with
  | apply => exact Keeps.pure talks_steps _
  | ignore reason => exact Keeps.bind talks_steps (talks_sendStatus _ _) fun _ => Keeps.pure talks_steps _
  | reschedule delayMs reason => exact Keeps.bind talks_steps (talks_sendStatus _ _) fun _ => Keeps.pure talks_steps _

theorem talks_parse (v : Value) :
    Keeps Talks (ofExcept (UpdatePayload.parse v) >>= fun payload => Link.decide agent payload) :=
  Keeps.bind talks_steps (Keeps.ofExcept talks_steps _) fun payload => talks_decide payload

theorem talks_handleReply (m : Message) : Keeps Talks (Link.handleReply agent m) := by
  refine Keeps.bind talks_steps (Keeps.gets talks_steps _) fun l => Keeps.ite (Keeps.pure talks_steps _) ?_
  refine Keeps.ite (Keeps.throw talks_steps _) ?_
  refine Keeps.bind talks_steps (Keeps.modify fun _ => .silent rfl rfl rfl rfl) fun _ => ?_
  cases m.replyResponse with
  | none => exact Keeps.pure talks_steps _
  | some response => exact talks_parse response

theorem talks_handleExtensionFrame (m : Message) : Keeps Talks (Link.handleExtensionFrame agent m) := by
  refine Keeps.bind talks_steps (Keeps.gets talks_steps _) fun l => Keeps.ite (Keeps.ite ?_ (Keeps.pure talks_steps _)) ?_
  · refine Keeps.bind talks_steps (keeps_update fun s => .silent rfl rfl rfl rfl) fun confirmations => ?_
    exact Keeps.bind talks_steps (talks_sendExtension confirmations) fun _ => Keeps.pure talks_steps _
  · split <;> exact Keeps.pure talks_steps _

theorem talks_handleConsoleFrame (m : Message) : Keeps Talks (Link.handleConsoleFrame agent m) := by
  have hsay : ∀ text, Keeps Talks (Link.sendConsole agent text >>= fun _ => pure Action.none) := fun text =>
    Keeps.bind talks_steps (talks_sendConsole text) fun _ => Keeps.pure talks_steps _
  refine Keeps.bind talks_steps (Keeps.gets talks_steps _) fun l =>
    Keeps.ite (Keeps.ite (hsay _) (Keeps.pure talks_steps _)) ?_
  refine Keeps.ite ?_ (Keeps.ite (Keeps.pure talks_steps _) (Keeps.ite (hsay _) (Keeps.pure talks_steps _)))
  split <;> exact Keeps.pure talks_steps _

omit [Serde] in
theorem talks_modifyLink {f : Link → Link} (hf : ∀ l, (f l).refs = l.refs ∧ (f l).labels = l.labels ∧
    (f l).heartbeatRef = l.heartbeatRef)
    (a : Action) : Keeps Talks (modifyLink f >>= fun _ => pure a : Run σ Action) :=
  Keeps.bind talks_steps (Keeps.modify fun _ => .silent rfl (hf _).1 (hf _).2.1 (hf _).2.2) fun _ =>
    Keeps.pure talks_steps _

theorem talks_handleDeviceFrame (m : Message) : Keeps Talks (Link.handleDeviceFrame agent m) := by
  refine Keeps.ite (talks_handleReply m) (Keeps.ite (talks_parse _) (Keeps.ite (Keeps.pure talks_steps _) ?_))
  refine Keeps.ite (Keeps.pure talks_steps _) (Keeps.ite ?_ (Keeps.ite ?_ (Keeps.pure talks_steps _)))
  all_goals
    refine talks_modifyLink ?_ _
    exact fun _ => ⟨rfl, rfl, rfl⟩

/-- What answers the heartbeat whose ref is `beat`. -/
def Message.answersHeartbeat (m : Message) (beat : Option String) : Bool :=
  m.topic == controlTopic && m.event == event.reply && m.reference.isSome && m.reference == beat

/-- What a message leaves: no heartbeat is waiting any more if it answers the one that was. -/
structure Hears (m : Message) (s t : World σ) : Prop where
  labels : t.own.link.labels = s.own.link.labels
  beat : t.own.link.heartbeatRef = if m.answersHeartbeat s.own.link.heartbeatRef then none else s.own.link.heartbeatRef
  writes : ∃ ms, Writes ms s t ∧ ∀ m ∈ ms, m.LabelledBy s.own.link.labels

omit [Serde] in
theorem Talks.hears {m : Message} (h : Talks s t) (hm : m.topic ≠ controlTopic) : Hears m s t := by
  have hno : m.answersHeartbeat s.own.link.heartbeatRef = false := by simp [Message.answersHeartbeat, hm]
  exact ⟨h.labels, by rw [hno]; exact h.beat, h.writes⟩

omit [Serde] in
theorem controlFrame_hears {m : Message} (hm : m.topic = controlTopic) :
    Keeps (Hears m) (Link.handleControlFrame m : Run σ Action) := by
  intro s
  have hans : m.answersHeartbeat s.own.link.heartbeatRef =
      (m.event = event.reply && m.reference.isSome && m.reference = s.own.link.heartbeatRef : Bool) := by
    simp [Message.answersHeartbeat, hm, beq_eq_decide]
  cases hbeat : m.answersHeartbeat s.own.link.heartbeatRef with
  | true =>
    rw [hbeat] at hans
    have hrun : Link.handleControlFrame m s =
        (.ret .none, { s with own := { s.own with link := { s.own.link with heartbeatRef := none } } }) := by
      simp only [Link.handleControlFrame, modifyLink, modifyOwn, modify_bind_apply, ← hans, if_true, pure_apply]
    rw [hrun]
    exact ⟨rfl, by rw [hbeat]; rfl, [], .none rfl rfl, List.forall_mem_nil _⟩
  | false =>
    rw [hbeat] at hans
    have hrun : Link.handleControlFrame m s = (.ret .none, s) := by
      simp only [Link.handleControlFrame, modifyLink, modifyOwn, modify_bind_apply, ← hans, Bool.false_eq_true,
        if_false, pure_apply]
    rw [hrun]
    exact ⟨rfl, by rw [hbeat]; rfl, [], .none rfl rfl, List.forall_mem_nil _⟩

theorem handleMessage_hears (m : Message) : Keeps (Hears m) (Link.handleMessage agent m) := by
  intro s
  unfold Link.handleMessage
  split_ifs with hext hcon hcontrol
  · exact (talks_handleExtensionFrame m s).hears (by rw [hext]; decide)
  · exact (talks_handleConsoleFrame m s).hears (by rw [hcon]; decide)
  · exact controlFrame_hears hcontrol s
  · exact (talks_handleDeviceFrame m s).hears hcontrol

/-! ### What an operation does -/

/-- The ref of the heartbeat that waits for its reply. -/
def beatAfter (beat : Option String) : Deed → Option String
  | ⟨.heartbeat, ms⟩ => latestRef ms
  | ⟨.handle frame, _⟩ =>
    match Message.decodeFrame frame with
    | .ok m => if m.answersHeartbeat beat then none else beat
    | .error _ => beat
  | _ => beat

/-- Between the states before and after a deed. -/
structure Effect (d : Deed) (s t : World σ) : Prop where
  writes : Writes d.wrote s t
  labels : t.own.link.labels = s.own.link.labels.after d
  beat : t.own.link.heartbeatRef = beatAfter s.own.link.heartbeatRef d
  labelled : d.Labelled s.own.link.labels

/-- An operation that only sends on the channels. -/
theorem Talks.effect {op : LinkOp} (h : Talks s t) (hlabels : ∀ l ms, Labels.after l ⟨op, ms⟩ = l)
    (hbeat : ∀ b ms, beatAfter b ⟨op, ms⟩ = b)
    (hlabelled : ∀ l ms, (∀ m ∈ ms, m.LabelledBy l) → Deed.Labelled l ⟨op, ms⟩) : ∃ ms, Effect ⟨op, ms⟩ s t := by
  obtain ⟨hl, hb, ms, hwrites, hms⟩ := h
  exact ⟨ms, hwrites, by rw [hl, hlabels], by rw [hb, hbeat], hlabelled _ ms hms⟩

theorem handle_effect (frame : Frame) (s : World σ) :
    ∃ ms, Effect ⟨.handle frame, ms⟩ s ((LinkOp.handle frame).after agent s) := by
  cases hdecode : Message.decodeFrame frame with
  | error text =>
    rw [after_undecoded agent hdecode]
    refine ⟨[], .none rfl rfl, rfl, ?_, fun m hm => by cases hm⟩
    simp only [beatAfter, hdecode]
  | ok m =>
    rw [after_eq, Link.handle, hdecode]
    obtain ⟨hlabels, hbeat, ms, hwrites, hms⟩ := handleMessage_hears m s
    refine ⟨ms, hwrites, hlabels, ?_, hms⟩
    simp only [beatAfter, hdecode]
    exact hbeat

theorem perform_effect (agent : Agent σ) (op : LinkOp) (s : World σ) : ∃ ms, Effect ⟨op, ms⟩ s (op.after agent s) := by
  -- what the four operations that keep a ref write, once the ref is kept
  have hone : ∀ {m : Envelope} {t : World σ}, t.trace = s.trace → t.own.link.refs = s.own.link.refs.nextRef.2 →
      m.reference = some s.own.link.refs.nextRef.1 →
      Writes [m] s (Link.write agent m t).2 ∧ (Link.write agent m t).2.own = t.own := write_writes
  let l : Link := { s.own.link with refs := s.own.link.refs.nextRef.2 }
  let ref := s.own.link.refs.nextRef.1
  cases op with
  | wantConsole =>
    have h : Talks s (LinkOp.wantConsole.after agent s) := .silent rfl rfl rfl rfl
    exact h.effect (fun _ _ => rfl) (fun _ _ => rfl) fun _ _ h => h
  | setDownloading uuid =>
    have h : Talks s ((LinkOp.setDownloading uuid).after agent s) := .silent rfl rfl rfl rfl
    exact h.effect (fun _ _ => rfl) (fun _ _ => rfl) fun _ _ h => h
  | join boot =>
    let t : World σ := { s with own := { s.own with link := { l with joinRef := some ref, joined := false } } }
    let m : Envelope := ⟨some ref, some ref, deviceTopic, event.join,
      .value (l.metadata.joinParams l.config.deviceApiVersion l.downloading boot)⟩
    obtain ⟨hwrites, hown⟩ := hone (m := m) (t := t) rfl rfl rfl
    have hafter : (LinkOp.join boot).after agent s = (Link.write agent m t).2 := rfl
    rw [hafter]
    exact ⟨[m], hwrites, by rw [hown]; rfl, by rw [hown]; rfl, m, rfl, rfl, rfl, rfl, rfl⟩
  | heartbeat =>
    let t : World σ := { s with own := { s.own with link := { l with heartbeatRef := some ref } } }
    let m : Envelope := ⟨none, some ref, controlTopic, event.heartbeat, .value (.obj [])⟩
    obtain ⟨hwrites, hown⟩ := hone (m := m) (t := t) rfl rfl rfl
    have hafter : LinkOp.heartbeat.after agent s = (Link.write agent m t).2 := rfl
    rw [hafter]
    exact ⟨[m], hwrites, by rw [hown]; rfl, by rw [hown]; rfl, m, rfl, rfl, rfl, rfl⟩
  | consoleJoin =>
    let t : World σ := { s with own := { s.own with link := { l with consoleJoinRef := some ref } } }
    let m : Envelope := ⟨some ref, some ref, consoleTopic, event.join,
      .value (.obj [("console_version", .string consoleVersion)])⟩
    obtain ⟨hwrites, hown⟩ := hone (m := m) (t := t) rfl rfl rfl
    have hafter : LinkOp.consoleJoin.after agent s = (Link.write agent m t).2 := rfl
    rw [hafter]
    exact ⟨[m], hwrites, by rw [hown]; rfl, by rw [hown]; rfl, m, rfl, rfl, rfl, rfl, rfl⟩
  | extensionsJoin =>
    let t : World σ := { s with own := { s.own with link := { l with extensionsJoinRef := some ref } } }
    let m : Envelope := ⟨some ref, some ref, extensionsTopic, event.join, .value l.extensions.joinParams⟩
    obtain ⟨hwrites, hown⟩ := hone (m := m) (t := t) rfl rfl rfl
    have hafter : LinkOp.extensionsJoin.after agent s = (Link.write agent m t).2 := rfl
    rw [hafter]
    exact ⟨[m], hwrites, by rw [hown]; rfl, by rw [hown]; rfl, m, rfl, rfl, rfl, rfl, rfl⟩
  | progress stage percent =>
    exact (talks_sendProgress stage percent s).effect (fun _ _ => rfl) (fun _ _ => rfl) fun _ _ h => h
  | firmwareValidated => exact (talks_sendFirmwareValidated s).effect (fun _ _ => rfl) (fun _ _ => rfl) fun _ _ h => h
  | status text extra => exact (talks_sendStatus text extra s).effect (fun _ _ => rfl) (fun _ _ => rfl) fun _ _ h => h
  | rebooting => exact (talks_sendRebooting s).effect (fun _ _ => rfl) (fun _ _ => rfl) fun _ _ h => h
  | console text => exact (talks_sendConsole text s).effect (fun _ _ => rfl) (fun _ _ => rfl) fun _ _ h => h
  | extension outgoing => exact (talks_sendExtension outgoing s).effect (fun _ _ => rfl) (fun _ _ => rfl) fun _ _ h => h
  | log line =>
    have h : Keeps Talks (Link.sendLog agent line) :=
      Keeps.bind talks_steps (Keeps.gets talks_steps _) fun l => talks_sendExtension _
    exact (h s).effect (fun _ _ => rfl) (fun _ _ => rfl) fun _ _ h => h
  | logs lines => exact (talks_linkSendLogs lines s).effect (fun _ _ => rfl) (fun _ _ => rfl) fun _ _ h => h
  | handle frame => exact handle_effect frame s

/-! ### Over any sequence of operations -/

def allFrames (h : List Deed) : List Envelope := h.flatMap (·.wrote)

/-- The ref of the heartbeat that waits for its reply, from what was done. -/
def lastBeat : List Deed → Option String
  | [] => none
  | d :: older => beatAfter (lastBeat older) d

/-- A history agrees with the state it led to. -/
structure Agrees (h : List Deed) (s : World σ) : Prop where
  frames : sentFrames s.trace = allFrames h
  count : s.own.link.refs.next % 2 ^ 64 = (allFrames h).length % 2 ^ 64
  refs : (allFrames h).map (·.reference) = refsAfter 0 (allFrames h).length
  labels : s.own.link.labels = lastJoins h
  beat : s.own.link.heartbeatRef = lastBeat h
  labelled : Throughout (fun d older => d.Labelled (lastJoins older)) h

theorem Agrees.step {h : List Deed} {d : Deed} (ha : Agrees h s) (he : Effect d s t) : Agrees (d :: h) t where
  frames := by rw [he.writes.frames, ha.frames]; rfl
  count := by
    have hst := he.writes.count
    have hs := ha.count
    have hlen : (allFrames (d :: h)).length = d.wrote.length + (allFrames h).length := by
      rw [allFrames, List.flatMap_cons, List.length_append]
      rfl
    omega
  refs := by
    have hlen : (0 + (allFrames h).length) % 2 ^ 64 = s.own.link.refs.next % 2 ^ 64 := by rw [Nat.zero_add, ha.count]
    have hall : allFrames (d :: h) = d.wrote ++ allFrames h := rfl
    rw [hall, List.map_append, List.length_append, ha.refs, he.writes.refs, Nat.add_comm d.wrote.length,
      refsAfter_add _ _ hlen.symm]
  labels := by rw [he.labels, ha.labels]; rfl
  beat := by rw [he.beat, ha.beat]; rfl
  labelled := throughout_cons.mpr ⟨ha.labels ▸ he.labelled, ha.labelled⟩

theorem performed_agrees (agent : Agent σ) (ops : List LinkOp) {h : List Deed} (ha : Agrees h s) :
    Agrees (performed agent ops s h) (afterAll agent ops s) := by
  induction ops generalizing s h with
  | nil => exact ha
  | cons op rest ih =>
    obtain ⟨ms, he⟩ := perform_effect agent op s
    have hwrote : op.wrote agent s = ms := he.writes.wrote
    rw [performed, hwrote]
    exact ih (ha.step he)

omit [Serde] in
theorem answersHeartbeat_iff {m : Message} {beat : Option String} {ref : String} (hbeat : beat = some ref) :
    m.answersHeartbeat beat = true ↔ m.topic = controlTopic ∧ m.event = event.reply ∧ m.reference = some ref := by
  subst hbeat
  simp only [Message.answersHeartbeat, Bool.and_eq_true, beq_iff_eq]
  constructor
  · rintro ⟨⟨⟨htopic, hevent⟩, -⟩, href⟩
    exact ⟨htopic, hevent, href⟩
  · rintro ⟨htopic, hevent, href⟩
    exact ⟨⟨⟨htopic, hevent⟩, by rw [href]; rfl⟩, href⟩

/-- A heartbeat is left waiting by being sent, or by a deed that does not answer it. -/
theorem beatAfter_eq_some {beat : Option String} {d : Deed} {ref : String} : beatAfter beat d = some ref ↔
    (d.op = .heartbeat ∧ latestRef d.wrote = some ref) ∨ (d.op ≠ .heartbeat ∧ beat = some ref ∧ ¬d.op.AnswersBeat ref) := by
  obtain ⟨op, ms⟩ := d
  cases op with
  | heartbeat => simp [beatAfter]
  | handle frame =>
    have hop : LinkOp.handle frame ≠ .heartbeat := nofun
    cases hdecode : Message.decodeFrame frame with
    | error text =>
      have hno : ¬(LinkOp.handle frame).AnswersBeat ref := by
        rintro ⟨frame', m, heq, hm, -⟩
        cases heq
        cases hdecode.symm.trans hm
      simp [beatAfter, hdecode, hno]
    | ok m =>
      have hans : (LinkOp.handle frame).AnswersBeat ref ↔ m.topic = controlTopic ∧ m.event = event.reply ∧
          m.reference = some ref := by
        constructor
        · rintro ⟨frame', m', heq, hm, h⟩
          cases heq
          cases hdecode.symm.trans hm
          exact h
        · exact fun h => ⟨frame, m, rfl, hdecode, h⟩
      simp only [beatAfter, hdecode, hop, ne_eq, not_false_iff, true_and, false_and, false_or]
      by_cases hbeat : beat = some ref
      · rw [hans, ← answersHeartbeat_iff hbeat]
        cases m.answersHeartbeat beat <;> simp [hbeat]
      · cases m.answersHeartbeat beat <;> simp [hbeat]
  | _ =>
    refine ⟨fun h => Or.inr ⟨nofun, h, ?_⟩, ?_⟩
    · rintro ⟨frame, m, heq, -⟩
      cases heq
    · rintro (⟨heq, -⟩ | ⟨-, h, -⟩)
      · cases heq
      · exact h

/-- The heartbeat that a history leaves waiting is the latest, if its reply was not handled since. -/
theorem lastBeat_eq_some {h : List Deed} {ref : String} : lastBeat h = some ref ↔
    ∃ newer ms older, h = newer ++ ⟨.heartbeat, ms⟩ :: older ∧ latestRef ms = some ref ∧
      ∀ d ∈ newer, d.op ≠ .heartbeat ∧ ¬d.op.AnswersBeat ref := by
  induction h with
  | nil => exact iff_of_false nofun (by rintro ⟨newer, ms, older, heq, -⟩; simp at heq)
  | cons d older ih =>
    rw [lastBeat, beatAfter_eq_some, ih]
    constructor
    · rintro (⟨hop, href⟩ | ⟨hop, ⟨newer, ms, older', rfl, href, hnewer⟩, hans⟩)
      · obtain ⟨op, ms⟩ := d
        cases hop
        exact ⟨[], ms, older, rfl, href, nofun⟩
      · exact ⟨d :: newer, ms, older', rfl, href, List.forall_mem_cons.mpr ⟨⟨hop, hans⟩, hnewer⟩⟩
    · rintro ⟨newer, ms, older', heq, href, hnewer⟩
      cases newer with
      | nil =>
        cases heq
        exact Or.inl ⟨rfl, href⟩
      | cons d' newer =>
        cases heq
        obtain ⟨⟨hop, hans⟩, hnewer⟩ := List.forall_mem_cons.mp hnewer
        exact Or.inr ⟨hop, ⟨newer, ms, older', rfl, href, hnewer⟩, hans⟩

theorem isSome_lastBeat {h : List Deed} : (lastBeat h).isSome ↔ Unanswered h := by
  rw [Option.isSome_iff_exists]
  constructor
  · rintro ⟨ref, href⟩
    obtain ⟨newer, ms, older, h⟩ := lastBeat_eq_some.mp href
    exact ⟨newer, ms, older, ref, h⟩
  · rintro ⟨newer, ms, older, ref, h⟩
    exact ⟨ref, lastBeat_eq_some.mpr ⟨newer, ms, older, h⟩⟩

def newWorld (agent : Agent σ) (env : σ) (own : Device) (gas : Nat) : World σ :=
  ⟨env, { own with link := .new agent.config agent.metadata }, [], gas⟩

/-- Whatever is done to a new link, in whatever order: no two of the frames that it writes have the same ref, before
    2^64 of them; each has the ref of the join of its channel; and a heartbeat is unanswered exactly if one was sent,
    and no reply to the latest was handled since. -/
theorem refs_labelled (agent : Agent σ) (ops : List LinkOp) (env : σ) (own : Device) (gas : Nat) :
    sentFrames (afterAll agent ops (newWorld agent env own gas)).trace =
        allFrames (performed agent ops (newWorld agent env own gas) []) ∧
      ((allFrames (performed agent ops (newWorld agent env own gas) [])).length < 2 ^ 64 →
        ((allFrames (performed agent ops (newWorld agent env own gas) [])).map (·.reference)).Nodup) ∧
      Throughout (fun d older => d.Labelled (lastJoins older)) (performed agent ops (newWorld agent env own gas) []) ∧
      ((afterAll agent ops (newWorld agent env own gas)).own.link.heartbeatUnanswered = true ↔
        Unanswered (performed agent ops (newWorld agent env own gas) [])) := by
  have hstart : Agrees [] (newWorld agent env own gas) := ⟨rfl, rfl, rfl, rfl, rfl, throughout_nil⟩
  have h := performed_agrees agent ops hstart
  refine ⟨h.frames, fun hlen => ?_, h.labelled, ?_⟩
  · rw [h.refs]
    exact nodup_refsAfter hlen
  · rw [Link.heartbeatUnanswered, h.beat]
    exact isSome_lastBeat

end

end NervesHub
