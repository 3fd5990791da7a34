import NervesHubLink.Theorems.Footprint

/-! What a session may do, from its first join to its end, and what whole runs may do: a preorder that allows
the kinds of event in question is kept throughout. -/

namespace NervesHub
open Act Prog

section
variable {σ : Type}

/-- `R` also goes along with what a session does to its link and to its flag, the terminal's join apart. -/
structure Roams (R : World σ → World σ → Prop) (p : Kind → Prop) : Prop extends Hosts R p where
  flag : ∀ s joined, R s { s with own := { s.own with joined := joined } }
  relink : ∀ s joinRef extensionsJoinRef extensions joined, R s { s with own := { s.own with link := { s.own.link with
    joinRef := joinRef, extensionsJoinRef := extensionsJoinRef, extensions := extensions, joined := joined } } }

variable {agent : Agent σ} {R : World σ → World σ → Prop} {p : Kind → Prop}

/-- The link that a session begins with. -/
def Agent.newLink (agent : Agent σ) : Link :=
  if agent.console.isSome then (Link.new agent.config agent.metadata).wantConsole else .new agent.config agent.metadata

/-- Nothing is ever taken back from the record. -/
def Grows (s t : World σ) : Prop := s.trace <:+ t.trace

theorem grows_admits : Admits (Grows (σ := σ)) (fun _ => True) where
  steps := ⟨fun _ => List.suffix_refl _, fun hst htu => hst.trans htu⟩
  gas _ _ := List.suffix_refl _
  calls _ _ _ _ := List.suffix_append _ _
  aside _ _ _ := List.suffix_refl _
  reader _ _ _ := List.suffix_refl _

theorem grows_allows [Serde] (agent : Agent σ) : Allows agent (Grows (σ := σ)) (fun _ => True) :=
  grows_admits.allows (fun _ _ => List.suffix_refl _) (fun _ _ => List.suffix_refl _) (fun _ _ => List.suffix_refl _)
    fun _ _ => trivial

namespace Roams
open Allows Admits

/-! ### What a turn does before it waits -/

variable [Serde]

def confirmKinds : List Kind := [.clock, .pendingVerify, .markedValid, .validated]

theorem confirm (h : Roams R p) (hp : ∀ k ∈ confirmKinds, p k) (a : Session) : Keeps R (confirm agent a) := by
  have hconfirm : Keeps R (confirmRunningImage agent) := by
    refine Keeps.bind h.steps (h.callOne fun _ => hp .pendingVerify (by decide)) fun pending => ?_
    refine Keeps.bind h.steps (Keeps.when h.steps fun _ => h.tryCallOne fun _ => hp .markedValid (by decide)) fun _ => ?_
    exact Keeps.bind h.steps h.nextRef fun _ => h.send event.firmwareValidated (hp .validated (by decide)) _ _
  refine Keeps.bind h.steps h.link fun l => Keeps.ite ?_ (Keeps.pure h.steps _)
  refine Keeps.bind h.steps (fun s => h.flag s true) fun _ => ?_
  refine Keeps.bind h.steps (h.nowMs (hp _ (by decide))) fun now => ?_
  exact Keeps.bind h.steps hconfirm fun _ => Keeps.pure h.steps _

theorem joinExtensions (h : Roams R p) (hp : ∀ k ∈ [Kind.clock, .extensionsJoin], p k) (a : Session) :
    Keeps R (joinExtensions agent a) := by
  have hoverdue : Keeps R (invitationOverdue agent a) := by
    unfold invitationOverdue
    cases a.joinedAt with
    | none => exact Keeps.pure h.steps _
    | some joinedAt => exact Keeps.bind h.steps (h.nowMs (hp _ (by decide))) fun _ => Keeps.pure h.steps _
  refine Keeps.bind h.steps hoverdue fun overdue => Keeps.bind h.steps h.link fun l => ?_
  refine Keeps.ite (Keeps.bind h.steps ?_ fun _ => Keeps.pure h.steps _) (Keeps.pure h.steps _)
  refine Keeps.bind h.steps h.nextRef fun reference => ?_
  refine Keeps.bind h.steps (fun s => h.relink s _ (some reference) _ _) fun _ => ?_
  exact Keeps.bind h.steps h.link fun l => h.write (hp .extensionsJoin (by decide))

/-- Where the ref of the terminal's join is of no concern, it may be joined. -/
theorem joinConsole (h : Roams R p) (hp : p .consoleJoin)
    (href : ∀ s ref, R s { s with own := { s.own with link := { s.own.link with consoleJoinRef := ref } } }) (a : Session) :
    Keeps R (joinConsole agent a) := by
  refine Keeps.bind h.steps h.link fun l => Keeps.ite ?_ (Keeps.pure h.steps _)
  refine Keeps.bind h.steps ?_ fun _ => Keeps.pure h.steps _
  refine Keeps.bind h.steps h.nextRef fun reference => ?_
  exact Keeps.bind h.steps (fun s => href s (some reference)) fun _ => h.write hp

theorem heartbeat (h : Roams R p) (hbeat : AnyBeat R) (hp : p .heartbeat) (now : Nat) (a : Session) :
    Keeps R (heartbeat agent now a) := by
  refine Keeps.ite (Keeps.bind h.steps h.link fun l => Keeps.ite (Keeps.throw h.steps _) ?_) (Keeps.pure h.steps _)
  exact Keeps.bind h.steps (h.sendHeartbeat hbeat hp) fun _ => Keeps.pure h.steps _

/-! ### What it does then -/

def controlKinds : List Kind := [.controlled, .healthRead, .healthReport]

theorem askControl (h : Roams R p) (hp : ∀ k ∈ controlKinds, p k) (control : Option (σ → Control × σ)) :
    Keeps R (askControl agent control) := by
  cases control with
  | none => exact Keeps.pure h.steps _
  | some ask =>
    refine Keeps.bind h.steps (h.callOne fun _ => hp .controlled (by decide)) fun answer => ?_
    cases answer with
    | stay => exact Keeps.pure h.steps _
    | leave => exact Keeps.pure h.steps _
    | reportHealth =>
      refine Keeps.bind h.steps h.link fun l => Keeps.bind h.steps (Keeps.when h.steps fun _ => ?_) fun _ =>
        Keeps.pure h.steps _
      refine h.answerExtension _ fun need hneed kd hkd => hp kd ?_
      rw [List.mem_singleton.mp hneed] at hkd
      exact List.mem_cons_of_mem _ hkd

/-! ### A frame, and what it asks for -/

def deviceKinds : List Kind := [.decided, .status]

theorem decide (h : Roams R p) (hp : ∀ k ∈ deviceKinds, p k) (payload : UpdatePayload) :
    Keeps R (Link.decide agent payload) := by
  have hstatus : ∀ status extra, Keeps R (Link.sendStatus agent status extra >>= fun _ => pure Action.none) :=
    fun status extra =>
      Keeps.bind h.steps (h.sendStatus (hp .status (by decide)) status extra) fun _ => Keeps.pure h.steps _
  refine Keeps.ite (Keeps.pure h.steps _) ?_
  refine Keeps.bind h.steps (h.callOne fun _ => hp .decided (by decide)) fun decision => ?_
  cases decision with
  | apply => exact Keeps.pure h.steps _
  | ignore reason => exact hstatus _ _
  | reschedule delayMs reason => exact hstatus _ _

theorem handleDeviceFrame (h : Roams R p) (hp : ∀ k ∈ deviceKinds, p k) (m : Message) :
    Keeps R (Link.handleDeviceFrame agent m) := by
  have hparse : ∀ v, Keeps R (ofExcept (UpdatePayload.parse v) >>= fun payload => Link.decide agent payload) := fun v =>
    Keeps.bind h.steps (Keeps.ofExcept h.steps _) fun payload => h.decide hp payload
  have hreply : Keeps R (Link.handleReply agent m) := by
    refine Keeps.bind h.steps h.link fun l => Keeps.ite (Keeps.pure h.steps _) (Keeps.ite (Keeps.throw h.steps _) ?_)
    refine Keeps.bind h.steps (fun s => h.relink s _ _ _ true) fun _ => ?_
    cases m.replyResponse with
    | none => exact Keeps.pure h.steps _
    | some response => exact hparse response
  refine Keeps.ite hreply (Keeps.ite (hparse _) (Keeps.ite (Keeps.pure h.steps _) (Keeps.ite (Keeps.pure h.steps _) ?_)))
  refine Keeps.ite (Keeps.bind h.steps (fun s => h.relink s _ _ _ _) fun _ => Keeps.pure h.steps _) ?_
  exact Keeps.ite (Keeps.bind h.steps (fun s => h.relink s _ _ _ false) fun _ => Keeps.pure h.steps _)
    (Keeps.pure h.steps _)

theorem handleExtensionFrame (h : Roams R p) (hp : p .extension) (m : Message) :
    Keeps R (Link.handleExtensionFrame agent m) := by
  refine Keeps.bind h.steps h.link fun l => Keeps.ite (Keeps.ite ?_ (Keeps.pure h.steps _)) ?_
  · let Q : List Outgoing → Prop := fun confirmations => ∀ ev payload, .send ev payload ∈ confirmations →
      extensionKind ev = .extension
    refine Keeps.bind_returns (Q := Q) h.steps (keeps_update fun s => h.relink s _ _ _ _) ?_ fun confirmations hconf => ?_
    · intro s confirmations t hs ev payload hmem
      cases hs
      obtain ⟨key, -, heq⟩ := List.mem_map.mp hmem
      cases heq
      exact extensionKind_attached key
    · refine Keeps.bind h.steps (h.sendExtension _ fun ev payload hmem => ?_) fun _ => Keeps.pure h.steps _
      rw [hconf ev payload hmem]
      exact hp
  · split
    · exact Keeps.pure h.steps _
    · exact Keeps.pure h.steps _

/-- The kinds of event that handling a message may record. -/
def messageKinds (m : Message) : List Kind :=
  if m.topic = extensionsTopic then [.extension]
  else if m.topic = consoleTopic then [.terminal]
  else if m.topic = controlTopic then []
  else deviceKinds

theorem handleMessage (h : Roams R p) {m : Message} (hbeat : m.topic = controlTopic → AnyBeat R)
    (hp : ∀ k ∈ messageKinds m, p k) : Keeps R (Link.handleMessage agent m) := by
  unfold Link.handleMessage
  unfold messageKinds at hp
  split at hp
  · rename_i htopic
    rw [if_pos htopic]
    exact h.handleExtensionFrame (hp _ (by decide)) m
  rename_i hext
  rw [if_neg hext]
  split at hp
  · rename_i htopic
    rw [if_pos htopic]
    exact h.handleConsoleFrame (hp _ (by decide)) m
  rename_i hcon
  rw [if_neg hcon]
  split at hp
  · rename_i htopic
    rw [if_pos htopic]
    exact h.handleControlFrame (hbeat htopic) m
  rename_i hcontrol
  rw [if_neg hcontrol]
  exact h.handleDeviceFrame hp m

variable [Sha256]

/-- The kinds of event that doing what a frame asked for may record. -/
def actionKinds : Action → List Kind
  | .applyUpdate _ => .clock :: applyKinds
  | .reboot => [.rebooting, .restarted]
  | .identify => [.identified]
  | .console _ => Hosts.consoleKinds
  | .consoleRestart => [.terminal]
  | .extension needs => needs.flatMap needKinds
  | .reconnect | .none => []

theorem performShort (h : Roams R p) {action : Action} (hp : ∀ k ∈ actionKinds action, p k)
    (hshort : ∀ update, action ≠ .applyUpdate update) (a : Session) : Keeps R (perform agent a action) := by
  cases action with
  | applyUpdate update => exact absurd rfl (hshort update)
  | reboot =>
    refine Keeps.bind h.steps (h.sendRebooting (hp _ (by decide))) fun _ => ?_
    exact Keeps.bind h.steps (h.restart (hp _ (by decide))) fun _ => Keeps.pure h.steps _
  | identify =>
    unfold perform
    cases agent.identify with
    | none => exact Keeps.pure h.steps _
    | some identify =>
      exact Keeps.bind h.steps (h.callOne fun _ => hp .identified (by decide)) fun _ => Keeps.pure h.steps _
  | console data =>
    refine Keeps.bind h.steps (h.answerConsole hp data) fun rebooting => ?_
    exact Keeps.ite (Keeps.pure h.steps _) (Keeps.pure h.steps _)
  | consoleRestart =>
    refine Keeps.bind h.steps (Keeps.when h.steps fun _ => fun s => h.reader (hp .terminal (by decide)) s _) fun _ => ?_
    exact Keeps.bind h.steps (h.sendConsole (hp _ (by decide)) _) fun _ => Keeps.pure h.steps _
  | reconnect => exact Keeps.pure h.steps _
  | extension needs =>
    refine Keeps.bind h.steps (h.answerExtension needs fun need hneed kd hkd => hp kd ?_) fun _ => Keeps.pure h.steps _
    exact List.mem_flatMap.mpr ⟨need, hneed, hkd⟩
  | none => exact Keeps.pure h.steps _

/-- The kinds of event that come of what a message asks for. -/
def answerKinds (m : Message) : List Kind :=
  if m.topic = extensionsTopic then [.located, .extension, .healthRead, .healthReport]
  else if m.topic = consoleTopic then Hosts.consoleKinds
  else if m.topic = controlTopic then []
  else .clock :: .identified :: applyKinds

omit [Sha256] in
theorem handleMessage_returns (m : Message) :
    Returns (fun action => ∀ k ∈ actionKinds action, k ∈ answerKinds m) (Link.handleMessage agent m) := by
  have hnone : ∀ k ∈ actionKinds .none, k ∈ answerKinds m := fun k hk => by cases hk
  unfold Link.handleMessage
  split
  · rename_i htopic
    have hkinds : answerKinds m = [.located, .extension, .healthRead, .healthReport] := if_pos htopic
    refine Returns.bind fun l => Returns.ite (Returns.ite ?_ (Returns.pure hnone)) ?_
    · exact Returns.bind fun _ => Returns.bind fun _ => Returns.pure hnone
    split
    · exact Returns.pure hnone
    · rename_i outgoing heq
      refine Returns.pure fun k hk => ?_
      obtain ⟨need, hneed, hk⟩ := List.mem_flatMap.mp hk
      rw [hkinds]
      unfold Extensions.onEvent at hneed
      split at hneed
      · rw [List.mem_singleton.mp hneed] at hk
        simp only [needKinds, List.mem_cons, List.not_mem_nil, or_false] at hk
        rcases hk with rfl | rfl <;> decide
      split at hneed
      · rw [List.mem_singleton.mp hneed] at hk
        simp only [needKinds, List.mem_cons, List.not_mem_nil, or_false] at hk
        rcases hk with rfl | rfl <;> decide
      · cases hneed
  rename_i hext
  split
  · rename_i htopic
    have hkinds : answerKinds m = Hosts.consoleKinds := (if_neg hext).trans (if_pos htopic)
    refine Returns.bind fun l => Returns.ite ?_ (Returns.ite ?_ (Returns.ite (Returns.pure ?_) ?_))
    · exact Returns.ite (Returns.bind fun _ => Returns.pure hnone) (Returns.pure hnone)
    · split
      · exact Returns.pure fun k hk => hkinds ▸ hk
      · exact Returns.pure hnone
    · rw [hkinds]
      simp [actionKinds, Hosts.consoleKinds]
    · exact Returns.ite (Returns.bind fun _ => Returns.pure hnone) (Returns.pure hnone)
  rename_i hcon
  split
  · exact Returns.bind fun _ => Returns.pure hnone
  rename_i hcontrol
  have hkinds : answerKinds m = .clock :: .identified :: applyKinds :=
    (if_neg hext).trans ((if_neg hcon).trans (if_neg hcontrol))
  have hdecide : ∀ v, Returns (fun action => ∀ k ∈ actionKinds action, k ∈ answerKinds m)
      (ofExcept (UpdatePayload.parse v) >>= fun payload => Link.decide agent payload) := by
    refine fun v => Returns.bind fun payload => Returns.ite (Returns.pure hnone) (Returns.bind fun decision => ?_)
    cases decision with
    | apply =>
      refine Returns.pure ?_
      rw [hkinds]
      simp +contextual [actionKinds]
    | ignore reason => exact Returns.bind fun _ => Returns.pure hnone
    | reschedule delayMs reason => exact Returns.bind fun _ => Returns.pure hnone
  refine Returns.ite ?_ (Returns.ite (hdecide _) (Returns.ite (Returns.pure ?_) (Returns.ite (Returns.pure ?_) ?_)))
  · refine Returns.bind fun l => Returns.ite (Returns.pure hnone) (Returns.ite ?_ ?_)
    · intro s action t hs
      cases hs
    · refine Returns.bind fun _ => ?_
      cases m.replyResponse with
      | none => exact Returns.pure hnone
      | some response => exact hdecide response
  · rw [hkinds]
    simp [actionKinds, applyKinds]
  · rw [hkinds]
    simp [actionKinds]
  · refine Returns.ite (Returns.bind fun _ => Returns.pure hnone) ?_
    exact Returns.ite (Returns.bind fun _ => Returns.pure hnone) (Returns.pure hnone)

end Roams

variable [Serde]

/-- And with draining the log buffer, so that it goes along with a whole session and with whole runs. How the
    terminal is joined, and what comes of a frame, is left to each such relation. -/
structure Spans (agent : Agent σ) (R : World σ → World σ → Prop) (p : Kind → Prop) : Prop
    extends Roams R p, Allows agent R p where
  overhear : Keeps R (overhear agent)

variable [Sha256]

namespace Spans
open Roams Allows Admits

theorem perform (h : Spans agent R p) {action : Action} (hp : ∀ k ∈ actionKinds action, p k) (a : Session) :
    Keeps R (perform agent a action) := by
  by_cases hupdate : ∃ update, action = .applyUpdate update
  · obtain ⟨update, rfl⟩ := hupdate
    refine Keeps.bind h.steps (h.apply (fun k hk => hp k (List.mem_cons_of_mem _ hk)) update) fun rebooting => ?_
    refine Keeps.ite (Keeps.pure h.steps _) ?_
    exact Keeps.bind h.steps (h.nowMs (hp _ List.mem_cons_self)) fun _ => Keeps.pure h.steps _
  · exact h.performShort hp (fun update heq => hupdate ⟨update, heq⟩) a

theorem react (h : Spans agent R p) (frame : Frame)
    (hp : ∀ m, Message.decodeFrame frame = .ok m → ∀ k ∈ messageKinds m ++ answerKinds m, p k) (a : Session) :
    Keeps R (attempt (Link.handle agent frame) >>= fun
      | .ok action => NervesHub.perform agent a action
      | .error _ => pure (.done none)) := by
  unfold Link.handle
  cases hdecode : Message.decodeFrame frame with
  | error text => exact fun s => h.steps.refl s
  | ok m =>
    have hp := hp m hdecode
    have hhandle : Keeps R (Link.handleMessage agent m) :=
      h.handleMessage (fun _ => h.beat) fun k hk => hp k (List.mem_append_left _ hk)
    refine Keeps.bind_returns h.steps hhandle.attempt (handleMessage_returns m).attempt fun r hr => ?_
    cases r with
    | ok action => exact h.perform (fun k hk => hp k (List.mem_append_right _ (hr action rfl k hk))) a
    | error err => exact Keeps.pure h.steps _

theorem listen (h : Spans agent R p) (hreceived : p .received)
    (hp : ∀ m : Message, ∀ k ∈ messageKinds m ++ answerKinds m, p k) (a : Session) : Keeps R (listen agent a) := by
  refine Keeps.bind h.steps (Keeps.attempt (h.tryCallOne fun _ => hreceived)) fun r => ?_
  rcases r with err | _ | frame
  · exact Keeps.pure h.steps _
  · exact Keeps.pure h.steps _
  · exact h.react frame (fun m _ => hp m) a

def attendKinds : List Kind := Roams.confirmKinds ++ [.extensionsJoin, .heartbeat]

omit [Sha256] in
theorem attend (h : Spans agent R p) (hp : ∀ k ∈ attendKinds, p k) (hjoin : ∀ a, Keeps R (joinConsole agent a))
    (a : Session) : Keeps R (attend agent a) := by
  refine Keeps.bind h.steps (h.confirm (fun k hk => hp k (by revert k; decide)) a) fun a => ?_
  refine Keeps.bind h.steps (h.joinExtensions (fun k hk => hp k (by revert k; decide)) a) fun a => ?_
  refine Keeps.bind h.steps (hjoin a) fun a => ?_
  refine Keeps.bind h.steps (Keeps.bind h.steps h.link fun _ => Keeps.pure h.steps _) fun a => ?_
  refine Keeps.bind h.steps (h.nowMs (hp _ (by decide))) fun now => ?_
  refine Keeps.bind h.steps (h.heartbeat h.beat (hp _ (by decide)) now a) fun a => ?_
  refine Keeps.bind h.steps (Keeps.bind h.steps (h.logs now a.lastLog) fun _ => Keeps.pure h.steps _) fun a => ?_
  exact Keeps.pure h.steps _

def openKinds : List Kind := [.clock, .pendingVerify, .autoRevert, .deviceJoin]

omit [Sha256] in
theorem openSession (h : Spans agent R p) (hp : ∀ k ∈ openKinds, p k)
    (hrenew : ∀ s, R s { s with own := { s.own with link := agent.newLink } }) : Keeps R (openSession agent) := by
  have hclock : Keeps R (nowMs agent) := h.nowMs (hp _ (by decide))
  refine Keeps.bind h.steps (fun s => hrenew s) fun _ => ?_
  refine Keeps.bind h.steps (h.callOne fun _ => hp .pendingVerify (by decide)) fun pending => ?_
  refine Keeps.bind h.steps (h.callOne fun _ => hp .autoRevert (by decide)) fun reverted => ?_
  refine Keeps.bind h.steps ?_ fun _ => Keeps.bind h.steps hclock fun _ => Keeps.bind h.steps hclock fun _ =>
    Keeps.bind h.steps hclock fun _ => Keeps.pure h.steps _
  refine Keeps.bind h.steps h.nextRef fun reference => ?_
  refine Keeps.bind h.steps (fun s => h.relink s (some reference) _ _ false) fun _ => Keeps.bind h.steps h.link fun l => ?_
  exact h.send event.join (hp .deviceJoin (by decide)) _ _

/-! ### Rules for a turn and for a session -/

variable {P E : World σ → Prop} {Q : Option Stopped → World σ → Prop}

omit [Sha256] in
theorem confirm_returns (a : Session) : Returns (fun a' => ∃ joinedAt confirmed, a' = { a with joinedAt, confirmed })
    (NervesHub.confirm agent a) := by
  refine Returns.bind fun l => Returns.ite ?_ (Returns.pure ⟨_, _, rfl⟩)
  exact Returns.bind fun _ => Returns.bind fun now => Returns.bind fun _ => Returns.pure ⟨_, _, rfl⟩

omit [Sha256] in
theorem joinExtensions_returns (a : Session) : Returns (fun a' => ∃ extensionsJoined, a' = { a with extensionsJoined })
    (NervesHub.joinExtensions agent a) := by
  refine Returns.bind fun overdue => Returns.bind fun l => Returns.ite ?_ (Returns.pure ⟨_, rfl⟩)
  exact Returns.bind fun _ => Returns.pure ⟨_, rfl⟩

omit [Sha256] in
theorem joinConsole_returns (a : Session) : Returns (fun a' => ∃ consoleJoined, a' = { a with consoleJoined })
    (NervesHub.joinConsole agent a) := by
  refine Returns.bind fun l => Returns.ite ?_ (Returns.pure ⟨_, rfl⟩)
  exact Returns.bind fun _ => Returns.pure ⟨_, rfl⟩

omit [Sha256] in
theorem heartbeat_returns (now : Nat) (a : Session) : Returns (fun a' => ∃ lastHeartbeat, a' = { a with lastHeartbeat })
    (NervesHub.heartbeat agent now a) := by
  refine Returns.ite (Returns.bind fun l => Returns.ite ?_ ?_) (Returns.pure ⟨_, rfl⟩)
  · intro s a' t hs
    cases hs
  · exact Returns.bind fun _ => Returns.pure ⟨_, rfl⟩

/-- What a session is, and whether it goes on, once it has done what a frame asked for. -/
def After (a : Session) : Action → Turn Session (Option Stopped) → Prop
  | .applyUpdate _, d => (∃ lastHeartbeat, d = .next { a with lastHeartbeat }) ∨ d = .done (some .rebooting)
  | .extension needs, d => d = .next { a with healthAnswered := a.healthAnswered || needs.any Outgoing.isNeedHealth }
  | .reboot, d => d = .done (some .rebooting)
  | .console _, d => d = .next a ∨ d = .done (some .rebooting)
  | .reconnect, d => d = .done none
  | _, d => d = .next a

theorem perform_returns (a : Session) (action : Action) : Returns (After a action) (NervesHub.perform agent a action) := by
  cases action with
  | applyUpdate update =>
    refine Returns.bind fun rebooting => Returns.ite (Returns.pure (Or.inr rfl)) ?_
    exact Returns.bind fun now => Returns.pure (Or.inl ⟨now, rfl⟩)
  | reboot => exact Returns.bind fun _ => Returns.bind fun _ => Returns.pure rfl
  | identify =>
    unfold NervesHub.perform
    cases agent.identify with
    | none => exact Returns.pure rfl
    | some identify => exact Returns.bind fun _ => Returns.pure rfl
  | console data =>
    exact Returns.bind fun rebooting => Returns.ite (Returns.pure (Or.inr rfl)) (Returns.pure (Or.inl rfl))
  | consoleRestart => exact Returns.bind fun _ => Returns.bind fun _ => Returns.pure rfl
  | reconnect => exact Returns.pure rfl
  | extension needs => exact Returns.bind fun _ => Returns.pure rfl
  | none => exact Returns.pure rfl

/-- What a turn does before the reading of the clock that its heartbeats and its logs go by. -/
def prepare (agent : Agent σ) (a : Session) : Run σ Session := do
  let a ← NervesHub.confirm agent a
  let a ← NervesHub.joinExtensions agent a
  let a ← NervesHub.joinConsole agent a
  reportAttached a

/-- And from that reading on. -/
def check (agent : Agent σ) (a : Session) : Run σ (Nat × Session) := do
  let now ← nowMs agent
  let a ← NervesHub.heartbeat agent now a
  let a ← pumpLogs agent now a
  pure (now, a)

omit [Sha256] in
theorem attend_eq (a : Session) : NervesHub.attend agent a = prepare agent a >>= check agent := by
  simp only [prepare, bind_assoc]
  rfl

theorem turn_rule {C : World σ → Prop} {I : Session → World σ → Prop} {M : Nat → Session → World σ → Prop}
    {window : Option SessionWindow} {control : Option (σ → Control × σ)} {started : Nat} {a : Session}
    (hattend : Spec (I a) (NervesHub.attend agent a) (Ends (fun r => M r.1 r.2) E C))
    (hmid : ∀ now a,
      Spec (M now a) (NervesHub.askControl agent control)
        (Ends (fun leave s => if leave then Q (some .finished) s else M now a s) E C) ∧
      Spec (M now a) (NervesHub.windowEnds agent window started now a)
        (Ends (fun ends s => if ends then Q (some .finished) s else M now a s) E C))
    (hlisten : ∀ now a, Spec (M now a) (NervesHub.listen agent a) (Ends (Turn.Post I Q) E C)) :
    Spec (I a) (NervesHub.turn agent window control started a) (Ends (Turn.Post I Q) E C) := by
  refine Spec.bind hattend fun attended => Spec.bind (hmid _ _).1 fun leave => ?_
  refine Spec.ite (fun hleave => Spec.ret fun s hs => ?_) fun hleave => ?_
  · rw [if_pos hleave] at hs
    exact hs
  refine Spec.pre (P := M attended.1 attended.2) ?_ fun s hs => by rwa [if_neg hleave] at hs
  refine Spec.bind (hmid _ _).2 fun ends => Spec.ite (fun hends => Spec.ret fun s hs => ?_) fun hends => ?_
  · rw [if_pos hends] at hs
    exact hs
  · exact (hlisten _ _).pre fun s hs => by rwa [if_neg hends] at hs

/-- The session rule: `I` holds before each turn and `M` once it has made its checks. -/
theorem session_rule {I : Nat → Session → World σ → Prop} {M : Nat → Nat → Session → World σ → Prop}
    {window : Option SessionWindow} {control : Option (σ → Control × σ)}
    (hgas : ∀ started a s g, I started a s → I started a { s with gas := g }) (hE : ∀ started a s, I started a s → E s)
    (hopen : Spec P (NervesHub.openSession agent) (Ends (fun r => I r.1 r.2) E E))
    (hattend : ∀ started a, Spec (I started a) (NervesHub.attend agent a) (Ends (fun r => M started r.1 r.2) E E))
    (hmid : ∀ started now a,
      Spec (M started now a) (NervesHub.askControl agent control)
        (Ends (fun leave s => if leave then Q (some .finished) s else M started now a s) E E) ∧
      Spec (M started now a) (NervesHub.windowEnds agent window started now a)
        (Ends (fun ends s => if ends then Q (some .finished) s else M started now a s) E E))
    (hlisten : ∀ started now a, Spec (M started now a) (NervesHub.listen agent a) (Ends (Turn.Post (I started) Q) E E)) :
    Spec P (sessionWithin agent window control) (Ends Q E E) := by
  refine Spec.bind hopen fun r => loop_spec (I := I r.1) (fun a s g hs => hgas _ a s g hs) (hE r.1) (fun a => ?_) r.2
  exact turn_rule (hattend r.1 a) (hmid r.1) (hlisten r.1)

end Spans

namespace Roams

variable {P E : World σ → Prop} {Q : Option Stopped → World σ → Prop}

omit [Sha256] in
/-- The rule for what a turn does before its checks: of the joins, an invariant needs to be kept only. -/
theorem prepare_rule (h : Roams R p) (hp : ∀ k ∈ [Kind.clock, .extensionsJoin], p k)
    (hjoin : ∀ a, Keeps R (NervesHub.joinConsole agent a)) {I : Session → World σ → Prop}
    (hkeep : ∀ a s t, I a s → R s t → I a t) (hE : ∀ a s, I a s → E s)
    (hflags : ∀ a s extensionsJoined extensionsReported consoleJoined, I a s →
      I { a with extensionsJoined, extensionsReported, consoleJoined } s)
    (hconfirm : ∀ a, Spec (I a) (NervesHub.confirm agent a) (Ends I E E)) (a : Session) :
    Spec (I a) (Spans.prepare agent a) (Ends I E E) := by
  have hkeeps : ∀ {α : Type} {a : Session} {m : Run σ α}, Keeps R m → Spec (I a) m (Ends (fun _ => I a) E E) := fun hm =>
    (Spec.of_keeps hm (hkeep _)).mono (fun _ _ hs => hs) (hE _) (hE _)
  refine Spec.bind (hconfirm a) fun a => Spec.bind (R := I) ?_ fun a => Spec.bind (R := I) ?_ fun a s hs => ?_
  · refine ((hkeeps (h.joinExtensions hp a)).returns (Spans.joinExtensions_returns a)).mono ?_ (fun _ h => h) fun _ h => h
    rintro _ s ⟨hs, extensionsJoined, rfl⟩
    exact hflags a s extensionsJoined a.extensionsReported a.consoleJoined hs
  · refine ((hkeeps (hjoin a)).returns (Spans.joinConsole_returns a)).mono ?_ (fun _ h => h) fun _ h => h
    rintro _ s ⟨hs, consoleJoined, rfl⟩
    exact hflags a s a.extensionsJoined a.extensionsReported consoleJoined hs
  · exact hflags a s a.extensionsJoined (a.extensionsReported || s.own.link.extensions.joined) a.consoleJoined hs

omit [Sha256] in
theorem attend_rule (h : Roams R p) (hp : ∀ k ∈ [Kind.clock, .extensionsJoin], p k)
    (hjoin : ∀ a, Keeps R (NervesHub.joinConsole agent a)) {I : Session → World σ → Prop}
    {J : Nat × Session → World σ → Prop} (hkeep : ∀ a s t, I a s → R s t → I a t) (hE : ∀ a s, I a s → E s)
    (hflags : ∀ a s extensionsJoined extensionsReported consoleJoined, I a s →
      I { a with extensionsJoined, extensionsReported, consoleJoined } s)
    (hconfirm : ∀ a, Spec (I a) (NervesHub.confirm agent a) (Ends I E E))
    (hcheck : ∀ a, Spec (I a) (Spans.check agent a) (Ends J E E)) (a : Session) :
    Spec (I a) (NervesHub.attend agent a) (Ends J E E) := by
  rw [Spans.attend_eq]
  exact Spec.bind (h.prepare_rule hp hjoin hkeep hE hflags hconfirm a) hcheck

omit [Sha256] in
/-- The rule for an invariant that noticing the join needs to keep only. -/
theorem confirm_rule (h : Roams R p) (hp : ∀ k ∈ confirmKinds, p k) {I : Session → World σ → Prop}
    (hkeep : ∀ a s t, I a s → R s t → I a t) (hE : ∀ a s, I a s → E s)
    (hflags : ∀ a s joinedAt confirmed, I a s → I { a with joinedAt, confirmed } s) (a : Session) :
    Spec (I a) (NervesHub.confirm agent a) (Ends I E E) := by
  have hkept : Spec (I a) (NervesHub.confirm agent a) (Ends (fun _ => I a) E E) :=
    (Spec.of_keeps (h.confirm hp a) (hkeep a)).mono (fun _ _ hs => hs) (hE a) (hE a)
  refine (hkept.returns (Spans.confirm_returns a)).mono ?_ (fun _ hs => hs) fun _ hs => hs
  rintro _ s ⟨hs, joinedAt, confirmed, rfl⟩
  exact hflags a s joinedAt confirmed hs

omit [Sha256] in
/-- Parts that need to be kept only, between the checks and the wait for a frame. -/
theorem mid_rule (h : Roams R p) (hover : Keeps R (overhear agent)) (hp : ∀ k ∈ controlKinds, p k) {M : World σ → Prop}
    (hkeep : ∀ s t, M s → R s t → M t) (hE : ∀ s, M s → E s) (hstop : ∀ s, M s → Q (some .finished) s)
    (window : Option SessionWindow) (control : Option (σ → Control × σ)) (started now : Nat) (a : Session) :
    Spec M (NervesHub.askControl agent control) (Ends (fun leave s => if leave then Q (some .finished) s else M s) E E) ∧
      Spec M (NervesHub.windowEnds agent window started now a)
        (Ends (fun ends s => if ends then Q (some .finished) s else M s) E E) := by
  have hend : ∀ (c : Bool) s, M s → if c then Q (some .finished) s else M s := fun c s hs => by
    cases c
    · exact hs
    · exact hstop s hs
  exact ⟨(Spec.of_keeps (h.askControl hp control) hkeep).mono hend hE hE,
    (Spec.of_keeps (h.windowEnds hover window started now a) hkeep).mono hend hE hE⟩

/-- The kinds of event that come of a frame, an update apart. -/
def shortKinds : List Kind :=
  [.located, .extension, .healthRead, .healthReport, .rebooting, .restarted, .identified] ++ Hosts.consoleKinds

/-- What a frame asks for is an update, or of those kinds. -/
def Short (action : Action) : Prop := (∃ update, action = .applyUpdate update) ∨ ∀ k ∈ actionKinds action, k ∈ shortKinds

omit [Sha256] in
theorem handleMessage_short (m : Message) : Returns Short (Link.handleMessage agent m) := by
  intro s action t hs
  have hkinds := handleMessage_returns m s action t hs
  cases action with
  | applyUpdate update => exact Or.inl ⟨update, rfl⟩
  | extension needs =>
    refine Or.inr fun k hk => ?_
    have hanswer := hkinds k hk
    obtain ⟨need, -, hneed⟩ := List.mem_flatMap.mp hk
    have hmem := Allows.mem_allNeedKinds hneed
    have hshort : ∀ k ∈ Allows.allNeedKinds, k ∈ answerKinds m → k ∈ shortKinds := by
      unfold answerKinds
      split
      · decide
      split
      · decide
      split
      · decide
      · decide
    exact hshort k hmem hanswer
  | reboot => exact Or.inr (by decide)
  | identify => exact Or.inr (by decide)
  | console data => exact Or.inr fun k hk => List.mem_append_right _ hk
  | consoleRestart => exact Or.inr (by decide)
  | reconnect => exact Or.inr (by decide)
  | none => exact Or.inr (by decide)

/-- The rule for what comes of a frame: of all but an update, an invariant needs to be kept only. -/
theorem perform_rule (h : Roams R p) (hp : ∀ k ∈ shortKinds, p k) {I : Session → World σ → Prop}
    (hkeep : ∀ a s t, I a s → R s t → I a t) (hE : ∀ a s, I a s → E s)
    (hQ : ∀ a s stopped, stopped ≠ some .finished → I a s → Q stopped s)
    (hhealth : ∀ a s healthAnswered, I a s → I { a with healthAnswered } s)
    (happly : ∀ a update, Spec (I a) (NervesHub.perform agent a (.applyUpdate update)) (Ends (Turn.Post I Q) E E))
    (a : Session) {action : Action} (hshort : Short action) :
    Spec (I a) (NervesHub.perform agent a action) (Ends (Turn.Post I Q) E E) := by
  by_cases hupdate : ∃ update, action = .applyUpdate update
  · obtain ⟨update, rfl⟩ := hupdate
    exact happly a update
  have hne : ∀ update, action ≠ .applyUpdate update := fun update heq => hupdate ⟨update, heq⟩
  have hkinds : ∀ k ∈ actionKinds action, p k := fun k hk => hp k (hshort.resolve_left hupdate k hk)
  have hkept : Spec (I a) (NervesHub.perform agent a action) (Ends (fun _ => I a) (I a) (I a)) :=
    Spec.of_keeps (h.performShort hkinds hne a) (hkeep a)
  refine (hkept.returns (Spans.perform_returns a action)).mono ?_ (hE a) (hE a)
  rintro d s ⟨hs, hafter⟩
  cases action with
  | applyUpdate update => exact absurd rfl (hne update)
  | console data =>
    rcases hafter with rfl | rfl
    · exact hs
    · exact hQ a s _ (by decide) hs
  | extension needs =>
    subst hafter
    exact hhealth a s _ hs
  | reboot =>
    subst hafter
    exact hQ a s _ (by decide) hs
  | reconnect =>
    subst hafter
    exact hQ a s _ (by decide) hs
  | _ =>
    subst hafter
    exact hs

def allMessageKinds : List Kind := [.extension, .terminal] ++ deviceKinds

omit [Serde] [Sha256] in
theorem mem_allMessageKinds {m : Message} {k : Kind} (hk : k ∈ messageKinds m) : k ∈ allMessageKinds := by
  revert hk
  unfold messageKinds
  repeat' split
  all_goals revert k; decide

/-- The rule for a frame, from its reception to what comes of it: `J` holds in between, of what was received. -/
theorem hear_rule (h : Roams R p) (hp : ∀ k ∈ shortKinds, p k) {M : World σ → Prop} {I : Session → World σ → Prop}
    {J : Except Error (Option Frame) → World σ → Prop} (hkeep : ∀ a s t, I a s → R s t → I a t) (hE : ∀ a s, I a s → E s)
    (hQ : ∀ a s stopped, stopped ≠ some .finished → I a s → Q stopped s)
    (hhealth : ∀ a s healthAnswered, I a s → I { a with healthAnswered } s)
    (happly : ∀ a update, Spec (I a) (NervesHub.perform agent a (.applyUpdate update)) (Ends (Turn.Post I Q) E E))
    (a : Session) (hreceive : ∀ s env r, M s → J r { s with env := env, trace := .received r :: s.trace })
    (hlost : ∀ err s, J (.error err) s → Q none s) (hquiet : ∀ s, J (.ok none) s → I a s)
    (hhandle : ∀ frame, Spec (J (.ok (some frame))) (attempt (Link.handle agent frame))
      (Ends (fun r s => I a s ∧ ∀ action, r = .ok action → Short action) E E)) :
    Spec M (NervesHub.listen agent a) (Ends (Turn.Post I Q) E E) := by
  refine Spec.bind (R := J) (spec_attempt_tryCall fun s env r hs => hreceive s env r hs) fun r => ?_
  rcases r with err | _ | frame
  · exact Spec.ret fun s hs => hlost err s hs
  · exact Spec.ret fun s hs => hquiet s hs
  refine Spec.bind (hhandle frame) fun r => ?_
  cases r with
  | error err => exact Spec.ret fun s hs => hQ a s none (by decide) hs.1
  | ok action =>
    rintro s ⟨hs, hshort⟩
    exact h.perform_rule hp hkeep hE hQ hhealth happly a (hshort action rfl) s hs

/-- The rule for an invariant that handling a message needs to keep only. -/
theorem listen_rule (h : Roams R p) (hbeat : Admits.AnyBeat R) (hp : ∀ k ∈ allMessageKinds ++ shortKinds, p k)
    {M : World σ → Prop} {I : Session → World σ → Prop} (hkeep : ∀ a s t, I a s → R s t → I a t) (hE : ∀ a s, I a s → E s)
    (hQ : ∀ a s stopped, stopped ≠ some .finished → I a s → Q stopped s)
    (hhealth : ∀ a s healthAnswered, I a s → I { a with healthAnswered } s)
    (happly : ∀ a update, Spec (I a) (NervesHub.perform agent a (.applyUpdate update)) (Ends (Turn.Post I Q) E E))
    (a : Session) (hreceive : ∀ s env r, M s → I a { s with env := env, trace := .received r :: s.trace }) :
    Spec M (NervesHub.listen agent a) (Ends (Turn.Post I Q) E E) := by
  refine h.hear_rule (J := fun _ => I a) (fun k hk => hp k (List.mem_append_right _ hk)) hkeep hE hQ hhealth
    happly a hreceive
    (fun _ s hs => hQ a s none (by decide) hs) (fun _ hs => hs) fun frame => ?_
  unfold Link.handle
  cases Message.decodeFrame frame with
  | error text => exact fun s hs => ⟨hs, fun action h => by cases h⟩
  | ok m =>
    have hkept : Keeps R (Link.handleMessage agent m) := h.handleMessage (fun _ => hbeat) fun k hk =>
      hp k (List.mem_append_left _ (mem_allMessageKinds hk))
    refine ((Spec.of_keeps hkept.attempt (hkeep a)).returns (handleMessage_short m).attempt).mono ?_ (hE a) (hE a)
    exact fun r s hs => hs

end Roams

/-! ### How a session opens -/

/-- What a session that opened has recorded, after `base`. -/
def Opened (base : List Event) (r : Nat × Session) (s : World σ) : Prop :=
  ∃ m pending detected lastLog lastHeartbeat, m.kind = .deviceJoin ∧
    r.2 = ⟨false, false, false, false, lastLog, lastHeartbeat, none, false⟩ ∧
    s.own.link.heartbeatRef = none ∧ s.trace = .clock r.1 :: .clock lastHeartbeat :: .clock lastLog :: .sent m (.ok ()) ::
      .autoRevert detected :: .pendingVerify pending :: base

/-- And what one that could not send its join has. -/
def Unopened (base : List Event) (s : World σ) : Prop :=
  ∃ m e pending detected, m.kind = .deviceJoin ∧ s.trace = .sent m (.error e) :: .autoRevert detected ::
    .pendingVerify pending :: base

omit [Sha256] in
theorem openSession_opens {C : World σ → Prop} (base : List Event) :
    Spec (fun s => s.trace = base) (openSession agent) (Ends (Opened base) (Unopened base) C) := by
  let Now (t : List Event) (s : World σ) : Prop := s.own.link.heartbeatRef = none ∧ s.trace = t
  have hclock : ∀ t, Spec (Now t) (nowMs agent) (Ends (fun now => Now (.clock now :: t)) (Unopened base) C) := fun t =>
    spec_call fun s env now hs => ⟨hs.1, congrArg (List.cons _) hs.2⟩
  have hnew : agent.newLink.heartbeatRef = none := by
    unfold Agent.newLink
    split <;> rfl
  refine Spec.bind (R := fun _ => Now base) (fun s hs => ⟨hnew, hs⟩) fun _ => ?_
  refine Spec.bind (R := fun pending => Now (.pendingVerify pending :: base))
    (spec_call fun s env pending hs => ⟨hs.1, congrArg (List.cons _) hs.2⟩) fun pending => ?_
  refine Spec.bind (R := fun detected => Now (.autoRevert detected :: .pendingVerify pending :: base))
    (spec_call fun s env detected hs => ⟨hs.1, congrArg (List.cons _) hs.2⟩) fun detected => ?_
  let Joined (s : World σ) : Prop := ∃ m, m.kind = .deviceJoin ∧
    Now (.sent m (.ok ()) :: .autoRevert detected :: .pendingVerify pending :: base) s
  refine Spec.bind (R := fun _ => Joined) ?_ fun _ => ?_
  · let Before : World σ → Prop := Now (.autoRevert detected :: .pendingVerify pending :: base)
    refine Spec.bind (R := fun _ => Before) (fun s hs => hs) fun reference => ?_
    refine Spec.bind (R := fun _ => Before) (fun s hs => hs) fun _ => ?_
    refine Spec.bind (R := fun _ => Before) (fun s hs => hs) fun l => ?_
    refine Spec.bind (R := fun _ => Before) (fun s hs => hs) fun l => ?_
    refine Spec.bind (R := fun _ => Before) (fun s hs => hs) fun l => ?_
    refine spec_tryCall (fun s env u hs => ⟨_, rfl, hs.1, congrArg (List.cons _) hs.2⟩) fun s env e hs => ?_
    exact ⟨_, e, pending, detected, rfl, congrArg (List.cons _) hs.2⟩
  · rintro s ⟨m, hm, hs⟩
    refine Spec.bind (hclock _) (fun lastLog => Spec.bind (hclock _) fun lastHeartbeat =>
      Spec.bind (hclock _) fun started => ?_) s hs
    exact Spec.ret fun s hs => ⟨m, pending, detected, lastLog, lastHeartbeat, hm, rfl, hs⟩

/-- A session's part of the record begins here. -/
def SessionBegins (t : List Event) : Prop := t = [] ∨ ∃ r older, t = .connected r :: older

/-- What is new in the record is of the kinds `p`. -/
def Only (p : Kind → Prop) (s t : World σ) : Prop := ∃ es, t.trace = es ++ s.trace ∧ ∀ e ∈ es, p e.kind

omit [Serde] [Sha256] in
theorem Only.nothing {s t : World σ} (h : t.trace = s.trace) : Only p s t := ⟨[], h, fun _ he => by cases he⟩

omit [Serde] [Sha256] in
/-- What each event of such a kind leaves true of a record goes on being true. -/
theorem Only.holds {s t : World σ} (h : Only p s t) {J : List Event → Prop} (hJ : ∀ e u, p e.kind → J u → J (e :: u))
    (hs : J s.trace) : J t.trace := by
  obtain ⟨es, hes, hp⟩ := h
  rw [hes]
  exact Trace.append_holds hJ hp hs

omit [Serde] [Sha256] in
theorem only_admits (p : Kind → Prop) : Admits (Only (σ := σ) p) p where
  steps := by
    refine ⟨fun s => .nothing rfl, fun {s t u} ⟨es, hes, hp⟩ ⟨es', hes', hp'⟩ => ?_⟩
    exact ⟨es' ++ es, by rw [hes', hes, List.append_assoc], List.forall_mem_append.mpr ⟨hp', hp⟩⟩
  gas s g := .nothing rfl
  calls s env es hes := ⟨es, rfl, hes⟩
  aside _ _ _ := .nothing rfl
  reader _ _ _ := .nothing rfl

omit [Serde] [Sha256] in
theorem only_roams (p : Kind → Prop) : Roams (Only (σ := σ) p) p where
  toAdmits := only_admits p
  level _ _ := .nothing rfl
  flag _ _ := .nothing rfl
  relink _ _ _ _ _ := .nothing rfl

omit [Serde] [Sha256] in
/-- And whatever is left alone by the changes made aside stays as it was. -/
theorem only_admits_keeping {β : Type} (p : Kind → Prop) (f : Device → β)
    (hf : ∀ d refs downloading, f (Device.aside d refs downloading) = f d)
    (hreader : p .terminal → ∀ (d : Device) reader, f { d with reader := reader } = f d) :
    Admits (fun s t : World σ => Only p s t ∧ f t.own = f s.own) p where
  steps := ⟨fun _ => ⟨.nothing rfl, rfl⟩, fun hst htu => ⟨(only_admits p).steps.trans hst.1 htu.1, htu.2.trans hst.2⟩⟩
  gas _ _ := ⟨.nothing rfl, rfl⟩
  calls s env es hes := ⟨(only_admits p).calls s env es hes, rfl⟩
  aside _ _ _ := ⟨.nothing rfl, hf _ _ _⟩
  reader h _ _ := ⟨.nothing rfl, hreader h _ _⟩

omit [Sha256] in
theorem only_spans (agent : Agent σ) (hp : ∀ k ∈ .logging :: Admits.logKinds, p k) : Spans agent (Only (σ := σ) p) p where
  toAllows := (only_admits p).allows (fun _ _ => .nothing rfl) (fun _ _ => .nothing rfl) (fun _ _ => .nothing rfl) hp
  flag _ _ := .nothing rfl
  relink _ _ _ _ _ := .nothing rfl
  overhear := (only_admits p).overhear (fun _ _ => .nothing rfl) (hp _ (by decide))

/-! ### Whole runs -/

def sessionKinds : List Kind :=
  Roams.confirmKinds ++ Roams.controlKinds ++ [.autoRevert, .deviceJoin, .extensionsJoin, .heartbeat]

/-- `R` goes along with whole sessions: with a new link, the join of the terminal and what comes of a frame, too. -/
structure Lasts (agent : Agent σ) (R : World σ → World σ → Prop) (p : Kind → Prop) : Prop extends Spans agent R p where
  kinds : ∀ k ∈ sessionKinds, p k
  renew : ∀ s, R s { s with own := { s.own with link := agent.newLink } }
  joinConsole : ∀ a, Keeps R (joinConsole agent a)
  listen : ∀ a, Keeps R (listen agent a)

namespace Lasts

theorem attend (h : Lasts agent R p) (a : Session) : Keeps R (attend agent a) :=
  h.toSpans.attend (fun k hk => h.kinds k (by revert k; decide)) h.joinConsole a

theorem turn (h : Lasts agent R p) (window : Option SessionWindow) (control : Option (σ → Control × σ)) (started : Nat)
    (a : Session) : Keeps R (turn agent window control started a) := by
  refine Keeps.bind h.steps (h.attend a) fun r => ?_
  refine Keeps.bind h.steps (h.askControl (fun k hk => h.kinds k (by revert k; decide)) control) fun leave => ?_
  refine Keeps.ite (Keeps.pure h.steps _) ?_
  refine Keeps.bind h.steps (h.windowEnds h.overhear window started _ _) fun ends => ?_
  exact Keeps.ite (Keeps.pure h.steps _) (h.listen _)

theorem openSession (h : Lasts agent R p) : Keeps R (openSession agent) :=
  h.toSpans.openSession (fun k hk => h.kinds k (by revert k; decide)) h.renew

theorem sessionWithin (h : Lasts agent R p) (window : Option SessionWindow) (control : Option (σ → Control × σ)) :
    Keeps R (sessionWithin agent window control) :=
  Keeps.bind h.steps h.openSession fun r => keeps_loop h.steps h.gas (h.turn window control r.1) r.2

end Lasts

def runKinds : List Kind := [.connected, .pause .backoff]

/-- The kinds of event that come of a frame. -/
def Roams.frameKinds : List Kind :=
  allMessageKinds ++ [.located, .extension, .healthRead, .healthReport] ++ Hosts.consoleKinds ++ .clock :: .identified ::
    Allows.applyKinds

omit [Serde] [Sha256] in
theorem Roams.mem_frameKinds (m : Message) : ∀ k ∈ messageKinds m ++ answerKinds m, k ∈ frameKinds := by
  have hanswered : ∀ k ∈ answerKinds m, k ∈ frameKinds := by
    unfold answerKinds
    repeat' split
    all_goals decide
  have hheard : ∀ k ∈ allMessageKinds, k ∈ frameKinds := by decide
  exact fun k hk => (List.mem_append.mp hk).elim (fun hk => hheard k (mem_allMessageKinds hk)) (hanswered k)

/-- `R` goes along with any number of sessions, and with what comes between them. -/
structure Runs (agent : Agent σ) (R : World σ → World σ → Prop) : Prop where
  steps : Steps R
  gas : ∀ s g, R s { s with gas := g }
  between : ∀ s env e, Event.kind e ∈ runKinds → R s { s with env := env, trace := e :: s.trace }
  flag : ∀ s joined, R s { s with own := { s.own with joined := joined } }
  session : ∀ window control, Keeps R (sessionWithin agent window control)

theorem Lasts.runs (h : Lasts agent R p) (hp : ∀ k ∈ runKinds, p k) : Runs agent R where
  steps := h.steps
  gas := h.gas
  between s env e he := h.calls s env [e] fun _ he' => hp _ (List.mem_singleton.mp he' ▸ he)
  flag := h.flag
  session := h.sessionWithin

namespace Runs

omit [Serde] [Sha256] in
theorem connect {R : World σ → World σ → Prop} (hbetween : ∀ s env e, Event.kind e ∈ runKinds →
    R s { s with env := env, trace := e :: s.trace }) : Keeps R (connect agent) :=
  keeps_tryCall fun s env r => hbetween s env (.connected r) (by simp [Event.kind, runKinds])

theorem connection (h : Runs agent R) (tries : Nat) : Keeps R (connection agent tries) := by
  have hsleep : ∀ d, Keeps R (sleep agent .backoff d) := fun d =>
    keeps_call fun s env _ => h.between s env (.slept .backoff d) (by simp [Event.kind, runKinds])
  have hback : Keeps R (backOff agent tries) :=
    Keeps.bind h.steps (Keeps.gets h.steps _) fun d => Keeps.bind h.steps (hsleep _) fun _ => Keeps.pure h.steps _
  refine Keeps.bind h.steps (connect h.between).attempt fun r => ?_
  cases r with
  | error err =>
    cases err with
    | identity msg => exact Keeps.throw h.steps _
    | _ => exact Keeps.bind h.steps (hsleep _) fun _ => Keeps.pure h.steps _
  | ok u =>
    refine Keeps.bind h.steps (fun s => h.flag s false) fun _ => ?_
    refine Keeps.bind h.steps (h.session none none).attempt fun r => ?_
    rcases r with err | _ | stopped
    · cases err with
      | transport msg => exact hback
      | _ => exact Keeps.throw h.steps _
    · exact hback
    · exact Keeps.pure h.steps _

theorem run (h : Runs agent R) : Keeps R (run agent) := keeps_loop h.steps h.gas h.connection 0

/-- The one session of `run_session`, or of `run_session_until`. -/
theorem once (h : Runs agent R) (window : Option SessionWindow) (control : Option (σ → Control × σ)) : Keeps R (do
    NervesHub.connect agent
    modifyOwn fun d => { d with joined := false }
    let stopped ← sessionWithin agent window control
    sessionResult stopped) := by
  refine Keeps.bind h.steps (connect h.between) fun _ => Keeps.bind h.steps (fun s => h.flag s false) fun _ => ?_
  refine Keeps.bind h.steps (h.session window control) fun stopped => ?_
  cases stopped with
  | some stopped => exact Keeps.pure h.steps _
  | none => exact Keeps.bind h.steps (Keeps.gets h.steps _) fun d => Keeps.throw h.steps _

end Runs

/-! ### Rules for a run -/

section
variable {I F : World σ → Prop} (hbetween : ∀ s env e, Event.kind e ∈ runKinds → I s →
    I { s with env := env, trace := e :: s.trace })
  (hflag : ∀ s joined, I s → I { s with own := { s.own with joined := joined } }) (hF : ∀ s, I s → F s)
include hbetween hflag hF

/-- The run rule: `I` holds between two sessions, and `F` once a session has stopped. -/
theorem run_rule (hgas : ∀ s g, I s → I { s with gas := g })
    (hsession : Spec I (session agent) (Ends (fun stopped s => if stopped.isSome then F s else I s) I I)) :
    Spec I (run agent) (Ends (fun _ => F) F F) := by
  have hsleep : ∀ d, Spec I (sleep agent .backoff d) (Ends (fun _ => I) F F) := fun d =>
    spec_call fun s env _ hs => hbetween s env (.slept .backoff d) (by simp [Event.kind, runKinds]) hs
  have hback : ∀ tries, Spec I (backOff agent tries) (Ends (Turn.Post (fun _ => I) fun _ => F) F F) := fun tries =>
    Spec.bind (R := fun _ => I) (fun s hs => hs) fun d => Spec.bind (hsleep _) fun _ => Spec.ret fun s hs => hs
  refine loop_spec (I := fun _ => I) (fun _ => hgas) (fun _ => hF) (fun tries => ?_) 0
  refine Spec.bind (R := fun _ => I) (spec_attempt_tryCall fun s env r hs =>
    hbetween s env (.connected r) (by simp [Event.kind, runKinds]) hs)
    fun r => ?_
  rcases r with err | _
  · cases err with
    | identity msg => exact Spec.fail hF
    | _ => exact Spec.bind (hsleep _) fun _ => Spec.ret fun s hs => hs
  refine Spec.bind (R := fun _ => I) (fun s hs => hflag s false hs) fun _ => ?_
  refine Spec.bind (R := fun r s => if r.toOption.join.isSome then F s else I s) ?_ fun r => ?_
  · refine (Spec.attempt hsession).mono (fun r s hs => ?_) hF hF
    cases r <;> exact hs
  rcases r with err | _ | stopped
  · cases err with
    | transport msg => exact hback tries
    | _ => exact Spec.fail hF
  · exact hback tries
  · exact Spec.ret fun s hs => hs

/-- And for the one session of `run_session`, or of `run_session_until`. -/
theorem once_rule (window : Option SessionWindow) (control : Option (σ → Control × σ))
    (hsession : Spec I (sessionWithin agent window control)
      (Ends (fun stopped s => if stopped.isSome then F s else I s) I I)) :
    Spec I (do
      NervesHub.connect agent
      modifyOwn fun d => { d with joined := false }
      let stopped ← sessionWithin agent window control
      sessionResult stopped) (Ends (fun _ => F) F F) := by
  have hconnected : ∀ s env (r : Except Error Unit), I s → I { s with env := env, trace := .connected r :: s.trace } :=
    fun s env r hs => hbetween s env (.connected r) (by simp [Event.kind, runKinds]) hs
  refine Spec.bind (R := fun _ => I) (spec_tryCall (fun s env u hs => hconnected s env (.ok u) hs)
    fun s env e hs => hF _ (hconnected s env (.error e) hs)) fun _ => ?_
  refine Spec.bind (R := fun _ => I) (fun s hs => hflag s false hs) fun _ => ?_
  refine Spec.bind (hsession.mono (fun _ _ hs => hs) hF hF) fun stopped => ?_
  cases stopped with
  | some stopped => exact Spec.ret fun s hs => hs
  | none => exact Spec.bind (R := fun _ => I) (fun s hs => hs) fun d => Spec.fail hF

end
end
end NervesHub
