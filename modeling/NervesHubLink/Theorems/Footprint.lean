import NervesHubLink.Agent
import NervesHubLink.Protocol

/-! What each part of the agent may do. A part is described by the kinds of event it may record; a preorder
that allows those kinds is kept by the part, whatever the preorder is about. -/

namespace NervesHub
open Act Prog

/-- A device's state with other data of the kinds that every part may change. -/
def Device.aside (d : Device) (refs : RefGenerator) (downloading : Option String) : Device :=
  { d with link := { d.link with refs := refs, downloading := downloading } }

theorem Extensions.event_of_mem_logs {x : Extensions} {lines : List LogLine} {ev : String} {payload : Value}
    (h : .send ev payload ∈ x.logs lines) : ev = event.loggingSend := by
  unfold Extensions.logs Extensions.log at h
  split at h
  · cases h
  · split at h
    · obtain ⟨line, -, hmem⟩ := List.mem_flatMap.mp h
      split at hmem
      · cases hmem
      · cases List.mem_singleton.mp hmem
        rfl
    · cases List.mem_singleton.mp h
      rfl

theorem Envelope.kind_onConsole {m : Envelope} (hm : m.topic = consoleTopic) :
    m.kind = .consoleJoin ∨ m.kind = .terminal := by
  unfold Envelope.kind
  rw [if_neg (by rw [hm]; decide), if_pos hm]
  split
  · exact Or.inl rfl
  · exact Or.inr rfl

theorem extensionKind_attached (key : String) : extensionKind s!"{key}:attached" = .extension := by
  have hne : ∀ ev : String, ¬":attached".toList <:+ ev.toList → s!"{key}:attached" ≠ ev := by
    rintro ev hno rfl
    refine hno ⟨key.toList, ?_⟩
    rw [← String.toList_append]
    rfl
  have hjoin := hne event.join (by decide)
  have hlog := hne event.loggingSend (by decide)
  have hhealth := hne "health:report" (by decide)
  simp only [extensionKind, if_neg hjoin, if_neg hlog, if_neg hhealth]

section
variable {σ : Type}

/-- `R` goes along with events of the kinds `p`, and with the changes of the device's state made aside. What is typed
    changes the reader, where the terminal may be written to. -/
structure Admits (R : World σ → World σ → Prop) (p : Kind → Prop) : Prop where
  steps : Steps R
  gas : ∀ s g, R s { s with gas := g }
  calls : ∀ s env es, (∀ e ∈ es, p (Event.kind e)) → R s { s with env := env, trace := es ++ s.trace }
  aside : ∀ s refs downloading, R s { s with own := s.own.aside refs downloading }
  reader : p .terminal → ∀ s reader, R s { s with own := { s.own with reader := reader } }

namespace Admits

/-- `R` does not mind what the log buffer holds. -/
def AnyBuffer (R : World σ → World σ → Prop) : Prop := ∀ s logs, R s { s with own := { s.own with logs := logs } }

/-- `R` does not mind which heartbeat waits for its reply. -/
def AnyBeat (R : World σ → World σ → Prop) : Prop :=
  ∀ s reference, R s { s with own := { s.own with link := { s.own.link with heartbeatRef := reference } } }

/-- `R` does not mind the times that a download keeps. -/
def AnyPump (R : World σ → World σ → Prop) : Prop := ∀ s pump, R s { s with own := { s.own with pump := pump } }

variable {agent : Agent σ} {R : World σ → World σ → Prop} {p : Kind → Prop} {α : Type}

theorem mono {q : Kind → Prop} (h : Admits R p) (hq : ∀ k, q k → p k) : Admits R q :=
  { h with
    calls := fun s env es hes => h.calls s env es fun e he => hq _ (hes e he)
    reader := fun hterminal => h.reader (hq _ hterminal) }

theorem call (h : Admits R p) {f : σ → α × σ} {ev : α → List Event} (hev : ∀ a, ∀ e ∈ ev a, p e.kind) :
    Keeps R (Prog.call f ev : Run σ α) := keeps_call fun s env a => h.calls s env _ (hev a)

theorem tryCall (h : Admits R p) {f : σ → Except Error α × σ} {ev : Except Error α → List Event}
    (hev : ∀ r, ∀ e ∈ ev r, p e.kind) : Keeps R (Prog.tryCall f ev : Run σ α) :=
  keeps_tryCall fun s env r => h.calls s env _ (hev r)

/-- A call that is recorded as one event. -/
theorem callOne (h : Admits R p) {f : σ → α × σ} {ev : α → Event} (hev : ∀ a, p (ev a).kind) :
    Keeps R (Prog.call f (fun a => [ev a]) : Run σ α) := h.call fun a e he => by
  cases List.mem_singleton.mp he
  exact hev a

theorem tryCallOne (h : Admits R p) {f : σ → Except Error α × σ} {ev : Except Error α → Event} (hev : ∀ r, p (ev r).kind) :
    Keeps R (Prog.tryCall f (fun r => [ev r]) : Run σ α) := h.tryCall fun r e he => by
  cases List.mem_singleton.mp he
  exact hev r

theorem own (h : Admits R p) : Keeps R (Prog.own : Run σ Device) := Keeps.gets h.steps _

theorem link (h : Admits R p) : Keeps R (NervesHub.link : Run σ Link) := Keeps.gets h.steps _

theorem nowMs (h : Admits R p) (hp : p .clock) : Keeps R (nowMs agent) := h.callOne fun _ => hp

theorem sleep (h : Admits R p) {why : Pause} (hp : p (.pause why)) (d : Duration) :
    Keeps R (sleep agent why d) := h.callOne fun _ => hp

theorem restart (h : Admits R p) (hp : p .restarted) : Keeps R (restart agent) := h.callOne fun _ => hp

theorem nextRef (h : Admits R p) : Keeps R (Link.nextRef : Run σ String) :=
  keeps_update fun s => h.aside s _ _

theorem handleControlFrame (h : Admits R p) (hbeat : AnyBeat R) (m : Message) :
    Keeps R (Link.handleControlFrame m : Run σ Action) := by
  refine Keeps.bind h.steps (fun s => ?_) fun _ => Keeps.pure h.steps _
  by_cases hreply : (m.event = event.reply && m.reference.isSome && m.reference = s.own.link.heartbeatRef) = true
  · simp only [modifyLink, modifyOwn_apply, if_pos hreply]
    exact hbeat s none
  · simp only [modifyLink, modifyOwn_apply, if_neg hreply]
    exact h.steps.refl s

theorem setDownloading (h : Admits R p) (uuid : Option String) :
    Keeps R (Link.setDownloading uuid : Run σ Unit) := fun s => h.aside s _ _

/-! ### Sending -/

variable [Serde]

theorem write (h : Admits R p) {m : Envelope} (hm : p m.kind) : Keeps R (Link.write agent m) :=
  Keeps.bind h.steps h.link fun _ => h.tryCallOne fun _ => hm

theorem send (h : Admits R p) (ev : String) (hev : p (deviceKind ev)) (payload : Value) (reference : String) :
    Keeps R (Link.send agent ev payload reference) := Keeps.bind h.steps h.link fun _ => h.write hev

theorem sendHeartbeat (h : Admits R p) (hbeat : AnyBeat R) (hp : p .heartbeat) : Keeps R (Link.sendHeartbeat agent) :=
  Keeps.bind h.steps h.nextRef fun _ => Keeps.bind h.steps (fun s => hbeat s _) fun _ => h.write hp

theorem sendProgress (h : Admits R p) (hp : p .progress) (stage : Stage) (percent : Nat) :
    Keeps R (Link.sendProgress agent stage percent) :=
  Keeps.bind h.steps h.nextRef fun _ => h.send event.updateProgress hp _ _

theorem sendStatus (h : Admits R p) (hp : p .status) (status : String) (extra : Value) :
    Keeps R (Link.sendStatus agent status extra) := Keeps.bind h.steps h.nextRef fun _ => h.send event.statusUpdate hp _ _

theorem sendRebooting (h : Admits R p) (hp : p .rebooting) : Keeps R (Link.sendRebooting agent) :=
  Keeps.bind h.steps h.nextRef fun _ => h.send event.rebooting hp _ _

theorem sendConsole (h : Admits R p) (hp : p .terminal) (text : String) : Keeps R (Link.sendConsole agent text) :=
  Keeps.ite (Keeps.pure h.steps ()) (Keeps.bind h.steps h.nextRef fun _ => Keeps.bind h.steps h.link fun _ => h.write hp)

/-- Of the frames of the extensions, whatever keeps each of their writes. -/
theorem sendExtension_writes (h : Admits R p) (outgoing : List Outgoing)
    (hwrite : ∀ ev payload, .send ev payload ∈ outgoing → ∀ joinRef reference,
      Keeps R (Link.write agent ⟨joinRef, some reference, extensionsTopic, ev, .value payload⟩)) :
    Keeps R (Link.sendExtension agent outgoing) := by
  induction outgoing with
  | nil => exact Keeps.pure h.steps ()
  | cons out rest ih =>
    have ih := ih fun ev payload hmem => hwrite ev payload (List.mem_cons_of_mem _ hmem)
    cases out with
    | send ev payload =>
      refine Keeps.bind h.steps h.nextRef fun reference => Keeps.bind h.steps h.link fun l => ?_
      exact Keeps.bind h.steps (hwrite ev payload List.mem_cons_self l.extensionsJoinRef reference) fun _ => ih
    | needLocation => exact ih
    | needHealth => exact ih

theorem sendExtension (h : Admits R p) (outgoing : List Outgoing)
    (hp : ∀ ev payload, .send ev payload ∈ outgoing → p (extensionKind ev)) :
    Keeps R (Link.sendExtension agent outgoing) :=
  h.sendExtension_writes outgoing fun ev payload hmem _ _ => h.write (hp ev payload hmem)

theorem handleConsoleFrame (h : Admits R p) (hp : p .terminal) (m : Message) :
    Keeps R (Link.handleConsoleFrame agent m) := by
  have hsay : ∀ text, Keeps R (Link.sendConsole agent text >>= fun _ => pure Action.none) := fun text =>
    Keeps.bind h.steps (h.sendConsole hp text) fun _ => Keeps.pure h.steps _
  refine Keeps.bind h.steps h.link fun l => Keeps.ite ?_ (Keeps.ite ?_ (Keeps.ite (Keeps.pure h.steps _) ?_))
  · exact Keeps.ite (hsay _) (Keeps.pure h.steps _)
  · split <;> exact Keeps.pure h.steps _
  · exact Keeps.ite (hsay _) (Keeps.pure h.steps _)

omit [Serde] in
theorem windowEnds (h : Admits R p) (hover : Keeps R (overhear agent)) (window : Option SessionWindow) (started now : Nat)
    (a : Session) : Keeps R (NervesHub.windowEnds agent window started now a) := by
  cases window with
  | none => exact Keeps.pure h.steps _
  | some window =>
    refine Keeps.bind h.steps h.link fun l => Keeps.ite ?_ (Keeps.ite ?_ (Keeps.pure h.steps _))
    · exact Keeps.ite (Keeps.throw h.steps _) (Keeps.pure h.steps _)
    refine Keeps.bind h.steps h.link fun l => Keeps.bind h.steps ?_ fun _ => Keeps.pure h.steps _
    refine Keeps.bind h.steps h.link fun l => Keeps.ite (Keeps.pure h.steps _) ?_
    exact Keeps.bind h.steps (Keeps.bind h.steps hover fun _ => Keeps.gets h.steps _) fun _ => Keeps.pure h.steps _

/-! ### The log buffer -/

omit [Serde] in
theorem onLogs (h : Admits R p) (hbuffer : AnyBuffer R) {f : LogBuffer → α × LogBuffer} {otherwise : α}
    {ev : α → List Event} (hev : ∀ a, ∀ e ∈ ev a, p e.kind) : Keeps R (onLogs f otherwise ev : Run σ α) := by
  refine keeps_update fun s => ?_
  cases hlogs : s.own.logs with
  | none =>
    have hs := h.calls s s.env (ev otherwise) (hev _)
    exact hs
  | some b => exact h.steps.trans (hbuffer s (some (f b).2)) (h.calls _ s.env (ev (f b).1) (hev _))

omit [Serde] in
theorem overhear (h : Admits R p) (hbuffer : AnyBuffer R) (hp : p .offered) : Keeps R (overhear agent) := by
  refine Keeps.bind h.steps (h.call fun _ e he => by cases he) fun offers => ?_
  refine Keeps.bind h.steps (keeps_update fun s => ?_) fun _ => Keeps.pure h.steps ()
  refine h.steps.trans (hbuffer s _) (h.calls _ s.env _ fun e he => ?_)
  obtain ⟨fate, -, rfl⟩ := List.mem_map.mp (List.mem_reverse.mp he)
  exact hp

def logKinds : List Kind := [.offered, .took, .noted]

omit [Serde] in
theorem takeStamped (h : Admits R p) (hbuffer : AnyBuffer R) (hp : ∀ k ∈ logKinds, p k) (maxLines maxBytes : Nat)
    (micros : Option Nat) :
    Keeps R (takeStamped agent maxLines maxBytes micros) := by
  have hover : Keeps R (NervesHub.overhear agent) := h.overhear hbuffer (hp .offered (by decide))
  refine Keeps.bind h.steps hover fun _ => Keeps.bind h.steps (h.onLogs hbuffer fun r e he => ?_) fun r => ?_
  · obtain ⟨line, -, rfl⟩ := List.mem_map.mp (List.mem_reverse.mp he)
    exact hp .took (by decide)
  refine Keeps.ite (Keeps.pure h.steps _) ?_
  refine Keeps.bind h.steps hover fun _ => Keeps.bind h.steps (h.onLogs hbuffer fun r e he => ?_) fun popped => ?_
  · cases r with
    | line held =>
      cases List.mem_singleton.mp he
      exact hp .took (by decide)
    | note lost =>
      cases List.mem_singleton.mp he
      exact hp .noted (by decide)
    | nothing => cases he
  · cases popped.sent with
    | none => exact Keeps.pure h.steps _
    | some note => exact Keeps.pure h.steps _

theorem drainLogs (h : Admits R p) (hbuffer : AnyBuffer R) (hp : ∀ k ∈ logKinds, p k)
    (hsend : ∀ lines, Keeps R (Link.sendLogs agent lines)) (maxLines now lastLog : Nat) :
    Keeps R (drainLogs agent maxLines now lastLog) := by
  refine Keeps.bind h.steps (h.call fun _ e he => by cases he) fun micros => ?_
  refine Keeps.bind h.steps (h.takeStamped hbuffer hp _ _ _) fun lines => ?_
  exact Keeps.ite (Keeps.pure h.steps _) (Keeps.bind h.steps (hsend lines) fun _ => Keeps.pure h.steps _)

theorem linkSendLogs (h : Admits R p) (hp : p .logging) (lines : List LogLine) : Keeps R (Link.sendLogs agent lines) := by
  refine Keeps.bind h.steps h.link fun l => ?_
  cases l.extensions.logBatch lines with
  | some batch => exact Keeps.bind h.steps h.nextRef fun _ => h.write hp
  | none =>
    refine h.sendExtension _ fun ev payload hmem => ?_
    have hev := Extensions.event_of_mem_logs hmem
    subst hev
    exact hp

theorem sendLogs (h : Admits R p) (hbuffer : AnyBuffer R) (hp : ∀ k ∈ Kind.logging :: logKinds, p k) (now lastLog : Nat) :
    Keeps R (sendLogs agent now lastLog) := by
  have hsend : ∀ lines, Keeps R (Link.sendLogs agent lines) := h.linkSendLogs (hp .logging (by decide))
  refine Keeps.bind h.steps h.own fun d => Keeps.ite (Keeps.pure h.steps _) ?_
  refine Keeps.ite (Keeps.pure h.steps _) ?_
  exact h.drainLogs hbuffer (fun k hk => hp k (List.mem_cons_of_mem _ hk)) hsend _ _ _

end Admits

variable [Serde] {agent : Agent σ} {R : World σ → World σ → Prop} {p : Kind → Prop}
open Admits

/-- And with what the terminal does to the log buffer. -/
structure Hosts (R : World σ → World σ → Prop) (p : Kind → Prop) : Prop extends Admits R p where
  level : ∀ s l, R s { s with own := { s.own with logs := s.own.logs.map (·.setLevel l) } }

/-- And with draining it, with heartbeats, and with the times that a download keeps. -/
structure Allows (agent : Agent σ) (R : World σ → World σ → Prop) (p : Kind → Prop) : Prop extends Hosts R p where
  beat : AnyBeat R
  pump : AnyPump R
  logs : ∀ now lastLog, Keeps R (sendLogs agent now lastLog)

/-- Where nothing of this is of any concern, it may all go on. -/
theorem Admits.allows (h : Admits R p) (hbuffer : AnyBuffer R) (hbeat : AnyBeat R) (hpump : AnyPump R)
    (hp : ∀ k ∈ Kind.logging :: logKinds, p k) : Allows agent R p where
  toAdmits := h
  level s _ := hbuffer s _
  beat := hbeat
  pump := hpump
  logs := h.sendLogs hbuffer hp

namespace Hosts

/-! ### The terminal -/

theorem logCommand (h : Hosts R p) (args : List String) : Keeps R (logCommand args : Run σ String) := by
  refine Keeps.bind h.steps h.own fun d => ?_
  cases d.logs with
  | none => exact Keeps.pure h.steps _
  | some b =>
    cases args with
    | nil => exact Keeps.pure h.steps _
    | cons level rest =>
      cases hl : Level.parse level with
      | none =>
        simp only [hl]
        exact Keeps.pure h.steps _
      | some l =>
        simp only [hl]
        refine Keeps.bind h.steps (keeps_update fun s => ?_) fun _ => Keeps.pure h.steps _
        have hs := h.level s l
        cases hlogs : s.own.logs with
        | none => exact h.steps.refl s
        | some b =>
          rw [hlogs] at hs
          exact hs

theorem runCommand (h : Hosts R p) (hp : p .ran) (commands : List (Command σ))
    (parsed : Option (String × List String)) : Keeps R (Console.run commands parsed) := by
  rcases parsed with _ | ⟨name, args⟩
  · exact Keeps.pure h.steps _
  refine Keeps.ite (h.logCommand args) (Keeps.ite (Keeps.pure h.steps _) ?_)
  cases commands.find? (·.name == name) with
  | none => exact Keeps.pure h.steps _
  | some command =>
    exact Keeps.bind h.steps (h.callOne fun _ => hp) fun _ => Keeps.pure h.steps _

def consoleKinds : List Kind := [.terminal, .ran, .pause .restarting, .restarted]

theorem answerConsole (h : Hosts R p) (hp : ∀ k ∈ consoleKinds, p k) (data : String) :
    Keeps R (answerConsole agent data) := by
  have hconsole : ∀ text, Keeps R (Link.sendConsole agent text) := h.sendConsole (hp .terminal (by decide))
  unfold NervesHub.answerConsole
  cases agent.console with
  | none => exact Keeps.pure h.steps _
  | some commands =>
    refine Keeps.bind h.steps (keeps_update fun s => h.reader (hp .terminal (by decide)) s _) fun typed => ?_
    obtain ⟨echo, lines⟩ := typed
    induction lines generalizing echo with
    | nil => exact Keeps.bind h.steps (hconsole _) fun _ => Keeps.pure h.steps _
    | cons line rest ih =>
      refine Keeps.ite ?_ ?_
      · refine Keeps.bind h.steps (hconsole _) fun _ => ?_
        refine Keeps.bind h.steps (h.sleep (hp _ (by decide)) _) fun _ => ?_
        exact Keeps.bind h.steps (h.restart (hp _ (by decide))) fun _ => Keeps.pure h.steps _
      · refine Keeps.bind h.steps (h.runCommand (hp _ (by decide)) commands _) fun _ => ?_
        exact Keeps.bind h.steps (hconsole _) fun _ => ih ""

end Hosts

/-! ### The extensions -/

namespace Allows

/-- The kinds of what answers a need, and of the readings that it takes. -/
def needKinds : Outgoing → List Kind
  | .send ev _ => [extensionKind ev]
  | .needLocation => [.located, .extension]
  | .needHealth => [.healthRead, .healthReport]

/-- The kinds of what answers any need. -/
def allNeedKinds : List Kind := [.extensionsJoin, .logging, .healthReport, .extension, .located, .healthRead]

omit [Serde] in
theorem mem_allNeedKinds {need : Outgoing} {k : Kind} (hk : k ∈ needKinds need) : k ∈ allNeedKinds := by
  cases need with
  | send ev payload =>
    rw [List.mem_singleton.mp hk]
    unfold extensionKind
    repeat' split
    all_goals decide
  | needLocation => revert k; decide
  | needHealth => revert k; decide

end Allows

namespace Admits
open Allows (needKinds)

omit [Serde] in
theorem answerNeed (h : Admits R p) {need : Outgoing} (hp : ∀ k ∈ needKinds need, p k) :
    Keeps R (answerNeed agent need) := by
  cases need with
  | send ev payload => exact Keeps.pure h.steps _
  | needLocation =>
    refine Keeps.bind h.steps ?_ fun _ => Keeps.pure h.steps _
    unfold Agent.readLocation
    cases agent.location with
    | none => exact Keeps.pure h.steps _
    | some provider =>
      exact h.callOne fun _ => hp .located (by simp [needKinds])
  | needHealth =>
    unfold NervesHub.answerNeed
    cases agent.health with
    | none => exact Keeps.pure h.steps _
    | some provider =>
      exact Keeps.bind h.steps (h.callOne fun _ => hp .healthRead (by simp [needKinds])) fun _ => Keeps.pure h.steps _

omit [Serde] in
/-- What answers a need is of the need's kinds. -/
theorem answerNeed_returns (need : Outgoing) : Returns
    (fun answer => ∀ ev payload, .send ev payload ∈ answer → extensionKind ev ∈ needKinds need)
    (NervesHub.answerNeed agent need) := by
  cases need with
  | send ev payload =>
    refine Returns.pure fun ev' payload' hmem => ?_
    cases List.mem_singleton.mp hmem
    simp [needKinds]
  | needLocation =>
    refine Returns.bind fun location => Returns.pure fun ev payload hmem => ?_
    cases location with
    | none => cases hmem
    | some l =>
      cases List.mem_singleton.mp hmem
      decide
  | needHealth =>
    unfold NervesHub.answerNeed
    cases agent.health with
    | none => exact Returns.pure fun ev payload hmem => by cases hmem
    | some provider =>
      refine Returns.bind fun report => Returns.pure fun ev payload hmem => ?_
      cases List.mem_singleton.mp hmem
      decide

theorem answerExtension (h : Admits R p) (needs : List Outgoing) (hp : ∀ need ∈ needs, ∀ k ∈ needKinds need, p k) :
    Keeps R (answerExtension agent needs) := by
  induction needs with
  | nil => exact Keeps.pure h.steps ()
  | cons need rest ih =>
    have hneed := hp need List.mem_cons_self
    refine Keeps.bind_returns h.steps (h.answerNeed hneed) (answerNeed_returns need) fun answer hanswer => ?_
    refine Keeps.bind h.steps (h.sendExtension answer fun ev payload hmem => hneed _ (hanswer ev payload hmem)) fun _ => ?_
    exact ih fun n hn => hp n (List.mem_cons_of_mem _ hn)

theorem report (h : Admits R p) (hp : ∀ k ∈ [Kind.progressed, .progress], p k) (stage : Stage) (percent : Nat) :
    Keeps R (Pump.report agent stage percent) := by
  refine Keeps.bind h.steps (h.callOne fun _ => hp .progressed (by decide)) fun _ => ?_
  exact h.sendProgress (hp _ (by decide)) stage percent

theorem announceApplied (h : Admits R p) (hp : ∀ k ∈ [Kind.progress, .status, .rebooting], p k) :
    Keeps R (announceApplied agent) := by
  refine Keeps.bind h.steps (h.sendProgress (hp _ (by decide)) _ _) fun _ => ?_
  exact Keeps.bind h.steps (h.sendStatus (hp _ (by decide)) _ _) fun _ => h.sendRebooting (hp _ (by decide))

end Admits

namespace Allows

/-! ### Updates -/

def pumpKinds : List Kind := [.clock, .heartbeat, .pause .retrying, .progressed, .progress]

theorem tick (h : Allows agent R p) (hp : ∀ k ∈ pumpKinds, p k) : Keeps R (Pump.tick agent) := by
  refine Keeps.bind h.steps (h.nowMs (hp _ (by decide))) fun now => Keeps.bind h.steps h.own fun d => ?_
  refine Keeps.bind h.steps (Keeps.when h.steps fun _ => ?_) fun _ => Keeps.bind h.steps h.own fun d' => ?_
  · exact Keeps.bind h.steps (h.sendHeartbeat h.beat (hp _ (by decide))) fun _ => fun s => h.pump s _
  · exact Keeps.bind h.steps (h.logs now d'.pump.lastLog) fun lastLog => fun s => h.pump s _

theorem wait (h : Allows agent R p) (hp : ∀ k ∈ pumpKinds, p k) (d : Duration) : Keeps R (Pump.wait agent d) := by
  have hclock : Keeps R (NervesHub.nowMs agent) := h.nowMs (hp .clock (by decide))
  refine Keeps.bind h.steps hclock fun now => keeps_loop h.steps h.gas (fun _ => ?_) ()
  refine Keeps.bind h.steps (h.tick hp) fun _ => Keeps.bind h.steps hclock fun now' => ?_
  refine Keeps.ite (Keeps.pure h.steps _) ?_
  exact Keeps.bind h.steps (h.sleep (hp (.pause .retrying) (by decide)) _) fun _ => Keeps.pure h.steps _

def imageKinds : List Kind := pumpKinds ++ [.image]

variable [Sha256]

theorem image (h : Allows agent R p) (hp : ∀ k ∈ imageKinds, p k) (update : UpdatePayload) (url : String) (step : Nat) :
    Keeps R (NervesHub.download update url (imageStream agent) (imageSink agent) step (Pump.progress agent)) := by
  have himage := hp .image (by decide)
  have hpump : ∀ k ∈ pumpKinds, p k := fun k hk => hp k (List.mem_append_left _ hk)
  refine keeps_download h.steps h.gas (fun url => ?_) ?_ (fun chunk => ?_) (h.tick hpump)
    (fun percent => h.report (fun k hk => hpump k (by revert k; decide)) _ percent) (h.wait hpump) update url step
  all_goals simp only [imageStream, imageSink, HttpCalls.recorded_openUrl, HttpCalls.recorded_read,
    SinkCalls.recorded_write]
  all_goals
    exact h.tryCallOne fun _ => himage

omit [Sha256] in
theorem abort (h : Allows agent R p) (hp : p .image) (s : World σ) : R s ((imageSink agent).abort s) := by
  refine h.calls s _ _ fun e he => ?_
  rw [List.mem_singleton.mp he]
  exact hp

omit [Sha256] in
theorem commit (h : Allows agent R p) (hp : p .committed) : Keeps R (imageSink agent).commit := by
  simp only [imageSink, SinkCalls.recorded_commit]
  exact h.tryCallOne fun _ => hp

theorem install (h : Allows agent R p) (hp : ∀ k ∈ imageKinds, p k) (hc : p .committed) (update : UpdatePayload)
    (step : Nat) : Keeps R (install update (imageStream agent) (imageSink agent) step (Pump.progress agent)) := by
  unfold NervesHub.install
  cases update.actionable with
  | none => exact Keeps.throw h.steps _
  | some urlUuid =>
    refine Keeps.bind h.steps (h.image hp update _ step).attempt fun r => ?_
    cases r with
    | ok report => exact Keeps.bind h.steps (h.commit hc) fun _ => Keeps.pure h.steps _
    | error err =>
      exact Keeps.bind h.steps (fun s => h.abort (hp _ (by decide)) s) fun _ => Keeps.throw h.steps _

def downloadKinds : List Kind := imageKinds ++ [.httpStarted, .updateBegun, .committed]

theorem download (h : Allows agent R p) (hp : ∀ k ∈ downloadKinds, p k) (update : UpdatePayload) :
    Keeps R (agent.download update) := by
  refine Keeps.bind h.steps (h.tryCallOne fun _ => hp .httpStarted (by decide)) fun _ => ?_
  refine Keeps.bind h.steps (h.tryCallOne fun _ => hp .updateBegun (by decide)) fun _ => ?_
  refine Keeps.bind h.steps (h.nowMs (hp _ (by decide))) fun now => ?_
  refine Keeps.bind h.steps (fun s => h.pump s _) fun _ => ?_
  refine Keeps.bind h.steps ?_ fun _ => Keeps.pure h.steps ()
  exact h.install (fun k hk => hp k (List.mem_append_left _ hk)) (hp _ (by decide)) update _

theorem fetch (h : Allows agent R p) (hp : ∀ k ∈ downloadKinds, p k) (update : UpdatePayload) :
    Keeps R (agent.fetch update) := by
  refine Keeps.bind h.steps (Keeps.when h.steps fun _ => h.setDownloading _) fun _ => ?_
  refine Keeps.bind h.steps (h.download hp update).attempt fun _ => ?_
  exact Keeps.bind h.steps (h.setDownloading none) fun _ => Keeps.pure h.steps _

def applyKinds : List Kind := downloadKinds ++ [.status, .rebooting, .pause .restarting, .restarted]

theorem apply (h : Allows agent R p) (hp : ∀ k ∈ applyKinds, p k) (update : UpdatePayload) :
    Keeps R (agent.apply update) := by
  refine Keeps.bind h.steps (h.fetch (fun k hk => hp k (List.mem_append_left _ hk)) update) fun outcome => ?_
  cases outcome with
  | ok u =>
    refine Keeps.bind h.steps (h.announceApplied fun k hk => ?_) fun _ => ?_
    · revert k
      simp only [List.mem_cons, List.not_mem_nil, or_false, forall_eq_or_imp, forall_eq]
      exact ⟨hp _ (by decide), hp _ (by decide), hp _ (by decide)⟩
    refine Keeps.bind h.steps (h.sleep (hp _ (by decide)) _) fun _ => ?_
    exact Keeps.bind h.steps (h.restart (hp _ (by decide))) fun _ => Keeps.pure h.steps _
  | error err =>
    exact Keeps.bind h.steps (h.sendStatus (hp _ (by decide)) _ _) fun _ => Keeps.pure h.steps _

end Allows
end
end NervesHub
