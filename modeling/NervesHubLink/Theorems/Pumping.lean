import NervesHubLink.Theorems.Rounds

/-! What a whole update comes to, from what each of the calls in it comes to. -/

namespace NervesHub
open Act Prog

section
variable {σ : Type} [Serde] {agent : Agent σ}

/-- The calls of a download between what holds before and after them: `I` while the download goes on, `T` before a tick, `W`
    when the image could not be opened, `X` after an error, `F` once it is over, and `C` whenever it may be cut. -/
structure Pumps (agent : Agent σ) (I T W X F C : World σ → Prop) : Prop where
  gas : ∀ s g, I s → I { s with gas := g }
  gasTick : ∀ s g, T s → T { s with gas := g }
  opens : ∀ url, Spec I ((imageStream agent).openUrl url) (Ends (fun _ => I) W C)
  waits : Spec W (nowMs agent) (Ends (fun _ => T) X C)
  tick : Spec T (Pump.tick agent) (Ends (fun _ => I) X C)
  clock : Spec I (nowMs agent) (Ends (fun _ => I) X C)
  sleeps : ∀ d, Spec I (sleep agent .retrying d) (Ends (fun _ => T) X C)
  reads : Spec I (imageStream agent).read (Ends (fun _ => I) X C)
  writes : ∀ chunk, Spec I ((imageSink agent).write chunk) (Ends (fun _ => T) X C)
  reports : ∀ percent, Spec I (Pump.report agent .downloading percent) (Ends (fun _ => I) X C)
  commits : Spec I (imageSink agent).commit (Ends (fun _ => F) F C)
  aborts : ∀ s, X s → F ((imageSink agent).abort s)
  idle : ∀ s, I s → F s
  fails : ∀ s, I s → X s
  refused : ∀ s, W s → X s
  cuts : ∀ s, I s → C s
  cutsTick : ∀ s, T s → C s

namespace Pumps

variable {I T W X F C : World σ → Prop} (h : Pumps agent I T W X F C)
include h

theorem wait (d : Duration) : Spec W (Pump.wait agent d) (Ends (fun _ => I) X C) := by
  refine Spec.bind h.waits fun now => ?_
  refine loop_spec (I := fun _ => T) (fun _ s g hs => h.gasTick s g hs) (fun _ => h.cutsTick) (fun _ => ?_) ()
  refine Spec.bind h.tick fun _ => Spec.bind h.clock fun now' => Spec.ite (fun _ => Spec.ret fun s hs => hs) fun _ => ?_
  exact Spec.bind (h.sleeps _) fun _ => Spec.ret fun s hs => hs

theorem openImage (url : String) (waits : List Duration) :
    Spec I (NervesHub.openImage url (imageStream agent) (Pump.progress agent) waits) (Ends (fun _ => I) X C) := by
  induction waits with
  | nil =>
    refine Spec.bind (h.opens url).attempt fun r => ?_
    cases r with
    | ok contentLength => exact Spec.ret fun s hs => hs
    | error err => exact Spec.fail h.refused
  | cons backoff waits ih =>
    refine Spec.bind (h.opens url).attempt fun r => ?_
    cases r with
    | ok contentLength => exact Spec.ret fun s hs => hs
    | error err =>
      exact Spec.ite (fun _ => Spec.bind (h.wait (retryWait backoff err)) fun _ => ih) fun _ => Spec.fail h.refused

theorem checkProgress (size : Option Nat) (throttle : ProgressThrottle) (written : Nat) :
    Spec I (NervesHub.checkProgress size (Pump.progress agent) throttle written) (Ends (fun _ => I) X C) := by
  unfold NervesHub.checkProgress
  cases size with
  | none => exact Spec.ret fun s hs => hs
  | some total =>
    refine Spec.ite (fun _ => Spec.fail h.fails) fun _ => ?_
    split
    · exact Spec.bind (h.reports _) fun _ => Spec.ret fun s hs => hs
    · exact Spec.ret fun s hs => hs

variable [Sha256]

theorem image (update : UpdatePayload) (url : String) (step : Nat) :
    Spec I (NervesHub.download update url (imageStream agent) (imageSink agent) step (Pump.progress agent))
      (Ends (fun _ => I) X C) := by
  refine Spec.bind (h.openImage url _) fun contentLength => ?_
  refine Spec.bind (R := fun _ => I) ?_ fun r => Spec.ofExcept (fun _ _ s hs => hs) fun _ _ => h.fails
  refine loop_spec (I := fun _ => I) (fun _ s g hs => h.gas s g hs) (fun _ => h.cuts) (fun c => ?_) _
  refine Spec.bind h.reads fun chunk => Spec.ite (fun _ => Spec.ret fun s hs => hs) fun _ => ?_
  refine Spec.bind (h.writes chunk.val) fun _ => Spec.bind h.tick fun _ => ?_
  exact Spec.bind (h.checkProgress _ _ _) fun _ => Spec.ret fun s hs => hs

theorem install (update : UpdatePayload) (step : Nat) :
    Spec I (NervesHub.install update (imageStream agent) (imageSink agent) step (Pump.progress agent))
      (Ends (fun _ => F) F C) := by
  unfold NervesHub.install
  cases update.actionable with
  | none => exact Spec.fail h.idle
  | some urlUuid =>
    refine Spec.bind (h.image update urlUuid.1 step).attempt fun r => ?_
    cases r with
    | ok report => exact Spec.bind h.commits fun _ => Spec.ret fun s hs => hs
    | error err => exact Spec.bind (R := fun _ => F) h.aborts fun _ => Spec.fail fun s hs => hs

/-- The whole of a download, from `L` on, with `A` and `B` before its image and before its clock are there. -/
theorem fetch {L A B E : World σ → Prop} (hmark : ∀ s uuid, L s → L { s with own := { s.own with link := { s.own.link with
      downloading := uuid } } })
    (hunmark : ∀ s, F s → F { s with own := { s.own with link := { s.own.link with downloading := none } } })
    (hhttp : Spec L (tryCall agent.platform.http fun r => [.httpStarted r]) (Ends (fun _ => A) F C))
    (hbegin : Spec A (tryCall agent.platform.beginUpdate fun r => [.updateBegun r]) (Ends (fun _ => B) F C))
    (hclock : Spec B (nowMs agent) (Ends (fun now s => I { s with own := { s.own with pump := ⟨now, now⟩ } }) F C))
    (update : UpdatePayload) : Spec L (agent.fetch update) (Ends (fun _ => F) E C) := by
  have hdownload : Spec L (agent.download update) (Ends (fun _ => F) F C) := by
    refine Spec.bind hhttp fun _ => Spec.bind hbegin fun _ => Spec.bind hclock fun now => ?_
    refine Spec.bind (R := fun _ => I) (fun s hs => hs) fun _ => ?_
    exact Spec.bind (h.install update _) fun _ => Spec.ret fun s hs => hs
  refine Spec.bind (R := fun _ => L) (Spec.when (fun _ s hs => hmark s _ hs) fun _ s hs => hs) fun _ => ?_
  refine Spec.bind hdownload.attempt fun outcome => ?_
  cases outcome with
  | ok u => exact Spec.bind (R := fun _ => F) hunmark fun _ => Spec.ret fun s hs => hs
  | error err => exact Spec.bind (R := fun _ => F) hunmark fun _ => Spec.ret fun s hs => hs

end Pumps

variable [Sha256] {R : World σ → World σ → Prop} {p : Kind → Prop}

def closingKinds : List Kind := [.progress, .status, .rebooting, .pause .restarting, .restarted]

/-- The rule for what comes of an update, from what comes of its download: of its last messages, `E` needs to be kept
    only. -/
theorem Admits.update_rule (h : Admits R p) (hp : ∀ k ∈ closingKinds, p k)
    {L F G E : World σ → Prop} {J : Session → World σ → Prop} {Q : Option Stopped → World σ → Prop}
    (hkeep : ∀ s t, E s → R s t → E t) (hover : ∀ s, F s → E s) (hQ : ∀ s, E s → Q (some .rebooting) s) {a : Session}
    {update : UpdatePayload} (hfetch : Spec L (agent.fetch update) (Ends (fun _ => F) E E))
    (hfail : ∀ extra, Spec F (Link.sendStatus agent "failed" extra) (Ends (fun _ => G) E E))
    (hnow : Spec G (NervesHub.nowMs agent) (Ends (fun now => J { a with lastHeartbeat := now }) E E)) :
    Spec L (perform agent a (.applyUpdate update)) (Ends (Turn.Post J Q) E E) := by
  have hkeeps : ∀ {α : Type} {m : Run σ α}, Keeps R m → Spec E m (Ends (fun _ => E) E E) := fun hm => Spec.of_keeps hm hkeep
  refine Spec.bind (R := fun rebooting s => if rebooting then E s else G s) (Spec.bind hfetch fun outcome =>
    ?_) fun rebooting => ?_
  · cases outcome with
    | ok u =>
      have hmessages : Keeps R (NervesHub.announceApplied agent) := h.announceApplied fun k hk => hp k (by revert k; decide)
      refine Spec.bind ((hkeeps hmessages).pre hover) fun _ => Spec.bind (hkeeps (h.sleep (hp _ (by decide)) _)) fun _ => ?_
      exact Spec.bind (hkeeps (h.restart (hp _ (by decide)))) fun _ => Spec.ret fun s hs => hs
    | error err => exact Spec.bind (hfail _) fun _ => Spec.ret fun s hs => hs
  · cases rebooting with
    | true => exact Spec.ret hQ
    | false => exact Spec.bind hnow fun now => Spec.ret fun s hs => hs

omit [Sha256] in
/-- `n` sends one frame of the kind `kd`, and does to the device's state what `O` says. -/
def Sends (kd : Kind) (O : Device → Envelope → Device → Prop) (n : Run σ Unit) : Prop :=
  ∀ s, ∃ m t, m.kind = kd ∧ O s.own m t.own ∧
    ((n s = (.ret (), t) ∧ t.trace = .sent m (.ok ()) :: s.trace) ∨
      ∃ e, n s = (.err e, t) ∧ t.trace = .sent m (.error e) :: s.trace)

omit [Serde] [Sha256] in
theorem Sends.spec {kd : Kind} {O : Device → Envelope → Device → Prop} {n : Run σ Unit} (h : Sends kd O n)
    {P Q X C : World σ → Prop}
    (hok : ∀ s m t, P s → m.kind = kd → O s.own m t.own → t.trace = .sent m (.ok ()) :: s.trace → Q t)
    (herr : ∀ s m e t, P s → m.kind = kd → O s.own m t.own → t.trace = .sent m (.error e) :: s.trace → X t) :
    Spec P n (Ends (fun _ => Q) X C) := by
  intro s hs
  obtain ⟨m, t, hkind, hown, ⟨hn, htrace⟩ | ⟨e, hn, htrace⟩⟩ := h s
  · rw [hn]
    exact hok s m t hs hkind hown htrace
  · rw [hn]
    exact herr s m e t hs hkind hown htrace

omit [Sha256] in
theorem write_sends (agent : Agent σ) (m : Envelope) (s : World σ) : ∃ t, t.own = s.own ∧
    ((Link.write agent m s = (.ret (), t) ∧ t.trace = .sent m (.ok ()) :: s.trace) ∨
      ∃ e, Link.write agent m s = (.err e, t) ∧ t.trace = .sent m (.error e) :: s.trace) := by
  unfold Link.write link
  rw [gets_bind_apply]
  obtain ⟨r, -, ⟨u, -, h⟩ | ⟨e, -, h⟩⟩ := tryCall_cases (X := Device)
    (agent.platform.send (encodeFrame s.own.link.config.serializer m)) (fun r => [Event.sent m r]) s
  · refine ⟨_, ?_, Or.inl ⟨h, rfl⟩⟩
    rfl
  · refine ⟨_, ?_, Or.inr ⟨e, h, rfl⟩⟩
    rfl

omit [Sha256] in
/-- A heartbeat waits for its reply from then on. -/
theorem sendHeartbeat_sends : Sends .heartbeat (fun d m d' => d'.pump = d.pump ∧ d'.link.heartbeatRef = m.reference)
    (Link.sendHeartbeat agent) := by
  intro s
  let ref := s.own.link.refs.nextRef.1
  let l : Link := { s.own.link with refs := s.own.link.refs.nextRef.2, heartbeatRef := some ref }
  let m : Envelope := ⟨none, some ref, controlTopic, event.heartbeat, .value (.obj [])⟩
  obtain ⟨t, hown, h⟩ := write_sends agent m { s with own := { s.own with link := l } }
  exact ⟨m, t, rfl, by simp [hown, l, m], h⟩

omit [Sha256] in
theorem sendStatus_sends (status : String) (extra : Value) : Sends .status
    (fun d _ d' => d'.pump = d.pump ∧ d'.link.heartbeatRef = d.link.heartbeatRef) (Link.sendStatus agent status extra) := by
  intro s
  let l : Link := { s.own.link with refs := s.own.link.refs.nextRef.2 }
  let m : Envelope := ⟨l.joinRef, some s.own.link.refs.nextRef.1, deviceTopic, event.statusUpdate,
    .value (Link.statusPayload status extra)⟩
  obtain ⟨t, hown, h⟩ := write_sends agent m { s with own := { s.own with link := l } }
  exact ⟨m, t, rfl, by simp [hown, l], h⟩

omit [Serde] [Sha256]

/-- What is new in the record is of the kinds `p`, and the times that a download keeps are as they were. -/
def Beside (p : Kind → Prop) (s t : World σ) : Prop := Only p s t ∧ t.own.pump = s.own.pump

theorem Beside.nothing {s t : World σ} (h : t.trace = s.trace) (hpump : t.own.pump = s.own.pump) : Beside p s t :=
  ⟨.nothing h, hpump⟩

theorem beside_admits (p : Kind → Prop) : Admits (Beside (σ := σ) p) p :=
  only_admits_keeping p (fun d => d.pump) (fun _ _ _ => rfl) fun _ _ _ => rfl

end
end NervesHub
