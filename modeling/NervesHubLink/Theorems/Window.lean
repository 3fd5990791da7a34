import NervesHubLink.Theorems.Closes
import NervesHubLink.Theorems.Replies

/-! When a bounded session ends, and with what. -/

namespace NervesHub
open Act Prog Machine Trace

section
variable {σ : Type} [Serde]

/-! ### Restarts -/

/-- The device was restarted, exactly if that is how the session ended. -/
def RestartTold (rebooting : Prop) (s : World σ) : Prop := rebooting ↔ ∃ e ∈ s.trace, e.kind = .restarted

/-- It was not. -/
def Unrestarted (s : World σ) : Prop := ∀ e ∈ s.trace, e.kind ≠ .restarted

variable {agent : Agent σ} {α : Type} {p : Prop}

omit [Serde] in
theorem Unrestarted.told {s : World σ} (h : Unrestarted s) (hp : ¬p) : RestartTold p s :=
  iff_of_false hp fun ⟨e, he, hk⟩ => h e he hk

theorem unrestarted_spans (agent : Agent σ) : Spans agent (Only (· ≠ .restarted)) (· ≠ .restarted) :=
  only_spans agent (by decide)

omit [Serde] in
theorem Unrestarted.keep {s u : World σ} (h : Unrestarted s) (hsu : Only (· ≠ .restarted) s u) : Unrestarted u := by
  obtain ⟨es, hes, hp⟩ := hsu
  intro e he
  rw [hes] at he
  rcases List.mem_append.mp he with he | he
  · exact hp e he
  · exact h e he

omit [Serde] in
theorem unrestarted_spec {m : Run σ α} (hm : Keeps (Only (· ≠ .restarted)) m) :
    Spec Unrestarted m (Post (fun _ => Unrestarted) Unrestarted) := Spec.of_keeps hm fun _ _ hs hsu => hs.keep hsu

omit [Serde] in
theorem restart_told : Spec Unrestarted (restart agent) (Post (fun _ => RestartTold True) Unrestarted) :=
  spec_call fun _ _ _ _ => iff_of_true trivial ⟨.restarted, List.mem_cons_self, rfl⟩

omit [Serde] in
theorem restart_last {b : α} {T : α → World σ → Prop} (hT : ∀ s, RestartTold True s → T b s) :
    Spec Unrestarted (restart agent >>= fun _ => pure b) (Post T Unrestarted) :=
  Spec.bind restart_told fun _ => Spec.ret hT

theorem answerConsole_told (data : String) :
    Spec Unrestarted (answerConsole agent data) (Post (fun rebooting => RestartTold (rebooting = true)) Unrestarted) := by
  have h := unrestarted_spans agent
  have hconsole : ∀ text, Keeps (Only (· ≠ .restarted)) (Link.sendConsole agent text) := h.sendConsole (by decide)
  have hfalse : ∀ s : World σ, Unrestarted s → RestartTold (false = true) s := fun s hs => hs.told (by decide)
  unfold NervesHub.answerConsole
  cases agent.console with
  | none => exact Spec.ret hfalse
  | some commands =>
    refine Spec.bind (R := fun _ => Unrestarted) (fun s hs => hs) fun typed => ?_
    obtain ⟨echo, lines⟩ := typed
    induction lines generalizing echo with
    | nil => exact Spec.bind (unrestarted_spec (hconsole _)) fun _ => Spec.ret hfalse
    | cons line rest ih =>
      refine Spec.ite (fun _ => ?_) fun _ => ?_
      · refine Spec.bind (unrestarted_spec (hconsole _)) fun _ => ?_
        refine Spec.bind (unrestarted_spec (h.sleep (by decide) _)) fun _ => ?_
        exact restart_last fun s hs => by simpa [RestartTold] using hs
      · refine Spec.bind (unrestarted_spec (h.runCommand (by decide) commands _)) fun _ => ?_
        exact Spec.bind (unrestarted_spec (hconsole _)) fun _ => ih ""

variable [Sha256]

theorem apply_told (update : UpdatePayload) :
    Spec Unrestarted (agent.apply update) (Post (fun rebooting => RestartTold (rebooting = true)) Unrestarted) := by
  have h := unrestarted_spans agent
  refine Spec.bind (unrestarted_spec (h.fetch (by decide) update)) fun outcome => ?_
  cases outcome with
  | ok u =>
    refine Spec.bind (unrestarted_spec (h.announceApplied (by decide))) fun _ => ?_
    refine Spec.bind (unrestarted_spec (h.sleep (by decide) _)) fun _ => ?_
    exact restart_last fun s hs => by simpa [RestartTold] using hs
  | error err =>
    refine Spec.bind (unrestarted_spec (h.sendStatus (by decide) _ _)) fun _ => ?_
    exact Spec.ret fun s hs => hs.told (by decide)

/-- Where a turn goes on the device was not restarted, and where the session ends it says whether it was. -/
def TurnTold : Turn Session (Option Stopped) → World σ → Prop :=
  Turn.Post (fun _ => Unrestarted) fun stopped => RestartTold (stopped = some .rebooting)

theorem perform_told (a : Session) (action : Action) :
    Spec Unrestarted (perform agent a action) (Post TurnTold Unrestarted) := by
  have h := unrestarted_spans agent
  have hyes : ∀ s : World σ, RestartTold True s → TurnTold (.done (some .rebooting)) s := fun s hs => by
    simpa [TurnTold, Turn.Post, RestartTold] using hs
  have hends : ∀ (rebooting : Bool) (n : Run σ (Turn Session (Option Stopped))),
    Spec Unrestarted n (Post TurnTold Unrestarted) →
      Spec (RestartTold (rebooting = true)) (if rebooting then pure (.done (some .rebooting)) else n)
          (Post TurnTold Unrestarted) := by
    intro rebooting n hn
    refine Spec.ite (fun hr => Spec.ret fun s hs => hyes s (by simpa [hr] using hs)) fun hr => hn.pre fun s hs e he hk => ?_
    exact hr (hs.mpr ⟨e, he, hk⟩)
  have hshort : (∀ k ∈ Roams.actionKinds action, k ≠ .restarted) → (∀ update, action ≠ .applyUpdate update) →
      (∀ d, Spans.After a action d → ∀ stopped, d ≠ .done (some stopped)) →
      Spec Unrestarted (perform agent a action) (Post TurnTold Unrestarted) := by
    intro hk hno hgoes
    refine ((unrestarted_spec (h.performShort hk hno a)).returns (Spans.perform_returns a action)).mono (fun d s hs => ?_)
      (fun _ h => h) fun _ h => h
    obtain ⟨hs, hd⟩ := hs
    rcases d with a' | _ | stopped
    · exact hs
    · exact hs.told (by simp)
    · exact absurd rfl (hgoes _ hd stopped)
  cases action with
  | applyUpdate update =>
    refine Spec.bind (apply_told update) fun rebooting => hends rebooting _ ?_
    exact Spec.bind (unrestarted_spec (h.nowMs (by decide))) fun _ => Spec.ret fun s hs => hs
  | reboot =>
    exact Spec.bind (unrestarted_spec (h.sendRebooting (by decide))) fun _ => restart_last hyes
  | console data =>
    exact Spec.bind (answerConsole_told data) fun rebooting => hends rebooting _ (Spec.ret fun s hs => hs)
  | extension needs =>
    refine hshort (fun k hk => ?_) (by simp) (by simp [Spans.After])
    obtain ⟨need, -, hk⟩ := List.mem_flatMap.mp hk
    have hall : ∀ k ∈ Allows.allNeedKinds, k ≠ .restarted := by decide
    exact hall k (Allows.mem_allNeedKinds hk)
  | identify => exact hshort (by decide) (by simp) (by simp [Spans.After])
  | consoleRestart => exact hshort (by decide) (by simp) (by simp [Spans.After])
  | reconnect => exact hshort (by decide) (by simp) (by simp [Spans.After])
  | none => exact hshort (by decide) (by simp) (by simp [Spans.After])

theorem listen_told (a : Session) : Spec Unrestarted (listen agent a) (Post TurnTold Unrestarted) := by
  have h := unrestarted_spans agent
  have hdone : ∀ s : World σ, Unrestarted s → TurnTold (.done none) s := fun s hs => hs.told (by simp)
  refine Spec.bind (R := fun _ => Unrestarted) ?_ fun r => ?_
  · have hreceived : Kind.received ≠ .restarted := by decide
    exact unrestarted_spec (Keeps.attempt (h.tryCallOne fun _ => hreceived))
  rcases r with err | _ | frame
  · exact Spec.ret hdone
  · exact Spec.ret fun s hs => hs
  refine Spec.bind (R := fun _ => Unrestarted) ?_ fun r => ?_
  · have hhandle : Keeps (Only (· ≠ .restarted)) (Link.handle agent frame) := by
      unfold Link.handle
      cases Message.decodeFrame frame with
      | error text => exact Keeps.throw h.steps _
      | ok m =>
        refine h.handleMessage (fun _ => h.beat) ?_
        unfold Roams.messageKinds
        repeat' split
        all_goals decide
    exact unrestarted_spec hhandle.attempt
  · cases r with
    | ok action => exact perform_told a action
    | error err => exact Spec.ret hdone

/-- A session ends with a restart exactly if it restarted the device. -/
theorem session_told (agent : Agent σ) (window : Option SessionWindow) (control : Option (σ → Control × σ)) :
    Spec Unrestarted (sessionWithin agent window control)
      (Post (fun stopped => RestartTold (stopped = some .rebooting)) Unrestarted) := by
  have h := unrestarted_spans agent
  have hkeep : ∀ s u : World σ, Unrestarted s → Only (· ≠ .restarted) s u → Unrestarted u := fun _ _ hs hsu => hs.keep hsu
  refine Spans.session_rule (I := fun _ _ => Unrestarted) (M := fun _ _ _ => Unrestarted) (fun _ _ _ _ hs => hs)
    (fun _ _ _ hs => hs) (unrestarted_spec (h.openSession (by decide) fun s => .nothing rfl)) (fun _ a => ?_)
    (fun started now a => h.mid_rule (Q := fun stopped => RestartTold (stopped = some .rebooting)) h.overhear
      (by decide) hkeep
      (fun _ hs => hs) (fun s hs => hs.told (by simp)) window control started now a) fun _ _ => listen_told
  exact unrestarted_spec (h.attend (by decide) (fun a => h.joinConsole (by decide) (fun s ref => .nothing rfl) a) a)

end

/-! ### What has to be so when a bounded session has finished -/

def Duration.millis (d : Duration) : Nat := d.nanos / 1000000

/-- The durations of a window can be counted in milliseconds in 64 bits. -/
structure SessionWindow.Fits (w : SessionWindow) : Prop where
  linger : w.linger.millis < 2 ^ 64
  limit : w.limit.millis < 2 ^ 64

theorem Duration.asMillis_of_lt {d : Duration} (h : d.millis < 2 ^ 64) : d.asMillis = d.millis := Nat.mod_eq_of_lt h

/-- The reading with which the session began to count its limit, after its join was sent. -/
def startedAt (t : List Event) : Option Nat := (readings t).reverse[2]?

def LimitPassed (w : SessionWindow) (t : List Event) : Prop :=
  ∃ now started, (readings t).head? = some now ∧ startedAt t = some started ∧ w.limit.millis ≤ now - started

def Lingered (w : SessionWindow) (t : List Event) : Prop :=
  ∃ now joinedAt, (readings t).head? = some now ∧ noticedAt t = some joinedAt ∧ w.linger.millis ≤ now - joinedAt

section
variable {σ : Type} [Serde] (agent : Agent σ)

/-- Nothing is left to wait for. -/
structure NothingDue (s : World σ) : Prop where
  extensions : agent.config.extensions.any = true → extensionsAnswered s.trace = true
  health : s.own.link.healthAttached = true → agent.health.isSome = true → healthReported s.trace = true
  logs : s.own.link.loggingAttached = true → ∀ b, s.own.logs = some b → b.isEmpty = true

structure FinishedWell (w : SessionWindow) (s : World σ) : Prop where
  accepted : joinAccepted s.trace = true
  confirmed : imageConfirmed s.trace = true
  time : LimitPassed w s.trace ∨ Lingered w s.trace ∧ NothingDue agent s

/-- A reply without a ref comes on the extensions' channel before the session has asked to join it. -/
def answersUnasked : Event → List Event → Bool
  | .received r, older => (extensionsJoin older).isNone &&
      (Talk.heard r).any fun m => m.topic == extensionsTopic && m.event == event.reply && m.reference.isNone
  | _, _ => false

/-! ### The extensions' channel -/

theorem extensionsAnswered_of_older {e : Event} {t : List Event} (hconn : e.kind ≠ .connected)
    (h : extensionsAnswered t = true) : extensionsAnswered (e :: t) = true := by
  cases e
  case connected r => exact absurd rfl hconn
  case received r => simp [extensionsAnswered, h]
  all_goals exact h

variable {agent}

theorem Declares.opened (enabled : Enabled) (r : Except Error Unit) :
    Declares enabled (Talk.start enabled) [.connected r] where
  own := rfl
  invited := rfl
  sentAs := rfl
  unsent _ := rfl
  declares m h := by cases h
  unjoined _ := rfl

/-- The extensions count as joined only once their join was answered. -/
theorem answered_of_reads {enabled : Enabled} {k : Talk} {t : List Event} {r : Except Error Unit}
    (h : Reads Talk.Step (Talk.start enabled) [.connected r] k t)
    (hasked : Throughout (fun e older => answersUnasked e older = false) t) :
    Declares enabled k t ∧ (k.core.extensions.joined = true → extensionsAnswered t = true) := by
  refine h.invariant (I := fun k t => Declares enabled k t ∧
    (k.core.extensions.joined = true → extensionsAnswered t = true))
    hasked ⟨.opened enabled r, fun hf => by cases hf⟩ ?_
  rintro k t e k' - he ⟨hd, hj⟩ hs
  refine ⟨hd.step hs, fun hjoined => ?_⟩
  have hconn := hs.not_connected
  rcases hs.extensions with ⟨r, rfl, ⟨m, hm, rfl⟩ | ⟨-, rfl⟩⟩ | ⟨m, r, rfl, -, -, -, rfl⟩ | ⟨-, -, hext, -, -⟩
  · cases hbefore : k.core.extensions.joined with
    | true => exact extensionsAnswered_of_older hconn (hj hbefore)
    | false =>
      have hans : m.answersExtensions k.core.extensionsJoinRef = true := Core.hear_attached (Or.inl ⟨hbefore, hjoined⟩)
      rw [hd.sentAs] at hans
      cases hjoin : extensionsJoin t with
      | some join =>
        rw [hjoin] at hans
        simp [extensionsAnswered, hjoin, hm, hans]
      | none =>
        rw [hjoin] at hans
        simp only [Message.answersExtensions, joinRefOf, Option.bind_none, Bool.and_eq_true, beq_iff_eq] at hans
        obtain ⟨⟨htopic, hreply⟩, href⟩ := hans
        simp [answersUnasked, hjoin, hm, htopic, hreply, ← href] at he
  · exact extensionsAnswered_of_older hconn (hj hjoined)
  · exact extensionsAnswered_of_older hconn (hj hjoined)
  · exact extensionsAnswered_of_older hconn (hj (hext ▸ hjoined))

/-! ### What a session keeps of its times -/

/-- What the session keeps of its times, and of its report, is what the record says. -/
structure Tracks (agent : Agent σ) (started : Nat) (a : Session) (s : World σ) : Prop where
  started : startedAt s.trace = some started
  noticed : noticedAt s.trace = a.joinedAt
  confirmed : a.joinedAt.isSome = true → a.confirmed = true
  health : a.healthAnswered = true → agent.health.isSome = true → healthReported s.trace = true

/-- The kinds of event that do not count for these. -/
def Kind.isUntimed (k : Kind) : Prop := k ≠ .connected ∧ k ≠ .deviceJoin ∧ k ≠ .pendingVerify

instance (k : Kind) : Decidable k.isUntimed := inferInstanceAs (Decidable (_ ∧ _ ∧ _))

omit [Serde] in
theorem startedAt_cons {e : Event} {t : List Event} (he : e.kind.isUntimed) {started : Nat}
    (h : startedAt t = some started) :
    startedAt (e :: t) = some started := by
  obtain ⟨new, hnew⟩ := readings_extend (t := t) he.1 he.2.1
  rw [startedAt, hnew, List.reverse_append, List.getElem?_append_left]
  · exact h
  · exact (List.getElem?_eq_some_iff.mp h).1

omit [Serde] in
theorem Tracks.add {started : Nat} {a : Session} {s : World σ} (h : Tracks agent started a s) {u : World σ}
    {es : List Event} (htrace : u.trace = es ++ s.trace) (hes : ∀ e ∈ es, e.kind.isUntimed) : Tracks agent started a u := by
  have hall : startedAt (es ++ s.trace) = some started ∧ noticedAt (es ++ s.trace) = a.joinedAt ∧
      (a.healthAnswered = true → agent.health.isSome = true → healthReported (es ++ s.trace) = true) := by
    clear htrace
    induction es with
    | nil => exact ⟨h.started, h.noticed, h.health⟩
    | cons e es ih =>
      obtain ⟨hstarted, hnoticed, hhealth⟩ := ih fun e he => hes e (List.mem_cons_of_mem _ he)
      have he := hes e List.mem_cons_self
      exact ⟨startedAt_cons he hstarted, (noticedAt_cons he.1 he.2.2).trans hnoticed,
        fun ha hs => healthReported_of_older he.1 (hhealth ha hs)⟩
  rw [← htrace] at hall
  exact ⟨hall.1, hall.2.1, h.confirmed, hall.2.2⟩

theorem untimed_spans (agent : Agent σ) : Spans agent (Only Kind.isUntimed) Kind.isUntimed := only_spans agent (by decide)

omit [Serde] in
theorem Tracks.keep {started : Nat} {a : Session} {s u : World σ} (h : Tracks agent started a s)
    (hsu : Only Kind.isUntimed s u) : Tracks agent started a u := by
  obtain ⟨es, hes, hp⟩ := hsu
  exact h.add hes hp

/-- Nothing is asked of how a part fails. -/
def Whatever (_ : World σ) : Prop := True

variable {α : Type} {started : Nat} {a : Session}

omit [Serde] in
theorem tracks_spec {m : Run σ α} (hm : Keeps (Only Kind.isUntimed) m) :
    Spec (Tracks agent started a) m (Post (fun _ => Tracks agent started a) Whatever) :=
  (Spec.of_keeps hm fun _ _ hs hsu => hs.keep hsu).mono (fun _ _ h => h) (fun _ _ => trivial) fun _ _ => trivial

/-- And the last reading was `now`. -/
def TracksAt (agent : Agent σ) (started now : Nat) (a : Session) (s : World σ) : Prop :=
  Tracks agent started a s ∧ (readings s.trace).head? = some now

/-- The kinds of event that are no reading either. -/
def Kind.isTimeless (k : Kind) : Prop := k.isUntimed ∧ k ≠ .clock

instance (k : Kind) : Decidable k.isTimeless := inferInstanceAs (Decidable (_ ∧ _))

theorem timeless_spans (agent : Agent σ) : Spans agent (Only Kind.isTimeless) Kind.isTimeless :=
  only_spans agent (by decide)

omit [Serde] in
theorem readings_append {es t : List Event} (hes : ∀ e ∈ es, e.kind.isTimeless) : readings (es ++ t) = readings t := by
  induction es with
  | nil => rfl
  | cons e es ih =>
    have he := hes e List.mem_cons_self
    exact (readings_cons he.1.1 he.1.2.1 he.2).trans (ih fun e he => hes e (List.mem_cons_of_mem _ he))

omit [Serde] in
theorem TracksAt.keep {now : Nat} {s u : World σ} (h : TracksAt agent started now a s)
    (hsu : Only Kind.isTimeless s u) : TracksAt agent started now a u := by
  obtain ⟨es, hes, hp⟩ := hsu
  refine ⟨h.1.add hes fun e he => (hp e he).1, ?_⟩
  rw [hes, readings_append hp]
  exact h.2

omit [Serde] in
theorem tracksAt_spec {m : Run σ α} {now : Nat} (hm : Keeps (Only Kind.isTimeless) m) :
    Spec (TracksAt agent started now a) m (Post (fun _ => TracksAt agent started now a) Whatever) :=
  (Spec.of_keeps hm fun _ _ hs hsu => hs.keep hsu).mono (fun _ _ h => h) (fun _ _ => trivial) fun _ _ => trivial

omit [Serde] in
theorem nowMs_tracks : Spec (Tracks agent started a) (nowMs agent)
    (Post (fun now => TracksAt agent started now a) Whatever) := by
  refine spec_call fun s env now hs => ⟨?_, rfl⟩
  have hclock : ∀ e ∈ [Event.clock now], e.kind.isUntimed := fun e he => by
    rw [List.mem_singleton.mp he]
    exact (by decide : Kind.isUntimed .clock)
  exact hs.add rfl hclock

/-! ### The parts of a session -/

theorem openSession_tracks : Spec (fun s => s.trace = [.connected (.ok ())]) (openSession agent)
    (Post (fun r => Tracks agent r.1 r.2) Whatever) := by
  let Unread (s : World σ) : Prop := readings s.trace = [] ∧ noticedAt s.trace = none
  have hclock : ∀ ns : List Nat, Spec (fun s : World σ => readings s.trace = ns ∧ noticedAt s.trace = none) (nowMs agent)
      (Post (fun now s => readings s.trace = now :: ns ∧ noticedAt s.trace = none) Whatever) := fun ns =>
    spec_call fun s env now hs => ⟨congrArg (List.cons now) hs.1, hs.2⟩
  refine Spec.bind (R := fun _ => Unread) (fun s hs => ?_) fun _ => ?_
  · simp only [Unread, modifyLink, modifyOwn_apply, hs]
    exact ⟨rfl, rfl⟩
  refine Spec.bind (R := fun _ => Unread) (spec_call fun s env pending hs => ⟨hs.1, ?_⟩) fun pending => ?_
  · show (readings s.trace).head? = none
    rw [hs.1]
    rfl
  refine Spec.bind (R := fun _ => Unread) (spec_call fun s env pending hs => hs) fun reverted => ?_
  refine Spec.bind (R := fun _ => Unread) ?_ fun _ => ?_
  · refine Spec.bind (R := fun _ => Unread) (fun s hs => hs) fun reference => ?_
    refine Spec.bind (R := fun _ => Unread) (fun s hs => hs) fun _ =>
      Spec.bind (R := fun _ => Unread) (fun s hs => hs) fun l => ?_
    refine Spec.bind (R := fun _ => Unread) (fun s hs => hs) fun l =>
      Spec.bind (R := fun _ => Unread) (fun s hs => hs) fun l => ?_
    exact spec_tryCall (fun s env u hs => ⟨if_pos rfl, hs.2⟩) fun s env e hs => trivial
  refine Spec.bind (hclock []) fun lastLog => Spec.bind (hclock _) fun lastHeartbeat =>
    Spec.bind (hclock _) fun started => ?_
  refine Spec.ret fun s hs => ⟨?_, hs.2, fun h => (by cases h), fun h => by cases h⟩
  rw [startedAt, hs.1]
  rfl

theorem confirm_tracks (a : Session) : Spec (Tracks agent started a) (confirm agent a)
    (Post (Tracks agent started) Whatever) := by
  have h := untimed_spans agent
  refine Spec.bind (tracks_spec h.link) fun l => Spec.ite (fun _ => ?_) fun _ => Spec.ret fun s hs => hs
  refine Spec.bind (tracks_spec fun s => .nothing rfl) fun _ => Spec.bind nowMs_tracks fun now => ?_
  let a' : Session := { a with joinedAt := some now, confirmed := true }
  refine Spec.bind (R := fun _ => Tracks agent started a') ?_ fun _ => Spec.ret fun s hs => hs
  refine Spec.bind (R := fun _ => Tracks agent started a') (spec_call fun s env pending hs => ?_) fun pending => ?_
  · exact ⟨hs.1.started, hs.2, fun _ => rfl, hs.1.health⟩
  have hmarked : Kind.isUntimed .markedValid := by decide
  refine Spec.bind (tracks_spec (Keeps.when h.steps fun _ => h.tryCallOne fun _ => hmarked)) fun _ => tracks_spec ?_
  · exact Keeps.bind h.steps h.nextRef fun _ => h.send event.firmwareValidated (by decide) _ _

theorem check_tracks (a : Session) : Spec (Tracks agent started a) (Spans.check agent a)
    (Post (fun r => TracksAt agent started r.1 r.2) Whatever) := by
  have h := timeless_spans agent
  refine Spec.bind nowMs_tracks fun now => ?_
  refine Spec.bind (R := TracksAt agent started now) ?_ fun a => ?_
  · refine ((tracksAt_spec (h.heartbeat h.beat (by decide) now a)).returns (Spans.heartbeat_returns now a)).mono ?_
      (fun _ h => h)
      fun _ h => h
    rintro _ s ⟨⟨hs, hnow⟩, lastHeartbeat, rfl⟩
    exact ⟨⟨hs.started, hs.noticed, hs.confirmed, hs.health⟩, hnow⟩
  refine Spec.bind (R := TracksAt agent started now) ?_ fun a => Spec.ret fun s hs => hs
  refine Spec.bind (tracksAt_spec (h.logs now a.lastLog)) fun lastLog => Spec.ret fun s ⟨hs, hnow⟩ => ?_
  exact ⟨⟨hs.started, hs.noticed, hs.confirmed, hs.health⟩, hnow⟩

/-- A need for a health report that was met without an error has sent one. -/
theorem answerExtension_reports (needs : List Outgoing) (hneeds : needs.any Outgoing.isNeedHealth = true)
    (hhealth : agent.health.isSome = true) : Spec Whatever (answerExtension agent needs)
      (Post (fun _ s => healthReported s.trace = true) Whatever) := by
  have h := untimed_spans agent
  induction needs with
  | nil => cases hneeds
  | cons need rest ih =>
    by_cases hrest : rest.any Outgoing.isNeedHealth = true
    · refine Spec.bind (R := fun _ => Whatever) (Spec.of_state fun _ _ => trivial) fun answer => ?_
      exact Spec.bind (R := fun _ => Whatever) (Spec.of_state fun _ _ => trivial) fun _ => ih hrest
    cases need with
    | send ev payload => simp [Outgoing.isNeedHealth, hrest] at hneeds
    | needLocation => simp [Outgoing.isNeedHealth, hrest] at hneeds
    | needHealth =>
      obtain ⟨provider, hprovider⟩ := Option.isSome_iff_exists.mp hhealth
      have hneed : answerNeed agent .needHealth = (do
          let report ← call provider fun r => [.healthRead r]
          pure (Extensions.healthReport report)) := by
        unfold answerNeed
        rw [hprovider]
      refine Spec.bind (R := fun answer _ => ∃ report, answer = Extensions.healthReport report) ?_ fun answer => ?_
      · rw [hneed]
        exact Spec.bind (R := fun _ => Whatever) (fun _ _ => trivial) fun report => Spec.ret fun _ _ => ⟨report, rfl⟩
      refine Spec.bind (R := fun _ s => healthReported s.trace = true) ?_ fun _ => ?_
      · rintro s ⟨report, rfl⟩
        unfold Extensions.healthReport Link.sendExtension
        refine Spec.bind (P := Whatever) (R := fun _ => Whatever) ?_ (fun ref => ?_) s trivial
        · exact fun _ _ => trivial
        refine Spec.bind (R := fun _ => Whatever) (fun _ _ => trivial) fun l => ?_
        refine Spec.bind (R := fun _ s => healthReported s.trace = true) ?_ fun _ => Spec.ret fun s hs => hs
        refine Spec.bind (R := fun _ => Whatever) (fun _ _ => trivial) fun l => ?_
        exact spec_tryCall (fun s env u _ => (Bool.or_eq_true _ _).mpr (Or.inl (decide_eq_true rfl)))
          fun s env e hs => trivial
      · refine (Spec.of_keeps (h.answerExtension rest fun need _ k hk => ?_) fun s u hs hsu => ?_).mono (fun _ _ h => h)
          (fun _ _ => trivial) fun _ _ => trivial
        · have hall : ∀ k ∈ Allows.allNeedKinds, k.isUntimed := by decide
          exact hall k (Allows.mem_allNeedKinds hk)
        · obtain ⟨es, hes, hp⟩ := hsu
          rw [hes]
          clear hes
          induction es with
          | nil => exact hs
          | cons e es ih =>
            exact healthReported_of_older (hp e List.mem_cons_self).1 (ih fun e he => hp e (List.mem_cons_of_mem _ he))

variable [Sha256]

/-- What a turn leaves of the times, unless the session ends. -/
def TurnTracks (agent : Agent σ) (started : Nat) : Turn Session (Option Stopped) → World σ → Prop :=
  Turn.Post (Tracks agent started) fun stopped _ => stopped ≠ some .finished

theorem perform_tracks (a : Session) (action : Action) (hkinds : ∀ k ∈ Roams.actionKinds action, k.isUntimed) :
    Spec (Tracks agent started a) (perform agent a action) (Post (TurnTracks agent started) Whatever) := by
  have h := untimed_spans agent
  have hkeep : ∀ {β : Type} {m : Run σ β}, Keeps (Only Kind.isUntimed) m →
      Spec (Tracks agent started a) m (Post (fun _ => Tracks agent started a) Whatever) := tracks_spec
  have hall := (hkeep (h.perform hkinds a)).returns (Spans.perform_returns a action)
  cases action with
  | extension needs =>
    have hanswer : Spec (Tracks agent started a) (answerExtension agent needs)
        (Post (fun _ => Tracks agent started a) Whatever) :=
      hkeep (h.answerExtension needs fun need hneed k hk => hkinds k (List.mem_flatMap.mpr ⟨need, hneed, hk⟩))
    refine Spec.bind (R := fun _ s => Tracks agent started a s ∧ (needs.any Outgoing.isNeedHealth = true →
      agent.health.isSome = true → healthReported s.trace = true)) ?_ fun _ => ?_
    · by_cases hneeds : needs.any Outgoing.isNeedHealth = true ∧ agent.health.isSome = true
      · exact ((hanswer.both (answerExtension_reports needs hneeds.1 hneeds.2)).pre fun s hs => ⟨hs, trivial⟩).mono
          (fun _ s hs => ⟨hs.1, fun _ _ => hs.2⟩) (fun _ _ => trivial) fun _ _ => trivial
      · exact hanswer.mono (fun _ s hs => ⟨hs, fun h1 h2 => absurd ⟨h1, h2⟩ hneeds⟩) (fun _ h => h) fun _ h => h
    · refine Spec.ret fun s ⟨hs, hreported⟩ => ⟨hs.started, hs.noticed, hs.confirmed, fun ha hhealth => ?_⟩
      rcases (Bool.or_eq_true _ _).mp ha with ha | ha
      · exact hs.health ha hhealth
      · exact hreported ha hhealth
  | applyUpdate update =>
    refine hall.mono (fun d s hs => ?_) (fun _ h => h) fun _ h => h
    rcases hs with ⟨hs, ⟨lastHeartbeat, rfl⟩ | rfl⟩
    · exact ⟨hs.started, hs.noticed, hs.confirmed, hs.health⟩
    · simp [TurnTracks, Turn.Post]
  | console data =>
    refine hall.mono (fun d s hs => ?_) (fun _ h => h) fun _ h => h
    rcases hs with ⟨hs, rfl | rfl⟩
    · exact hs
    · simp [TurnTracks, Turn.Post]
  | reboot =>
    refine hall.mono (fun d s hs => ?_) (fun _ h => h) fun _ h => h
    rcases hs with ⟨hs, rfl⟩
    simp [TurnTracks, Turn.Post]
  | reconnect =>
    refine hall.mono (fun d s hs => ?_) (fun _ h => h) fun _ h => h
    rcases hs with ⟨hs, rfl⟩
    simp [TurnTracks, Turn.Post]
  | _ =>
    refine hall.mono (fun d s hs => ?_) (fun _ h => h) fun _ h => h
    rcases hs with ⟨hs, rfl⟩
    exact hs

theorem listen_tracks (a : Session) : Spec (Tracks agent started a) (listen agent a)
    (Post (TurnTracks agent started) Whatever) := by
  have h := untimed_spans agent
  have hdone : ∀ s : World σ, Tracks agent started a s → TurnTracks agent started (.done none) s := fun s _ => by
    simp [TurnTracks, Turn.Post]
  have hreceived : Kind.isUntimed .received := by decide
  refine Spec.bind (tracks_spec (Keeps.attempt (h.tryCallOne fun _ => hreceived))) fun r => ?_
  rcases r with err | _ | frame
  · exact Spec.ret hdone
  · exact Spec.ret fun s hs => hs
  refine Spec.bind (R := fun r s => Tracks agent started a s ∧
    ∀ action, r = .ok action → ∀ k ∈ Roams.actionKinds action, k.isUntimed) ?_ fun r => ?_
  · unfold Link.handle
    cases hdecode : Message.decodeFrame frame with
    | error text => exact fun s hs => ⟨hs, fun action h => by cases h⟩
    | ok m =>
      have hkinds : ∀ k ∈ Roams.messageKinds m ++ Roams.answerKinds m, k.isUntimed := by
        unfold Roams.messageKinds Roams.answerKinds
        repeat' split
        all_goals decide
      refine ((tracks_spec (h.handleMessage (fun _ => h.beat) fun k hk =>
        hkinds k (List.mem_append_left _ hk)).attempt).returns
        (Roams.handleMessage_returns m).attempt).mono (fun r s hs => ⟨hs.1, fun action heq k hk => ?_⟩)
          (fun _ h => h) fun _ h => h
      exact hkinds k (List.mem_append_right _ (hs.2 action heq k hk))
  · cases r with
    | error err => exact Spec.ret fun s hs => hdone s hs.1
    | ok action =>
      rintro s ⟨hs, hkinds⟩
      exact perform_tracks a action (hkinds action rfl) s hs

/-! ### The end of the window -/

/-- What the window's end goes by. -/
inductive WindowOver (agent : Agent σ) (w : SessionWindow) (started now : Nat) (a : Session) (s : World σ) : Prop
  | limit : s.own.link.joined = true → w.limit.asMillis ≤ now - started → WindowOver agent w started now a s
  | linger (joinedAt : Nat) : a.joinedAt = some joinedAt → w.linger.asMillis ≤ now - joinedAt →
    (s.own.link.extensions.wanted = true → s.own.link.extensions.joined = true) →
    (s.own.link.healthAttached = true → agent.health.isSome = true → a.healthAnswered = true) →
    (s.own.link.loggingAttached = true → ∀ b, s.own.logs = some b → b.isEmpty = true) →
    WindowOver agent w started now a s

omit [Serde] [Sha256] in
theorem logsSent_spec : Spec Whatever (logsSent agent)
    (Post (fun sent s => sent = true → s.own.link.loggingAttached = true →
    ∀ b, s.own.logs = some b → b.isEmpty = true) Whatever) := by
  intro s _
  refine Spec.ite (P := fun s' => s' = s) (fun hidle => Spec.ret fun s' hs _ hatt => ?_) (fun _ => ?_) s rfl
  · rw [hs] at hatt
    simp [hatt] at hidle
  refine Spec.bind (R := fun logs s => logs = s.own.logs) ?_ fun logs => Spec.ret fun s' hs hsent _ b hb => ?_
  · exact Spec.bind (R := fun _ => Whatever) (fun _ _ => trivial) fun _ => fun _ _ => rfl
  · rw [hs, hb] at hsent
    exact hsent

omit [Serde] [Sha256] in
theorem windowEnds_over (w : SessionWindow) (now : Nat) (a : Session) :
    Spec Whatever (windowEnds agent (some w) started now a)
      (Post (fun ends s => ends = true → WindowOver agent w started now a s) Whatever) := by
  intro s _
  refine Spec.ite (P := fun s' => s' = s) (fun hlimit => ?_) (fun _ => ?_) s rfl
  · refine Spec.ite (fun _ => Spec.fail fun _ _ => trivial) fun hjoined => Spec.ret fun s' hs _ => ?_
    subst hs
    exact .limit (by simpa using hjoined) hlimit
  refine Spec.ite (fun hlinger => ?_) fun _ => Spec.ret fun s' _ hf => by cases hf
  obtain ⟨joinedAt, hat, hlinger⟩ := (Option.any_eq_true _ _).mp hlinger
  -- What is outstanding is looked up in the link, which the other tasks do not touch.
  have hkeep : Keeps (fun s t : World σ => t.own.link = s.own.link) (logsSent agent) := by
    have hR : Steps (fun s t : World σ => t.own.link = s.own.link) := ⟨fun _ => rfl, fun h h' => h'.trans h⟩
    refine Keeps.bind hR (Keeps.gets hR _) fun l => Keeps.ite (Keeps.pure hR _) ?_
    refine Keeps.bind hR ?_ fun logs => Keeps.pure hR _
    refine Keeps.bind hR (Keeps.bind hR (keeps_call fun _ _ _ => rfl) fun offers => ?_) fun _ => Keeps.gets hR _
    exact Keeps.bind hR (keeps_update fun _ => rfl) fun _ => Keeps.pure hR _
  intro s' hs'
  subst hs'
  refine Spec.bind (P := fun s => s = s') (R := fun l s => l = s'.own.link ∧ s = s') ?_ (fun l => ?_) s' rfl
  · rintro t rfl
    exact ⟨rfl, rfl⟩
  refine Spec.bind (R := fun sent s => l = s.own.link ∧ (sent = true → s.own.link.loggingAttached = true →
    ∀ b, s.own.logs = some b → b.isEmpty = true)) ?_ fun sent => Spec.ret fun t ⟨hl, hsent⟩ hall => ?_
  · rintro t ⟨hl, rfl⟩
    have hlink := Spec.of_keeps hkeep (I := fun s => l = s.own.link) (fun s t hs ht => hs.trans ht.symm)
    exact ((hlink.both logsSent_spec).mono (fun _ _ h => h) (fun _ _ => trivial) fun _ _ => trivial) t ⟨hl, trivial⟩
  · simp only [Bool.and_eq_true, Bool.or_eq_true, Bool.not_eq_true'] at hall
    obtain ⟨⟨hext, hhealth⟩, hsent'⟩ := hall
    subst hl
    refine .linger joinedAt hat (of_decide_eq_true hlinger) (fun hwanted => ?_) (fun hatt hsome => ?_) (hsent hsent')
    · rcases hext with hno | hyes
      · rw [hwanted] at hno
        cases hno
      · exact hyes
    · rcases hhealth with (hnone | hno) | hyes
      · rw [Option.isNone_iff_eq_none.mp hnone] at hsome
        cases hsome
      · rw [hatt] at hno
        cases hno
      · exact hyes

/-- What a bounded session begins with. -/
def windowOutset : Outset := ⟨[.connected (.ok ())], false⟩

omit [Sha256] in
theorem finishedWell {w : SessionWindow} {now : Nat} {s : World σ} (hat : At agent windowOutset (Settled a) s)
    (htracks : TracksAt agent started now a s) (hover : WindowOver agent w started now a s) (hfits : w.Fits)
    (hasked : Throughout (fun e older => answersUnasked e older = false) s.trace) : FinishedWell agent w s := by
  obtain ⟨k, b, hs, hhead, hfresh⟩ := hat
  obtain ⟨htracks, hnow⟩ := htracks
  have htells : Tells k s.trace := tells_of_reads hs.reads rfl rfl
  obtain ⟨hdeclares, hanswered⟩ := answered_of_reads hs.reads hasked
  have hext : s.own.link.extensions = k.core.extensions := congrArg Core.extensions hs.core
  have hconfirmed : a.confirmed = true := by
    cases hover with
    | limit hjoined hlimit =>
      cases hc : a.confirmed with
      | true => rfl
      | false =>
        have hwaiting : k.standing = .waiting := by rw [hhead.standing, hc]; rfl
        exact absurd ⟨hwaiting, (congrArg Core.joined hs.core).symm.trans hjoined⟩ hfresh
    | linger joinedAt hat => exact htracks.confirmed (by rw [hat]; rfl)
  have hst : k.standing = .confirmed := by rw [hhead.standing, hconfirmed]; rfl
  refine ⟨htells.accepted.trans (by simp [Talk.accepted, hst]), htells.confirmed hst, ?_⟩
  cases hover with
  | limit hjoined hlimit =>
    rw [Duration.asMillis_of_lt hfits.limit] at hlimit
    exact Or.inl ⟨now, started, hnow, htracks.started, hlimit⟩
  | linger joinedAt hat hlinger hwanted hhealth hlogs =>
    rw [Duration.asMillis_of_lt hfits.linger] at hlinger
    refine Or.inr ⟨⟨now, joinedAt, hnow, htracks.noticed.trans hat, hlinger⟩, fun hany => ?_, fun hatt hsome => ?_, hlogs⟩
    · refine hanswered (hext ▸ hwanted ?_)
      rw [hext, Extensions.wanted, hdeclares.own]
      exact hany
    · exact htracks.health (hhealth hatt hsome) hsome

/-- Where a bounded session has finished, it found its window over. -/
def FoundOver (agent : Agent σ) (w : SessionWindow) (stopped : Option Stopped) (s : World σ) : Prop :=
  stopped = some .finished → ∃ started now a, At agent windowOutset (Settled a) s ∧ TracksAt agent started now a s ∧
    WindowOver agent w started now a s

theorem session_over (agent : Agent σ) (w : SessionWindow) :
    Spec windowOutset.Holds (sessionWithin agent (some w) none) (Post (FoundOver agent w) Whatever) := by
  have h := untimed_spans agent
  have hany : ∀ s : World σ, Whatever s := fun _ => trivial
  refine Spans.session_rule (I := fun started a s => At agent windowOutset (Head a) s ∧ Tracks agent started a s)
    (M := fun started now a s => At agent windowOutset (Settled a) s ∧ TracksAt agent started now a s) ?_
    (fun _ _ _ _ => trivial) ?_ (fun started a => ?_) (fun started now a => ⟨?_, ?_⟩) fun started now a => ?_
  · rintro started a s g ⟨⟨k, b, hs, hhead⟩, ht⟩
    exact ⟨⟨k, b, ⟨hs.reads, hs.core, hs.joined⟩, hhead⟩, ht.started, ht.noticed, ht.confirmed, ht.health⟩
  · exact (((goes_openSession agent windowOutset).both openSession_tracks).pre fun s hs => ⟨hs, hs.1⟩).mono
      (fun _ _ hs => hs) (fun s _ => hany s) fun s _ => hany s
  · have hattend := h.attend_rule (by decide) (h.joinConsole (by decide) fun s ref => .nothing rfl)
      (I := Tracks agent started)
      (fun _ _ _ hs hsu => hs.keep hsu) (fun _ _ _ => trivial)
      (fun a s _ _ _ hs => ⟨hs.started, hs.noticed, hs.confirmed, hs.health⟩) confirm_tracks check_tracks a
    exact ((goes_attend agent windowOutset a).both hattend).mono (fun _ _ hs => hs) (fun s _ => hany s) fun s _ => hany s
  · exact Spec.ret fun s hs => hs
  · have hkeep : Spec (TracksAt agent started now a) (windowEnds agent (some w) started now a)
        (Post (fun _ => TracksAt agent started now a) Whatever) :=
      tracksAt_spec ((timeless_spans agent).windowEnds (timeless_spans agent).overhear (some w) started now a)
    have hends := ((goes_windowEnds agent windowOutset a (some w) started now).both hkeep).both (windowEnds_over w now a)
    refine (hends.pre fun s hs => ⟨hs, trivial⟩).mono (fun ends s hs => ?_) (fun s _ => hany s) fun s _ => hany s
    obtain ⟨⟨hat, htracks⟩, hover⟩ := hs
    cases ends with
    | false => exact ⟨hat, htracks⟩
    | true => exact fun _ => ⟨started, now, a, hat, htracks, hover rfl⟩
  · refine (((goes_listen a).both (listen_tracks a)).pre fun s hs => ⟨hs.1, hs.2.1⟩).mono (fun d s hs => ?_)
      (fun s _ => hany s) fun s _ => hany s
    cases d with
    | next a' => exact hs
    | done stopped => exact fun heq => absurd heq hs.2

/-- Where a bounded session has finished, it has done what it has to. -/
def WellEnded (agent : Agent σ) (w : SessionWindow) (stopped : Option Stopped) (s : World σ) : Prop :=
  stopped = some .finished → w.Fits → Throughout (fun e older => answersUnasked e older = false) s.trace →
    FinishedWell agent w s

theorem session_finishes (agent : Agent σ) (w : SessionWindow) :
    Spec windowOutset.Holds (sessionWithin agent (some w) none) (Post (WellEnded agent w) Whatever) := by
  refine (session_over agent w).mono (fun stopped s hs heq hfits hasked => ?_) (fun _ h => h) fun _ h => h
  obtain ⟨started, now, a, hat, htracks, hover⟩ := hs heq
  exact finishedWell hat htracks hover hfits hasked

/-! ### The run of one session -/

/-- What holds of the session holds of the run that it is the whole of. -/
theorem runSession_spec {T : World σ → Prop} {Q : Option Stopped → World σ → Prop} {w : SessionWindow}
    (hfail : ∀ (s : World σ) e, s.trace = [.connected (.error e)] → T s) (hnone : ∀ s, Q none s → T s)
    (hsession : Spec windowOutset.Holds (sessionWithin agent (some w) none) (Post Q T)) :
    Spec (fun s => s.trace = []) (runSession agent w) (Post (fun stopped => Q (some stopped)) T) := by
  refine Spec.bind (R := fun _ s => s.trace = [.connected (.ok ())]) ?_ fun _ => ?_
  · exact spec_tryCall (fun s env u hs => by rw [hs]; rfl) fun s env e hs => hfail _ e (by rw [hs]; rfl)
  refine Spec.bind (R := fun _ => windowOutset.Holds) (fun s hs => ⟨hs, rfl⟩) fun _ => Spec.bind hsession fun stopped => ?_
  cases stopped with
  | some stopped => exact Spec.ret fun s hs => hs
  | none => exact Spec.bind (R := fun _ => Q none) (fun s hs => hs) fun d => Spec.fail hnone

theorem runSession_restarts (agent : Agent σ) (w : SessionWindow) (env : σ) (own : Device) (gas : Nat) :
    (runSession agent w ⟨env, own, [], gas⟩).1 = .ret .rebooting ↔
      ∃ e ∈ (runSession agent w ⟨env, own, [], gas⟩).2.trace, e.kind = .restarted := by
  have hrun := runSession_spec (T := Unrestarted) (Q := fun stopped => RestartTold (stopped = some .rebooting)) ?_ ?_
    ((session_told agent (some w) none).pre ?_)
  · have h := hrun ⟨env, own, [], gas⟩ rfl
    rcases ho : (runSession agent w ⟨env, own, [], gas⟩).1 with stopped | e | _ <;> rw [ho] at h
    · have htold : (some stopped = some Stopped.rebooting) ↔ _ := h
      refine Iff.trans ?_ htold
      simp
    · exact iff_of_false (by simp) fun ⟨e, he, hk⟩ => h e he hk
    · exact iff_of_false (by simp) fun ⟨e, he, hk⟩ => h e he hk
  · intro s e htrace e' he'
    rw [htrace, List.mem_singleton] at he'
    rw [he']
    exact (by decide : Kind.connected ≠ .restarted)
  · intro s hs e he hk
    cases hs.mpr ⟨e, he, hk⟩
  · intro s hs e he
    rw [hs.1] at he
    rw [List.mem_singleton.mp he]
    decide

theorem runSession_connects (agent : Agent σ) (w : SessionWindow) (env : σ) (own : Device) (gas : Nat) :
    AtMostOnce (fun e => e.kind == .connected) (runSession agent w ⟨env, own, [], gas⟩).2.trace := by
  let Once (s : World σ) : Prop := AtMostOnce (fun e => e.kind == .connected) s.trace
  have hrun : Spec (fun s => s.trace = []) (runSession agent w) (Post (fun _ => Once) Once) := by
    refine runSession_spec (Q := fun _ => Once) (fun s e htrace => ?_) (fun s hs => hs) (Spec.of_state fun s hs => ?_)
    · show List.countP _ s.trace ≤ 1
      rw [htrace]
      exact Nat.le_refl 1
    obtain ⟨k, b, hk, -⟩ := session_at agent (some w) none s
    rw [hs.1] at hk
    refine hk.reads.always (I := fun _ t => t.countP (fun e => e.kind == .connected) ≤ 1) ?_ fun ht hstep => ?_
    · exact Nat.le_refl 1
    · rw [List.countP_cons_of_neg (by simpa using hstep.not_connected)]
      exact ht
  exact hrun.state rfl

/-- A run of one session finishes only when it has done what it has to; it says that the device is rebooting exactly if it
    restarted it; and it connects at most once. -/
theorem run_session_sound (agent : Agent σ) (w : SessionWindow) (env : σ) (own : Device) (gas : Nat) (hfits : w.Fits)
    (hasked : Throughout (fun e older => answersUnasked e older = false) (runSession agent w ⟨env, own, [], gas⟩).2.trace) :
    ((runSession agent w ⟨env, own, [], gas⟩).1 = .ret .finished →
        FinishedWell agent w (runSession agent w ⟨env, own, [], gas⟩).2) ∧
      ((runSession agent w ⟨env, own, [], gas⟩).1 = .ret .rebooting ↔
        ∃ e ∈ (runSession agent w ⟨env, own, [], gas⟩).2.trace, e.kind = .restarted) ∧
      AtMostOnce (fun e => e.kind == .connected) (runSession agent w ⟨env, own, [], gas⟩).2.trace := by
  refine ⟨fun hret => ?_, runSession_restarts agent w env own gas, runSession_connects agent w env own gas⟩
  have hrun := runSession_spec (fun _ _ _ => trivial) (fun _ _ => trivial) (session_finishes agent w)
    ⟨env, own, [], gas⟩ rfl
  rw [hret] at hrun
  exact hrun rfl hfits hasked

end

/-! ### A session that waits for its window, and one that is told that its extensions are joined -/

section
attribute [local instance] sha256OfByte

def bothAttached : Script := extensionsReply "health and logging are attached" ["health", "logging"]

def healthCheck : Script := ⟨"check", ⟨none, none, extensionsTopic, "health:check", .obj []⟩⟩

@[reducible] def windowSerde : Serde := benchSerde [joinReply, unaskedReply, bothAttached, healthCheck]

attribute [local instance] windowSerde

def shortWindow : SessionWindow := ⟨.fromSecs 2, .fromSecs 600⟩

def quietServer (script : List Script) : Bench :=
  ⟨script.map (fun m => some (.text m.text)) ++ [none, none, none, none, none, none], 40, [], 0, false, []⟩

/-- The server attaches both extensions once they are joined, and asks for the health. -/
def attentiveServer : Bench :=
  ⟨[some (.text joinReply.text), none, none, none] ++ [bothAttached, healthCheck].map (fun m => some (.text m.text)) ++
    [none, none, none], 40, [], 0, false, []⟩

def healthyAgent : Agent Bench :=
  { benchAgent ⟨false, true, true⟩ with health := some fun b => (⟨[], [("state", "fine")]⟩, b) }

/-- With two lines in its log. -/
def healthyDevice : Device := { loggingDevice with link := .new healthyAgent.config benchMetadata }

theorem run_session_sound_finished :
    let out := runSession healthyAgent shortWindow ⟨attentiveServer, healthyDevice, [], 20⟩
    shortWindow.Fits ∧ out.2.own.link.healthAttached = true ∧ out.2.own.link.loggingAttached = true ∧
      out.2.own.logs.isSome = true ∧
      out.1 = .ret .finished ∧ (out.1 = .ret .finished → FinishedWell healthyAgent shortWindow out.2) ∧
      (out.1 = .ret .rebooting ↔ ∃ e ∈ out.2.trace, e.kind = .restarted) ∧
      AtMostOnce (fun e => e.kind == .connected) out.2.trace :=
  ⟨⟨by decide, by decide⟩, by decide +kernel, by decide +kernel, by decide +kernel, by decide +kernel,
    run_session_sound healthyAgent shortWindow attentiveServer healthyDevice 20 ⟨by decide, by decide⟩ (by decide +kernel)⟩

/-- The session finishes within its limit, and the extensions have answered nothing. -/
theorem run_session_unanswered :
    let out := runSession (benchAgent loggingOnly) shortWindow
      ⟨quietServer [joinReply, unaskedReply], loggingDevice, [], 20⟩
    shortWindow.Fits ∧ out.1 = .ret .finished ∧ ¬FinishedWell (benchAgent loggingOnly) shortWindow out.2 := by
  intro out
  have hreadings : readings out.2.trace = [8000, 7000, 6000, 5000, 4000, 3000, 2000, 1000, 0] := by decide +kernel
  have hunanswered : extensionsAnswered out.2.trace = false := by decide +kernel
  refine ⟨⟨by decide, by decide⟩, by decide +kernel, fun h => ?_⟩
  rcases h.time with ⟨now, started, hnow, hstarted, hlimit⟩ | ⟨-, hdue⟩
  · rw [hreadings] at hnow
    rw [startedAt, hreadings] at hstarted
    cases hnow
    cases hstarted
    exact absurd hlimit (by decide)
  · have hyes := hdue.extensions rfl
    rw [hunanswered] at hyes
    cases hyes

end

end NervesHub
