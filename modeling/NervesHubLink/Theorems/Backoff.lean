import NervesHubLink.Theorems.Order

/-! The waits between connections: how long each is, and what the flag has to do with it. -/

namespace NervesHub
open Act Prog Machine Trace

section
variable [Serde] {k k' : Talk} {t base : List Event} {e : Event} {enabled : Enabled}

/-! ### What a session leaves for its wait -/

/-- The record and the machine agree on what has been noticed, and nothing has been lost so far. -/
structure Keeping (earlier : List Bool) (k : Talk) (t : List Event) : Prop where
  noticed : joinNoticed t = k.noticed
  kept : k.standing ≠ .lost
  attempts : attempts t = joinAccepted t :: earlier

/-- A step of the machine keeps that, if it does not lose the acceptance. -/
theorem Keeping.step {earlier : List Bool} (ht : Tells k t) (h : Keeping earlier k t) (he : losesJoin e t = false)
    (hs : Talk.Step k e k') : Keeping earlier k' (e :: t) := by
  have hconn := hs.not_connected
  have hattempts : NervesHub.attempts (e :: t) = joinAccepted (e :: t) :: earlier := by
    rw [attempts_cons hconn, h.attempts]
    rfl
  have same : e.kind ≠ .pendingVerify → k'.noticed = k.noticed → k'.standing ≠ .lost → Keeping earlier k' (e :: t) :=
    fun hp hn hl => ⟨(joinNoticed_cons hconn hp).trans (h.noticed.trans hn.symm), hl, hattempts⟩
  cases hs with
  | report pending ho =>
    have hacc : joinAccepted t = false := by rw [ht.accepted, Talk.accepted, ho]
    refine ⟨?_, h.kept, hattempts⟩
    simp [joinNoticed, hacc, h.noticed]
  | reverted detected ho => exact same (by simp [Event.kind]) rfl h.kept
  | join r ho hm => exact same (by simp [Event.kind, hm]) (by simp [Talk.noticed, ho]) (by simp)
  | ask pending hfresh hopen =>
    have hacc : joinAccepted t = true := by simp [ht.accepted, Talk.accepted, hfresh.1, hfresh.2]
    refine ⟨?_, by simp, hattempts⟩
    simp [joinNoticed, hacc, Talk.noticed]
  | mark r hst =>
    rcases r with e | _
    · exact same (by simp [Event.kind]) (by rw [Talk.noticed, Talk.noticed, hst]; rfl)
        (by simp [Except.isOk, Except.toBool])
    · exact same (by simp [Event.kind]) (by rw [Talk.noticed, Talk.noticed, hst]; rfl)
        (by simp [Except.isOk, Except.toBool])
  | validate r hst hm =>
    have hnoticed : k.noticed = true := by rcases hst with hst | hst <;> rw [Talk.noticed, hst]
    rcases r with e | _
    · exact same (by simp [Event.kind, hm]) hnoticed.symm (by simp [Except.isOk, Except.toBool])
    · exact same (by simp [Event.kind, hm]) hnoticed.symm (by simp [Except.isOk, Except.toBool])
  | joinExtensions r hopen hfresh hj hx hm hp => exact same (by simp [Event.kind, hm]) rfl h.kept
  | joinConsole r hopen hfresh hj hx hm => exact same (by simp [Event.kind, hm]) rfl h.kept
  | @hear r m hopen hfresh hm =>
    refine same (by simp [Event.kind]) (Talk.noticed_hear k m) ?_
    rcases Talk.standing_hear k m with hst | ⟨hst, hacc, hgarbled, -⟩
    · rw [hst]
      exact h.kept
    · have hunnoticed : joinNoticed t = false := by rw [h.noticed, Talk.noticed, hst]
      simp [losesJoin, hm, ht.ref, hacc, hgarbled, hunnoticed] at he
  | nothing hopen hfresh hm => exact same (by simp [Event.kind]) rfl h.kept
  | decide decision herrand => exact same (by simp [Event.kind]) rfl h.kept
  | download r herrand => exact same (by simp [Event.kind]) rfl h.kept
  | begin r herrand => exact same (by simp [Event.kind]) rfl h.kept
  | @lose m err hfresh hidle hm =>
    have hacc : joinAccepted t = true := by simp [ht.accepted, Talk.accepted, hfresh.1, hfresh.2]
    have hunnoticed : joinNoticed t = false := by rw [h.noticed, Talk.noticed, hfresh.1]
    simp [losesJoin, hm, hacc, hunnoticed] at he
  | aside hopen hperm => exact same (Event.not_plain hperm.isPlain rfl) rfl h.kept

theorem attempts_connected (r : Except Error Unit) (older : List Event) :
    attempts (.connected r :: older) = joinAccepted (.connected r :: older) :: attempts older := rfl

/-- A session that has not lost its acceptance leaves the flag as the record has it. -/
theorem keeping_of_reads {r : Except Error Unit} {older : List Event}
    (h : Reads Talk.Step (Talk.start enabled) (.connected r :: older) k t)
    (hkept : Throughout (fun e older => losesJoin e older = false) t) : Keeping (attempts older) k t :=
  h.invariant hkept ⟨rfl, by simp [Talk.start], attempts_connected r older⟩
    fun hr he hI hs => hI.step (tells_of_reads hr rfl rfl) he hs

theorem Keeping.noticed_eq {earlier : List Bool} (ht : Tells k t) (h : Keeping earlier k t) (hfresh : ¬k.Fresh) :
    k.noticed = joinAccepted t := by
  rw [ht.accepted]
  have hkept := h.kept
  unfold Talk.noticed Talk.accepted
  cases hst : k.standing
  case waiting => exact (Bool.eq_false_iff.mpr fun hj => hfresh ⟨hst, hj⟩).symm
  case lost => exact absurd hst hkept
  all_goals rfl

/-! ### Runs -/

/-- No session ended before it took notice that its join was accepted. -/
def KeepsJoins (t : List Event) : Prop := Throughout (fun e older => losesJoin e older = false) t

instance (t : List Event) : Decidable (KeepsJoins t) :=
  inferInstanceAs (Decidable (Throughout (fun e older => losesJoin e older = false) t))

/-- How long an event waits to connect again. -/
def Event.backoff : Event → Option Duration
  | .slept .backoff d => some d
  | _ => none

/-- Each wait between two connections is the one that is due. -/
def WaitsDue (config : Config) (t : List Event) : Prop :=
  Throughout (fun e older => ∀ d ∈ e.backoff, d = config.waitDue (attempts older)) t

instance (config : Config) (t : List Event) : Decidable (WaitsDue config t) :=
  inferInstanceAs (Decidable (Throughout (fun e older => ∀ d ∈ e.backoff, d = config.waitDue (attempts older)) t))

variable {σ : Type} {agent : Agent σ} {s : World σ} {d : Duration}

/-- What the flag said when a session's wait was chosen: whether the join was accepted. -/
def FlagTold (s : World σ) : Prop :=
  ∀ d older, s.trace = .slept .backoff d :: older → (∀ e before, older ≠ .connected (.error e) :: before) →
    s.own.joined = joinAccepted older

/-- Where a turn of `run` begins, with so many tries behind it. -/
structure Due (config : Config) (tries : Nat) (s : World σ) : Prop where
  waits : WaitsDue config s.trace
  tries : tries = fruitless (attempts s.trace)
  flag : FlagTold s

/-- Where a run may stop. -/
def Paced (config : Config) (s : World σ) : Prop := KeepsJoins s.trace → WaitsDue config s.trace ∧ FlagTold s

theorem WaitsDue.cons {config : Config} (h : WaitsDue config t) (he : e.kind ≠ .pause .backoff) :
    WaitsDue config (e :: t) := by
  refine throughout_cons.mpr ⟨fun d hd => ?_, h⟩
  unfold Event.backoff at hd
  split at hd
  · exact absurd rfl he
  · cases hd

theorem flagTold_of_newest (h : ∀ d older, s.trace ≠ .slept .backoff d :: older) : FlagTold s :=
  fun d older ht => absurd ht (h d older)

theorem waits_of_reads {config : Config} {r : Except Error Unit} {older : List Event}
    (h : Reads Talk.Step (Talk.start enabled) (.connected r :: older) k t) (hbase : WaitsDue config older) :
    WaitsDue config t ∧ ∀ d older, t ≠ .slept .backoff d :: older := by
  refine h.always (I := fun _ t => WaitsDue config t ∧ ∀ d older, t ≠ .slept .backoff d :: older) ?_ ?_
  · exact ⟨hbase.cons (by simp [Event.kind]), fun d older ht => by cases ht⟩
  · rintro k t e k' ⟨hwaits, -⟩ hs
    have he : e.kind ≠ .pause .backoff := fun he => by
      have hexp := hs.expects
      rw [he] at hexp
      exact hexp
    refine ⟨hwaits.cons he, fun d older ht => ?_⟩
    cases ht
    exact he rfl

theorem attempts_slept : attempts (.slept .backoff d :: t) = attempts t := by
  have h : ∀ t : List Event, (attempts t).modifyHead (fun _ => joinAccepted t) = attempts t := by
    intro t
    induction t with
    | nil => rfl
    | cons e t ih =>
      cases e
      case connected r => rfl
      all_goals simp [attempts, List.modifyHead_modifyHead, Function.comp_def]
  exact h t

/-- After the wait that is due, the tries are the attempts that came to nothing. -/
theorem Due.slept {tries : Nat} {accepted : Bool} {earlier : List Bool} (hwaits : WaitsDue agent.config s.trace)
    (hattempts : attempts s.trace = accepted :: earlier) (htries : tries = fruitless earlier)
    (hflag : (∀ e before, s.trace ≠ .connected (.error e) :: before) → s.own.joined = joinAccepted s.trace)
    (hd : d = .fromSecs (agent.config.backoffFor (if accepted then 0 else tries))) :
    Due agent.config (if accepted then 0 else tries + 1) (sleep agent .backoff d s).2 := by
  refine ⟨throughout_cons.mpr ⟨fun d' hd' => ?_, hwaits⟩, ?_, fun d' older ht hconn => ?_⟩
  · cases hd'
    show d = agent.config.waitDue (attempts s.trace)
    rw [hd, hattempts, htries]
    cases accepted <;> rfl
  · show _ = fruitless (attempts (.slept .backoff d :: s.trace))
    rw [attempts_slept, hattempts, htries]
    cases accepted <;> simp [fruitless]
  · cases ht
    exact hflag hconn

variable [Sha256] (agent)

/-- Where an attempt to connect has just been made, after so many tries. -/
def Attempted (tries : Nat) (r : Except Error Unit) (s : World σ) : Prop :=
  ∃ older, s.trace = .connected r :: older ∧
    (KeepsJoins older → WaitsDue agent.config older ∧ tries = fruitless (attempts older))

/-- What a session hands to the wait after it. -/
structure Ended (tries : Nat) (s : World σ) : Prop where
  waits : WaitsDue agent.config s.trace
  attempts : ∃ earlier, NervesHub.attempts s.trace = joinAccepted s.trace :: earlier ∧ tries = fruitless earlier
  flag : s.own.joined = joinAccepted s.trace

/-- What a turn of `run` leaves: the next one may begin, or the run may stop. -/
def DueNext : Outcome Error (Turn Nat Stopped) → World σ → Prop :=
  Ends (Turn.Post (fun tries s => KeepsJoins s.trace → Due agent.config tries s) fun _ => Paced agent.config)
    (Paced agent.config) (Paced agent.config)

omit [Sha256] in
theorem backOff_due (tries : Nat) :
    Spec (fun s => KeepsJoins s.trace → Ended agent tries s) (backOff agent tries) (DueNext agent) := by
  intro s hs hkept
  obtain ⟨hwaits, ⟨earlier, hattempts, htries⟩, hflag⟩ := hs (hkept.suffix (List.suffix_cons _ _))
  have hdue := Due.slept hwaits hattempts htries (fun _ => hflag) rfl
  rw [← hflag] at hdue
  have htries : (if s.own.joined then (if s.own.joined then 0 else tries) else (if s.own.joined then 0 else tries) + 1) =
      if s.own.joined then 0 else tries + 1 := by
    cases s.own.joined <;> rfl
  exact htries ▸ hdue

theorem session_ended {tries : Nat} {older : List Event} :
    Spec (fun s => (s.trace = .connected (.ok ()) :: older ∧ s.own.joined = false) ∧
        (KeepsJoins older → WaitsDue agent.config older ∧ tries = fruitless (attempts older)))
      (session agent)
      (Ends (fun stopped s => (stopped = none → KeepsJoins s.trace → Ended agent tries s) ∧ Paced agent.config s)
        (fun s => (KeepsJoins s.trace → Ended agent tries s) ∧ Paced agent.config s) (Paced agent.config)) := by
  rintro s ⟨hbase, hbefore⟩
  have hat : ∀ {P : Talk → Bool → Prop} {s : World σ}, At agent ⟨.connected (.ok ()) :: older, false⟩ P s →
      Paced agent.config s ∧ ((∀ k b, P k b → Over k b) → KeepsJoins s.trace → Ended agent tries s) := by
    rintro P s ⟨k, b, hk, hP⟩
    have hsuffix : older <:+ s.trace := (List.suffix_cons _ _).trans hk.reads.suffix
    refine ⟨fun hkept => ?_, fun hover hkept => ?_⟩
    · obtain ⟨hwaits, hnewest⟩ := waits_of_reads hk.reads (hbefore (hkept.suffix hsuffix)).1
      exact ⟨hwaits, flagTold_of_newest hnewest⟩
    · obtain ⟨hwaits, htries⟩ := hbefore (hkept.suffix hsuffix)
      have hkeeping := keeping_of_reads hk.reads hkept
      obtain ⟨hb, hfresh⟩ := hover k b hP
      refine ⟨(waits_of_reads hk.reads hwaits).1, ⟨_, hkeeping.attempts, htries⟩, ?_⟩
      rw [hk.joined, Bool.false_or, hb]
      exact hkeeping.noticed_eq (tells_of_reads hk.reads rfl rfl) hfresh
  refine (session_reads agent ⟨.connected (.ok ()) :: older, false⟩ none none s hbase).mono (fun stopped s hs => ?_)
    (fun s hs => ?_) fun s hs => (hat hs).1
  · refine ⟨fun hnone => (hat hs).2 fun k b h => ?_, (hat hs).1⟩
    rw [hnone] at h
    exact h
  · exact ⟨(hat hs).2 fun _ _ h => h, (hat hs).1⟩

omit [Sha256] in
theorem Attempted.failed {tries : Nat} {err : Error} (h : Attempted agent tries (.error err) s)
    (hkept : KeepsJoins s.trace) :
    WaitsDue agent.config s.trace ∧ Due agent.config (tries + 1)
      (sleep agent .backoff (.fromSecs (agent.config.backoffFor tries)) s).2 := by
  obtain ⟨older, htrace, hbefore⟩ := h
  obtain ⟨hwaits, htries⟩ := hbefore (hkept.suffix (htrace ▸ List.suffix_cons _ _))
  have hwaits : WaitsDue agent.config s.trace := by
    rw [htrace]
    exact hwaits.cons (by simp [Event.kind])
  have hattempts : attempts s.trace = false :: attempts older := by rw [htrace]; rfl
  exact ⟨hwaits, Due.slept hwaits hattempts htries (fun hconn => absurd htrace (hconn err older)) rfl⟩

/-- A turn of `run`: an attempt, and the wait that is due after it. -/
theorem connection_due (tries : Nat) : Spec (fun s => KeepsJoins s.trace → Due agent.config tries s)
    (connection agent tries) (DueNext agent) := by
  refine Spec.bind (spec_attempt_tryCall (Q := Attempted agent tries) fun s env r hs => ?_) fun r => ?_
  · exact ⟨s.trace, rfl, fun hkept => ⟨(hs hkept).waits, (hs hkept).tries⟩⟩
  rcases r with err | _
  · cases err
    case identity msg =>
      refine Spec.fail fun s h hkept => ⟨(h.failed agent hkept).1, flagTold_of_newest fun d older ht => ?_⟩
      obtain ⟨older', htrace, -⟩ := h
      rw [ht] at htrace
      cases htrace
    all_goals exact fun s h hkept => (h.failed agent (hkept.suffix (List.suffix_cons _ _))).2
  refine Spec.bind (R := fun _ s => Attempted agent tries (.ok ()) s ∧ s.own.joined = false)
    (fun s h => ⟨h, rfl⟩) fun _ => ?_
  refine Spec.bind (R := fun r s => (r = .ok none ∨ r.isOk = false → KeepsJoins s.trace → Ended agent tries s) ∧
    Paced agent.config s) ?_ fun r => ?_
  · rintro s ⟨⟨older, htrace, hbefore⟩, hflag⟩
    refine Ends.mono (fun r s h => ?_) (fun _ h => h) (fun _ h => h)
      (Spec.attempt (X := Paced agent.config) (session_ended agent) s ⟨⟨htrace, hflag⟩, hbefore⟩)
    rcases r with e | stopped
    · exact ⟨fun _ => h.1, h.2⟩
    · refine ⟨fun hnone => h.1 ?_, h.2⟩
      rcases hnone with hnone | hnone
      · cases hnone
        rfl
      · cases hnone
  rcases r with err | _ | stopped
  · cases err
    case transport text => exact Spec.pre (backOff_due agent tries) fun s hs => hs.1 (Or.inr rfl)
    all_goals exact Spec.fail fun s hs => hs.2
  · exact Spec.pre (backOff_due agent tries) fun s hs => hs.1 (Or.inl rfl)
  · exact Spec.ret fun s hs => hs.2

/-- In a run in which no session ends before it takes notice that its join was accepted, each wait follows from how
    many attempts came to nothing, and the flag says whether the join was accepted. -/
theorem run_waits (env : σ) (own : Device) (gas : Nat) (hkept : KeepsJoins (run agent ⟨env, own, [], gas⟩).2.trace) :
    WaitsDue agent.config (run agent ⟨env, own, [], gas⟩).2.trace ∧ FlagTold (run agent ⟨env, own, [], gas⟩).2 := by
  have hloop : Spec (fun s => KeepsJoins s.trace → Due agent.config 0 s) (run agent)
      (Post (fun _ => Paced agent.config) (Paced agent.config)) := by
    refine loop_spec (I := fun tries s => KeepsJoins s.trace → Due agent.config tries s) ?_ ?_ (connection_due agent) 0
    · exact fun tries s gas h hkept => ⟨(h hkept).waits, (h hkept).tries, (h hkept).flag⟩
    · exact fun tries s h hkept => ⟨(h hkept).waits, (h hkept).flag⟩
  exact hloop.state (s := ⟨env, own, [], gas⟩) (fun _ => ⟨throughout_nil, rfl, fun d older ht => by cases ht⟩) hkept

end

/-! ### An acceptance that is lost -/

section
attribute [local instance] sha256OfByte

/-- The reply to the join, with the size of an update as a string. -/
def joinReplyGarbled : Script :=
  ⟨"join reply with a size that is no number", ⟨some "1", some "1", deviceTopic, event.reply,
    .obj [("status", .string "ok"), ("response", .obj [("update_available", .bool true), ("size", .string "1024")])]⟩⟩

@[reducible] def backoffSerde : Serde := benchSerde [joinReply, joinReplyGarbled]

attribute [local instance] backoffSerde

/-- A device that hears the same reply twice, with nothing in between. -/
def twoReplies (reply : Script) : Bench :=
  ⟨[some (.text reply.text), none, some (.text reply.text)], 20, [], 0, false, []⟩

theorem run_waits_accepted :
    WaitsDue (benchConfig .none) (run (benchAgent .none) ⟨twoReplies joinReply, benchDevice .none none, [], 9⟩).2.trace ∧
      FlagTold (run (benchAgent .none) ⟨twoReplies joinReply, benchDevice .none none, [], 9⟩).2 :=
  run_waits (benchAgent .none) (twoReplies joinReply) (benchDevice .none none) 9 (by decide +kernel)

/-- Each session hears its join accepted, and the wait after the second is that of a second fruitless attempt. -/
theorem run_waits_lost :
    let out := run (benchAgent .none) ⟨twoReplies joinReplyGarbled, benchDevice .none none, [], 9⟩
    ¬WaitsDue (benchConfig .none) out.2.trace := by
  decide +kernel

end

end NervesHub
