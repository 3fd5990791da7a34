import NervesHubLink.Bench
import NervesHubLink.Theorems.Rounds

/-! An update that was committed is followed by the restart and by nothing else, unless one of the three messages in
between cannot be sent: of one apply, of sessions and of whole runs. -/

namespace NervesHub
open Act Prog Trace

def Event.isRestart : Event → Bool
  | .restarted => true
  | _ => false

/-- The sink committed the image. -/
def Event.isCommit : Event → Bool
  | .image (.committed (.ok ())) => true
  | _ => false

/-- The transport did not take a message. -/
def Event.isRefused : Event → Bool
  | .sent _ (.error _) => true
  | _ => false

/-- How often the device was restarted, and an image committed. -/
def restarts (t : List Event) : Nat := t.countP Event.isRestart
def commits (t : List Event) : Nat := t.countP Event.isCommit

/-- No message is refused once an image was committed. -/
def Taken (t : List Event) : Prop := OnlyAfter (fun e => e.isRefused = true) (fun older => commits older = 0) t

def Envelope.carries (m : Envelope) (ev : String) (payload : Value) : Prop := m.event = ev ∧ m.payload = .value payload

/-- What comes once an image is committed, the newest first: the three messages, all taken, the pause and the restart. -/
inductive Leads : List Event → Prop
  | restart {progress status rebooting : Envelope} :
    progress.carries event.updateProgress (.obj [("value", .nat 100), ("stage", .string Stage.updating.asStr)]) →
    status.carries event.statusUpdate (.obj [("status", .string "completed")]) →
    rebooting.carries event.rebooting (.obj []) →
    Leads [.restarted, .slept .restarting (.fromMillis 250), .sent rebooting (.ok ()), .sent status (.ok ()),
      .sent progress (.ok ())]

/-- Nothing else comes after an image was committed. -/
def EachRestarts (t : List Event) : Prop := ∀ newer c older, t = newer ++ c :: older → c.isCommit = true → Leads newer

/-! ### Records -/

/-- The event is neither a restart nor a commit. -/
def Event.isSteady (e : Event) : Prop := e.isRestart = false ∧ e.isCommit = false

/-- The kinds of event that never are. -/
def Kind.isSteady (k : Kind) : Prop := k ≠ .restarted ∧ k ≠ .committed

instance (k : Kind) : Decidable k.isSteady := inferInstanceAs (Decidable (_ ∧ _))

theorem Event.not_commit {e : Event} (h : e.kind ≠ .committed) : e.isCommit = false := by
  cases e
  case image e =>
    cases e
    case committed r => exact absurd rfl h
    all_goals rfl
  all_goals rfl

theorem Event.not_restart_of_commit {c : Event} (h : c.isCommit = true) : c.isRestart = false := by
  cases c
  case restarted => cases h
  all_goals rfl

theorem Event.steady {e : Event} (h : e.kind.isSteady) : e.isSteady := by
  refine ⟨?_, Event.not_commit h.2⟩
  cases e
  case restarted => exact absurd rfl h.1
  all_goals rfl

theorem commits_of_none {es : List Event} (h : ∀ e ∈ es, e.isCommit = false) : commits es = 0 :=
  List.countP_eq_zero.mpr fun e he => by simp [h e he]

theorem restarts_of_none {es : List Event} (h : ∀ e ∈ es, e.isRestart = false) : restarts es = 0 :=
  List.countP_eq_zero.mpr fun e he => by simp [h e he]

theorem commits_append (t u : List Event) : commits (t ++ u) = commits t + commits u := List.countP_append

theorem commits_cons_of_commit {c : Event} (h : c.isCommit = true) (t : List Event) : commits (c :: t) = commits t + 1 :=
  List.countP_cons_of_pos h

theorem Leads.forall_mem {newer : List Event} (h : Leads newer) :
    ∀ e ∈ newer, e.isCommit = false ∧ e.isRefused = false := by
  cases h
  simp [Event.isCommit, Event.isRefused]

/-- In such a record nothing was refused after a commit. -/
theorem EachRestarts.taken {t : List Event} (h : EachRestarts t) : Taken t := by
  intro e older hsuffix hrefused
  obtain ⟨newer, rfl⟩ := hsuffix
  by_contra hcommits
  obtain ⟨c, hc, hcommit⟩ := List.countP_pos_iff.mp (Nat.pos_of_ne_zero hcommits)
  obtain ⟨later, before, rfl⟩ := List.append_of_mem hc
  have hleads := h (newer ++ e :: later) c before (by simp) hcommit
  have htaken := (hleads.forall_mem e (by simp)).2
  rw [hrefused] at htaken
  cases htaken

theorem eachRestarts_of_none {t : List Event} (h : commits t = 0) : EachRestarts t := by
  rintro newer c older rfl hc
  rw [commits_append, commits_cons_of_commit hc] at h
  omega

theorem taken_of_none {t : List Event} (h : commits t = 0) : Taken t := (eachRestarts_of_none h).taken

/-- The one commit of a record, with what led from it to the restart. -/
theorem eachRestarts_of_leads {newer older : List Event} {c : Event} (hleads : Leads newer) (hnone : commits older = 0) :
    EachRestarts (newer ++ c :: older) := by
  intro newer' c' older' heq hcommit
  have hmem : ∀ {u : List Event}, commits u = 0 → c' ∉ u := fun hu hmem => List.countP_eq_zero.mp hu c' hmem hcommit
  have hnewer : commits newer = 0 := commits_of_none fun e he => (hleads.forall_mem e he).1
  rcases List.append_eq_append_iff.mp heq with ⟨between, rfl, hrest⟩ | ⟨between, rfl, hrest⟩
  · cases between with
    | nil => simpa using hleads
    | cons e between =>
      rw [List.cons_append, List.cons.injEq] at hrest
      exact absurd (hrest.2 ▸ List.mem_append_right _ List.mem_cons_self) (hmem hnone)
  · cases between with
    | nil => simpa using hleads
    | cons e between =>
      rw [List.cons_append, List.cons.injEq] at hrest
      exact absurd (hrest.1 ▸ List.mem_append_right _ List.mem_cons_self) (hmem hnewer)

/-- A message was refused after a commit. -/
theorem not_taken {said older : List Event} {e c : Event} (he : e.isRefused = true) (hc : c.isCommit = true) :
    ¬Taken (e :: said ++ c :: older) := by
  intro h
  have hnone : commits (said ++ c :: older) = 0 := h e _ (List.suffix_refl _) he
  rw [commits_append, commits_cons_of_commit hc] at hnone
  omega

section
variable {σ : Type}

/-! ### One apply -/

/-- Since `base` no image has been committed, and the device not been restarted. -/
def Uncommitted (base : List Event) (s : World σ) : Prop := ∃ new, s.trace = new ++ base ∧ ∀ e ∈ new, e.isSteady

/-- Since `base` one image has been committed, and `said` is what happened after it. -/
def Committed (base said : List Event) (s : World σ) : Prop :=
  ∃ c new, s.trace = said ++ c :: (new ++ base) ∧ c.isCommit = true ∧ ∀ e ∈ new, e.isSteady

/-- And then a message was refused. -/
def Struck (base : List Event) (s : World σ) : Prop :=
  ∃ m err said, Committed base (.sent m (.error err) :: said) s ∧ ∀ e ∈ said, e.isSteady

/-- And then the device was restarted. -/
def Restarted (base : List Event) (s : World σ) : Prop := ∃ newer, Leads newer ∧ Committed base newer s

theorem Uncommitted.keep {base : List Event} {s t : World σ} (h : Uncommitted base s) (hst : Only Kind.isSteady s t) :
    Uncommitted base t := by
  obtain ⟨new, hs, hnew⟩ := h
  obtain ⟨es, ht, hes⟩ := hst
  refine ⟨es ++ new, by rw [ht, hs, List.append_assoc], fun e he => ?_⟩
  rcases List.mem_append.mp he with he | he
  · exact Event.steady (hes e he)
  · exact hnew e he

variable [Serde] (agent : Agent σ)

theorem steady_spans : Spans agent (Only (σ := σ) Kind.isSteady) Kind.isSteady := only_spans agent (by decide)

omit [Serde] in
theorem uncommitted_keeps {α : Type} {base : List Event} {m : Run σ α} (hm : Keeps (Only Kind.isSteady) m) :
    Spec (Uncommitted base) m (Post (fun _ => Uncommitted base) (Uncommitted base)) :=
  Spec.of_keeps hm fun _ _ => Uncommitted.keep

section
variable [Sha256]

/-- `install` commits an image exactly if it returns. -/
theorem install_commits (update : UpdatePayload) (step : Nat) (base : List Event) :
    Spec (Uncommitted base) (install update (imageStream agent) (imageSink agent) step (Pump.progress agent))
      (Post (fun _ => Committed base []) (Uncommitted base)) := by
  have h := steady_spans agent
  unfold install
  cases update.actionable with
  | none => exact Spec.fail fun s hs => hs
  | some urlUuid =>
    refine Spec.bind (Spec.attempt (uncommitted_keeps (h.image (by decide) update urlUuid.1 step))) fun r => ?_
    cases r with
    | ok report =>
      refine Spec.bind (R := fun _ => Committed base []) ?_ fun _ => Spec.ret fun s hs => hs
      simp only [imageSink, SinkCalls.recorded_commit]
      refine spec_tryCall (fun s env u hs => ?_) fun s env e hs => ?_
      · obtain ⟨new, hs, hnew⟩ := hs
        exact ⟨_, new, congrArg (List.cons _) hs, rfl, hnew⟩
      · obtain ⟨new, hs, hnew⟩ := hs
        exact ⟨_ :: new, congrArg (List.cons _) hs, List.forall_mem_cons.mpr ⟨⟨rfl, rfl⟩, hnew⟩⟩
    | error err =>
      refine Spec.bind (R := fun _ => Uncommitted base) (fun s hs => ?_) fun _ => Spec.fail fun s hs => hs
      exact hs.keep (h.abort (by decide) s)

theorem fetch_commits (update : UpdatePayload) (base : List Event) :
    Spec (Uncommitted base) (agent.fetch update)
      (Post (fun r s => match r with
        | .ok () => Committed base [] s
        | .error _ => Uncommitted base s) (Uncommitted base)) := by
  have h := steady_spans agent
  have hdownload : Spec (Uncommitted base) (agent.download update)
      (Post (fun _ => Committed base []) (Uncommitted base)) := by
    have hstarted : Kind.isSteady .httpStarted := by decide
    have hbegun : Kind.isSteady .updateBegun := by decide
    refine Spec.bind (uncommitted_keeps (h.tryCallOne fun _ => hstarted)) fun _ => ?_
    refine Spec.bind (uncommitted_keeps (h.tryCallOne fun _ => hbegun)) fun _ => ?_
    refine Spec.bind (uncommitted_keeps (h.nowMs (by decide))) fun now => ?_
    refine Spec.bind (uncommitted_keeps fun s => h.pump s _) fun _ => ?_
    exact Spec.bind (install_commits agent update _ base) fun _ => Spec.ret fun s hs => hs
  refine Spec.bind (uncommitted_keeps (Keeps.when h.steps fun _ => h.setDownloading _)) fun _ => ?_
  refine Spec.bind hdownload.attempt fun outcome => ?_
  cases outcome with
  | ok u => exact Spec.bind (R := fun _ => Committed base []) (fun s hs => hs) fun _ => Spec.ret fun s hs => hs
  | error err => exact Spec.bind (R := fun _ => Uncommitted base) (fun s hs => hs) fun _ => Spec.ret fun s hs => hs

end

/-- Of the messages that come after a commit, each is taken or ends the apply. -/
theorem committed_send {base said : List Event} (hsaid : ∀ e ∈ said, e.isSteady) (ev : String) (payload : Value) :
    Spec (Committed base said) (Link.nextRef >>= fun reference => Link.send agent ev payload reference)
      (Ends (fun _ s => ∃ m : Envelope, m.carries ev payload ∧ Committed base (.sent m (.ok ()) :: said) s)
        (Struck base) fun _ => False) := by
  refine Spec.bind (R := fun _ => Committed base said) (fun s hs => hs) fun reference => ?_
  refine Spec.bind (R := fun _ => Committed base said) (fun s hs => hs) fun l => ?_
  refine Spec.bind (R := fun _ => Committed base said) (fun s hs => hs) fun l' => ?_
  refine spec_tryCall (fun s env u hs => ?_) fun s env err hs => ?_
  · obtain ⟨c, new, hs, hc⟩ := hs
    exact ⟨_, ⟨rfl, rfl⟩, c, new, congrArg (List.cons _) hs, hc⟩
  · obtain ⟨c, new, hs, hc⟩ := hs
    exact ⟨_, err, said, ⟨c, new, congrArg (List.cons _) hs, hc⟩, hsaid⟩

/-- And then the three messages were taken. -/
def Announced (base : List Event) (s : World σ) : Prop :=
  ∃ progress status rebooting : Envelope,
    progress.carries event.updateProgress (.obj [("value", .nat 100), ("stage", .string Stage.updating.asStr)]) ∧
      status.carries event.statusUpdate (.obj [("status", .string "completed")]) ∧
        rebooting.carries event.rebooting (.obj []) ∧
      Committed base [.sent rebooting (.ok ()), .sent status (.ok ()), .sent progress (.ok ())] s

theorem announceApplied_leads (base : List Event) :
    Spec (Committed base []) (announceApplied agent) (Ends (fun _ => Announced base) (Struck base) fun _ => False) := by
  have hsteady : ∀ m, (Event.sent m (.ok ())).isSteady := fun m => ⟨rfl, rfl⟩
  refine Spec.bind (committed_send agent (by simp) _ _) fun _ => ?_
  rintro s ⟨progress, hprogress, hs⟩
  have hsaid : ∀ e ∈ [Event.sent progress (.ok ())], e.isSteady := by simp [hsteady]
  refine Spec.bind (committed_send agent hsaid _ _) (fun _ => ?_) s hs
  rintro s ⟨status, hstatus, hs⟩
  have hsaid : ∀ e ∈ [Event.sent status (.ok ()), .sent progress (.ok ())], e.isSteady := by simp [hsteady]
  refine (committed_send agent hsaid _ _).mono (fun _ s hs => ?_) (fun _ h => h) (fun _ h => h) s hs
  obtain ⟨rebooting, hrebooting, hs⟩ := hs
  exact ⟨progress, status, rebooting, hprogress, hstatus, hrebooting, hs⟩

variable [Sha256]

/-- An apply commits no image, or one; then a message is refused, or the device is restarted. -/
theorem apply_commits (update : UpdatePayload) (base : List Event) :
    Spec (Uncommitted base) (agent.apply update)
      (Ends (fun rebooting s => if rebooting then Restarted base s else Uncommitted base s)
        (fun s => Uncommitted base s ∨ Struck base s)
        (Uncommitted base)) := by
  have h := steady_spans agent
  refine Spec.bind ((fetch_commits agent update base).mono (fun _ _ hs => hs) (fun _ => Or.inl) fun _ hs =>
    hs) fun outcome => ?_
  cases outcome with
  | ok u =>
    refine Spec.bind ((announceApplied_leads agent base).mono (fun _ _ hs => hs) (fun _ => Or.inr) fun _ hs =>
      hs.elim) fun _ => ?_
    rintro s ⟨progress, status, rebooting, hprogress, hstatus, hrebooting, c, new, hs, hc⟩
    exact ⟨_, .restart hprogress hstatus hrebooting, c, new,
      congrArg (Event.restarted :: .slept .restarting (.fromMillis 250) :: ·) hs, hc⟩
  | error err =>
    have hstatus : Kind.isSteady .status := by decide
    refine Spec.bind ((uncommitted_keeps (h.sendStatus hstatus _ _)).mono (fun _ _ hs => hs) (fun _ => Or.inl)
      fun _ hs => hs) fun _ => ?_
    exact Spec.ret fun s hs => hs

/-- What an apply adds to the record has a restart exactly if it has a commit, where no message is refused after that, and
    where one is it does not. -/
theorem apply_restarts (update : UpdatePayload) (s : World σ) : ∃ new, (agent.apply update s).2.trace = new ++ s.trace ∧
    ((0 < restarts new ↔ 0 < commits new) ↔ Taken new) := by
  have happly := apply_commits agent update s.trace s ⟨[], rfl, by simp⟩
  have hnone : ∀ t : World σ, Uncommitted s.trace t →
      ∃ new, t.trace = new ++ s.trace ∧ ((0 < restarts new ↔ 0 < commits new) ↔ Taken new) := by
    rintro t ⟨new, ht, hnew⟩
    have hcommits : commits new = 0 := commits_of_none fun e he => (hnew e he).2
    have hrestarts : restarts new = 0 := restarts_of_none fun e he => (hnew e he).1
    exact ⟨new, ht, by simp [hcommits, hrestarts, taken_of_none hcommits]⟩
  rcases hrun : agent.apply update s with ⟨rebooting | err | _, t⟩
  all_goals rw [hrun] at happly
  · cases rebooting with
    | false => exact hnone t happly
    | true =>
      obtain ⟨newer, hleads, c, new, ht, hc, hnew⟩ := happly
      refine ⟨newer ++ c :: new, by simpa using ht, ?_⟩
      have htaken : Taken (newer ++ c :: new) := (eachRestarts_of_leads hleads
        (commits_of_none fun e he => (hnew e he).2)).taken
      have hcommits : 0 < commits (newer ++ c :: new) := List.countP_pos_iff.mpr ⟨c, by simp, hc⟩
      have hrestarts : 0 < restarts (newer ++ c :: new) := by
        cases hleads
        exact List.countP_pos_iff.mpr ⟨.restarted, by simp, rfl⟩
      exact iff_of_true (iff_of_true hrestarts hcommits) htaken
  · rcases happly with hs | ⟨m, err, said, ⟨c, new, ht, hc, hnew⟩, hsaid⟩
    · exact hnone t hs
    · refine ⟨.sent m (.error err) :: said ++ c :: new, by simpa using ht, iff_of_false (fun hiff => ?_) (not_taken rfl hc)⟩
      have hcommits : 0 < commits (.sent m (.error err) :: said ++ c :: new) := List.countP_pos_iff.mpr ⟨c, by simp, hc⟩
      have hrestarts : restarts (.sent m (.error err) :: said ++ c :: new) = 0 := restarts_of_none fun e he => by
        simp only [List.cons_append, List.mem_cons, List.mem_append] at he
        rcases he with rfl | he | rfl | he
        · rfl
        · exact (hsaid e he).1
        · exact Event.not_restart_of_commit hc
        · exact (hnew e he).1
      exact Nat.lt_irrefl _ (hrestarts ▸ hiff.mpr hcommits)
  · exact hnone t happly

/-! ### Sessions and runs -/

/-- Where a session or a run goes on: no image was committed, or a message was refused after one was. -/
def Unapplied (s : World σ) : Prop := commits s.trace = 0 ∨ ¬Taken s.trace

/-- Where it is over. -/
def Applied (s : World σ) : Prop := Taken s.trace → EachRestarts s.trace

omit [Serde] [Sha256] in
theorem Unapplied.applied {s : World σ} (h : Unapplied s) : Applied s := fun htaken =>
  h.elim eachRestarts_of_none fun hstruck => absurd htaken hstruck

omit [Serde] [Sha256] in
theorem Unapplied.keep {s t : World σ} (h : Unapplied s) (hst : Only (· ≠ .committed) s t) : Unapplied t := by
  refine hst.holds (J := fun u => commits u = 0 ∨ ¬Taken u) (fun e u he hu => ?_) h
  rcases hu with hnone | hstruck
  · exact Or.inl ((List.countP_cons_of_neg (by simp [Event.not_commit he])).trans hnone)
  · exact Or.inr fun htaken => hstruck (onlyAfter_cons.mp htaken).2

theorem apply_unapplied (update : UpdatePayload) : Spec Unapplied (agent.apply update)
    (Ends (fun rebooting s => if rebooting then Applied s else Unapplied s) Unapplied Unapplied) := by
  rintro s (hnone | hstruck)
  · have hcommits : ∀ new : List Event, (∀ e ∈ new, e.isSteady) → commits (new ++ s.trace) = 0 := fun new hnew => by
      rw [commits_append, hnone, commits_of_none fun e he => (hnew e he).2]
    have hsteady : ∀ t : World σ, Uncommitted s.trace t → Unapplied t := by
      rintro t ⟨new, ht, hnew⟩
      exact Or.inl (ht ▸ hcommits new hnew)
    refine (apply_commits agent update s.trace).mono (fun rebooting t ht => ?_) (fun t ht => ?_) hsteady s
      ⟨[], rfl, by simp⟩
    · cases rebooting with
      | false => exact hsteady t ht
      | true =>
        obtain ⟨newer, hleads, c, new, ht, hc, hnew⟩ := ht
        exact fun _ => ht ▸ eachRestarts_of_leads hleads (hcommits new hnew)
    · rcases ht with ht | ⟨m, err, said, ⟨c, new, ht, hc, -⟩, -⟩
      · exact hsteady t ht
      · exact Or.inr (ht ▸ not_taken rfl hc)
  · have hgrows : ¬Taken (agent.apply update s).2.trace := fun htaken =>
      hstruck (Throughout.suffix htaken ((grows_allows agent).apply (fun _ _ => trivial) update s))
    rcases hrun : agent.apply update s with ⟨rebooting | err | _, t⟩
    all_goals rw [hrun] at hgrows
    · cases rebooting with
      | false => exact Or.inr hgrows
      | true => exact fun htaken => absurd htaken hgrows
    · exact Or.inr hgrows
    · exact Or.inr hgrows

/-- Where a session has ended: after a restart nothing goes on. -/
def Departs (stopped : Option Stopped) (s : World σ) : Prop := Applied s ∧ (stopped ≠ some .rebooting → Unapplied s)

omit [Serde] [Sha256] in
theorem Unapplied.departs {s : World σ} (h : Unapplied s) (stopped : Option Stopped) :
    Departs stopped s := ⟨h.applied, fun _ => h⟩

theorem session_departs (window : Option SessionWindow) (control : Option (σ → Control × σ)) :
    Spec Unapplied (sessionWithin agent window control) (Ends Departs Unapplied Unapplied) := by
  have h : Spans agent (Only (σ := σ) (· ≠ .committed)) (· ≠ .committed) := only_spans agent (by decide)
  have hkeep : ∀ s t : World σ, Unapplied s → Only (· ≠ .committed) s t → Unapplied t := fun _ _ => Unapplied.keep
  have hdeparts : ∀ stopped (s : World σ), Unapplied s → Departs stopped s := fun stopped s hs => hs.departs stopped
  have happly : ∀ (a : Session) update, Spec Unapplied (perform agent a (.applyUpdate update))
      (Ends (Turn.Post (fun _ => Unapplied) Departs) Unapplied Unapplied) := fun a update => by
    refine Spec.bind (apply_unapplied agent update) fun rebooting => ?_
    cases rebooting with
    | true => exact Spec.ret fun s hs => ⟨hs, fun hne => absurd rfl hne⟩
    | false =>
      exact Spec.bind (R := fun _ => Unapplied) (Spec.of_keeps (h.nowMs (by decide)) hkeep) fun _ => Spec.ret fun s hs => hs
  refine Spans.session_rule (I := fun _ _ => Unapplied) (M := fun _ _ _ => Unapplied) (fun _ _ _ _ hs => hs)
    (fun _ _ _ hs => hs)
    (Spec.of_keeps (h.openSession (by decide) fun _ => .nothing rfl) hkeep) (fun _ a => ?_)
    (fun started now a => h.mid_rule h.overhear (by decide) hkeep (fun _ hs => hs)
      (hdeparts _) window control started now a) fun _ _ a => ?_
  · exact Spec.of_keeps (h.attend (by decide) (fun a => h.joinConsole (by decide) (fun _ _ => .nothing rfl) a) a) hkeep
  · exact h.toRoams.listen_rule (I := fun _ => Unapplied) h.beat (by decide) (fun _ => hkeep) (fun _ _ hs => hs)
      (fun _ s stopped _ hs => hdeparts stopped s hs) (fun _ _ _ hs => hs) happly a fun s env r hs =>
        hs.keep (h.calls s env [.received r] fun e he => by
          rw [List.mem_singleton.mp he]
          exact Kind.noConfusion)

omit [Serde] [Sha256] in
/-- What holds of a record at the end of a run, and wherever it is cut. -/
theorem restarts_iff {α : Type} {m : Run σ α} (hm : Spec Unapplied m (Post (fun _ => Applied) Applied)) (env : σ)
    (own : Device) (gas : Nat) :
    EachRestarts (m ⟨env, own, [], gas⟩).2.trace ↔ Taken (m ⟨env, own, [], gas⟩).2.trace :=
  ⟨EachRestarts.taken, hm.state (s := ⟨env, own, [], gas⟩) (Or.inl rfl)⟩

/-- An apply restarts the device exactly if it committed an image, and in sessions and in runs an image that was committed
    is followed by the restart and by nothing else: exactly where the transport takes the messages that come once an image
    is committed. -/
theorem commits_restart_iff (agent : Agent σ) (env : σ) (own : Device) (gas : Nat) :
    (∀ update s, ∃ new, (agent.apply update s).2.trace = new ++ s.trace ∧
      ((0 < restarts new ↔ 0 < commits new) ↔ Taken new)) ∧
      (∀ window control, EachRestarts (sessionWithin agent window control ⟨env, own, [], gas⟩).2.trace ↔
        Taken (sessionWithin agent window control ⟨env, own, [], gas⟩).2.trace) ∧
      (EachRestarts (run agent ⟨env, own, [], gas⟩).2.trace ↔ Taken (run agent ⟨env, own, [], gas⟩).2.trace) ∧
      (∀ window, EachRestarts (runSession agent window ⟨env, own, [], gas⟩).2.trace ↔
        Taken (runSession agent window ⟨env, own, [], gas⟩).2.trace) ∧
      ∀ ask, EachRestarts (runSessionUntil agent ask ⟨env, own, [], gas⟩).2.trace ↔
        Taken (runSessionUntil agent ask ⟨env, own, [], gas⟩).2.trace := by
  have hbetween : ∀ (s : World σ) (env : σ) e, Event.kind e ∈ runKinds → Unapplied s →
      Unapplied { s with env := env, trace := e :: s.trace } :=
    fun s env e he hs => hs.keep ⟨[e], rfl, fun e' he' => by
      rw [List.mem_singleton.mp he']
      rintro hkind
      simp [hkind, runKinds] at he⟩
  have hflag : ∀ (s : World σ) joined, Unapplied s → Unapplied { s with own := { s.own with joined := joined } } :=
    fun _ _ hs => hs
  have happlied : ∀ s : World σ, Unapplied s → Applied s := fun _ => Unapplied.applied
  have hsession : ∀ window control, Spec Unapplied (sessionWithin agent window control)
      (Ends (fun stopped s => if stopped.isSome then Applied s else Unapplied s) Unapplied Unapplied) := fun window control =>
    (session_departs agent window control).mono (fun stopped s hs => by
      cases stopped with
      | none => exact hs.2 (by simp)
      | some stopped => exact hs.1) (fun _ h => h) fun _ h => h
  have honce := fun window control => once_rule hbetween hflag happlied window control (hsession window control)
  refine ⟨apply_restarts agent, fun window control => restarts_iff ?_ env own gas, restarts_iff ?_ env own gas,
    fun window => restarts_iff (honce (some window) none) env own gas, fun ask =>
      restarts_iff (honce none (some ask)) env own gas⟩
  · exact (session_departs agent window control).mono (fun _ _ hs => hs.1) happlied happlied
  · exact run_rule hbetween hflag happlied (fun _ _ hs => hs) (hsession none none)

end

/-! ### A socket that is gone once the image is committed -/

section
attribute [local instance] sha256OfByte

def deadSocket : Bench := ⟨[], 0, patchScript, 0, false, []⟩

/-- An apply whose every step succeeds but the sends. -/
def unannounced : Outcome Error Bool × World Bench :=
  letI := benchSerde []
  (benchAgent .none).apply bareUpdate ⟨deadSocket, benchDevice .none none, [], 9⟩

/-- The image is committed, and the device is not restarted. -/
theorem apply_commits_unrestarted :
    unannounced.1 = .err (.transport "closed") ∧ commits unannounced.2.trace = 1 ∧ restarts unannounced.2.trace = 0 := by
  decide +kernel

end

end NervesHub
