import NervesHubLink.Theorems.Footprint

/-! The record of a session is one that the protocol reads, and the link is where the protocol is. -/

namespace NervesHub
open Act Prog Machine

/-! ### Where a session stands -/

/-- The protocol has come as far as a session's flags say. -/
structure Stands (confirmed extensionsJoined consoleJoined : Bool) (k : Talk) (b : Bool) : Prop where
  errand : k.errand = .none
  standing : k.standing = if confirmed then .confirmed else .waiting
  extensions : k.extensionsJoined = extensionsJoined
  console : k.consoleJoined = consoleJoined
  noticed : b = k.noticed

def Head (a : Session) : Talk → Bool → Prop := Stands a.confirmed a.extensionsJoined a.consoleJoined

/-- Where it waits for a frame: an acceptance has been noticed. -/
def Settled (a : Session) (k : Talk) (b : Bool) : Prop := Head a k b ∧ ¬k.Fresh

/-- Where a session may end: the flag says whether the join was accepted, unless that was lost. -/
def Over (k : Talk) (b : Bool) : Prop := b = k.noticed ∧ ¬k.Fresh

def Anywhere (_ : Talk) (_ : Bool) : Prop := True

theorem Stands.isOpen {x y z : Bool} {k : Talk} {b : Bool} (h : Stands x y z k b) : k.Open := by
  refine ⟨h.errand, ?_⟩
  rw [h.standing]
  cases x
  · exact Or.inl rfl
  · exact Or.inr rfl

theorem Settled.isOpen {a : Session} {k : Talk} {b : Bool} (h : Settled a k b) : k.Open := h.1.isOpen

theorem Settled.over {a : Session} {k : Talk} {b : Bool} (h : Settled a k b) : Over k b := ⟨h.1.noticed, h.2⟩

/-- The record and the flag as a session finds them. -/
structure Outset where
  trace : List Event
  joined : Bool

section
variable {σ : Type}

/-! ### What goes on between two steps of the protocol -/

/-- From a link in the state `c`: the link stays there, and what is recorded is permitted there. -/
def Quiet (c : Core) (s t : World σ) : Prop :=
  s.own.link.core = c → t.own.link.core = c ∧ t.own.joined = s.own.joined ∧
    ∃ es, t.trace = es ++ s.trace ∧ ∀ e ∈ es, c.Permits e

theorem quiet_admits (c : Core) : Admits (Quiet (σ := σ) c) (fun k => c.permitted k = true) where
  steps := by
    refine ⟨fun s hs => ⟨hs, rfl, [], rfl, fun e he => by cases he⟩, fun {s t u} hst htu hs => ?_⟩
    obtain ⟨ht, hjoined, es, hes, hperm⟩ := hst hs
    obtain ⟨hu, hjoined', es', hes', hperm'⟩ := htu ht
    refine ⟨hu, hjoined'.trans hjoined, es' ++ es, by rw [hes', hes, List.append_assoc], fun e he => ?_⟩
    rcases List.mem_append.mp he with he | he
    · exact hperm' e he
    · exact hperm e he
  gas s g hs := ⟨hs, rfl, [], rfl, fun e he => by cases he⟩
  calls s env es hes hs := ⟨hs, rfl, es, rfl, fun e he => .kind (hes e he)⟩
  aside s _ _ hs := ⟨hs, rfl, [], rfl, fun e he => by cases he⟩
  reader _ s _ hs := ⟨hs, rfl, [], rfl, fun e he => by cases he⟩

theorem quiet_anyBuffer (c : Core) : Admits.AnyBuffer (Quiet (σ := σ) c) :=
  fun s logs hs => ⟨hs, rfl, [], rfl, fun e he => by cases he⟩

theorem quiet_anyBeat (c : Core) : Admits.AnyBeat (Quiet (σ := σ) c) :=
  fun s reference hs => ⟨hs, rfl, [], rfl, fun e he => by cases he⟩

theorem Extensions.mem_logs {x : Extensions} {lines : List LogLine} (hone : x.logBatch lines = none) {out : Outgoing}
    (h : out ∈ x.logs lines) : x.isAttached loggingKey = true ∧ x.loggingBatched = false ∧
      ∃ line : LogLine, out = .send event.loggingSend line.payload := by
  unfold Extensions.logs at h
  unfold Extensions.logBatch at hone
  split at h
  · cases h
  rename_i hsome
  simp only [Bool.or_eq_true, Bool.not_eq_true', not_or, Bool.not_eq_true, Bool.not_eq_false] at hsome
  have hsingle : x.loggingBatched = false := by simpa [hsome.1] using hone
  rw [if_pos (by simp [hsingle])] at h
  obtain ⟨line, -, hline⟩ := List.mem_flatMap.mp h
  unfold Extensions.log at hline
  rw [if_neg (by simp [hsome.2])] at hline
  exact ⟨hsome.2, hsingle, line, List.mem_singleton.mp hline⟩

variable [Serde] (agent : Agent σ)

theorem quiet_write (c : Core) {m : Envelope} (hm : ∀ r, c.Permits (.sent m r)) :
    Keeps (Quiet c) (Link.write agent m) := by
  have h := quiet_admits (σ := σ) c
  refine Keeps.bind h.steps h.link fun l => keeps_tryCall fun s env r hs => ?_
  refine ⟨hs, rfl, [.sent m r], rfl, fun e he => ?_⟩
  rw [List.mem_singleton.mp he]
  exact hm r

theorem quiet_sendExtension (c : Core) (outgoing : List Outgoing)
    (hp : ∀ ev payload, .send ev payload ∈ outgoing → ∀ joinRef reference r,
      c.Permits (.sent ⟨joinRef, some reference, extensionsTopic, ev, .value payload⟩ r)) :
    Keeps (Quiet c) (Link.sendExtension agent outgoing) :=
  (quiet_admits (σ := σ) c).sendExtension_writes outgoing fun ev payload hmem joinRef reference =>
    quiet_write agent c (hp ev payload hmem joinRef reference)

theorem quiet_linkSendLogs (c : Core) (lines : List LogLine) : Keeps (Quiet c) (Link.sendLogs agent lines) := by
  have h := quiet_admits (σ := σ) c
  intro s hs
  have hx : s.own.link.extensions = c.extensions := congrArg Core.extensions hs
  cases hbatch : c.extensions.logBatch lines with
  | some batch =>
    have hrun : Link.sendLogs agent lines s = (Link.nextRef >>= fun reference => Link.write agent
        ⟨s.own.link.extensionsJoinRef, some reference, extensionsTopic, event.loggingSend, .batch batch⟩) s := by
      simp only [Link.sendLogs, NervesHub.link, gets_bind_apply, hx, hbatch]
    have hbatched : c.extensions.loggingBatched = true := by
      unfold Extensions.logBatch at hbatch
      split at hbatch
      · rename_i hand
        exact (Bool.and_eq_true _ _ ▸ hand).2
      · cases hbatch
    rw [hrun]
    exact Keeps.bind h.steps h.nextRef (fun _ => quiet_write agent c fun r => .batch batch rfl hbatched rfl) s hs
  | none =>
    have hrun : Link.sendLogs agent lines s = Link.sendExtension agent (c.extensions.logs lines) s := by
      simp only [Link.sendLogs, NervesHub.link, gets_bind_apply, hx, hbatch]
    rw [hrun]
    refine quiet_sendExtension agent c _ (fun ev payload hmem joinRef reference r => ?_) s hs
    obtain ⟨hatt, hone, line, heq⟩ := Extensions.mem_logs hbatch hmem
    cases heq
    exact .line line rfl hatt hone rfl

/-- Logs are sent only while logging is attached. -/
theorem quiet_allows (c : Core) : Allows agent (Quiet c) (fun k => c.permitted k = true) where
  toAdmits := quiet_admits c
  level s l := quiet_anyBuffer c s _
  beat := quiet_anyBeat c
  pump s pump hs := ⟨hs, rfl, [], rfl, fun e he => by cases he⟩
  logs now lastLog s hs := by
    have h := quiet_admits (σ := σ) c
    by_cases hatt : c.extensions.isAttached loggingKey = true
    · have hp : ∀ k ∈ Admits.logKinds, c.permitted k = true := by
        simp [Admits.logKinds, Core.permitted, hatt]
      refine Keeps.bind h.steps h.own (fun d => Keeps.ite (Keeps.pure h.steps _) ?_) s hs
      refine Keeps.ite (Keeps.pure h.steps _) ?_
      exact h.drainLogs (quiet_anyBuffer c) hp (quiet_linkSendLogs agent c) _ _ _
    · have hidle : NervesHub.sendLogs agent now lastLog s = (.ret lastLog, s) := by
        have hlink : s.own.link.loggingAttached = false := by
          have hx : s.own.link.extensions = c.extensions := congrArg Core.extensions hs
          simp only [Link.loggingAttached, hx]
          exact Bool.eq_false_iff.mpr hatt
        have hskip : (s.own.logs.isNone || !s.own.link.loggingAttached) = true := by simp [hlink]
        show (if (s.own.logs.isNone || !s.own.link.loggingAttached) = true then _ else _ : Run σ Nat) s = _
        rw [if_pos hskip]
        rfl
      rw [hidle]
      exact h.steps.refl s hs

/-! ### Where a session is -/

variable (base : Outset)

/-- The protocol is in `k` once it has read the record, the link is in `c`, and `b` says whether the flag was
    set in this session. -/
structure Is (k : Talk) (c : Core) (b : Bool) (s : World σ) : Prop where
  reads : Reads Talk.Step (Talk.start agent.config.extensions) base.trace k s.trace
  core : s.own.link.core = c
  joined : s.own.joined = (base.joined || b)

/-- The link is where the protocol is, and `P` holds of it and of the flag. -/
def At (P : Talk → Bool → Prop) (s : World σ) : Prop := ∃ k b, Is agent base k k.core b s ∧ P k b

variable {agent base} {k : Talk} {c : Core} {b : Bool} {α β : Type} {X C : World σ → Prop} {P Q : Talk → Bool → Prop}

theorem At.mono {s : World σ} (h : At agent base P s) (hPQ : ∀ k b, P k b → Q k b) : At agent base Q s := by
  obtain ⟨k, b, hk, hP⟩ := h
  exact ⟨k, b, hk, hPQ k b hP⟩

theorem At.spec {m : Run σ α} {T : Outcome Error α → World σ → Prop}
    (h : ∀ k b, P k b → Spec (Is agent base k k.core b) m T) : Spec (At agent base P) m T := by
  rintro s ⟨k, b, hk, hP⟩
  exact h k b hP s hk

namespace Is

theorem call {f : σ → α × σ} {ev : α → Event} {k' : α → Talk} (hs : ∀ a, Talk.Step k (ev a) (k' a)) :
    Spec (Is agent base k c b) (Prog.call f (fun a => [ev a]) : Run σ α) (Ends (fun a => Is agent base (k' a) c b) X C) :=
  spec_call fun _ _ a h => ⟨.step h.reads (hs a), h.core, h.joined⟩

theorem tryCall {f : σ → Except Error α × σ} {ev : Except Error α → Event} {k' : Except Error α → Talk}
    (hs : ∀ r, Talk.Step k (ev r) (k' r)) :
    Spec (Is agent base k c b) (Prog.tryCall f (fun r => [ev r]) : Run σ α)
      (Ends (fun a => Is agent base (k' (.ok a)) c b) (fun s => ∃ e, Is agent base (k' (.error e)) c b s) C) :=
  spec_tryCall (fun _ _ a h => ⟨.step h.reads (hs (.ok a)), h.core, h.joined⟩) fun _ _ e h =>
    ⟨e, .step h.reads (hs (.error e)), h.core, h.joined⟩

theorem link {m : Link → Run σ α} {T : Outcome Error α → World σ → Prop}
    (h : ∀ l : Link, l.core = c → Spec (Is agent base k c b) (m l) T) :
    Spec (Is agent base k c b) (NervesHub.link >>= m) T := fun s hs => h s.own.link hs.core s hs

theorem nextRef : Spec (Is agent base k c b) (Link.nextRef : Run σ String) (Ends (fun _ => Is agent base k c b) X C) :=
  fun _ hs => ⟨hs.reads, hs.core, hs.joined⟩

theorem modifyLink {f : Link → Link} {c' : Core} (hf : ∀ l : Link, l.core = c → (f l).core = c') :
    Spec (Is agent base k c b) (NervesHub.modifyLink f : Run σ Unit) (Ends (fun _ => Is agent base k c' b) X C) :=
  fun s hs => ⟨hs.reads, hf s.own.link hs.core, hs.joined⟩

theorem write {m : Envelope} {k' : Except Error Unit → Talk} (hs : ∀ r, Talk.Step k (.sent m r) (k' r)) :
    Spec (Is agent base k c b) (Link.write agent m)
      (Ends (fun _ => Is agent base (k' (.ok ())) c b) (fun s => ∃ e, Is agent base (k' (.error e)) c b s) C) :=
  Is.link fun _ _ => Is.tryCall hs

/-- The machine goes the same way whether or not the frame could be sent. -/
theorem writeAny {m : Envelope} {k' : Talk} (hs : ∀ r, Talk.Step k (.sent m r) k') :
    Spec (Is agent base k c b) (Link.write agent m) (Ends (fun _ => Is agent base k' c b) (Is agent base k' c b) C) :=
  Spec.mono (Is.write hs) (fun _ _ h => h) (fun _ ⟨_, h⟩ => h) fun _ h => h

end Is

/-! ### A turn, up to the wait for a frame -/

variable (agent base) in
/-- Begun where `P` holds, the program goes where `Q` holds, or ends the session, or is cut. -/
def Goes (m : Run σ α) (P : Talk → Bool → Prop) (Q : α → Talk → Bool → Prop) : Prop :=
  Spec (At agent base P) m
    (Ends (fun a => At agent base (Q a)) (At agent base Over) (At agent base Anywhere))

namespace Goes
variable {m : Run σ α} {R : α → Talk → Bool → Prop}

theorem bind {n : α → Run σ β} {T : β → Talk → Bool → Prop} (hm : Goes agent base m P R)
    (hn : ∀ a, Goes agent base (n a) (R a) T) : Goes agent base (m >>= n) P T := Spec.bind hm hn

theorem ret {a : α} (h : ∀ k b, P k b → R a k b) : Goes agent base (pure a) P R := fun _ hs => At.mono hs h

theorem link {n : Link → Run σ β} {T : β → Talk → Bool → Prop}
    (h : ∀ l : Link, Goes agent base (n l) (fun k b => P k b ∧ l.core = k.core) T) :
    Goes agent base (NervesHub.link >>= n) P T := by
  rintro s ⟨k, b, hk, hP⟩
  exact h s.own.link s ⟨k, b, hk, hP, hk.core⟩

theorem ite {p : Prop} [Decidable p] {n : Run σ α} (hm : p → Goes agent base m P R) (hn : ¬p → Goes agent base n P R) :
    Goes agent base (if p then m else n) P R := Spec.ite hm hn

/-- What is quiet leaves the protocol where it is, however it ends. -/
theorem stays (hopen : ∀ k b, P k b → k.Open) (hm : ∀ k b, P k b → Keeps (Quiet k.core) m) :
    Spec (At agent base P) m (Post (fun _ => At agent base P) (At agent base P)) := by
  refine Spec.of_state ?_
  rintro s ⟨k, b, hk, hP⟩
  obtain ⟨hcore, hjoined, es, hes, hperm⟩ := hm k b hP s hk.core
  refine ⟨k, b, ⟨?_, hcore, hjoined.trans hk.joined⟩, hP⟩
  rw [hes]
  exact hk.reads.stay fun e he => .aside (hopen k b hP) (hperm e he)

theorem quiet (hopen : ∀ k b, P k b → k.Open) (hover : ∀ k b, P k b → Over k b)
    (hm : ∀ k b, P k b → Keeps (Quiet k.core) m) : Goes agent base m P (fun _ => P) :=
  Spec.mono (stays hopen hm) (fun _ _ h => h) (fun _ h => h.mono hover) fun _ h => h.mono fun _ _ _ => trivial

theorem settled {a : Session} (hm : ∀ c, Keeps (Quiet c) m) : Goes agent base m (Settled a) (fun _ => Settled a) :=
  quiet (fun _ _ h => h.isOpen) (fun _ _ h => h.over) fun k _ _ => hm k.core

end Goes

variable (agent base)

/-- The join is accepted, and now the session takes notice: it asks, marks and tells, in this order. -/
theorem goes_confirm (a : Session) : Goes agent base (confirm agent a) (Head a) Settled := by
  refine At.spec fun k b hhead => Is.link fun l hl => Spec.ite (fun hc => ?_) fun hc => ?_
  · obtain ⟨hjoined, hunconfirmed⟩ : l.joined = true ∧ a.confirmed = false := by simpa using hc
    have hwaiting : k.standing = .waiting := by rw [hhead.standing, hunconfirmed]; rfl
    have hfresh : k.Fresh := ⟨hwaiting, (congrArg Core.joined hl).symm.trans hjoined⟩
    have hover : ∀ (st : Standing) s, ({ k with standing := st } : Talk).noticed = true →
        Is agent base { k with standing := st } k.core true s → At agent base Over s := by
      intro st s hst hs
      refine ⟨_, true, hs, hst.symm, fun hf => ?_⟩
      rw [show st = .waiting from hf.1] at hst
      cases hst
    refine Spec.bind (R := fun _ => Is agent base k k.core true) (fun s hs => ⟨hs.reads, hs.core, (Bool.or_true _).symm⟩)
      fun _ => ?_
    refine Spec.bind (Is.call fun now => .aside hhead.isOpen (.kind rfl)) fun now => ?_
    refine Spec.bind (R := fun _ => Is agent base { k with standing := .confirmed } k.core true) ?_ fun _ => ?_
    · refine Spec.bind (Is.call fun pending => .ask pending hfresh hhead.isOpen) fun pending => ?_
      refine Spec.bind (R := fun _ s => ∃ st, (st = .asked false ∨ st = .marked) ∧
        Is agent base { k with standing := st } k.core true s) ?_ fun _ => ?_
      · refine Spec.when (fun hp => ?_) fun hp s hs => ?_
        · subst hp
          refine Spec.mono (Is.tryCall (k := { k with standing := .asked true }) fun r => .mark r rfl)
            (fun _ s hs => ⟨.marked, Or.inr rfl, hs⟩) (fun s hs => ?_) fun _ h => h
          obtain ⟨e, hs⟩ := hs
          exact hover .failed s rfl hs
        · rw [Bool.not_eq_true] at hp
          subst hp
          exact ⟨_, Or.inl rfl, hs⟩
      · rintro s ⟨st, hst, hs⟩
        refine Spec.bind Is.nextRef (fun reference => Is.link fun l hl => ?_) s hs
        refine Spec.mono (Is.write fun r => .validate r hst rfl) (fun _ _ hs => hs) (fun s hs => ?_) fun _ h => h
        obtain ⟨e, hs⟩ := hs
        exact hover .failed s rfl hs
    · refine Spec.ret fun s hs => ⟨_, true, hs, ⟨hhead.errand, rfl, hhead.extensions, hhead.console, rfl⟩, fun hf => ?_⟩
      cases hf.1
  · refine Spec.ret fun s hs => ⟨k, b, hs, hhead, fun hf => hc ?_⟩
    have hunconfirmed : a.confirmed = false := by
      have hst := hhead.standing.symm.trans hf.1
      cases ha : a.confirmed
      · rfl
      · rw [ha] at hst
        cases hst
    rw [show l.joined = true from (congrArg Core.joined hl).trans hf.2, hunconfirmed]
    rfl

theorem goes_joinExtensions (a : Session) : Goes agent base (joinExtensions agent a) (Settled a) Settled := by
  refine Goes.bind (R := fun _ => Settled a) ?_ fun overdue => ?_
  · unfold invitationOverdue
    cases a.joinedAt with
    | none => exact Goes.ret fun _ _ h => h
    | some joinedAt =>
      refine Goes.settled fun c => ?_
      have h := quiet_admits (σ := σ) c
      exact Keeps.bind h.steps (h.nowMs rfl) fun _ => Keeps.pure h.steps _
  refine At.spec fun k b hset => Is.link fun l hl => Spec.ite (fun hc => ?_) fun _ =>
    Spec.ret fun s hs => ⟨k, b, hs, hset⟩
  have hjoined : k.core.joined = true := by
    rw [← hl]
    simp only [Bool.and_eq_true] at hc
    exact hc.1.1.1
  have hnot : k.extensionsJoined = false := by
    rw [hset.1.extensions]
    simp only [Bool.and_eq_true, Bool.not_eq_true'] at hc
    exact hc.1.2
  refine Spec.bind (R := fun _ => At agent base (Settled { a with extensionsJoined := true })) ?_ fun _ =>
    Spec.ret fun _ h => h
  refine Spec.bind Is.nextRef fun reference => ?_
  have hmodify : ∀ l : Link, l.core = k.core →
      ({ l with extensionsJoinRef := some reference } : Link).core = (k.withExtensions (some reference)).core := by
    intro l hl
    simp only [Talk.withExtensions, ← hl]
    rfl
  refine Spec.bind (Is.modifyLink hmodify) fun _ => Is.link fun l hl => ?_
  have hpayload : l.extensions = k.core.extensions := congrArg Core.extensions hl
  have hset' : ∀ s, Is agent base (k.withExtensions (some reference)) (k.withExtensions (some reference)).core b s →
      At agent base (Settled { a with extensionsJoined := true }) s := fun s hs =>
    ⟨_, b, hs, ⟨hset.1.errand, hset.1.standing, rfl, hset.1.console, hset.1.noticed⟩, hset.2⟩
  refine Spec.mono (Is.writeAny fun r => .joinExtensions r hset.isOpen hset.2 hjoined hnot rfl (by rw [hpayload]))
    (fun _ s hs => hset' s hs) (fun s hs => (hset' s hs).mono fun _ _ h => h.over) fun s hs => hs

theorem goes_joinConsole (a : Session) : Goes agent base (joinConsole agent a) (Settled a) Settled := by
  refine At.spec fun k b hset => Is.link fun l hl => Spec.ite (fun hc => ?_) fun _ =>
    Spec.ret fun s hs => ⟨k, b, hs, hset⟩
  have hjoined : k.core.joined = true := by
    rw [← hl]
    simp only [Bool.and_eq_true] at hc
    exact hc.1.1
  have hnot : k.consoleJoined = false := by
    rw [hset.1.console]
    simp only [Bool.and_eq_true, Bool.not_eq_true'] at hc
    exact hc.2
  refine Spec.bind (R := fun _ => At agent base (Settled { a with consoleJoined := true })) ?_ fun _ =>
    Spec.ret fun _ h => h
  refine Spec.bind Is.nextRef fun reference => ?_
  have hmodify : ∀ l : Link, l.core = k.core →
      ({ l with consoleJoinRef := some reference } : Link).core = (k.withConsole (some reference)).core := by
    intro l hl
    simp only [Talk.withConsole, ← hl]
    rfl
  have hset' : ∀ s, Is agent base (k.withConsole (some reference)) (k.withConsole (some reference)).core b s →
      At agent base (Settled { a with consoleJoined := true }) s := fun s hs =>
    ⟨_, b, hs, ⟨hset.1.errand, hset.1.standing, hset.1.extensions, rfl, hset.1.noticed⟩, hset.2⟩
  refine Spec.bind (Is.modifyLink hmodify) fun _ => ?_
  exact Spec.mono (Is.writeAny fun r => .joinConsole r hset.isOpen hset.2 hjoined hnot rfl)
    (fun _ s hs => hset' s hs) (fun s hs => (hset' s hs).mono fun _ _ h => h.over) fun s hs => hs

theorem goes_heartbeat (now : Nat) (a : Session) : Goes agent base (heartbeat agent now a) (Settled a) Settled := by
  refine Goes.ite (fun _ => Goes.link fun l => Goes.ite (fun _ => ?_) fun _ => ?_) fun _ => Goes.ret fun _ _ h => h
  · exact fun s hs => hs.mono fun _ _ h => h.1.over
  · have hsend : Goes agent base (Link.sendHeartbeat agent) (Settled a) (fun _ => Settled a) :=
      Goes.settled fun c => (quiet_admits c).sendHeartbeat (quiet_anyBeat c) rfl
    refine Goes.bind (Spec.pre hsend fun s hs => hs.mono fun _ _ h => h.1) fun _ => Goes.ret fun _ _ h => h

/-- After what a turn does before it waits, an acceptance has been noticed. -/
theorem goes_attend (a : Session) : Goes agent base (attend agent a) (Head a) (fun r => Settled r.2) := by
  refine Goes.bind (goes_confirm agent base a) fun a => Goes.bind (goes_joinExtensions agent base a) fun a => ?_
  refine Goes.bind (goes_joinConsole agent base a) fun a => ?_
  have hreport : Goes agent base (reportAttached a : Run σ Session) (Settled a) Settled :=
    fun s hs => hs
  refine Goes.bind hreport fun a => ?_
  refine Goes.bind (R := fun _ => Settled a) (Goes.settled fun c => (quiet_admits c).nowMs rfl) fun now => ?_
  refine Goes.bind (goes_heartbeat agent base now a) fun a => ?_
  refine Goes.bind (R := Settled) ?_ fun a => Goes.ret fun _ _ h => h
  refine Goes.bind (Goes.settled fun c => (quiet_allows agent c).logs now a.lastLog) fun lastLog => ?_
  exact Goes.ret fun _ _ h => h

theorem goes_askControl (a : Session) (control : Option (σ → Control × σ)) :
    Goes agent base (askControl agent control) (Settled a) (fun _ => Settled a) := by
  cases control with
  | none => exact Goes.ret fun _ _ h => h
  | some ask =>
    refine Goes.quiet (fun _ _ h => h.isOpen) (fun _ _ h => h.over) fun k b hset s hs => ?_
    have h := quiet_allows agent k.core
    -- The health is only asked for in a state in which it is attached, and asking does not change the state.
    refine Keeps.bind h.steps (h.callOne fun _ => rfl) (fun answer => ?_) s hs
    cases answer with
    | stay => exact Keeps.pure h.steps _
    | leave => exact Keeps.pure h.steps _
    | reportHealth =>
      intro t ht
      refine Keeps.bind h.steps (Keeps.when h.steps (c := t.own.link.healthAttached = true) fun hatt => ?_)
        (fun _ => Keeps.pure h.steps false) t ht
      have hhealth : k.core.extensions.isAttached healthKey = true := by
        rw [← ht]
        exact hatt
      refine h.answerExtension _ fun need hneed kd hkd => ?_
      rw [List.mem_singleton.mp hneed] at hkd
      rcases List.mem_cons.mp hkd with rfl | hkd
      · exact hhealth
      · rw [List.mem_singleton.mp hkd]
        exact hhealth

theorem goes_windowEnds (a : Session) (window : Option SessionWindow) (started now : Nat) :
    Goes agent base (windowEnds agent window started now a) (Settled a) (fun _ => Settled a) := by
  cases window with
  | none => exact Goes.ret fun _ _ h => h
  | some window =>
    refine Goes.settled fun c => ?_
    have h := quiet_admits (σ := σ) c
    exact h.windowEnds (h.overhear (quiet_anyBuffer c) rfl) (some window) started now a

/-! ### What a frame does -/

/-- What the session is about to do is what the protocol says comes next. -/
def Does (a : Session) : Action → Talk → Bool → Prop
  | .applyUpdate _, k, b => k.errand = .applying ∧ Head a { k with errand := .none } b
  | .none, k, b => Head a k b
  | .extension needs, k, b => Settled a k b ∧ ∀ need ∈ needs, ∀ kd ∈ Allows.needKinds need, k.core.permitted kd = true
  | _, k, b => Settled a k b

variable {agent base} {a : Session}

omit [Serde] in
/-- A frame that says nothing of an update leaves nothing to be done about one. -/
theorem Talk.hear_quiet {m : Message} (hnews : m.news k.core.joinRef = none) :
    k.hear m = { k with core := k.core.hear m, errand := .none } := by
  simp [Talk.hear, Message.garbled, Message.offer, hnews]

omit [Serde] in
theorem Talk.noticed_hear (k : Talk) (m : Message) : (k.hear m).noticed = k.noticed := by
  simp only [Talk.noticed, Talk.hear]
  by_cases hlost : (k.standing = .waiting && m.accepts k.core.joinRef && m.garbled k.core.joinRef) = true
  · rw [if_pos hlost]
    simp only [Bool.and_eq_true, decide_eq_true_eq] at hlost
    rw [hlost.1.1]
  · rw [if_neg hlost]

omit [Serde] in
theorem Settled.hears {m : Message} (hset : Settled a k b) (hnews : m.news k.core.joinRef = none)
    (hjoined : (k.core.hear m).joined = true → k.core.joined = true) : Settled a (k.hear m) b := by
  rw [Talk.hear_quiet hnews]
  exact ⟨⟨rfl, hset.1.standing, hset.1.extensions, hset.1.console, hset.1.noticed⟩,
    fun hf => hset.2 ⟨hf.1, hjoined hf.2⟩⟩

omit [Serde] in
theorem Message.news_elsewhere {m : Message} (hm : m.onDevice = false) (ref : Option String) : m.news ref = none := by
  simp [Message.news, hm]

omit [Serde] in
/-- A need arises only from an extension that is attached. -/
theorem Core.permitted_of_onEvent (c : Core) (ev : String) :
    ∀ need ∈ c.extensions.onEvent ev, ∀ kd ∈ Allows.needKinds need, c.permitted kd = true := by
  intro need hneed kd hkd
  unfold Extensions.onEvent at hneed
  split at hneed
  · rename_i hgeo
    rw [List.mem_singleton.mp hneed] at hkd
    rcases List.mem_cons.mp hkd with rfl | hkd
    · exact (Bool.and_eq_true _ _ ▸ hgeo).2
    · rw [List.mem_singleton.mp hkd]
      rfl
  split at hneed
  · rename_i hhealth
    have hatt := (Bool.and_eq_true _ _ ▸ hhealth).2
    rw [List.mem_singleton.mp hneed] at hkd
    rcases List.mem_cons.mp hkd with rfl | hkd
    · exact hatt
    · rw [List.mem_singleton.mp hkd]
      exact hatt
  · cases hneed

theorem goes_extensionFrame {m : Message} (hset : Settled a k b) (htopic : m.topic = extensionsTopic) :
    Spec (Is agent base (k.hear m) k.core b) (Link.handleExtensionFrame agent m)
      (Ends (fun action => At agent base (Does a action)) (At agent base Over) (At agent base Anywhere)) := by
  have hdevice : m.onDevice = false := by simp [Message.onDevice, htopic]
  have hheard : (k.hear m).core = k.core.hear m := rfl
  have hset' : Settled a (k.hear m) b := by
    refine hset.hears (Message.news_elsewhere hdevice _) ?_
    unfold Core.hear
    rw [if_pos htopic]
    split <;> exact id
  -- Where the link does not change, neither does the protocol's core.
  have hsame : m.answersExtensions k.core.extensionsJoinRef = false → ∀ s, Is agent base (k.hear m) k.core b s →
      At agent base (Settled a) s := by
    intro hno s hs
    have hcore : (k.hear m).core = k.core := by
      rw [hheard, Core.hear, if_pos htopic, hno]
      rfl
    exact ⟨_, b, ⟨hs.reads, hs.core.trans hcore.symm, hs.joined⟩, hset'⟩
  refine Is.link fun l hl => Spec.ite (fun hreply => Spec.ite (fun href => ?_) fun href => ?_) fun hreply => ?_
  · have hsent : k.core.extensionsJoinRef = m.reference := (congrArg Core.extensionsJoinRef hl).symm.trans href
    have hyes : m.answersExtensions k.core.extensionsJoinRef = true := by
      simp [Message.answersExtensions, htopic, hreply, hsent]
    have hcore : (k.hear m).core =
        { k.core with extensions := { k.core.extensions with joined := true, attached := m.listed } } := by
      rw [hheard, Core.hear, if_pos htopic, if_pos hyes]
    refine Spec.bind (R := fun confirmations s => (∀ ev payload, .send ev payload ∈ confirmations →
      extensionKind ev = .extension) ∧ At agent base (Settled a) s) (fun s hs => ?_) fun confirmations => ?_
    · refine ⟨fun ev payload hmem => ?_, _, b, ⟨hs.reads, ?_, hs.joined⟩, hset'⟩
      · obtain ⟨key, -, heq⟩ := List.mem_map.mp hmem
        cases heq
        exact extensionKind_attached key
      · rw [hcore, ← hs.core]
        rfl
    · rintro s ⟨hconf, hs⟩
      refine Spec.bind (Goes.settled (a := a) fun c => ?_) (fun _ => Spec.ret fun s hs => ?_) s hs
      · exact (quiet_admits c).sendExtension _ fun ev payload hmem => by rw [hconf ev payload hmem]; rfl
      · exact hs.mono fun _ _ h => h.1
  · refine Spec.ret fun s hs => (hsame ?_ s hs).mono fun _ _ h => h.1
    have hsent : k.core.extensionsJoinRef ≠ m.reference := fun h => href ((congrArg Core.extensionsJoinRef hl).trans h)
    simp [Message.answersExtensions, htopic, hreply, hsent]
  · have hno : m.answersExtensions k.core.extensionsJoinRef = false := by simp [Message.answersExtensions, hreply]
    have hneeds := Core.permitted_of_onEvent k.core m.event
    have hext : l.extensions = k.core.extensions := congrArg Core.extensions hl
    rw [← hext] at hneeds
    have hcore : (k.hear m).core = k.core := by
      rw [hheard, Core.hear, if_pos htopic, hno]
      rfl
    split
    · exact Spec.ret fun s hs => (hsame hno s hs).mono fun _ _ h => h.1
    · rename_i outgoing heq
      refine Spec.ret fun s hs => ⟨_, b, ⟨hs.reads, hs.core.trans hcore.symm, hs.joined⟩, hset', ?_⟩
      rw [hcore]
      exact hneeds

/-- A frame of the terminal or of the socket itself does not concern the protocol. -/
theorem goes_otherFrame {m : Message} (hset : Settled a k b) (htopic : m.topic = consoleTopic ∨ m.topic = controlTopic)
    {n : Run σ Action} (hn : ∀ c, Keeps (Quiet c) n)
    (hret : Returns (fun action => ∀ k b, Settled a k b → Does a action k b) n) :
    Spec (Is agent base (k.hear m) k.core b) n
      (Ends (fun action => At agent base (Does a action)) (At agent base Over) (At agent base Anywhere)) := by
  have hdevice : m.onDevice = false := by rcases htopic with h | h <;> simp [Message.onDevice, h]
  have hsame : k.core.hear m = k.core := by
    have hne : m.topic ≠ extensionsTopic := by rcases htopic with h | h <;> rw [h] <;> decide
    rw [Core.hear, if_neg hne, hdevice]
    rfl
  have hset' : Settled a (k.hear m) b :=
    hset.hears (Message.news_elsewhere hdevice _) fun h => (congrArg Core.joined hsame).symm.trans h
  refine Spec.pre (Spec.mono (Spec.returns (Goes.settled (a := a) hn) hret) (fun action s hs => ?_) (fun _ h => h)
    fun _ h => h) fun s hs => ⟨_, b, ⟨hs.reads, hs.core.trans hsame.symm, hs.joined⟩, hset'⟩
  exact hs.1.mono fun k b h => hs.2 k b h

theorem goes_consoleFrame {m : Message} (hset : Settled a k b) (htopic : m.topic = consoleTopic) :
    Spec (Is agent base (k.hear m) k.core b) (Link.handleConsoleFrame agent m)
      (Ends (fun action => At agent base (Does a action)) (At agent base Over) (At agent base Anywhere)) := by
  refine goes_otherFrame hset (Or.inl htopic) (fun c => (quiet_admits c).handleConsoleFrame rfl m) ?_
  have hnone : ∀ k b, Settled a k b → Does a .none k b := fun _ _ h => h.1
  refine Returns.bind fun l => Returns.ite ?_ (Returns.ite ?_ (Returns.ite (Returns.pure fun _ _ h => h) ?_))
  · exact Returns.ite (Returns.bind fun _ => Returns.pure hnone) (Returns.pure hnone)
  · split
    · exact Returns.pure fun _ _ h => h
    · exact Returns.pure hnone
  · exact Returns.ite (Returns.bind fun _ => Returns.pure hnone) (Returns.pure hnone)

theorem goes_controlFrame {m : Message} (hset : Settled a k b) (htopic : m.topic = controlTopic) :
    Spec (Is agent base (k.hear m) k.core b) (Link.handleControlFrame m)
      (Ends (fun action => At agent base (Does a action)) (At agent base Over) (At agent base Anywhere)) := by
  refine goes_otherFrame hset (Or.inr htopic) (fun c => ?_) (Returns.bind fun _ => Returns.pure fun _ _ h => h.1)
  exact (quiet_admits c).handleControlFrame (quiet_anyBeat c) m

/-! ### Updates -/

omit [Serde] in
theorem Envelope.kind_of_isClosing {m : Envelope} (hm : m.isClosing = true) :
    m.kind = .status ∨ m.kind = .rebooting ∨ m.kind = .progress := by
  unfold Envelope.isClosing at hm
  split at hm
  · exact Or.inl ‹_›
  · exact Or.inr (Or.inl ‹_›)
  · exact Or.inr (Or.inr ‹_›)
  · cases hm

/-- Whether the frame goes out decides whether the session goes on, and nothing else. -/
theorem goes_closing {m : Envelope} (hm : m.isClosing = true) :
    Goes agent base (Link.write agent m) (Head a) (fun _ => Head a) := by
  have hkind : ∀ c : Core, c.permitted m.kind = true := by
    intro c
    rcases Envelope.kind_of_isClosing hm with h | h | h <;> rw [h] <;> rfl
  refine At.spec fun k b hhead => ?_
  have haside : ∀ r, Talk.Step k (.sent m r) k := fun r => .aside hhead.isOpen (.kind (hkind k.core))
  by_cases hfresh : k.Fresh
  · let k' : Except Error Unit → Talk
      | .ok _ => k
      | .error _ => { k with standing := .lost }
    have hstep : ∀ r, Talk.Step k (.sent m r) (k' r) := by
      rintro (e | u)
      · exact .lose e hfresh hhead.errand hm
      · exact haside _
    refine Spec.mono (Is.write hstep) (fun _ s hs => ⟨k, b, hs, hhead⟩) (fun s ⟨e, hs⟩ => ?_) fun _ h => h
    have hb : b = false := by
      rw [hhead.noticed, Talk.noticed, hfresh.1]
    exact ⟨_, b, hs, hb, fun hf => by cases hf.1⟩
  · exact Spec.mono (Is.writeAny haside) (fun _ s hs => ⟨k, b, hs, hhead⟩)
      (fun s hs => ⟨k, b, hs, hhead.noticed, hfresh⟩) fun _ h => h

theorem goes_sendClosing {ev : String} {payload : Value}
    (hm : ∀ joinRef reference, Envelope.isClosing ⟨joinRef, some reference, deviceTopic, ev, .value payload⟩ = true) :
    Goes agent base (Link.nextRef >>= Link.send agent ev payload) (Head a) (fun _ => Head a) := by
  refine Goes.bind (R := fun _ => Head a) (At.spec fun k b hhead => ?_) fun reference => ?_
  · exact Spec.mono Is.nextRef (fun _ s hs => ⟨k, b, hs, hhead⟩) (fun _ h => h) fun _ h => h
  · exact Goes.link fun l => Spec.pre (goes_closing (hm l.joinRef reference)) fun s hs => hs.mono fun _ _ h => h.1

theorem goes_sendStatus (status : String) (extra : Value) :
    Goes agent base (Link.sendStatus agent status extra) (Head a) (fun _ => Head a) :=
  goes_sendClosing fun _ _ => rfl

/-- What is decided about an update, where the protocol expects a decision if the update can be carried out. -/
theorem goes_decide {payload : UpdatePayload} (hhead : Head a { k with errand := .none } b)
    (herrand : k.errand = if payload.actionable.isSome then .offered payload else .none) :
    Spec (Is agent base k k.core b) (Link.decide agent payload)
      (Ends (fun action => At agent base (Does a action)) (At agent base Over) (At agent base Anywhere)) := by
  refine Spec.ite (fun hnone => ?_) fun hsome => ?_
  · have herrand : k.errand = .none := by
      rw [herrand, Option.isNone_iff_eq_none.mp hnone]
      rfl
    refine Spec.ret fun s hs => ⟨k, b, hs, ?_⟩
    obtain ⟨core, standing, errand, x, y⟩ := k
    cases herrand
    exact hhead
  · have hoffered : k.errand = .offered payload := by
      rw [herrand, if_pos (by simpa [Option.isNone_iff_eq_none, Option.isSome_iff_ne_none] using hsome)]
    refine Spec.bind (Is.call fun decision => .decide decision hoffered) fun decision => ?_
    have hno : ∀ s, Is agent base { k with errand := .none } k.core b s → At agent base (Head a) s :=
      fun s hs => ⟨_, b, hs, hhead⟩
    cases decision with
    | apply => exact Spec.ret fun s hs => ⟨_, b, hs, rfl, hhead⟩
    | ignore reason =>
      exact Spec.pre (Goes.bind (goes_sendStatus _ _) fun _ => Goes.ret fun _ _ h => h) hno
    | reschedule delayMs reason =>
      exact Spec.pre (Goes.bind (goes_sendStatus _ _) fun _ => Goes.ret fun _ _ h => h) hno

/-- What a frame says of an update is read, and then decided. -/
theorem goes_news {m : Message} {v : Value} (hset : Settled a k b) (hnews : m.news k.core.joinRef = some v)
    (hjoined : m.accepts k.core.joinRef = false → (k.core.hear m).joined = true → k.core.joined = true) :
    Spec (Is agent base (k.hear m) (k.hear m).core b)
      (ofExcept (UpdatePayload.parse v) >>= fun payload => Link.decide agent payload)
      (Ends (fun action => At agent base (Does a action)) (At agent base Over) (At agent base Anywhere)) := by
  cases hread : UpdatePayload.deserialize v with
  | error e =>
    have hparse : UpdatePayload.parse v = .error (.protocol (Serde.deText e)) := by simp [UpdatePayload.parse, hread]
    rw [hparse]
    have hgarbled : m.garbled k.core.joinRef = true := by simp [Message.garbled, hnews, hread, Except.toOption]
    refine fun s hs => ⟨_, b, hs, ?_, fun hf => ?_⟩
    · rw [hset.1.noticed, Talk.noticed_hear]
    · obtain ⟨hwaiting, hnow⟩ := hf
      simp only [Talk.hear, hgarbled, Bool.and_true, Bool.and_eq_true, decide_eq_true_eq] at hwaiting
      split at hwaiting
      · cases hwaiting
      · rename_i hnot
        have hacc : m.accepts k.core.joinRef = false := by simpa [hwaiting] using hnot
        exact hset.2 ⟨hwaiting, hjoined hacc hnow⟩
  | ok payload =>
    have hparse : UpdatePayload.parse v = .ok payload := by simp [UpdatePayload.parse, hread]
    rw [hparse]
    have hgarbled : m.garbled k.core.joinRef = false := by simp [Message.garbled, hnews, hread, Except.toOption]
    refine goes_decide ⟨rfl, ?_, hset.1.extensions, hset.1.console, ?_⟩ ?_
    · simp only [Talk.hear, hgarbled, Bool.and_false, Bool.false_eq_true, if_false]
      exact hset.1.standing
    · rw [hset.1.noticed, ← Talk.noticed_hear k m]
      rfl
    · cases hact : payload.actionable.isSome <;>
        simp [Talk.hear, Message.offer, hnews, hread, Except.toOption, Option.filter, hact]

theorem goes_reply {m : Message} (hset : Settled a k b) (hm : m.onDevice = true) (hreply : m.event = event.reply) :
    Spec (Is agent base (k.hear m) k.core b) (Link.handleReply agent m)
      (Ends (fun action => At agent base (Does a action)) (At agent base Over) (At agent base Anywhere)) := by
  have hhear : k.core.hear m = if m.accepts k.core.joinRef then { k.core with joined := true } else k.core := by
    have hne : m.topic ≠ extensionsTopic := by
      intro h
      simp [Message.onDevice, h] at hm
    rw [Core.hear, if_neg hne, hm, if_neg (by simp), if_pos hreply]
  have hnews : m.news k.core.joinRef = if m.accepts k.core.joinRef then m.replyResponse else none := by
    rw [Message.news, hm, if_neg (by simp), if_pos hreply]
  -- A reply that does not accept the join changes nothing.
  have hrefused : m.accepts k.core.joinRef = false → ∀ s, Is agent base (k.hear m) k.core b s →
      At agent base (Settled a) s := by
    intro hacc s hs
    have hsame : k.core.hear m = k.core := by rw [hhear, hacc]; rfl
    refine ⟨_, b, ⟨hs.reads, hs.core.trans hsame.symm, hs.joined⟩, hset.hears ?_ fun h => ?_⟩
    · rw [hnews, hacc]
      rfl
    · rwa [hsame] at h
  refine Is.link fun l hl => ?_
  have href : l.joinRef = k.core.joinRef := congrArg Core.joinRef hl
  rw [href]
  refine Spec.ite (fun hother => Spec.ret fun s hs => (hrefused ?_ s hs).mono fun _ _ h => h.1) fun hours => ?_
  · cases hjoin : k.core.joinRef with
    | none => simp [Message.accepts]
    | some ref =>
      rw [hjoin] at hother
      simp [Message.accepts, Message.isOkReplyTo, Ne.symm hother]
  rw [not_not] at hours
  refine Spec.ite (fun hbad => Spec.fail fun s hs => (hrefused ?_ s hs).mono fun _ _ h => h.over) fun hok => ?_
  · cases hjoin : k.core.joinRef with
    | none => simp [Message.accepts]
    | some ref =>
      rw [hjoin] at hbad
      simpa [Message.accepts] using fun _ => hbad
  have hacc : m.accepts k.core.joinRef = true := by
    cases hjoin : k.core.joinRef with
    | none => simp [Message.isOkReplyTo, ← hours, hjoin] at hok
    | some ref =>
      rw [hjoin] at hok
      simpa [Message.accepts, hm] using hok
  rw [hacc, if_pos rfl] at hhear hnews
  have hmodify : ∀ l : Link, l.core = k.core → ({ l with joined := true } : Link).core = (k.hear m).core := by
    intro l hl
    show _ = k.core.hear m
    rw [hhear, ← hl]
    rfl
  refine Spec.bind (Is.modifyLink hmodify) fun _ => ?_
  cases hresp : m.replyResponse with
  | none =>
    rw [hresp] at hnews
    refine Spec.ret fun s hs => ⟨_, b, hs, ?_⟩
    rw [Talk.hear_quiet hnews]
    exact ⟨rfl, hset.1.standing, hset.1.extensions, hset.1.console, hset.1.noticed⟩
  | some v =>
    rw [hresp] at hnews
    exact goes_news hset hnews fun h => absurd (hacc.symm.trans h) (by simp)

omit [Serde] in
theorem Core.hear_device {m : Message} (hm : m.onDevice = true) : c.hear m =
    if m.event = event.reply then if m.accepts c.joinRef then { c with joined := true } else c
    else if m.event = event.extensionsGet then { c with extensions := c.extensions.onInvitation m.payload }
    else if m.event = event.close || m.event = event.error then
      { c with joined := false, extensions := c.extensions.disconnected }
    else c := by
  have hne : m.topic ≠ extensionsTopic := by
    intro h
    simp [Message.onDevice, h] at hm
  rw [Core.hear, if_neg hne, hm, if_neg (by simp)]

theorem goes_deviceFrame {m : Message} (hset : Settled a k b) (hm : m.onDevice = true) :
    Spec (Is agent base (k.hear m) k.core b) (Link.handleDeviceFrame agent m)
      (Ends (fun action => At agent base (Does a action)) (At agent base Over) (At agent base Anywhere)) := by
  have hhear : k.core.hear m = _ := Core.hear_device hm
  refine Spec.ite (goes_reply hset hm) fun hreply => ?_
  rw [if_neg hreply] at hhear
  refine Spec.ite (fun hupdate => ?_) fun hupdate => ?_
  · have hsame : k.core.hear m = k.core := by
      rw [hhear, hupdate, if_neg (by decide), if_neg (by decide)]
    have hnews : m.news k.core.joinRef = some m.payload := by
      rw [Message.news, hm, if_neg (by simp), if_neg hreply, if_pos hupdate]
    refine Spec.pre (goes_news hset hnews fun _ h => ?_) fun s hs => ⟨hs.reads, hs.core.trans hsame.symm, hs.joined⟩
    rwa [hsame] at h
  -- The other frames say nothing of an update.
  have hnews : m.news k.core.joinRef = none := by
    rw [Message.news, hm, if_neg (by simp), if_neg hreply, if_neg hupdate]
  have hsame : m.event ≠ event.extensionsGet → m.event ≠ event.close → m.event ≠ event.error → ∀ s,
      Is agent base (k.hear m) k.core b s → At agent base (Settled a) s := by
    intro hget hclose herror s hs
    have hsame : k.core.hear m = k.core := by simp [hhear, hget, hclose, herror]
    refine ⟨_, b, ⟨hs.reads, hs.core.trans hsame.symm, hs.joined⟩, hset.hears hnews fun h => ?_⟩
    rwa [hsame] at h
  refine Spec.ite (fun hreboot => Spec.ret (hsame ?_ ?_ ?_)) fun _ => ?_
  iterate 3 rw [hreboot]; decide
  refine Spec.ite (fun hidentify => Spec.ret (hsame ?_ ?_ ?_)) fun _ => ?_
  iterate 3 rw [hidentify]; decide
  refine Spec.ite (fun hget => ?_) fun hget => ?_
  · have hmodify : ∀ l : Link, l.core = k.core →
        ({ l with extensions := l.extensions.onInvitation m.payload } : Link).core = (k.hear m).core := by
      intro l hl
      show _ = k.core.hear m
      rw [hhear, if_pos hget, ← hl]
      rfl
    refine Spec.bind (Is.modifyLink hmodify) fun _ => Spec.ret fun s hs => ⟨_, b, hs, (hset.hears hnews fun h => ?_).1⟩
    rwa [hhear, if_pos hget] at h
  rw [if_neg hget] at hhear
  refine Spec.ite (fun hclose => ?_) fun hclose => ?_
  · have hmodify : ∀ l : Link, l.core = k.core →
        ({ l with joined := false, extensions := l.extensions.disconnected } : Link).core = (k.hear m).core := by
      intro l hl
      show _ = k.core.hear m
      rw [hhear, if_pos hclose, ← hl]
      rfl
    refine Spec.bind (Is.modifyLink hmodify) fun _ => Spec.ret fun s hs => ⟨_, b, hs, hset.hears hnews fun h => ?_⟩
    rw [hhear, if_pos hclose] at h
    cases h
  · simp only [Bool.or_eq_true, decide_eq_true_eq, not_or] at hclose
    exact Spec.ret fun s hs => (hsame hget hclose.1 hclose.2 s hs).mono fun _ _ h => h.1

theorem goes_handleMessage {m : Message} (hset : Settled a k b) :
    Spec (Is agent base (k.hear m) k.core b) (Link.handleMessage agent m)
      (Ends (fun action => At agent base (Does a action)) (At agent base Over) (At agent base Anywhere)) := by
  refine Spec.ite (goes_extensionFrame hset) fun hext => Spec.ite (goes_consoleFrame hset) fun hcon => ?_
  refine Spec.ite (goes_controlFrame hset) fun hcontrol => goes_deviceFrame hset ?_
  simp [Message.onDevice, hext, hcon, hcontrol]

/-! ### What is done about it -/

/-- Where a session goes on, and where it ends. -/
def Leaves : Turn Session (Option Stopped) → Talk → Bool → Prop
  | .next a => Head a
  | .done none => Over
  | .done (some _) => Anywhere

variable [Sha256]

/-- A download begins where the protocol says, and is of no concern to it from then on. -/
theorem goes_download (update : UpdatePayload) (herrand : k.errand = .applying)
    (hhead : Head a { k with errand := .none } b) :
    Spec (Is agent base k k.core b) (agent.download update)
      (Post (fun _ => At agent base (Head a)) (At agent base (Head a))) := by
  have hback : ∀ s, Is agent base { k with errand := .none } k.core b s → At agent base (Head a) s :=
    fun s hs => ⟨_, b, hs, hhead⟩
  refine Spec.bind (R := fun _ => Is agent base { k with errand := .started } k.core b) ?_ fun _ => ?_
  · refine Spec.mono (Is.tryCall fun r => .download r herrand) (fun _ _ h => h) (fun s ⟨e, hs⟩ => hback s hs) fun _ h => h
  refine Spec.bind (R := fun _ => At agent base (Head a)) ?_ fun _ => ?_
  · refine Spec.mono (Is.tryCall (k := { k with errand := .started }) fun r => .begin r rfl) (fun _ s hs => hback s hs)
      (fun s ⟨e, hs⟩ => hback s hs) fun _ h => h
  refine Goes.stays (fun _ _ h => h.isOpen) fun k b _ => ?_
  have h := quiet_allows agent k.core
  refine Keeps.bind h.steps (h.nowMs rfl) fun now => Keeps.bind h.steps (fun s => h.pump s _) fun _ => ?_
  exact Keeps.bind h.steps (h.install (by simp [Allows.imageKinds, Allows.pumpKinds, Core.permitted]) rfl update _)
    fun _ => Keeps.pure h.steps _

theorem goes_fetch (update : UpdatePayload) :
    Goes agent base (agent.fetch update) (Does a (.applyUpdate update)) (fun _ => Head a) := by
  refine At.spec fun k b ⟨herrand, hhead⟩ => ?_
  have hset : ∀ (k : Talk) c uuid, Spec (Is agent base k c b) (Link.setDownloading uuid)
      (Ends (fun _ => Is agent base k c b) (At agent base Over) (At agent base Anywhere)) :=
    fun k c uuid => Is.modifyLink fun l hl => hl
  refine Spec.bind (R := fun _ => Is agent base k k.core b) (Spec.when (fun _ => hset k _ _) fun _ _ h => h) fun _ => ?_
  have hdownload : Spec (Is agent base k k.core b) (attempt (agent.download update))
      (Ends (fun _ => At agent base (Head a)) (At agent base Over) (At agent base Anywhere)) := by
    refine Spec.mono (Spec.attempt (goes_download update herrand hhead)) (fun r s hs => ?_) (fun _ h => h)
      fun s hs => hs.mono fun _ _ _ => trivial
    cases r <;> exact hs
  refine Spec.bind hdownload fun outcome => Spec.bind (R := fun _ => At agent base (Head a)) ?_ fun _ =>
    Spec.ret fun _ h => h
  rintro s ⟨k, b, hs, hhead⟩
  exact ⟨k, b, ⟨hs.reads, hs.core, hs.joined⟩, hhead⟩

theorem goes_apply (update : UpdatePayload) : Goes agent base (agent.apply update) (Does a (.applyUpdate update))
    (fun rebooting => if rebooting then Anywhere else Head a) := by
  refine Goes.bind (goes_fetch update) fun outcome => ?_
  cases outcome with
  | ok u =>
    refine Goes.bind (R := fun _ => Head a) ?_ fun _ => ?_
    · refine Goes.bind (R := fun _ => Head a) (goes_sendClosing fun _ _ => ?_) fun _ => ?_
      · rfl
      exact Goes.bind (goes_sendStatus _ _) fun _ => goes_sendClosing fun _ _ => rfl
    refine At.spec fun k b hhead => Spec.bind (Is.call fun _ => .aside hhead.isOpen (.kind rfl)) fun _ => ?_
    refine Spec.bind (Is.call fun _ => .aside hhead.isOpen (.kind rfl)) fun _ => ?_
    exact Spec.ret fun s hs => ⟨k, b, hs, trivial⟩
  | error err => exact Goes.bind (goes_sendStatus _ _) fun _ => Goes.ret fun _ _ h => h

omit [Sha256] in
/-- A part of what a settled session does about a frame, after which it goes on. -/
theorem goes_on {n : Run σ Unit} {a' : Session} (ha : Head a' = Head a) (hn : ∀ c, Keeps (Quiet c) n) :
    Goes agent base (n >>= fun _ => pure (.next a')) (Settled a) Leaves := by
  refine Goes.bind (Goes.settled hn) fun _ => Goes.ret fun k b h => ?_
  show Head a' k b
  rw [ha]
  exact h.1

theorem goes_perform (action : Action) : Goes agent base (perform agent a action) (Does a action) Leaves := by
  cases action with
  | extension needs =>
    refine Goes.bind (R := fun _ => Settled a) ?_ fun _ => Goes.ret fun _ _ h => h.1
    refine Spec.mono (Goes.quiet (fun _ _ h => h.1.isOpen) (fun _ _ h => h.1.over) fun k b h => ?_)
      (fun _ s hs => hs.mono fun _ _ h => h.1) (fun _ h => h) fun _ h => h
    exact (quiet_allows agent k.core).answerExtension needs h.2
  | none => exact Goes.ret fun _ _ h => h
  | applyUpdate update =>
    refine Goes.bind (goes_apply update) fun rebooting => ?_
    cases rebooting
    · refine At.spec fun k b hhead => Spec.bind (Is.call fun _ => .aside hhead.isOpen (.kind rfl)) fun now => ?_
      exact Spec.ret fun s hs => ⟨k, b, hs, hhead⟩
    · exact Goes.ret fun _ _ h => h
  | reboot =>
    refine Goes.bind (Goes.settled fun c => (quiet_admits c).sendRebooting rfl) fun _ => ?_
    refine Goes.bind (Goes.settled fun c => (quiet_admits c).restart rfl) fun _ => ?_
    exact Goes.ret fun _ _ _ => trivial
  | identify =>
    unfold perform
    cases agent.identify with
    | none => exact Goes.ret fun _ _ h => h.1
    | some identify =>
      exact goes_on rfl fun c => (quiet_admits c).callOne fun _ => rfl
  | console data =>
    refine Goes.bind (Goes.settled fun c => (quiet_allows agent c).answerConsole ?_ data) fun rebooting => ?_
    · simp [Hosts.consoleKinds, Core.permitted]
    · exact Goes.ite (fun _ => Goes.ret fun _ _ _ => trivial) fun _ => Goes.ret fun _ _ h => h.1
  | consoleRestart =>
    refine Goes.bind (Goes.settled fun c => ?_) fun _ => goes_on rfl fun c => (quiet_admits c).sendConsole rfl _
    have h := quiet_admits (σ := σ) c
    exact Keeps.when h.steps fun _ => fun s => h.reader rfl s _
  | reconnect => exact Goes.ret fun _ _ h => h.over

/-- A frame is heard where the session is settled, and its message is acted upon at once. -/
theorem goes_listen (a : Session) : Goes agent base (listen agent a) (Settled a) Leaves := by
  refine At.spec fun k b hset => ?_
  let k' : Except Error (Option Frame) → Talk := fun r =>
    match Talk.heard r with
    | some m => k.hear m
    | none => k
  have hstep : ∀ r, Talk.Step k (.received r) (k' r) := by
    intro r
    show Talk.Step k (.received r) (match Talk.heard r with
      | some m => k.hear m
      | none => k)
    split
    · exact .hear hset.isOpen hset.2 ‹_›
    · exact .nothing hset.isOpen hset.2 ‹_›
  refine Spec.bind (Spec.attempt (Is.tryCall hstep)) fun r => ?_
  rcases r with e | _ | frame
  · rintro s ⟨e', hs⟩
    exact ⟨k, b, hs, hset.over⟩
  · exact Spec.ret fun s hs => ⟨k, b, hs, hset.1⟩
  have hhandle : Spec (Is agent base (k' (.ok (some frame))) k.core b) (Link.handle agent frame)
      (Ends (fun action => At agent base (Does a action)) (At agent base Over) (At agent base Anywhere)) := by
    unfold Link.handle
    cases hdecode : Message.decodeFrame frame with
    | ok m =>
      have hheard : k' (.ok (some frame)) = k.hear m := by simp [k', Talk.heard, hdecode, Except.toOption]
      rw [hheard]
      exact goes_handleMessage hset
    | error text =>
      have hheard : k' (.ok (some frame)) = k := by simp [k', Talk.heard, hdecode, Except.toOption]
      rw [hheard]
      exact Spec.fail fun s hs => ⟨k, b, hs, hset.over⟩
  refine Spec.bind (Spec.attempt hhandle) fun r => ?_
  cases r with
  | ok action => exact goes_perform action
  | error e => exact Goes.ret fun _ _ h => h

theorem goes_turn (window : Option SessionWindow) (control : Option (σ → Control × σ)) (started : Nat) (a : Session) :
    Goes agent base (turn agent window control started a) (Head a) Leaves := by
  refine Goes.bind (goes_attend agent base a) fun r => ?_
  obtain ⟨now, a⟩ := r
  refine Goes.bind (goes_askControl agent base a control) fun leave => ?_
  refine Goes.ite (fun _ => Goes.ret fun _ _ _ => trivial) fun _ => ?_
  refine Goes.bind (goes_windowEnds agent base a window started now) fun ends => ?_
  exact Goes.ite (fun _ => Goes.ret fun _ _ _ => trivial) fun _ => goes_listen a

/-! ### A whole session -/

variable (agent base)

def Outset.Holds (s : World σ) : Prop := s.trace = base.trace ∧ s.own.joined = base.joined

omit [Sha256] in
theorem goes_openSession : Spec base.Holds (openSession agent)
    (Ends (fun r => At agent base (Head r.2)) (At agent base Over) (At agent base Anywhere)) := by
  let k := Talk.start agent.config.extensions
  refine Spec.bind (R := fun _ => Is agent base k k.core false) (fun s hs => ?_) fun _ => ?_
  · refine ⟨?_, ?_, hs.2.trans (Bool.or_false _).symm⟩
    · rw [show (modifyLink _ s).2.trace = base.trace from hs.1]
      exact .start
    · simp only [modifyLink, modifyOwn_apply]
      split <;> rfl
  refine Spec.bind (Is.call fun pending => .report pending rfl) fun pending => ?_
  refine Spec.bind (Is.call fun reverted => .reverted reverted rfl) fun reverted => ?_
  refine Spec.bind (R := fun _ => At agent base (Settled ⟨false, false, false, false, 0, 0, none, false⟩)) ?_ fun _ => ?_
  · refine Spec.bind Is.nextRef fun reference => ?_
    let k' : Talk := { k with standing := .waiting, core := { k.core with joinRef := some reference, joined := false } }
    have hmodify : ∀ l : Link, l.core = k.core →
        ({ l with joinRef := some reference, joined := false } : Link).core = k'.core := by
      intro l hl
      simp only [k', ← hl]
      rfl
    have hset : Settled ⟨false, false, false, false, 0, 0, none, false⟩ k' false :=
      ⟨⟨rfl, rfl, rfl, rfl, rfl⟩, fun hf => by cases hf.2⟩
    refine Spec.bind (Is.modifyLink hmodify) fun _ => Is.link fun l hl => Is.link fun l hl => ?_
    have hsend : ∀ {m : Envelope}, m.kind = .deviceJoin → m.reference = some reference →
        Spec (Is agent base k k'.core false) (Link.write agent m)
          (Ends (fun _ => Is agent base k' k'.core false) (Is agent base k' k'.core false) (At agent base Anywhere)) := by
      intro m hm href
      refine Is.writeAny fun r => ?_
      have hjoin := Talk.Step.join (k := k) r rfl hm
      rwa [href] at hjoin
    exact Spec.mono (hsend rfl rfl) (fun _ s hs => ⟨k', false, hs, hset⟩)
      (fun s hs => ⟨k', false, hs, hset.over⟩) fun _ h => h
  have hclock : Goes agent base (nowMs agent) (Settled ⟨false, false, false, false, 0, 0, none, false⟩)
      (fun _ => Settled ⟨false, false, false, false, 0, 0, none, false⟩) :=
    Goes.settled fun c => (quiet_admits c).nowMs rfl
  refine Goes.bind hclock fun lastLog => Goes.bind hclock fun lastHeartbeat => Goes.bind hclock fun started => ?_
  exact Goes.ret fun _ _ h => h.1

/-- The record of a session is read by the protocol, the link is where the protocol is, and the flag says whether
    the join was accepted when the connection is what ended the session. -/
theorem session_reads (window : Option SessionWindow) (control : Option (σ → Control × σ)) :
    Spec base.Holds (sessionWithin agent window control)
      (Ends (fun stopped => At agent base (if stopped.isNone then Over else Anywhere)) (At agent base Over)
        (At agent base Anywhere)) := by
  refine Spec.bind (goes_openSession agent base) fun r => ?_
  obtain ⟨started, a⟩ := r
  refine loop_spec (I := fun a => At agent base (Head a)) ?_ ?_ (fun a => ?_) a
  · rintro a s g ⟨k, b, hs, hhead⟩
    exact ⟨k, b, ⟨hs.reads, hs.core, hs.joined⟩, hhead⟩
  · exact fun a s hs => hs.mono fun _ _ _ => trivial
  · have hturn : Goes agent base (turn agent window control started a) (Head a) Leaves := goes_turn window control started a
    refine Spec.mono hturn (fun d s hs => ?_) (fun _ h => h) fun _ h => h
    rcases d with a' | _ | stopped <;> exact hs

/-- However a session ends, and wherever it is cut. -/
theorem session_at (window : Option SessionWindow) (control : Option (σ → Control × σ)) (s : World σ) :
    At agent ⟨s.trace, s.own.joined⟩ Anywhere (sessionWithin agent window control s).2 := by
  have h := session_reads agent ⟨s.trace, s.own.joined⟩ window control s ⟨rfl, rfl⟩
  rcases ho : (sessionWithin agent window control s).1 with stopped | e | _ <;> rw [ho] at h
  · exact At.mono h fun _ _ _ => trivial
  · exact At.mono h fun _ _ _ => trivial
  · exact h

end

end NervesHub
