import NervesHubLink.Theorems.Endings
import NervesHubLink.Theorems.Grace

/-! What comes of a connection that is over. Whatever it was that ended it, a run waits and then tries to connect again. -/

namespace NervesHub
open Act Prog Trace Talk

namespace Message

/-- The message is the reply to the device join sent as `ref`, and does not accept it. -/
def refuses (m : Message) (ref : Option String) : Bool :=
  m.event == event.reply && ref == m.reference && !m.isOkReplyTo (ref.getD "")

/-- The message ends the connection: it refuses the join, says that the channel is closed or broken, or says something of an
    update that cannot be read. -/
def ends [Serde] (m : Message) (ref : Option String) : Bool :=
  m.onDevice && (m.refuses ref || m.event == event.close || m.event == event.error || m.garbled ref)

end Message

/-- An image is being fetched: what cannot be sent meanwhile ends the download, and not the connection. -/
def fetching : List Event → Bool
  | [] => false
  | .connected _ :: _ => false
  | .httpStarted _ :: _ => true
  | .image (.committed _) :: _ => false
  | .sent m _ :: older => m.kind != .status && fetching older
  | _ :: older => fetching older

/-- What a turn may do before the reading that its heartbeat goes by. -/
def prepareKinds : List Kind := Roams.confirmKinds ++ [.extensionsJoin, .consoleJoin]

section
variable [Serde]

/-- A frame that cannot be read ends the connection, too. -/
def Frame.ends (frame : Frame) (ref : Option String) : Bool :=
  match Message.decodeFrame frame with
  | .ok m => m.ends ref
  | .error _ => true

/-- The latest event ends the connection: it could not be opened, it is gone, a frame ended it, a message could not be sent,
    or the image not be marked. -/
def ended : List Event → Bool
  | .connected r :: _ => !r.isOk
  | .received (.error _) :: _ => true
  | .received (.ok (some frame)) :: older => frame.ends (sessionJoinRef older)
  | .sent m (.error e) :: older => !fetching (.sent m (.error e) :: older)
  | .markedValid (.error _) :: _ => true
  | _ => false

/-- At the latest reading, a heartbeat is due in the loop, and the one before it has had no reply. -/
def unanswered (interval : Nat) : List Event → Bool
  | .clock now :: older =>
    !downloading older && !updateOver older && (awaiting older).isSome && overdue interval now (marked loopMark older)
  | _ => false

/-- Once a connection is over there is a wait, and after each wait another attempt to connect. A heartbeat that has had no
    reply is noticed where the next one would be sent. -/
structure Resumes (interval : Nat) (e : Event) (older : List Event) : Prop where
  ended : ended older = true → e.kind = .pause .backoff
  unanswered : unanswered interval older = true → e.kind = .pause .backoff ∨ e.kind ∈ prepareKinds
  waited : ∀ last ∈ older.head?, last.kind = .pause .backoff → e.kind = .connected

/-! ### Where a connection is over -/

/-- A connection lasts, or has just ended. -/
structure Lasting (interval : Nat) (t : List Event) : Prop where
  resumes : Throughout (Resumes interval) t
  awake : ∀ last ∈ t.head?, last.kind ≠ .pause .backoff

/-- It has not ended, though a reply may be missing. -/
structure Ongoing (interval : Nat) (t : List Event) : Prop extends Lasting interval t where
  going : ended t = false

/-- And no reply is missing. -/
structure Steady (interval : Nat) (t : List Event) : Prop extends Ongoing interval t where
  answered : unanswered interval t = false

variable {interval : Nat} {e : Event} {t : List Event}

theorem Lasting.of_resumes (h : Throughout (Resumes interval) t) (hnext : Resumes interval e t)
    (he : e.kind ≠ .pause .backoff) :
    Lasting interval (e :: t) := by
  refine ⟨throughout_cons.mpr ⟨hnext, h⟩, fun last hlast => ?_⟩
  cases hlast
  exact he

theorem Ongoing.lasts (h : Ongoing interval t) (he : e.kind ∈ prepareKinds) : Lasting interval (e :: t) := by
  refine .of_resumes h.resumes ⟨fun hends => ?_, fun _ => Or.inr he, fun last hlast hwait =>
    absurd hwait (h.awake last hlast)⟩ fun hpause => ?_
  · exact absurd (h.going.symm.trans hends) Bool.false_ne_true
  · have hnone : Kind.pause .backoff ∉ prepareKinds := by decide
    exact hnone (hpause ▸ he)

theorem Steady.lasts (h : Steady interval t) (he : e.kind ≠ .pause .backoff) : Lasting interval (e :: t) := by
  refine .of_resumes h.resumes ⟨fun hends => ?_, fun hmissing => ?_, fun last hlast hwait =>
    absurd hwait (h.awake last hlast)⟩ he
  · exact absurd (h.going.symm.trans hends) Bool.false_ne_true
  · exact absurd (h.answered.symm.trans hmissing) Bool.false_ne_true

/-- The kinds of event of which each may end a connection. -/
def lineKinds : List Kind := [.connected, .received]

theorem ended_cons (he : e.kind ∉ lineKinds) (hfailure : e.failure = none) : ended (e :: t) = false := by
  cases e
  case connected r => exact absurd (by simp [Event.kind, lineKinds]) he
  case received r => exact absurd (by simp [Event.kind, lineKinds]) he
  case sent m r => cases r <;> first | rfl | cases hfailure
  case markedValid r => cases r <;> first | rfl | cases hfailure
  all_goals rfl

theorem unanswered_cons (he : e.kind ≠ .clock) : unanswered interval (e :: t) = false := by
  cases e
  case clock now => exact absurd rfl he
  all_goals rfl

theorem Ongoing.add (h : Ongoing interval t) (he : e.kind ∈ prepareKinds) (hfailure : e.failure = none) :
    Ongoing interval (e :: t) := by
  have hline : ∀ k ∈ prepareKinds, k ∉ lineKinds := by decide
  exact ⟨h.lasts he, ended_cons (hline _ he) hfailure⟩

/-- What a session does otherwise, readings apart. -/
def Kind.isDeed (k : Kind) : Prop := k ∉ lineKinds ∧ k ≠ .pause .backoff ∧ k ≠ .clock

instance (k : Kind) : Decidable k.isDeed := inferInstanceAs (Decidable (_ ∧ _ ∧ _))

theorem Steady.add (h : Steady interval t) (he : e.kind.isDeed) (hfailure : e.failure = none) : Steady interval (e :: t) :=
  ⟨⟨h.lasts he.2.1, ended_cons he.1 hfailure⟩, unanswered_cons he.2.2⟩

/-- A reading at which no reply is missing. -/
theorem Steady.read (h : Steady interval t) {now : Nat} (hnow : unanswered interval (.clock now :: t) = false) :
    Steady interval (.clock now :: t) :=
  ⟨⟨h.lasts (by simp [Event.kind]), rfl⟩, hnow⟩

/-! ### A download -/

/-- An image is being fetched, and the connection lasts whatever comes of it. -/
structure Fetching (interval : Nat) (t : List Event) : Prop extends Steady interval t where
  started : downloading t = true
  fetching : fetching t = true

/-- The kinds of event that begin or end a download, or cannot be in one. -/
def fetchedKinds : List Kind := [.connected, .received, .markedValid, .pause .backoff, .httpStarted, .status, .committed]

omit [Serde] in
theorem fetching_cons (he : e.kind ∉ fetchedKinds) (h : fetching t = true) : fetching (e :: t) = true := by
  cases e
  case connected r => exact absurd (by simp [Event.kind, fetchedKinds]) he
  case image ie =>
    cases ie
    case committed r => exact absurd (by simp [Event.kind, fetchedKinds]) he
    all_goals exact h
  case sent m r =>
    have hm : m.kind ≠ .status := fun heq => he (by simp [Event.kind, fetchedKinds, heq])
    simp [fetching, hm, h]
  case httpStarted r => rfl
  all_goals exact h

theorem Fetching.add (h : Fetching interval t) (he : e.kind ∉ fetchedKinds) : Fetching interval (e :: t) := by
  have hfetching : NervesHub.fetching (e :: t) = true := fetching_cons he h.fetching
  refine ⟨⟨⟨h.lasts (Kind.ne_of_not_mem he (by decide)), ?_⟩, ?_⟩, ?_, hfetching⟩
  · cases e
    case connected r => exact absurd (by simp [Event.kind, fetchedKinds]) he
    case received r => exact absurd (by simp [Event.kind, fetchedKinds]) he
    case markedValid r => exact absurd (by simp [Event.kind, fetchedKinds]) he
    case sent m r =>
      cases r with
      | ok u => rfl
      | error err => simp [ended, hfetching]
    all_goals rfl
  · cases e
    case clock now => simp [unanswered, h.started]
    all_goals rfl
  · rw [downloading_cons (Kind.ne_of_not_mem he (by decide)) (Kind.ne_of_not_mem he (by decide))
      (Kind.ne_of_not_mem he (by decide)), h.started]

end

section
variable {σ : Type} [Serde] {agent : Agent σ} {interval : Nat}

/-! ### A frame -/

/-- A frame is done with, with nothing done about it: the session is over. -/
def Dismisses (s : World σ) (o : Outcome Error Action) (t : World σ) : Prop :=
  t.trace = s.trace ∧ (o = .ret .reconnect ∨ ∃ err, o = .err err)

/-- What becomes of a frame, by whether it ends the connection. -/
def Deals (ends : Bool) (s : World σ) (o : Outcome Error Action) (t : World σ) : Prop :=
  if ends then Dismisses s o t else Comes NoError s o t

variable {m : Message}

omit [Serde] in
theorem Careful.deals {n : Run σ Action} (hn : Careful NoError n) {ends : Bool} (hends : ends = false) (s : World σ) :
    Deals ends s (n s).1 (n s).2 := by
  subst hends
  exact hn s

variable (agent) in
theorem news_unread {v : Value} (h : (UpdatePayload.deserialize v).toOption.isNone = true) (s : World σ) :
    ∃ err, (ofExcept (UpdatePayload.parse v) >>= fun update => Link.decide agent update) s = (.err err, s) := by
  cases hread : UpdatePayload.deserialize v with
  | ok update => simp [hread, Except.toOption] at h
  | error e =>
    have hparse : UpdatePayload.parse v = .error (.protocol (Serde.deText e)) := by simp [UpdatePayload.parse, hread]
    rw [hparse]
    exact ⟨_, rfl⟩

theorem news_read {v : Value} (h : (UpdatePayload.deserialize v).toOption.isNone = false) :
    Careful NoError (ofExcept (UpdatePayload.parse v) >>= fun update => Link.decide agent update) := by
  refine Careful.news v fun err herr => ?_
  cases hread : UpdatePayload.deserialize v with
  | ok update => simp [UpdatePayload.parse, hread] at herr
  | error e => simp [hread, Except.toOption] at h

omit [Serde] in
theorem accepts_eq (hdevice : m.onDevice = true) {ref : Option String} (href : ref = m.reference) :
    m.accepts ref = m.isOkReplyTo (ref.getD "") := by
  subst href
  cases href : m.reference with
  | none => simp [Message.accepts, Message.isOkReplyTo, href]
  | some ref => simp [Message.accepts, hdevice]

theorem handleReply_deals (hdevice : m.onDevice = true) (hreply : m.event = event.reply) (s : World σ) :
    Deals (m.ends s.own.link.joinRef) s (Link.handleReply agent m s).1 (Link.handleReply agent m s).2 := by
  have hclose : (m.event == event.close) = false := by simp [hreply, event.reply, event.close]
  have herror : (m.event == event.error) = false := by simp [hreply, event.reply, event.error]
  have hnews : m.news s.own.link.joinRef = if m.accepts s.own.link.joinRef then m.replyResponse else none := by
    rw [Message.news, hdevice, if_neg (by simp), if_pos hreply]
  unfold Link.handleReply link
  rw [gets_bind_apply]
  by_cases href : s.own.link.joinRef = m.reference
  · have haccepts := accepts_eq hdevice href
    rw [if_neg (not_not.mpr href)]
    by_cases hok : m.isOkReplyTo (s.own.link.joinRef.getD "") = true
    · rw [if_neg (by simp [hok])]
      rw [haccepts, if_pos hok] at hnews
      have hends : m.ends s.own.link.joinRef = m.garbled s.own.link.joinRef := by
        simp [Message.ends, Message.refuses, hdevice, hclose, herror, hok]
      rw [hends, Message.garbled, hnews]
      cases hresponse : m.replyResponse with
      | none => exact (Careful.bind (Careful.modifyOwn _) fun _ => Careful.pure _).deals rfl s
      | some v =>
        cases hread : (UpdatePayload.deserialize v).toOption.isNone with
        | false => exact (Careful.bind (Careful.modifyOwn _) fun _ => news_read hread).deals (by simpa using hread) s
        | true =>
          obtain ⟨err, herr⟩ := news_unread agent hread
            { s with own := { s.own with link := { s.own.link with joined := true } } }
          rw [Option.any_some, hread]
          exact ⟨congrArg (fun r => r.2.trace) herr, Or.inr ⟨err, congrArg Prod.fst herr⟩⟩
    · have hrefuses : m.refuses s.own.link.joinRef = true := by simpa [Message.refuses, hreply, href] using hok
      have hends : m.ends s.own.link.joinRef = true := by simp [Message.ends, hdevice, hrefuses]
      rw [if_pos (by simpa using hok), hends]
      exact ⟨rfl, Or.inr ⟨_, rfl⟩⟩
  · have haccepts : m.accepts s.own.link.joinRef = false := by
      cases hjoin : s.own.link.joinRef with
      | none => simp [Message.accepts]
      | some ref =>
        rw [hjoin] at href
        simp [Message.accepts, Message.isOkReplyTo, Ne.symm href]
    rw [if_pos href]
    rw [haccepts, if_neg (by simp)] at hnews
    exact (Careful.pure _).deals (by simp [Message.ends, Message.refuses, Message.garbled, hnews, hclose, herror, href]) s

theorem handleDeviceFrame_deals (hdevice : m.onDevice = true) (s : World σ) :
    Deals (m.ends s.own.link.joinRef) s (Link.handleDeviceFrame agent m s).1 (Link.handleDeviceFrame agent m s).2 := by
  unfold Link.handleDeviceFrame
  by_cases hreply : m.event = event.reply
  · rw [if_pos hreply]
    exact handleReply_deals hdevice hreply s
  have hrefuses : m.refuses s.own.link.joinRef = false := by simp [Message.refuses, hreply]
  rw [if_neg hreply]
  by_cases hupdate : m.event = event.update
  · have hnews : m.news s.own.link.joinRef = some m.payload := by
      rw [Message.news, hdevice, if_neg (by simp), if_neg hreply, if_pos hupdate]
    have hends : m.ends s.own.link.joinRef = (UpdatePayload.deserialize m.payload).toOption.isNone := by
      simp [Message.ends, hdevice, hrefuses, Message.garbled, hnews, hupdate, event.update, event.close, event.error]
    rw [if_pos hupdate, hends]
    cases hread : (UpdatePayload.deserialize m.payload).toOption.isNone with
    | false => exact (news_read hread).deals rfl s
    | true =>
      obtain ⟨err, herr⟩ := news_unread agent hread s
      exact ⟨congrArg (fun r => r.2.trace) herr, Or.inr ⟨err, congrArg Prod.fst herr⟩⟩
  have hends : m.ends s.own.link.joinRef = (m.event == event.close || m.event == event.error) := by
    simp [Message.ends, hdevice, hrefuses, Message.garbled, Message.news, hreply, hupdate]
  rw [if_neg hupdate, hends]
  have hplain : ∀ {n : Run σ Action} {ev : String}, m.event = ev → ev ≠ event.close → ev ≠ event.error → Careful NoError n →
      Deals (m.event == event.close || m.event == event.error) s (n s).1 (n s).2 := fun hev hclose herror hn =>
    hn.deals (by simp [hev, hclose, herror]) s
  split
  · exact hplain ‹_› (by decide) (by decide) (Careful.pure _)
  split
  · exact hplain ‹_› (by decide) (by decide) (Careful.pure _)
  split
  · exact hplain ‹_› (by decide) (by decide) (Careful.bind (Careful.modifyOwn _) fun _ => Careful.pure _)
  split
  · rename_i hover
    have hover : (m.event == event.close || m.event == event.error) = true := by simpa using hover
    rw [hover]
    exact ⟨rfl, Or.inl rfl⟩
  · rename_i hgoes
    exact (Careful.pure _).deals (by simpa using hgoes) s

variable (agent) in
/-- A frame that ends the connection is dismissed, and what else is done about a frame stops at a message that cannot be
    sent. -/
theorem handle_deals (frame : Frame) (s : World σ) :
    Deals (frame.ends s.own.link.joinRef) s (Link.handle agent frame s).1 (Link.handle agent frame s).2 := by
  unfold Frame.ends Link.handle
  cases Message.decodeFrame frame with
  | error text => exact ⟨rfl, Or.inr ⟨_, rfl⟩⟩
  | ok m =>
    have helsewhere : m.onDevice = false → m.ends s.own.link.joinRef = false := fun hm => by simp [Message.ends, hm]
    dsimp only
    unfold Link.handleMessage
    split
    · exact (Careful.handleExtensionFrame m).deals (helsewhere (by simp [Message.onDevice, *])) s
    split
    · exact (Careful.handleConsoleFrame m).deals (helsewhere (by simp [Message.onDevice, *])) s
    split
    · exact (Careful.handleControlFrame m).deals (helsewhere (by simp [Message.onDevice, *])) s
    · exact handleDeviceFrame_deals (by simp [Message.onDevice, *]) s

/-! ### What comes of it -/

/-- A connection lasts, in the record so far. -/
def Endures (interval : Nat) (s : World σ) : Prop := Lasting interval s.trace

def Rests (interval : Nat) (s : World σ) : Prop := Steady interval s.trace

theorem deeds_steady {α : Type} {n : Run σ α} {C : World σ → Prop} (hn : Careful NoError n)
    (hkinds : Keeps (Only Kind.isDeed) n) :
    Spec (Rests interval) n (Ends (fun _ => Rests interval) (Endures interval) C) :=
  hn.spec hkinds (fun _ _ he hfailure ht => ht.add he hfailure) (fun _ _ _ he _ ht => ht.lasts he.2.1) fun _ _ h => h.elim

/-- A frame was received, and the link has not seen it. -/
def Unseen (interval : Nat) (frame : Frame) (s : World σ) : Prop :=
  ∃ older, s.trace = .received (.ok (some frame)) :: older ∧ Steady interval older ∧
    s.own.link.joinRef = sessionJoinRef older

/-- Where nothing has failed and the connection is not to be left, it goes on. -/
def Handled (interval : Nat) (r : Except Error Action) (s : World σ) : Prop :=
  Lasting interval s.trace ∧ ∀ action, r = .ok action → action ≠ .reconnect → Steady interval s.trace

theorem handle_lasts (frame : Frame) {C : World σ → Prop} :
    Spec (Unseen interval frame) (attempt (Link.handle agent frame)) (Ends (Handled interval) (Endures interval) C) := by
  rintro s ⟨older, htrace, hsteady, href⟩
  have hlasts : Lasting interval s.trace := htrace ▸ hsteady.lasts (by simp [Event.kind])
  have hkinds : Keeps (Only (σ := σ) Kind.isDeed) (Link.handle agent frame) := by
    unfold Link.handle
    cases Message.decodeFrame frame with
    | error text => exact Keeps.throw (only_admits _).steps _
    | ok m =>
      refine (only_roams _).handleMessage (fun _ _ _ => .nothing rfl) fun k hk => ?_
      have hall : ∀ k ∈ Roams.allMessageKinds, Kind.isDeed k := by decide
      exact hall k (Roams.mem_allMessageKinds hk)
  have hdeals := handle_deals agent frame s
  rw [href] at hdeals
  unfold Act.attempt
  rcases hrun : Link.handle agent frame s with ⟨o, t⟩
  rw [hrun] at hdeals
  cases hends : frame.ends (sessionJoinRef older) with
  | true =>
    rw [hends] at hdeals
    obtain ⟨hsame, rfl | ⟨err, rfl⟩⟩ := hdeals
    · refine ⟨hsame ▸ hlasts, fun action haction hstay => ?_⟩
      cases haction
      exact absurd rfl hstay
    · exact ⟨hsame ▸ hlasts, fun action haction => by cases haction⟩
  | false =>
    rw [hends] at hdeals
    have hgoing : Steady interval s.trace := ⟨⟨hlasts, by rw [htrace]; exact hends⟩, by rw [htrace]; rfl⟩
    have hkept : Only Kind.isDeed s t := by
      have h := hkinds s
      rwa [hrun] at h
    have hdone : Ends (fun _ => Rests interval) (Endures interval) (fun _ => False) o t := by
      refine Comes.ends (J := Steady interval) (X := Lasting interval) hdeals hkept ?_ ?_ ?_ hgoing
      · exact fun _ _ he hfailure ht => ht.add he hfailure
      · exact fun _ _ _ he _ ht => ht.lasts he.2.1
      · exact fun _ _ h => h.elim
    rcases o with action | err | _
    · exact ⟨hdone.toLasting, fun _ _ _ => hdone⟩
    · exact ⟨hdone, fun action haction => by cases haction⟩
    · exact hdone.elim

section
variable [Sha256]

theorem perform_lasts (a : Session) {action : Action} (hshort : ∀ k ∈ Roams.actionKinds action, k ∈ Roams.shortKinds)
    (hne : ∀ update, action ≠ .applyUpdate update) {C : World σ → Prop} :
    Spec (Rests interval) (perform agent a action) (Ends (fun _ => Rests interval) (Endures interval) C) := by
  have hdeeds : ∀ k ∈ Roams.shortKinds, Kind.isDeed k := by decide
  exact deeds_steady (.perform a hne) ((only_roams _).performShort (fun k hk => hdeeds k (hshort k hk)) hne a)

/-- A download is over, and it has not been said yet. -/
def Fetched (interval : Nat) (s : World σ) : Prop := Steady interval s.trace ∧ downloading s.trace = true

omit [Sha256] in
theorem fetching_pumps : Pumps agent (fun s => Fetching interval s.trace) (fun s => Fetching interval s.trace)
    (fun s => Fetching interval s.trace) (fun s => Fetching interval s.trace) (Fetched interval) (Rests interval) := by
  have hkeeps : ∀ {α : Type} {n : Run σ α}, Keeps (Only (· ∉ fetchedKinds)) n →
      Spec (fun s => Fetching interval s.trace) n (Ends (fun _ s => Fetching interval s.trace)
          (fun s => Fetching interval s.trace) (Rests interval)) :=
    fun hn => (Spec.of_keeps hn fun s u hs hsu => hsu.holds (J := Fetching interval) (fun e t he ht => ht.add he) hs).mono
      (fun _ _ hs => hs)
      (fun _ hs => hs) fun _ hs => hs.toSteady
  have h : Spans agent (Only (σ := σ) (· ∉ fetchedKinds)) (· ∉ fetchedKinds) := only_spans agent (by decide)
  exact {
    gas := fun _ _ hs => hs
    gasTick := fun _ _ hs => hs
    opens := fun url => by
      simp only [imageStream, HttpCalls.recorded_openUrl]
      exact hkeeps (h.tryCallOne fun _ => by simp [Event.kind, fetchedKinds])
    waits := hkeeps (h.nowMs (by decide))
    tick := hkeeps (h.tick (by decide))
    clock := hkeeps (h.nowMs (by decide))
    sleeps := fun d => hkeeps (h.sleep (by decide) d)
    reads := by
      simp only [imageStream, HttpCalls.recorded_read]
      exact hkeeps (h.tryCallOne fun _ => by simp [Event.kind, fetchedKinds])
    writes := fun chunk => by
      simp only [imageSink, SinkCalls.recorded_write]
      exact hkeeps (h.tryCallOne fun _ => by simp [Event.kind, fetchedKinds])
    reports := fun percent => hkeeps (h.report (by decide) .downloading percent)
    commits := by
      have hcommitted : ∀ (s : World σ) (r : Except Error Unit), Fetching interval s.trace →
          Steady interval (.image (.committed r) :: s.trace) ∧ downloading (.image (.committed r) :: s.trace) =
              true := fun s r hs =>
        ⟨⟨⟨hs.lasts (by simp [Event.kind]), rfl⟩, rfl⟩, hs.started⟩
      simp only [imageSink, SinkCalls.recorded_commit]
      exact spec_tryCall (fun s env u hs => hcommitted s _ hs) fun s env e hs => hcommitted s _ hs
    aborts := fun s hs => by
      have habort : Fetching interval (.image .aborted :: s.trace) := hs.add (by simp [Event.kind, fetchedKinds])
      exact ⟨habort.toSteady, habort.started⟩
    idle := fun s hs => ⟨hs.toSteady, hs.started⟩
    fails := fun _ hs => hs
    refused := fun _ hs => hs
    cuts := fun _ hs => hs.toSteady
    cutsTick := fun _ hs => hs.toSteady }

theorem fetch_lasts (update : UpdatePayload) {E : World σ → Prop} :
    Spec (Rests interval) (agent.fetch update) (Ends (fun _ => Fetched interval) E (Rests interval)) := by
  have hstarted : ∀ (s : World σ) r, Rests interval s → Fetching interval (.httpStarted r :: s.trace) := fun s r hs =>
    ⟨hs.add (by simp [Event.kind, Kind.isDeed, lineKinds]) rfl, rfl, rfl⟩
  have hover : ∀ t, Fetching interval t → Steady interval t ∧ downloading t = true := fun t ht => ⟨ht.toSteady, ht.started⟩
  refine fetching_pumps.fetch (A := fun s => Fetching interval s.trace) (B := fun s => Fetching interval s.trace)
    (fun s uuid hs => hs)
    (fun s hs => hs) ?_ ?_ ?_ update
  · exact spec_tryCall (fun s env u hs => hstarted s _ hs) fun s env e hs => hover _ (hstarted s _ hs)
  · refine spec_tryCall (fun s env u hs => ?_) fun s env e hs => hover _ ?_
    all_goals exact Fetching.add hs (by simp [Event.kind, fetchedKinds])
  · exact spec_call fun s env now hs => Fetching.add hs (by simp [Event.kind, fetchedKinds])

theorem update_lasts (a : Session) (update : UpdatePayload) : Spec (Rests interval) (perform agent a (.applyUpdate update))
    (Ends (Turn.Post (fun _ => Rests interval) fun _ => Endures interval) (Endures interval) (Rests interval)) := by
  -- The update failed, it is said to have, and the loop's own reading comes next.
  let Told (s : World σ) : Prop := Steady interval s.trace ∧ updateOver s.trace = true
  refine Spec.bind (R := fun rebooting s => if rebooting then Endures interval s else Told s)
    (Spec.bind (fetch_lasts update) fun outcome => ?_) fun rebooting => ?_
  · cases outcome with
    | ok u =>
      have hannounce : Spec (Rests interval) (announceApplied agent)
          (Ends (fun _ => Rests interval) (Endures interval) (Rests interval)) :=
        deeds_steady .announceApplied ((only_admits _).announceApplied (by decide))
      refine Spec.bind (hannounce.pre fun s hs => hs.1) fun _ => Spec.bind (R := fun _ => Rests interval) ?_ fun _ => ?_
      · exact spec_call fun s env _ hs => Steady.add hs (by simp [Event.kind, Kind.isDeed, lineKinds]) rfl
      · exact Spec.bind (R := fun _ => Endures interval)
          (spec_call fun s env _ hs => Steady.lasts hs (by simp [Event.kind])) fun _ =>
          Spec.ret fun s hs => hs
    | error err =>
      refine Spec.bind (R := fun _ => Told) ((sendStatus_sends "failed" _).spec ?_ ?_) fun _ => Spec.ret fun s hs => hs
      · rintro s m t ⟨hsteady, hstarted⟩ hm - hsent
        have hdeed : m.kind.isDeed := by
          rw [hm]
          decide
        show Steady interval t.trace ∧ updateOver t.trace = true
        rw [hsent]
        exact ⟨hsteady.add hdeed rfl, by simp [updateOver, hm, hstarted]⟩
      · rintro s m e t ⟨hsteady, -⟩ hm - hsent
        show Lasting interval t.trace
        rw [hsent]
        exact hsteady.lasts (by simp [Event.kind, hm])
  · cases rebooting with
    | true => exact Spec.ret fun s hs => hs
    | false =>
      refine Spec.bind (R := fun _ => Rests interval) (spec_call fun s env now hs => ?_) fun now => Spec.ret fun s hs => hs
      exact hs.1.read (by simp [unanswered, hs.2])

/-- The link's join is the session's. -/
def Minding (interval : Nat) (s : World σ) : Prop := s.own.link.joinRef = sessionJoinRef s.trace ∧ Steady interval s.trace

theorem listen_lasts (a : Session) : Spec (Minding interval) (listen agent a)
    (Ends (Turn.Post (fun _ => Rests interval) fun _ => Endures interval) (Endures interval) (Rests interval)) := by
  let Received (r : Except Error (Option Frame)) (s : World σ) : Prop :=
    ∃ older, s.trace = .received r :: older ∧ Steady interval older ∧ s.own.link.joinRef = sessionJoinRef older
  refine Spec.bind (R := Received) (spec_attempt_tryCall fun s env r hs => ⟨s.trace, rfl, hs.2, hs.1⟩) fun r => ?_
  have hlasts : ∀ (s : World σ) r, Received r s → Endures interval s := by
    rintro s r ⟨older, htrace, hsteady, -⟩
    rw [Endures, htrace]
    exact hsteady.lasts (by simp [Event.kind])
  rcases r with err | _ | frame
  · exact Spec.ret fun s hs => hlasts s _ hs
  · refine Spec.ret fun s hs => ?_
    obtain ⟨older, htrace, hsteady, -⟩ := id hs
    show Steady interval s.trace
    exact ⟨⟨hlasts s _ hs, by rw [htrace]; rfl⟩, by rw [htrace]; rfl⟩
  have hshort : Returns Roams.Short (Link.handle agent frame) := by
    unfold Link.handle
    cases Message.decodeFrame frame with
    | error text => exact fun s a t hs => by cases hs
    | ok m => exact Roams.handleMessage_short m
  refine Spec.bind ((handle_lasts frame).returns hshort.attempt) fun r => ?_
  cases r with
  | error err => exact Spec.ret fun s hs => hs.1.1
  | ok action =>
    rintro s ⟨⟨hlasting, hsteady⟩, hshort⟩
    by_cases hreconnect : action = .reconnect
    · subst hreconnect
      exact hlasting
    have hrests : Rests interval s := hsteady action rfl hreconnect
    by_cases hupdate : ∃ update, action = .applyUpdate update
    · obtain ⟨update, rfl⟩ := hupdate
      exact update_lasts a update s hrests
    · refine (perform_lasts a ((hshort action rfl).resolve_left hupdate) fun update heq => hupdate ⟨update, heq⟩).mono
        (fun d s hs => ?_)
        (fun _ hs => hs) (fun _ hs => hs) s hrests
      cases d with
      | next a' => exact hs
      | done stopped => exact hs.toLasting

/-! ### A turn -/

omit [Sha256] in
theorem prepare_lasts (a : Session) {C : World σ → Prop} : Spec (fun s => Ongoing interval s.trace) (Spans.prepare agent a)
    (Ends (fun _ s => Ongoing interval s.trace) (Endures interval) C) := by
  have h : Roams (Only (σ := σ) (· ∈ prepareKinds)) (· ∈ prepareKinds) := only_roams _
  have hkinds : Keeps (Only (σ := σ) (· ∈ prepareKinds)) (Spans.prepare agent a) := by
    refine Keeps.bind h.steps (h.confirm (by decide) a) fun a =>
      Keeps.bind h.steps (h.joinExtensions (by decide) a) fun a => ?_
    refine Keeps.bind h.steps (h.joinConsole (by decide) (fun s ref => .nothing rfl) a) fun a => ?_
    exact Keeps.bind h.steps h.link fun _ => Keeps.pure h.steps _
  exact (Careful.prepare (T := NoError) a).spec hkinds (fun _ _ he hfailure ht => ht.add he hfailure)
    (fun _ _ _ he _ ht => ht.lasts he)
    fun _ _ h => h.elim

omit [Sha256] in
/-- A reply that is missing when a heartbeat is due is what ends the connection. -/
theorem check_lasts (a : Session) {C : World σ → Prop} :
    Spec (fun s => Heeding agent a s ∧ Ongoing agent.config.heartbeatMs s.trace) (Spans.check agent a)
      (Ends (fun _ => Rests agent.config.heartbeatMs) (Endures agent.config.heartbeatMs) C) := by
  let Read (now : Nat) (s : World σ) : Prop := ∃ older, s.trace = .clock now :: older ∧
    Looping agent.config.heartbeatMs a.lastHeartbeat older ∧ s.own.link.heartbeatRef = awaiting older ∧
      Ongoing agent.config.heartbeatMs older
  have hread : ∀ {now : Nat} {s : World σ}, Read now s → Lasting agent.config.heartbeatMs s.trace ∧
      unanswered agent.config.heartbeatMs s.trace =
        (s.own.link.heartbeatRef.isSome && decide (agent.config.heartbeatMs ≤ now - a.lastHeartbeat)) := by
    rintro now s ⟨older, htrace, hloop, href, hgoes⟩
    rw [htrace, href]
    exact ⟨hgoes.lasts (by simp [Event.kind, prepareKinds, Roams.confirmKinds]), by simp [unanswered, hloop.idle,
      hloop.ready, hloop.base, overdue]⟩
  have hrests : ∀ {now : Nat} {s : World σ}, Read now s → unanswered agent.config.heartbeatMs s.trace = false →
      Rests agent.config.heartbeatMs s := by
    intro now s hs hnone
    obtain ⟨older, htrace, -⟩ := id hs
    exact ⟨⟨(hread hs).1, by rw [htrace]; rfl⟩, hnone⟩
  refine Spec.bind (R := Read) (spec_call fun s env now hs => ⟨s.trace, rfl, hs.1.1, hs.1.2.1, hs.2⟩) fun now => ?_
  refine Spec.bind (R := fun _ => Rests agent.config.heartbeatMs) (Spec.ite (fun hdue => ?_) fun hearly =>
    Spec.ret fun s hs => ?_) fun a' => ?_
  · refine Spec.bind (R := fun l s => Read now s ∧ s.own.link = l) (fun s hs => ⟨hs, rfl⟩) fun l => ?_
    refine Spec.ite (fun _ => Spec.fail fun s hs => (hread hs.1).1) fun hheard => ?_
    have hbeat : Spec (Rests agent.config.heartbeatMs) (Link.sendHeartbeat agent)
        (Ends (fun _ => Rests agent.config.heartbeatMs) (Endures agent.config.heartbeatMs) C) :=
      deeds_steady .sendHeartbeat ((only_admits _).sendHeartbeat (fun _ _ => .nothing rfl) (by decide))
    refine Spec.bind (hbeat.pre fun s hs => hrests hs.1 ?_) fun _ => Spec.ret fun s hs => hs
    obtain ⟨hs, rfl⟩ := hs
    have hnone : s.own.link.heartbeatRef.isSome = false := by simpa [Link.heartbeatUnanswered] using hheard
    rw [(hread hs).2, hnone, Bool.false_and]
  · refine hrests hs ?_
    rw [(hread hs).2, decide_eq_false hearly, Bool.and_false]
  · have hlogs : Keeps (Only (σ := σ) Kind.isDeed) (pumpLogs agent now a') :=
      Keeps.bind (only_admits _).steps ((only_admits _).sendLogs (fun _ _ => .nothing rfl) (by decide) now _) fun _ =>
        Keeps.pure (only_admits _).steps _
    exact Spec.bind (deeds_steady (.pumpLogs _ _) hlogs) fun a'' => Spec.ret fun s hs => hs

/-! ### A session -/

/-- A session that goes on with `a`. -/
def Turning (agent : Agent σ) (base : Outset) (a : Session) (s : World σ) : Prop :=
  At agent base (Head a) s ∧ Heeding agent a s ∧ Rests agent.config.heartbeatMs s

section
variable {base : Outset} (href : sessionJoinRef base.trace = none) (hacc : joinAccepted base.trace = false)
include href hacc

theorem turn_lasts (started : Nat) (a : Session) : Spec (Turning agent base a) (turn agent none none started a)
    (Ends (Turn.Post (Turning agent base) fun _ => Endures agent.config.heartbeatMs) (Endures agent.config.heartbeatMs)
      (Rests agent.config.heartbeatMs)) := by
  let Checked (a : Session) (s : World σ) : Prop :=
    At agent base (Settled a) s ∧ Heeded agent a s ∧ Rests agent.config.heartbeatMs s
  refine Spans.turn_rule (M := fun _ => Checked) ?_
    (fun _ a => ⟨Spec.ret fun s hs => hs, Spec.ret fun s hs => hs⟩) fun _ a => ?_
  · have hchecks : Spec (fun s => Heeding agent a s ∧ Rests agent.config.heartbeatMs s) (attend agent a)
        (Ends (fun r s => Heeded agent r.2 s ∧ Rests agent.config.heartbeatMs s) (Endures agent.config.heartbeatMs)
          (Rests agent.config.heartbeatMs)) := by
      rw [Spans.attend_eq]
      refine Spec.bind (R := fun a s => Heeding agent a s ∧ Ongoing agent.config.heartbeatMs s.trace) ?_ fun a => ?_
      · have hprepare : Spec (fun s => Ongoing agent.config.heartbeatMs s.trace) (Spans.prepare agent a)
            (Ends (fun _ s => Ongoing agent.config.heartbeatMs s.trace) (Endures agent.config.heartbeatMs)
              (Rests agent.config.heartbeatMs)) := prepare_lasts a
        exact (((prepare_heeds a).both hprepare).pre fun s hs => ⟨hs.1, hs.2.toOngoing⟩).mono (fun _ _ hs => hs)
          (fun _ hs => hs.2)
          fun _ hs => hs.2
      · exact (((check_heeds a).both (check_lasts a)).pre fun s hs => ⟨hs.1, hs⟩).mono (fun _ _ hs => hs) (fun _ hs => hs.2)
          fun _ hs => hs.2
    exact ((goes_attend agent base a).both hchecks).mono (fun _ _ hs => hs) (fun _ hs => hs.2) fun _ hs => hs.2
  · have hlisten : Spec (Minding agent.config.heartbeatMs) (listen agent a)
        (Ends (Turn.Post (fun _ => Rests agent.config.heartbeatMs) fun _ => Endures agent.config.heartbeatMs)
          (Endures agent.config.heartbeatMs) (Rests agent.config.heartbeatMs)) := listen_lasts a
    have hgoes : Goes agent base (listen agent a) (Settled a) Leaves := goes_listen a
    refine ((hgoes.both ((listen_heeds a).both hlisten)).pre fun s hs => ⟨hs.1, hs.2.1, ?_, hs.2.2⟩).mono
      (fun d s hs => ?_) (fun _ hs => hs.2.2) fun _ hs => hs.2.2
    · obtain ⟨k, b, hk, -⟩ := hs.1
      exact (congrArg Core.joinRef hk.core).trans (tells_of_reads hk.reads href hacc).ref.symm
    · cases d with
      | next a' => exact hs
      | done stopped => exact hs.2.2

end

/-- What a connection leaves for the next. -/
def Lasted (agent : Agent σ) (s : World σ) : Prop := Lasting agent.config.heartbeatMs s.trace ∧ Quits agent s ∧ Spoken s

/-- A connection has been opened. -/
def Reached (agent : Agent σ) (s : World σ) : Prop :=
  (∃ older, s.trace = .connected (.ok ()) :: older) ∧ Lasted agent s ∧ s.own.joined = false

theorem session_lasts : Spec (Reached agent) (session agent)
    (Ends (fun _ => Lasted agent) (Lasted agent) (Rests agent.config.heartbeatMs)) := by
  rintro s ⟨⟨older, htrace⟩, ⟨hlasting, hquits, hspoken⟩, hjoined⟩
  have hbegins : SessionBegins s.trace := Or.inr ⟨_, older, htrace⟩
  have hsteady : Steady agent.config.heartbeatMs s.trace := ⟨⟨hlasting, by rw [htrace]; rfl⟩, by rw [htrace]; rfl⟩
  have hnone : sessionJoinRef s.trace = none := by rw [htrace]; rfl
  have hfresh : joinAccepted s.trace = false := by rw [htrace]; rfl
  have hsilent : awaiting s.trace = none := by rw [htrace]; rfl
  let base : Outset := ⟨s.trace, false⟩
  have hinformed : ∀ pending detected, Steady agent.config.heartbeatMs
      (.autoRevert detected :: .pendingVerify pending :: s.trace) :=
    fun pending detected => (hsteady.add (by simp [Event.kind, Kind.isDeed, lineKinds]) rfl).add
      (by simp [Event.kind, Kind.isDeed, lineKinds]) rfl
  have hopened : Spec (fun u : World σ => u.trace = s.trace) (openSession agent)
    (Ends (fun _ => Rests agent.config.heartbeatMs)
      (Endures agent.config.heartbeatMs) (Rests agent.config.heartbeatMs)) := by
    refine (openSession_opens s.trace).mono ?_ ?_ fun _ hs => hs
    · rintro r t ⟨m, pending, detected, lastLog, lastHeartbeat, hm, -, -, htrace⟩
      have hjoined : Steady agent.config.heartbeatMs (.sent m (.ok ()) :: .autoRevert detected ::
          .pendingVerify pending :: s.trace) :=
        (hinformed pending detected).add (by simp [Event.kind, hm, Kind.isDeed, lineKinds]) rfl
      rw [Rests, htrace]
      exact ((hjoined.read (by simp [unanswered, awaiting, hm, hsilent])).read
        (by simp [unanswered, awaiting, hm, hsilent])).read
        (by simp [unanswered, awaiting, hm, hsilent])
    · rintro t ⟨m, e, pending, detected, hm, htrace⟩
      rw [Endures, htrace]
      exact (hinformed pending detected).lasts (by simp [Event.kind, hm])
  have hsession : Spec (fun u : World σ => (base.Holds u ∧ SessionStart agent u) ∧ u.trace = s.trace) (session agent)
      (Ends (fun _ => Endures agent.config.heartbeatMs) (Endures agent.config.heartbeatMs)
          (Rests agent.config.heartbeatMs)) := by
    refine Spec.bind (R := fun r => Turning agent base r.2) ?_ fun r => ?_
    · exact (((goes_openSession agent base).both openSession_heeds).both hopened).mono
        (fun _ _ hs => ⟨hs.1.1, hs.1.2, hs.2⟩)
        (fun _ hs => hs.2) fun _ hs => hs.2
    · refine loop_spec (I := Turning agent base) ?_ (fun _ _ hs => hs.2.2) (fun a => turn_lasts hnone hfresh r.1 a) r.2
      rintro a u g ⟨⟨k, b, hk, hhead⟩, hheeds⟩
      exact ⟨⟨k, b, ⟨hk.reads, hk.core, hk.joined⟩, hhead⟩, hheeds⟩
  have hall := hsession.both ((session_beats agent none none).both (session_spoken none none))
  have hstart : (base.Holds s ∧ SessionStart agent s) ∧ s.trace = s.trace :=
    ⟨⟨⟨rfl, hjoined⟩, hbegins, hquits, hspoken⟩, rfl⟩
  refine (hall.mono (fun r t ht => ?_) (fun t ht => ?_) fun t ht => ht.1) s
    ⟨hstart, ⟨hbegins, hquits⟩, hbegins, hquits, hspoken⟩
  · exact ⟨ht.1, ht.2.1.1, ht.2.2⟩
  · exact ⟨ht.1, ht.2.1, ht.2.2⟩

/-! ### Runs -/

/-- In a record of the run so far, each connection that was over has been followed up. -/
def Resumed (agent : Agent σ) (s : World σ) : Prop := Throughout (Resumes agent.config.heartbeatMs) s.trace

/-- And none is over at its end. -/
def Underway (agent : Agent σ) (s : World σ) : Prop :=
  Resumed agent s ∧ ended s.trace = false ∧ unanswered agent.config.heartbeatMs s.trace = false

/-- Where the next attempt to connect is made. -/
def Waited (agent : Agent σ) (s : World σ) : Prop :=
  (s.trace = [] ∨ ∃ d older, s.trace = .slept .backoff d :: older) ∧ Resumed agent s ∧ Quits agent s ∧ Spoken s

omit [Sha256] in
theorem Waited.underway {s : World σ} (h : Waited agent s) : Underway agent s := by
  obtain ⟨hwait, hresumed, -⟩ := h
  refine ⟨hresumed, ?_⟩
  rcases hwait with hnil | ⟨d, older, htrace⟩
  · rw [hnil]
    exact ⟨rfl, rfl⟩
  · rw [htrace]
    exact ⟨rfl, rfl⟩

omit [Sha256] in
theorem Waited.connect {s : World σ} (h : Waited agent s) (env : σ) (r : Except Error Unit) :
    Lasted agent { s with env := env, trace := .connected r :: s.trace } := by
  obtain ⟨-, hgoing, hanswered⟩ := h.underway
  refine ⟨.of_resumes h.2.1 ⟨fun hends => ?_, fun hmissing => ?_, fun _ _ _ => rfl⟩ (by simp [Event.kind]), ?_, ?_⟩
  · exact absurd (hgoing.symm.trans hends) Bool.false_ne_true
  · exact absurd (hanswered.symm.trans hmissing) Bool.false_ne_true
  · exact h.2.2.1.add (by simp [Event.kind]) (by simp [Event.kind]) (by simp [Event.kind])
  · exact throughout_cons.mpr ⟨fun hbeat => by simp [Event.kind] at hbeat, h.2.2.2⟩

omit [Sha256] in
theorem Lasted.sleep {s : World σ} (h : Lasted agent s) (d : Duration) : Waited agent (sleep agent .backoff d s).2 := by
  refine ⟨Or.inr ⟨d, s.trace, rfl⟩, throughout_cons.mpr ⟨⟨fun _ => rfl, fun _ => Or.inl rfl, fun last hlast hwait => ?_⟩,
    h.1.resumes⟩, ?_, ?_⟩
  · exact absurd hwait (h.1.awake last hlast)
  · exact h.2.1.add (by simp [Event.kind]) (by simp [Event.kind]) (by simp [Event.kind])
  · exact throughout_cons.mpr ⟨beatsRead_other (by simp [Event.kind, beatKinds]), h.2.2⟩

/-- A connection and the wait after it, from the wait before it. -/
theorem connection_resumes (tries : Nat) : Spec (Waited agent) (connection agent tries)
    (Ends (Turn.Post (fun _ => Waited agent) fun _ => Resumed agent) (Resumed agent) (Underway agent)) := by
  let Tried (r : Except Error Unit) (s : World σ) : Prop := (∃ older, s.trace = .connected r :: older) ∧ Lasted agent s
  have hback : Spec (Lasted agent) (backOff agent tries)
      (Ends (Turn.Post (fun _ => Waited agent) fun _ => Resumed agent) (Resumed agent) (Underway agent)) :=
        fun s hs => hs.sleep _
  refine Spec.bind (R := Tried) (spec_attempt_tryCall fun s env r hs => ⟨⟨s.trace, rfl⟩, hs.connect env r⟩) fun r => ?_
  rcases r with err | _
  · cases err
    case identity msg => exact Spec.fail fun _ hs => hs.2.1.resumes
    all_goals exact fun s hs => hs.2.sleep _
  refine Spec.bind (R := fun _ => Reached agent) (fun s hs => ⟨hs.1, hs.2, rfl⟩) fun _ => ?_
  refine Spec.bind (R := fun _ => Lasted agent) ?_ fun r => ?_
  · have hsession : Spec (Reached agent) (session agent) (Ends (fun _ => Lasted agent) (Lasted agent) (Underway agent)) :=
      session_lasts.mono (fun _ _ hs => hs) (fun _ hs => hs) fun _ hs => ⟨hs.resumes, hs.going, hs.answered⟩
    refine hsession.attempt.mono (fun r s hs => ?_) (fun _ hs => hs) fun _ hs => hs
    cases r <;> exact hs
  rcases r with err | _ | stopped
  · cases err
    case transport text => exact hback
    all_goals exact Spec.fail fun _ hs => hs.1.resumes
  · exact hback
  · exact Spec.ret fun _ hs => hs.1.resumes

variable (agent) in
theorem run_resumes : Spec (Waited agent) (run agent) (Ends (fun _ => Resumed agent) (Resumed agent) (Underway agent)) :=
  loop_spec (I := fun _ => Waited agent) (fun _ _ _ hs => hs) (fun _ _ hs => hs.underway) connection_resumes 0

/-- A run that ends does so as it is meant to, exactly if it was not a message or an image that failed last, with an error
    other than the transport's. After whatever else ends a connection there is a wait, and another attempt to connect: a
    connection that could not be opened or is gone, a join that is refused, a channel that is closed, a frame or an update
    that cannot be read, a message that could not be sent, an image that could not be marked, and a heartbeat without a
    reply. -/
theorem run_goes_on (agent : Agent σ) (env : σ) (own : Device) (gas : Nat) :
    ((run agent ⟨env, own, [], gas⟩).1 ≠ .cut →
        (EndsAsMeant (run agent ⟨env, own, [], gas⟩).1 (run agent ⟨env, own, [], gas⟩).2.trace ↔
          ¬StruckDown (run agent ⟨env, own, [], gas⟩).2.trace)) ∧
      Throughout (Resumes agent.config.heartbeatMs) (run agent ⟨env, own, [], gas⟩).2.trace ∧
      ((run agent ⟨env, own, [], gas⟩).1 = .cut → ended (run agent ⟨env, own, [], gas⟩).2.trace = false ∧
        unanswered agent.config.heartbeatMs (run agent ⟨env, own, [], gas⟩).2.trace = false) := by
  have hresumes := run_resumes agent ⟨env, own, [], gas⟩ ⟨Or.inl rfl, throughout_nil, square_nil, throughout_nil⟩
  refine ⟨run_ends _, ?_⟩
  rcases hrun : run agent ⟨env, own, [], gas⟩ with ⟨stopped | err | _, t⟩
  all_goals rw [hrun] at hresumes
  · exact ⟨hresumes, fun hcut => by cases hcut⟩
  · exact ⟨hresumes, fun hcut => by cases hcut⟩
  · exact ⟨hresumes.1, fun _ => hresumes.2⟩

end
end

/-! ### A device that is refused at first, and one that cannot mark its image -/

section
attribute [local instance] sha256OfByte

def joinRefusal : Script :=
  ⟨"join refused", ⟨some "1", some "1", deviceTopic, event.reply, .obj [("status", .string "error")]⟩⟩

def rebootPush : Script := ⟨"reboot", ⟨none, none, deviceTopic, event.reboot, .obj []⟩⟩

@[reducible] def endingsSerde : Serde := benchSerde [joinRefusal, joinReply, rebootPush]

attribute [local instance] endingsSerde

/-- The device is on probation, and once it has joined it is told to reboot. -/
def probation : Bench := ⟨[some (.text joinReply.text), some (.text rebootPush.text)], 20, [], 0, true, []⟩

/-- Its first join is refused. -/
def refusedOnce : Bench := { probation with incoming := some (.text joinRefusal.text) :: probation.incoming }

theorem run_goes_on_refused :
    let out := run (benchAgent .none) ⟨refusedOnce, benchDevice .none none, [], 12⟩
    out.1 = .ret .rebooting ∧ (EndsAsMeant out.1 out.2.trace ↔ ¬StruckDown out.2.trace) ∧
      Throughout (Resumes 30000) out.2.trace ∧
      (out.2.trace.countP fun e => e.kind == .connected) = 2 :=
  ⟨by decide +kernel, (run_goes_on (benchAgent .none) refusedOnce (benchDevice .none none) 12).1 (by decide +kernel),
    (run_goes_on (benchAgent .none) refusedOnce (benchDevice .none none) 12).2.1, by decide +kernel⟩

/-- Its image cannot be marked. -/
def unmarkable : Agent Bench :=
  { benchAgent .none with platform := { Bench.platform with markValid := fun b =>
    (.error (.ota "could not mark app valid"), b) } }

/-- Then the run ends there. -/
theorem run_struck_down :
    (run unmarkable ⟨probation, benchDevice .none none, [], 9⟩).1 = .err (.ota "could not mark app valid") ∧
      ¬EndsAsMeant (run unmarkable ⟨probation, benchDevice .none none, [], 9⟩).1
        (run unmarkable ⟨probation, benchDevice .none none, [], 9⟩).2.trace := by
  have hout : (run unmarkable ⟨probation, benchDevice .none none, [], 9⟩).1 = .err (.ota "could not mark app valid") := by
    decide +kernel
  exact ⟨hout, not_endsAsMeant hout fun _ => Error.noConfusion⟩

end

end NervesHub
