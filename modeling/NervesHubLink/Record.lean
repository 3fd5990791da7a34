import NervesHubLink.Protocol

/-! What a record says of the session that it ends in. A session's part of the record begins where its
connection was opened. -/

namespace NervesHub

/-- The ref of the session's device join. -/
def sessionJoinRef : List Event → Option String
  | [] => none
  | .connected _ :: _ => none
  | .sent m _ :: older => if m.kind = .deviceJoin then m.reference else sessionJoinRef older
  | _ :: older => sessionJoinRef older

/-- The session's extensions join. -/
def extensionsJoin : List Event → Option Envelope
  | [] => none
  | .connected _ :: _ => none
  | .sent m _ :: older => if m.kind = .extensionsJoin then some m else extensionsJoin older
  | _ :: older => extensionsJoin older

def beforeExtensionsJoin : List Event → Option (List Event)
  | [] => none
  | .connected _ :: _ => none
  | .sent m _ :: older => if m.kind = .extensionsJoin then some older else beforeExtensionsJoin older
  | _ :: older => beforeExtensionsJoin older

def Event.now : Event → Option Nat
  | .clock now => some now
  | _ => none

/-- The readings of the clock since the session's device join was sent, the latest first. -/
def readings : List Event → List Nat
  | [] => []
  | .connected _ :: _ => []
  | .sent m _ :: older => if m.kind = .deviceJoin then [] else readings older
  | .clock now :: older => now :: readings older
  | _ :: older => readings older

/-- An update is being downloaded: what is said of it at its end has not been sent yet. -/
def downloading : List Event → Bool
  | [] => false
  | .connected _ :: _ => false
  | .httpStarted _ :: _ => true
  | .sent m _ :: older => m.kind != .status && downloading older
  | _ :: older => downloading older

/-- The reading with which the session took notice that its join was accepted. -/
def noticedAt : List Event → Option Nat
  | [] => none
  | .connected _ :: _ => none
  | .pendingVerify _ :: older => (readings older).head?
  | _ :: older => noticedAt older

def healthReported : List Event → Bool
  | [] => false
  | .connected _ :: _ => false
  | .sent m (.ok ()) :: older => decide (m.kind = .healthReport) || healthReported older
  | _ :: older => healthReported older

/-- The ref of a join that was sent. -/
def joinRefOf (join : Option Envelope) : Option String := join.bind (·.reference)

/-- What a join declares: the version of each extension. -/
def declared (join : Option Envelope) (key : String) : Option String :=
  join.bind fun m =>
    match m.payload with
    | .value v => (v.get key).bind Value.asStr
    | .batch _ => none

/-- What an invitation says the platform has, and that it says nothing any more once the channel is closed. -/
def Message.invites (m : Message) : Option (Option Fields) :=
  if !m.onDevice then none
  else if m.event = event.extensionsGet then some ((m.payload.get "extensions").bind Value.asObject)
  else if m.event = event.close || m.event = event.error then some none
  else none

/-- The version of an extension to speak with a platform that says it has `advertised`. -/
def versionFor (advertised : Option Fields) (key : String) : Option String :=
  ({ Extensions.new .none with advertised := advertised }).version key

section
variable [Serde]
open Talk

/-- The session's device join was accepted, and the reply was handled. -/
def joinAccepted : List Event → Bool
  | [] => false
  | .connected _ :: _ => false
  | .received r :: older => (heard r).any (·.accepts (sessionJoinRef older)) || joinAccepted older
  | _ :: older => joinAccepted older

/-- Nothing is pending any more: either nothing was, or the image has just been marked. -/
def settledImage : List Event → Bool
  | .pendingVerify false :: _ => true
  | .markedValid (.ok ()) :: .pendingVerify true :: _ => true
  | _ => false

/-- The session has confirmed the running image, after its join was accepted. -/
def imageConfirmed : List Event → Bool
  | [] => false
  | .connected _ :: _ => false
  | .sent m (.ok ()) :: older =>
    (decide (m.kind = .validated) && settledImage older && joinAccepted older) || imageConfirmed older
  | _ :: older => imageConfirmed older

/-- The session has taken notice that its join was accepted, and asked about its image. -/
def joinNoticed : List Event → Bool
  | [] => false
  | .connected _ :: _ => false
  | .pendingVerify _ :: older => joinAccepted older || joinNoticed older
  | _ :: older => joinNoticed older

/-- The session is about to end without taking notice that its join was accepted: what the reply says of an update
    cannot be read, or one of the messages that end an update or turn it down cannot be sent. -/
def losesJoin : Event → List Event → Bool
  | .received r, older => !joinNoticed older && (heard r).any fun m =>
      m.accepts (sessionJoinRef older) && m.garbled (sessionJoinRef older)
  | .sent m (.error _), older => m.isClosing && joinAccepted older && !joinNoticed older
  | _, _ => false

/-- The attempts to connect, the latest first: whether the join was accepted in each. -/
def attempts : List Event → List Bool
  | [] => []
  | .connected _ :: older => false :: attempts older
  | e :: older => (attempts older).modifyHead fun _ => joinAccepted (e :: older)

/-- How many of the latest attempts had no such reply, one after another. -/
def fruitless (attempts : List Bool) : Nat := (attempts.takeWhile (!·)).length

/-- The wait that is due after the latest attempt. -/
def Config.waitDue (c : Config) : List Bool → Duration
  | false :: earlier => .fromSecs (c.backoffFor (fruitless earlier))
  | _ => .fromSecs (c.backoffFor 0)

/-- What the platform has said it has, in the latest invitation. -/
def advertised : List Event → Option Fields
  | [] => none
  | .connected _ :: _ => none
  | .received r :: older => ((heard r).bind Message.invites).getD (advertised older)
  | _ :: older => advertised older

def extensionsAnswered : List Event → Bool
  | [] => false
  | .connected _ :: _ => false
  | .received r :: older =>
    (extensionsJoin older).isSome && (heard r).any (·.answersExtensions (joinRefOf (extensionsJoin older))) ||
      extensionsAnswered older
  | _ :: older => extensionsAnswered older

/-- The version of logging to speak, by the latest invitation. -/
def loggingVersion (t : List Event) : Option String := versionFor (advertised t) loggingKey

/-- A frame that is taken for the reply to the extensions join lists an extension that the join did not declare. -/
def listsUndeclared : Event → List Event → Bool
  | .received r, older => (heard r).any fun m => m.answersExtensions (joinRefOf (extensionsJoin older)) &&
      m.listed.any fun key => (declared (extensionsJoin older) key).isNone
  | _, _ => false

/-- An update that came in a frame is taken up, and when the frame came the image had not been confirmed: the
    application has decided to apply it, and now the download has been opened. -/
def takenUpEarly : Event → List Event → Bool
  | .httpStarted (.ok ()), .decided update .apply :: .received r :: before =>
    (heard r).any (fun m => m.offer (sessionJoinRef before) == some update) && !imageConfirmed before
  | _, _ => false

/-- What is left of the core once a frame has been sent. -/
def Core.send (c : Core) (m : Envelope) : Core :=
  if m.kind = .deviceJoin then { c with joinRef := m.reference, joined := false }
  else if m.kind = .extensionsJoin then { c with extensionsJoinRef := m.reference }
  else if m.kind = .consoleJoin then { c with consoleJoinRef := m.reference }
  else c

/-- The core of the session's link. -/
def coreOf (enabled : Enabled) : List Event → Core
  | [] => (Talk.start enabled).core
  | .connected _ :: _ => (Talk.start enabled).core
  | .sent m _ :: older => (coreOf enabled older).send m
  | .received r :: older => ((heard r).map (coreOf enabled older).hear).getD (coreOf enabled older)
  | _ :: older => coreOf enabled older

end

/-- The extension that an event is for. -/
def Kind.forExtension : Kind → Option String
  | .located => some geoKey
  | .healthRead | .healthReport => some healthKey
  | .took | .noted | .logging => some loggingKey
  | _ => none

/-! ### Events that the protocol does not look at -/

def Kind.isPlain : Kind → Bool
  | .deviceJoin | .extensionsJoin | .consoleJoin | .validated => false
  | .connected | .received | .pendingVerify | .autoRevert | .markedValid => false
  | .decided | .httpStarted | .updateBegun | .pause .backoff => false
  | _ => true

theorem Core.Permits.isPlain {c : Core} {e : Event} (h : c.Permits e) : e.kind.isPlain = true := by
  cases h with
  | kind h =>
    revert h
    cases e.kind <;> simp [Core.permitted, Kind.isPlain]
    case pause why => cases why <;> simp
  | line line hm => rw [show (Event.sent _ _).kind = .logging from hm]; rfl
  | batch lines hm => rw [show (Event.sent _ _).kind = .logging from hm]; rfl

theorem Event.not_plain {e : Event} (h : e.kind.isPlain = true) {kd : Kind} (hkd : kd.isPlain = false) : e.kind ≠ kd := by
  rintro rfl
  exact Bool.false_ne_true (hkd.symm.trans h)

/-! ### Events that leave what the record says as it is -/

section Frame
variable {e : Event} {t : List Event} (hconn : e.kind ≠ .connected)
include hconn

theorem sessionJoinRef_cons (h : e.kind ≠ .deviceJoin) : sessionJoinRef (e :: t) = sessionJoinRef t := by
  cases e
  case connected r => exact absurd rfl hconn
  case sent m r => exact if_neg h
  all_goals rfl

theorem extensionsJoin_cons (h : e.kind ≠ .extensionsJoin) : extensionsJoin (e :: t) = extensionsJoin t := by
  cases e
  case connected r => exact absurd rfl hconn
  case sent m r => exact if_neg h
  all_goals rfl

theorem beforeExtensionsJoin_cons (h : e.kind ≠ .extensionsJoin) :
    beforeExtensionsJoin (e :: t) = beforeExtensionsJoin t := by
  cases e
  case connected r => exact absurd rfl hconn
  case sent m r => exact if_neg h
  all_goals rfl

theorem readings_cons (h : e.kind ≠ .deviceJoin) (hclock : e.kind ≠ .clock) : readings (e :: t) = readings t := by
  cases e
  case connected r => exact absurd rfl hconn
  case clock now => exact absurd rfl hclock
  case sent m r => exact if_neg h
  all_goals rfl

/-- A join apart, an event adds at most one reading. -/
theorem readings_extend (h : e.kind ≠ .deviceJoin) : ∃ new, readings (e :: t) = new ++ readings t := by
  cases e
  case connected r => exact absurd rfl hconn
  case clock now => exact ⟨[now], rfl⟩
  case sent m r => exact ⟨[], if_neg h⟩
  all_goals exact ⟨[], rfl⟩

theorem downloading_cons (h : e.kind ≠ .httpStarted) (hstatus : e.kind ≠ .status) :
    downloading (e :: t) = downloading t := by
  cases e
  case connected r => exact absurd rfl hconn
  case httpStarted r => exact absurd rfl h
  case sent m r => simp [downloading, show m.kind ≠ .status from hstatus]
  all_goals rfl

/-- Once no update is being downloaded, none is until the next is begun. -/
theorem downloading_false (h : e.kind ≠ .httpStarted) (ht : downloading t = false) : downloading (e :: t) = false := by
  cases e
  case connected r => exact absurd rfl hconn
  case httpStarted r => exact absurd rfl h
  case sent m r => simp [downloading, ht]
  all_goals exact ht

theorem noticedAt_cons (h : e.kind ≠ .pendingVerify) : noticedAt (e :: t) = noticedAt t := by
  cases e
  case connected r => exact absurd rfl hconn
  case pendingVerify pending => exact absurd rfl h
  all_goals rfl

theorem healthReported_of_older (h : healthReported t = true) : healthReported (e :: t) = true := by
  cases e
  case connected r => exact absurd rfl hconn
  case sent m r => rcases r with e | _ <;> simp [healthReported, h]
  all_goals exact h

variable [Serde]

theorem joinAccepted_cons (h : e.kind ≠ .received) : joinAccepted (e :: t) = joinAccepted t := by
  cases e
  case connected r => exact absurd rfl hconn
  case received r => exact absurd rfl h
  all_goals rfl

theorem advertised_cons (h : e.kind ≠ .received) : advertised (e :: t) = advertised t := by
  cases e
  case connected r => exact absurd rfl hconn
  case received r => exact absurd rfl h
  all_goals rfl

theorem joinNoticed_cons (h : e.kind ≠ .pendingVerify) : joinNoticed (e :: t) = joinNoticed t := by
  cases e
  case connected r => exact absurd rfl hconn
  case pendingVerify pending => exact absurd rfl h
  all_goals rfl

theorem coreOf_cons {enabled : Enabled} (h : e.kind ≠ .received)
    (hjoin : ∀ kd ∈ [Kind.deviceJoin, .extensionsJoin, .consoleJoin], e.kind ≠ kd) :
    coreOf enabled (e :: t) = coreOf enabled t := by
  cases e
  case connected r => exact absurd rfl hconn
  case received r => exact absurd rfl h
  case sent m r =>
    show (coreOf enabled t).send m = coreOf enabled t
    have hne : ∀ kd ∈ [Kind.deviceJoin, .extensionsJoin, .consoleJoin], m.kind ≠ kd := hjoin
    rw [Core.send, if_neg (hne .deviceJoin (by decide)), if_neg (hne .extensionsJoin (by decide)),
      if_neg (hne .consoleJoin (by decide))]
  all_goals rfl

theorem attempts_cons : attempts (e :: t) = (attempts t).modifyHead fun _ => joinAccepted (e :: t) := by
  cases e
  case connected r => exact absurd rfl hconn
  all_goals rfl

/-! ### What goes on being so -/

theorem joinAccepted_of_older (h : joinAccepted t = true) : joinAccepted (e :: t) = true := by
  cases e
  case connected r => exact absurd rfl hconn
  case received r => simp [joinAccepted, h]
  all_goals exact h

theorem imageConfirmed_of_older (h : imageConfirmed t = true) : imageConfirmed (e :: t) = true := by
  cases e
  case connected r => exact absurd rfl hconn
  case sent m r => rcases r with e | _ <;> simp [imageConfirmed, h]
  all_goals exact h

end Frame

end NervesHub
