import NervesHubLink.Record
import NervesHubLink.Theorems.Apply
import NervesHubLink.Theorems.Session

/-! The order of a session: the join comes first, nothing is confirmed before it is accepted, and nothing is
done twice. -/

namespace NervesHub
open Act Prog Machine Trace

section
variable [Serde]

/-! ### What the machine's state says of the record -/

def Talk.accepted (k : Talk) : Bool :=
  match k.standing with
  | .opening => false
  | .waiting => k.core.joined
  | _ => true

/-- The events that led to what is being done about an update. -/
def Errand.Shown : Errand → List Event → Prop
  | .none, _ => True
  | .offered update, t => ∃ r m older, t = .received r :: older ∧ Talk.heard r = some m ∧
      m.offer (sessionJoinRef older) = some update
  | .applying, t => ∃ update r m older, t = .decided update .apply :: .received r :: older ∧ Talk.heard r = some m ∧
      m.offer (sessionJoinRef older) = some update
  | .started, t => ∃ update r m older, t = .httpStarted (.ok ()) :: .decided update .apply :: .received r :: older ∧
      Talk.heard r = some m ∧ m.offer (sessionJoinRef older) = some update

structure Tells (k : Talk) (t : List Event) : Prop where
  ref : sessionJoinRef t = k.core.joinRef
  accepted : joinAccepted t = k.accepted
  asked : ∀ pending, k.standing = .asked pending → ∃ older, t = .pendingVerify pending :: older
  marked : k.standing = .marked → ∃ older, t = .markedValid (.ok ()) :: .pendingVerify true :: older
  confirmed : k.standing = .confirmed → imageConfirmed t = true
  busy : k.errand ≠ .none → k.standing = .waiting ∨ k.standing = .confirmed
  errand : k.errand.Shown t

theorem Tells.start (enabled : Enabled) {base : List Event} (href : sessionJoinRef base = none)
    (hacc : joinAccepted base = false) : Tells (Talk.start enabled) base where
  ref := href
  accepted := hacc
  asked _ h := by cases h
  marked h := by cases h
  confirmed h := by cases h
  busy h := absurd rfl h
  errand := trivial

variable {k k' : Talk} {t : List Event} {e : Event}

/-- An event of the order itself, by which nothing is decided and nothing heard. -/
theorem Tells.keep (h : Tells k t) (hopen : k.Open) (he : e.kind.isPlain = true) : Tells k (e :: t) where
  ref := (sessionJoinRef_cons (Event.not_plain he rfl) (Event.not_plain he rfl)).trans h.ref
  accepted := (joinAccepted_cons (Event.not_plain he rfl) (Event.not_plain he rfl)).trans h.accepted
  asked p hp := by rcases hopen.2 with hst | hst <;> rw [hst] at hp <;> cases hp
  marked hm := by rcases hopen.2 with hst | hst <;> rw [hst] at hm <;> cases hm
  confirmed hc := imageConfirmed_of_older (Event.not_plain he rfl) (h.confirmed hc)
  busy := h.busy
  errand := by rw [hopen.1]; trivial

omit [Serde] in
/-- With the join not yet accepted, it is exactly if the message accepts it. -/
theorem Core.joined_hear {c : Core} {m : Message} (hc : c.joined = false) :
    (c.hear m).joined = m.accepts c.joinRef := by
  cases hdevice : m.onDevice with
  | false =>
    have hacc : m.accepts c.joinRef = false := by simp [Message.accepts, hdevice]
    rw [hacc, Core.hear, hdevice]
    split
    · split <;> exact hc
    · exact hc
  | true =>
    rw [Core.hear_device hdevice]
    by_cases hreply : m.event = event.reply
    · rw [if_pos hreply]
      cases m.accepts c.joinRef
      · exact hc
      · rfl
    · have hacc : m.accepts c.joinRef = false := by
        cases c.joinRef <;> simp [Message.accepts, Message.isOkReplyTo, hreply]
      rw [hacc, if_neg hreply]
      split
      · exact hc
      split
      · rfl
      · exact hc

omit [Serde] in
@[simp] theorem Core.joinRef_hear (c : Core) (m : Message) : (c.hear m).joinRef = c.joinRef := by
  unfold Core.hear
  repeat' split
  all_goals rfl

theorem Tells.idle (h : Tells k t) (hw : k.standing ≠ .waiting) (hc : k.standing ≠ .confirmed) : k.errand = .none := by
  by_contra hne
  rcases h.busy hne with hst | hst
  · exact hw hst
  · exact hc hst

omit [Serde] in
/-- Only an acceptance that cannot be read takes the session further. -/
theorem Talk.standing_hear (k : Talk) (m : Message) : (k.hear m).standing = k.standing ∨
    (k.standing = .waiting ∧ m.accepts k.core.joinRef = true ∧ m.garbled k.core.joinRef = true ∧
      (k.hear m).standing = .lost) := by
  simp only [Talk.hear]
  split
  · rename_i hlost
    simp only [Bool.and_eq_true, decide_eq_true_eq] at hlost
    exact Or.inr ⟨hlost.1.1, hlost.1.2, hlost.2, rfl⟩
  · exact Or.inl rfl

omit [Serde] in
theorem Message.offer_of_garbled {m : Message} {ref : Option String} (h : m.garbled ref = true) : m.offer ref = none := by
  unfold Message.garbled at h
  unfold Message.offer
  cases hnews : m.news ref with
  | none => rfl
  | some v =>
    rw [hnews, Option.any_some, Option.isNone_iff_eq_none] at h
    rw [Option.bind_some, h]
    rfl

theorem Tells.hear (h : Tells k t) {r : Except Error (Option Frame)} {m : Message} (hopen : k.Open) (hfresh : ¬k.Fresh)
    (hm : Talk.heard r = some m) : Tells (k.hear m) (.received r :: t) where
  ref := h.ref.trans (Core.joinRef_hear _ _).symm
  accepted := by
    have hnow : joinAccepted (.received r :: t) = (m.accepts k.core.joinRef || k.accepted) := by
      simp [joinAccepted, hm, h.ref, h.accepted]
    rw [hnow]
    rcases hopen.2 with hst | hst
    · have hjoined : k.core.joined = false := Bool.eq_false_iff.mpr fun hj => hfresh ⟨hst, hj⟩
      have hacc : k.accepted = false := by simp [Talk.accepted, hst, hjoined]
      have hheard : (k.hear m).core.joined = m.accepts k.core.joinRef := Core.joined_hear hjoined
      rcases Talk.standing_hear k m with hst' | ⟨-, hacc', -, hst'⟩
      · simp [Talk.accepted, hst', hst, hheard, hjoined]
      · simp [Talk.accepted, hst', hacc']
    · have hst' : (k.hear m).standing = .confirmed := by simp [Talk.hear, hst]
      simp [Talk.accepted, hst', hst]
  asked p hp := by
    rcases Talk.standing_hear k m with hst' | ⟨-, -, -, hst'⟩ <;> rw [hst'] at hp
    · rcases hopen.2 with hst | hst <;> rw [hst] at hp <;> cases hp
    · cases hp
  marked hp := by
    rcases Talk.standing_hear k m with hst' | ⟨-, -, -, hst'⟩ <;> rw [hst'] at hp
    · rcases hopen.2 with hst | hst <;> rw [hst] at hp <;> cases hp
    · cases hp
  confirmed hp := by
    rcases Talk.standing_hear k m with hst' | ⟨-, -, -, hst'⟩ <;> rw [hst'] at hp
    · exact h.confirmed hp
    · cases hp
  busy hne := by
    rcases Talk.standing_hear k m with hst' | ⟨-, -, hgarbled, hst'⟩
    · rw [hst']
      exact hopen.2
    · refine absurd ?_ hne
      simp [Talk.hear, Message.offer_of_garbled hgarbled]
  errand := by
    have herrand : (k.hear m).errand = ((m.offer k.core.joinRef).map Errand.offered).getD .none := rfl
    rw [herrand]
    cases hoffer : m.offer k.core.joinRef with
    | none => trivial
    | some update => exact ⟨r, m, t, rfl, hm, by rw [h.ref]; exact hoffer⟩

theorem Tells.goes_on (ht : Tells k t) (standing : Standing) (e : Event) (hidle : k.errand = .none)
    (he : e.kind ≠ .connected) (href : sessionJoinRef (e :: t) = sessionJoinRef t) (hacc : k.accepted = true)
    (hasked : ∀ pending, standing = .asked pending → e = .pendingVerify pending)
    (hmarked : standing = .marked → e = .markedValid (.ok ()) ∧ k.standing = .asked true)
    (hconfirmed : standing = .confirmed → imageConfirmed (e :: t) = true)
    (hst : standing ≠ .opening ∧ standing ≠ .waiting) : Tells { k with standing := standing } (e :: t) where
  ref := href.trans ht.ref
  accepted := by
    rw [joinAccepted_of_older he (ht.accepted.trans hacc)]
    cases standing <;> first | rfl | exact absurd rfl hst.1 | exact absurd rfl hst.2
  asked p hp := ⟨t, by rw [hasked p hp]⟩
  marked hm := by
    obtain ⟨rfl, hask⟩ := hmarked hm
    obtain ⟨older, rfl⟩ := ht.asked true hask
    exact ⟨older, rfl⟩
  confirmed := hconfirmed
  busy hne := absurd hidle hne
  errand := by
    show k.errand.Shown (e :: t)
    rw [hidle]
    trivial

theorem Tells.of_join (h : Tells k t) (hopen : k.Open) {m : Envelope} {r : Except Error Unit}
    (hdevice : m.kind ≠ .deviceJoin)
    (hval : m.kind ≠ .connected) (href : k'.core.joinRef = k.core.joinRef) (hacc : k'.accepted = k.accepted)
    (hrest : (k'.standing, k'.errand) = (k.standing, k.errand)) : Tells k' (.sent m r :: t) := by
  obtain ⟨hst, herrand⟩ := Prod.mk.inj hrest
  refine ⟨?_, h.accepted.trans hacc.symm, ?_, ?_, fun hc => ?_, ?_, ?_⟩
  · rw [href]
    exact (if_neg hdevice).trans h.ref
  · rcases hopen.2 with hopen | hopen <;> simp [hst, hopen]
  · rcases hopen.2 with hopen | hopen <;> simp [hst, hopen]
  · exact imageConfirmed_of_older (e := .sent m r) hval (h.confirmed (hst ▸ hc))
  · rw [hst, herrand]
    exact h.busy
  · rw [herrand, hopen.1]
    trivial

theorem Tells.of_errand {errand : Errand} (h : Tells k t) (hbusy : k.standing = .waiting ∨ k.standing = .confirmed)
    (href : sessionJoinRef (e :: t) = sessionJoinRef t) (hacc : joinAccepted (e :: t) = joinAccepted t)
    (hconf : imageConfirmed (e :: t) = imageConfirmed t) (hshown : errand.Shown (e :: t)) :
    Tells { k with errand := errand } (e :: t) where
  ref := href.trans h.ref
  accepted := hacc.trans h.accepted
  asked p hp := by rcases hbusy with hst | hst <;> rw [show k.standing = .asked p from hp] at hst <;> cases hst
  marked hp := by rcases hbusy with hst | hst <;> rw [show k.standing = .marked from hp] at hst <;> cases hst
  confirmed hc := hconf.trans (h.confirmed hc)
  busy _ := hbusy
  errand := hshown

theorem Tells.step (h : Tells k t) (hs : Talk.Step k e k') : Tells k' (e :: t) := by
  cases hs with
  | report pending ho =>
    have hidle := h.idle (by simp [ho]) (by simp [ho])
    exact ⟨h.ref, h.accepted, by simp [ho], by simp [ho], by simp [ho], h.busy, by rw [hidle]; trivial⟩
  | reverted detected ho =>
    have hidle := h.idle (by simp [ho]) (by simp [ho])
    exact ⟨h.ref, h.accepted, by simp [ho], by simp [ho], by simp [ho], h.busy, by rw [hidle]; trivial⟩
  | join r ho hm =>
    have hidle := h.idle (by simp [ho]) (by simp [ho])
    have hacc : k.accepted = false := by simp [Talk.accepted, ho]
    refine ⟨if_pos hm, h.accepted.trans hacc, by simp, by simp, by simp, by simp [hidle], ?_⟩
    show k.errand.Shown _
    rw [hidle]
    trivial
  | ask pending hfresh hopen =>
    have hacc : k.accepted = true := by simp [Talk.accepted, hfresh.1, hfresh.2]
    exact h.goes_on (.asked pending) (.pendingVerify pending) hopen.1 (by simp [Event.kind]) rfl hacc (by simp) (by simp)
      (by simp) (by simp)
  | mark r hst =>
    have hidle := h.idle (by simp [hst]) (by simp [hst])
    have hacc : k.accepted = true := by simp [Talk.accepted, hst]
    rcases r with e | _
    · exact h.goes_on .failed (.markedValid (.error e)) hidle (by simp [Event.kind]) rfl hacc
        (by simp) (by simp) (by simp) (by simp)
    · exact h.goes_on .marked (.markedValid (.ok ())) hidle (by simp [Event.kind]) rfl hacc
        (by simp) (fun _ => ⟨rfl, hst⟩) (by simp) (by simp)
  | @validate m r hst hm =>
    have hidle := h.idle (by rcases hst with hst | hst <;> simp [hst]) (by rcases hst with hst | hst <;> simp [hst])
    have hacc : k.accepted = true := by rcases hst with hst | hst <;> simp [Talk.accepted, hst]
    have href : sessionJoinRef (.sent m r :: t) = sessionJoinRef t := if_neg (by rw [hm]; decide)
    have hkind : (Event.sent m r).kind ≠ .connected := by
      show m.kind ≠ _
      rw [hm]
      decide
    rcases r with e | _
    · exact h.goes_on .failed (.sent m (.error e)) hidle hkind href hacc (by simp) (by simp) (by simp) (by simp)
    · refine h.goes_on .confirmed (.sent m (.ok ())) hidle hkind href hacc (by simp) (by simp) (fun _ => ?_) (by simp)
      have hset : settledImage t = true := by
        rcases hst with hst | hst
        · obtain ⟨older, rfl⟩ := h.asked false hst
          rfl
        · obtain ⟨older, rfl⟩ := h.marked hst
          rfl
      simp [imageConfirmed, hm, hset, h.accepted, hacc]
  | @joinExtensions m r hopen hfresh hj hx hm hp =>
    exact h.of_join hopen (by rw [hm]; decide) (by rw [hm]; decide) rfl rfl rfl
  | @joinConsole m r hopen hfresh hj hx hm =>
    exact h.of_join hopen (by rw [hm]; decide) (by rw [hm]; decide) rfl rfl rfl
  | hear hopen hfresh hm => exact h.hear hopen hfresh hm
  | nothing hopen hfresh hm =>
    refine ⟨h.ref, ?_, ?_, ?_, h.confirmed, h.busy, by rw [hopen.1]; trivial⟩
    · simp [joinAccepted, hm, h.accepted]
    · rcases hopen.2 with hst | hst <;> simp [hst]
    · rcases hopen.2 with hst | hst <;> simp [hst]
  | @decide update decision he =>
    have hbusy := h.busy (by simp [he])
    have herrand := h.errand
    rw [he] at herrand
    obtain ⟨r, m, older, rfl, hm, hoffer⟩ := herrand
    refine h.of_errand hbusy rfl rfl rfl ?_
    by_cases happly : decision = .apply
    · subst happly
      exact ⟨update, r, m, older, rfl, hm, hoffer⟩
    · rw [if_neg happly]
      trivial
  | download r he =>
    have hbusy := h.busy (by simp [he])
    have herrand := h.errand
    rw [he] at herrand
    obtain ⟨update, r', m, older, rfl, hm, hoffer⟩ := herrand
    refine h.of_errand hbusy rfl rfl rfl ?_
    rcases r with e | _
    · trivial
    · exact ⟨update, r', m, older, rfl, hm, hoffer⟩
  | begin r he => exact h.of_errand (h.busy (by simp [he])) rfl rfl rfl trivial
  | @lose m e hfresh he hm =>
    have hacc : k.accepted = true := by simp [Talk.accepted, hfresh.1, hfresh.2]
    have hkind : m.kind ≠ .deviceJoin ∧ m.kind ≠ .connected := by
      rcases Envelope.kind_of_isClosing hm with hk | hk | hk <;> rw [hk] <;> decide
    exact h.goes_on .lost (.sent m (.error e)) he hkind.2 (if_neg hkind.1) hacc (by simp) (by simp) (by simp) (by simp)
  | aside hopen hperm => exact h.keep hopen hperm.isPlain

variable {enabled : Enabled} {base : List Event}

theorem tells_of_reads (h : Reads Talk.Step (Talk.start enabled) base k t) (href : sessionJoinRef base = none)
    (hacc : joinAccepted base = false) : Tells k t :=
  h.always (Tells.start enabled href hacc) fun hI hs => hI.step hs

/-! ### At most once -/

/-- What a session does only once its join was accepted. -/
def acceptedKinds : List Kind := [.markedValid, .validated, .extensionsJoin, .consoleJoin]

/-- How often it may have been done, where the session stands. -/
def Talk.had (k : Talk) : Kind → Nat
  | .deviceJoin => if k.standing = .opening then 0 else 1
  | .markedValid => if k.standing = .marked ∨ k.standing = .failed ∨ k.standing = .confirmed then 1 else 0
  | .validated => if k.standing = .failed ∨ k.standing = .confirmed then 1 else 0
  | .extensionsJoin => k.extensionsJoined.toNat
  | .consoleJoin => k.consoleJoined.toNat
  | _ => 0

omit [Serde] in
theorem Talk.had_le_one (k : Talk) (kd : Kind) : k.had kd ≤ 1 := by
  unfold Talk.had
  split
  any_goals split <;> simp
  · cases k.extensionsJoined <;> simp
  · cases k.consoleJoined <;> simp
  · simp

omit [Serde] in
/-- What has been done stays done where the session stood still, or was waiting. -/
theorem Talk.had_mono (hst : k'.standing = k.standing ∨ k.standing = .waiting ∧ k'.standing ≠ .opening)
    (hx : k'.extensionsJoined = k.extensionsJoined) (hc : k'.consoleJoined = k.consoleJoined) (kd : Kind) :
    k.had kd ≤ k'.had kd := by
  rcases hst with hst | ⟨hwaiting, hst⟩
  · simp [Talk.had, hst, hx, hc]
  · unfold Talk.had
    split <;> simp [hwaiting, hst, hx, hc]

/-- An event counts for what it does, and what has been done counts once. -/
theorem Talk.Step.had (hs : Talk.Step k e k') {kd : Kind} (hkd : kd ∈ .deviceJoin :: acceptedKinds) :
    k.had kd + (if e.kind = kd then 1 else 0) ≤ k'.had kd := by
  have other : ∀ kd', e.kind = kd' → kd' ∉ .deviceJoin :: acceptedKinds →
      (k'.standing = k.standing ∨ k.standing = .waiting ∧ k'.standing ≠ .opening) →
      k'.extensionsJoined = k.extensionsJoined → k'.consoleJoined = k.consoleJoined →
      k.had kd + (if e.kind = kd then 1 else 0) ≤ k'.had kd := by
    rintro kd' rfl hne hst hx hc
    have hother : e.kind ≠ kd := by
      rintro rfl
      exact hne hkd
    rw [if_neg hother]
    exact Talk.had_mono hst hx hc kd
  have hcases : kd = .deviceJoin ∨ kd = .markedValid ∨ kd = .validated ∨ kd = .extensionsJoin ∨ kd = .consoleJoin := by
    simpa [acceptedKinds] using hkd
  cases hs with
  | report pending ho => exact other .pendingVerify rfl (by decide) (Or.inl rfl) rfl rfl
  | reverted detected ho => exact other .autoRevert rfl (by decide) (Or.inl rfl) rfl rfl
  | join r ho hm =>
    rcases hcases with rfl | rfl | rfl | rfl | rfl <;> simp [Event.kind, hm, Talk.had, ho]
  | ask pending hfresh hopen => exact other .pendingVerify rfl (by decide) (Or.inr ⟨hfresh.1, by simp⟩) rfl rfl
  | mark r hst =>
    rcases r with e | _ <;> rcases hcases with rfl | rfl | rfl | rfl | rfl <;>
      simp [Event.kind, Talk.had, hst, Except.isOk, Except.toBool]
  | validate r hst hm =>
    rcases r with e | _ <;> rcases hst with hst | hst <;> rcases hcases with rfl | rfl | rfl | rfl | rfl <;>
      simp [Event.kind, hm, Talk.had, hst, Except.isOk, Except.toBool]
  | joinExtensions r hopen hfresh hj hx hm hp =>
    rcases hcases with rfl | rfl | rfl | rfl | rfl
    case inr.inr.inr.inl => simp [Event.kind, hm, Talk.had, Talk.withExtensions, hx]
    all_goals
      simp only [Event.kind, hm, reduceCtorEq, if_false, Nat.add_zero]
      exact Nat.le_refl _
  | joinConsole r hopen hfresh hj hx hm =>
    rcases hcases with rfl | rfl | rfl | rfl | rfl
    case inr.inr.inr.inr => simp [Event.kind, hm, Talk.had, Talk.withConsole, hx]
    all_goals
      simp only [Event.kind, hm, reduceCtorEq, if_false, Nat.add_zero]
      exact Nat.le_refl _
  | @hear r m hopen hfresh hm =>
    refine other .received rfl (by decide) ?_ rfl rfl
    rcases Talk.standing_hear k m with hst | ⟨hst, -, -, hst'⟩
    · exact Or.inl hst
    · exact Or.inr ⟨hst, by simp [hst']⟩
  | nothing hopen hfresh hm => exact other .received rfl (by decide) (Or.inl rfl) rfl rfl
  | decide decision he => exact other .decided rfl (by decide) (Or.inl rfl) rfl rfl
  | download r he => exact other .httpStarted rfl (by decide) (Or.inl rfl) rfl rfl
  | begin r he => exact other .updateBegun rfl (by decide) (Or.inl rfl) rfl rfl
  | @lose m e hfresh he hm =>
    refine other m.kind rfl ?_ (Or.inr ⟨hfresh.1, by simp⟩) rfl rfl
    rcases Envelope.kind_of_isClosing hm with hk | hk | hk <;> rw [hk] <;> decide
  | aside hopen hperm =>
    have hplain := hperm.isPlain
    rcases hcases with rfl | rfl | rfl | rfl | rfl <;> rw [if_neg (Event.not_plain hplain rfl), Nat.add_zero]

/-- Where the machine must be for an event of a kind to come next. -/
def Talk.Expects (k : Talk) : Kind → Prop
  | .deviceJoin => k.standing = .opening
  | .markedValid => k.standing = .asked true
  | .validated => k.standing = .asked false ∨ k.standing = .marked
  | .extensionsJoin | .consoleJoin => k.Open ∧ ¬k.Fresh ∧ k.core.joined = true
  | .received => k.Open ∧ ¬k.Fresh
  | .httpStarted => k.errand = .applying
  | .updateBegun => k.errand = .started
  | .connected | .pause .backoff => False
  | _ => True

omit [Serde] in
theorem Talk.expects_of_plain {kd : Kind} (h : kd.isPlain = true) : k.Expects kd := by
  cases kd
  case pause why => cases why <;> trivial
  all_goals trivial

theorem Talk.Step.expects (hs : Talk.Step k e k') : k.Expects e.kind := by
  have of_kind : ∀ kd, e.kind = kd → k.Expects kd → k.Expects e.kind := fun kd he h => he ▸ h
  cases hs with
  | report pending ho => trivial
  | reverted detected ho => trivial
  | join r ho hm => exact of_kind .deviceJoin hm ho
  | ask pending hfresh hopen => trivial
  | mark r hst => exact hst
  | validate r hst hm => exact of_kind .validated hm hst
  | joinExtensions r hopen hfresh hj hx hm hp => exact of_kind .extensionsJoin hm ⟨hopen, hfresh, hj⟩
  | joinConsole r hopen hfresh hj hx hm => exact of_kind .consoleJoin hm ⟨hopen, hfresh, hj⟩
  | hear hopen hfresh hm => exact ⟨hopen, hfresh⟩
  | nothing hopen hfresh hm => exact ⟨hopen, hfresh⟩
  | decide decision he => trivial
  | download r he => exact he
  | begin r he => exact he
  | @lose m e hfresh hidle hm =>
    rcases Envelope.kind_of_isClosing hm with hk | hk | hk <;> exact of_kind _ hk trivial
  | aside hopen hperm => exact Talk.expects_of_plain hperm.isPlain

theorem Talk.Step.not_connected (hs : Talk.Step k e k') : e.kind ≠ .connected := by
  intro hc
  have hexp := hs.expects
  rw [hc] at hexp
  exact hexp

/-- Whatever needs the join to be accepted comes where it is. -/
theorem Talk.Step.accepted (hs : Talk.Step k e k') (he : e.kind ∈ acceptedKinds) : k.accepted = true := by
  have hexp := hs.expects
  have hjoined : k.Open ∧ ¬k.Fresh ∧ k.core.joined = true → k.accepted = true := by
    rintro ⟨hopen, hfresh, hj⟩
    rcases hopen.2 with hst | hst
    · exact absurd ⟨hst, hj⟩ hfresh
    · simp [Talk.accepted, hst]
  simp only [acceptedKinds, List.mem_cons, List.not_mem_nil, or_false] at he
  rcases he with he | he | he | he <;> rw [he] at hexp
  · simp [Talk.accepted, show k.standing = .asked true from hexp]
  · rcases hexp with hst | hst <;> simp [Talk.accepted, hst]
  · exact hjoined hexp
  · exact hjoined hexp

/-- While the session is opening, the join is all that it may send. -/
theorem Talk.Step.opening (hs : Talk.Step k e k') (ho : k.standing = .opening) :
    (k'.standing = .opening ∨ e.kind = .deviceJoin) ∧ ∀ m r, e = .sent m r → m.kind = .deviceJoin := by
  have shut : k.Open → (k'.standing = .opening ∨ e.kind = .deviceJoin) ∧ ∀ m r, e = .sent m r → m.kind = .deviceJoin := by
    rintro ⟨-, hst | hst⟩ <;> rw [ho] at hst <;> cases hst
  cases hs with
  | report pending _ => exact ⟨Or.inl ho, fun m r he => by cases he⟩
  | reverted detected _ => exact ⟨Or.inl ho, fun m r he => by cases he⟩
  | join r _ hm => exact ⟨Or.inr hm, fun m r he => by cases he; exact hm⟩
  | ask pending hfresh hopen => exact shut hopen
  | mark r hst => rw [ho] at hst; cases hst
  | validate r hst hm => rcases hst with hst | hst <;> rw [ho] at hst <;> cases hst
  | joinExtensions r hopen hfresh hj hx hm hp => exact shut hopen
  | joinConsole r hopen hfresh hj hx hm => exact shut hopen
  | hear hopen hfresh hm => exact shut hopen
  | nothing hopen hfresh hm => exact shut hopen
  | decide decision he => exact ⟨Or.inl ho, fun m r he => by cases he⟩
  | download r he => exact ⟨Or.inl ho, fun m r he => by cases he⟩
  | begin r he => exact ⟨Or.inl ho, fun m r he => by cases he⟩
  | lose e hfresh hidle hm =>
    have hst := hfresh.1
    rw [ho] at hst
    cases hst
  | aside hopen hperm => exact shut hopen

/-! ### The order of a session -/

/-- What a session does, in which order. -/
structure SessionOrder (t : List Event) : Prop where
  once : ∀ kd ∈ .deviceJoin :: acceptedKinds, AtMostOnce (fun e => e.kind == kd) t
  accepted : OnlyAfter (fun e => e.kind ∈ acceptedKinds) (fun older => joinAccepted older = true) t
  pending : OnlyAfter (fun e => e.kind = .markedValid) (fun older => ∃ before, older = .pendingVerify true :: before) t
  joinFirst : Throughout (fun e older => ∀ m r, e = .sent m r →
    m.kind = .deviceJoin ∨ ∃ e ∈ older, e.kind = .deviceJoin) t

variable {σ : Type} [Sha256] (agent : Agent σ)

theorem session_tells (window : Option SessionWindow) (control : Option (σ → Control × σ)) (env : σ)
    (own : Device) (gas : Nat) :
    ∃ k, Reads Talk.Step (Talk.start agent.config.extensions) [] k
      (sessionWithin agent window control ⟨env, own, [], gas⟩).2.trace ∧
      k.core = (sessionWithin agent window control ⟨env, own, [], gas⟩).2.own.link.core := by
  obtain ⟨k, b, hk, -⟩ := session_at agent window control ⟨env, own, [], gas⟩
  exact ⟨k, hk.reads, hk.core.symm⟩

/-- The running image is confirmed and the other channels are joined only once the device join was accepted, each
    at most once; the image is marked only if it is pending; and the device join is what a session sends first. -/
theorem session_order (window : Option SessionWindow) (control : Option (σ → Control × σ)) (env : σ) (own : Device)
    (gas : Nat) : SessionOrder (sessionWithin agent window control ⟨env, own, [], gas⟩).2.trace := by
  obtain ⟨k, hreads, -⟩ := session_tells agent window control env own gas
  have htells : ∀ {k t}, Reads Talk.Step (Talk.start agent.config.extensions) [] k t → Tells k t :=
    fun h => tells_of_reads h rfl rfl
  refine ⟨fun kd hkd => ?_, ?_, ?_, ?_⟩
  · have hcount := hreads.always (I := fun k t => t.countP (fun e => e.kind == kd) ≤ k.had kd) (by simp) ?_
    · exact hcount.trans (k.had_le_one kd)
    · intro k t e k' hI hs
      have hstep := hs.had hkd
      rw [List.countP_cons]
      simp only [beq_iff_eq]
      omega
  · refine hreads.throughout throughout_nil fun hr hs he => ?_
    exact (htells hr).accepted.trans (hs.accepted he)
  · refine hreads.throughout throughout_nil fun hr hs he => ?_
    have hexp := hs.expects
    rw [he] at hexp
    exact (htells hr).asked true hexp
  · have hopening : ∀ {k t}, Reads Talk.Step (Talk.start agent.config.extensions) [] k t →
        k.standing = .opening ∨ ∃ e ∈ t, e.kind = .deviceJoin := fun hr => by
      refine hr.always (I := fun k t => k.standing = .opening ∨ ∃ e ∈ t, e.kind = .deviceJoin) (Or.inl rfl) ?_
      rintro k t e k' (ho | ⟨e', hmem, he'⟩) hs
      · rcases (hs.opening ho).1 with hst | he
        · exact Or.inl hst
        · exact Or.inr ⟨e, List.mem_cons_self, he⟩
      · exact Or.inr ⟨e', List.mem_cons_of_mem _ hmem, he'⟩
    refine hreads.throughout throughout_nil fun hr hs m r he => ?_
    rcases hopening hr with ho | hsent
    · exact Or.inl ((hs.opening ho).2 m r he)
    · exact Or.inr hsent

/-! ### Updates and the running image -/

/-- An update is begun only once the running image is confirmed, in a session in which no frame that came earlier
    brought one that was taken up. -/
theorem update_begun_confirmed (window : Option SessionWindow) (control : Option (σ → Control × σ)) (env : σ) (own : Device)
    (gas : Nat) (hearly : Throughout (fun e older => takenUpEarly e older = false)
      (sessionWithin agent window control ⟨env, own, [], gas⟩).2.trace) :
    OnlyAfter (fun e => e.kind = .updateBegun) (fun older => imageConfirmed older = true)
      (sessionWithin agent window control ⟨env, own, [], gas⟩).2.trace := by
  obtain ⟨k, hreads, -⟩ := session_tells agent window control env own gas
  have hboth := hreads.invariant (I := fun _ t => Throughout (fun e older => takenUpEarly e older = false) t ∧
    OnlyAfter (fun e => e.kind = .updateBegun) (fun older => imageConfirmed older = true) t) hearly
    ⟨throughout_nil, onlyAfter_nil⟩ ?_
  · exact hboth.2
  rintro k t e k' hr he ⟨hT, hO⟩ hs
  refine ⟨throughout_cons.mpr ⟨he, hT⟩, onlyAfter_cons.mpr ⟨fun hbegun => ?_, hO⟩⟩
  -- The update was offered in a frame, and what was recorded since is known.
  have hstarted : k.errand = .started := by
    have hexp := hs.expects
    rwa [hbegun] at hexp
  have hshown := (tells_of_reads hr rfl rfl).errand
  rw [hstarted] at hshown
  obtain ⟨update, r, m, older, rfl, hm, hoffer⟩ := hshown
  have hconf : imageConfirmed older = true := by
    have hnot := (throughout_cons.mp hT).1
    simpa [takenUpEarly, hm, hoffer] using hnot
  exact hconf

end

/-! ### An update in the reply to the join, and one after it -/

section
attribute [local instance] sha256OfByte

def joinReply : Script := ⟨"join reply", ⟨some "1", some "1", deviceTopic, event.reply, .obj [("status", .string "ok")]⟩⟩

def updateParams : Value :=
  .obj [("update_available", .bool true), ("firmware_url", .string "https://files.test/fw.bin"),
    ("firmware_meta", .obj [("uuid", .string "f2c1")])]

def joinReplyUpdate : Script :=
  ⟨"join reply with an update", ⟨some "1", some "1", deviceTopic, event.reply,
    .obj [("status", .string "ok"), ("response", updateParams)]⟩⟩

def updatePush : Script := ⟨"update", ⟨none, none, deviceTopic, event.update, updateParams⟩⟩

@[reducible] def updateSerde : Serde := benchSerde [joinReply, joinReplyUpdate, updatePush]

attribute [local instance] updateSerde

/-- A device on probation, to which a script is read. -/
def onProbation (script : List Script) : Bench := ⟨script.map fun m => some (.text m.text), 20, patchScript, 0, true, []⟩

theorem update_begun_confirmed_pushed :
    OnlyAfter (fun e => e.kind = .updateBegun) (fun older => imageConfirmed older = true)
      (sessionWithin (benchAgent .none) none none
        ⟨onProbation [joinReply, updatePush], benchDevice .none none, [], 9⟩).2.trace :=
  update_begun_confirmed (benchAgent .none) none none (onProbation [joinReply, updatePush]) (benchDevice .none none) 9
    (by decide +kernel)

/-- In the reply to the join, the update is begun, committed and started with the running image unconfirmed. -/
theorem update_begun_unconfirmed :
    let out := sessionWithin (benchAgent .none) none none ⟨onProbation [joinReplyUpdate], benchDevice .none none, [], 9⟩
    ¬OnlyAfter (fun e => e.kind = .updateBegun) (fun older => imageConfirmed older = true) out.2.trace ∧
      commits out.2.trace = 1 ∧ restarts out.2.trace = 1 := by
  decide +kernel

end

end NervesHub
