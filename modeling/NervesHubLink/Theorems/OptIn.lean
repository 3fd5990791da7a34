import Mathlib.Data.List.Nodup
import NervesHubLink.Theorems.Order

/-! The extensions: what a device declares when it joins them, what the server attaches, and what is sent. -/

namespace NervesHub
open Act Prog Machine Trace

/-! ### What a join declares -/

theorem Enabled.offered_nodup (enabled : Enabled) : enabled.offered.Nodup := by
  obtain ⟨geo, health, logging⟩ := enabled
  revert geo health logging
  decide

theorem Extensions.version_eq (x : Extensions) (key : String) : x.version key = versionFor x.advertised key := rfl

/-- A join declares the extensions that are enabled, each at the newest version both sides have. -/
theorem Extensions.declared_joinParams {x : Extensions} {m : Envelope} (hm : m.payload = .value x.joinParams)
    (key v : String) :
    declared (some m) key = some v ↔ key ∈ x.enabled.offered ∧ versionFor x.advertised key = some v := by
  let pairs := x.enabled.offered.filterMap fun key => (x.version key).map fun v => (key, Value.string v)
  have hpairs : ∀ w, (key, w) ∈ pairs ↔ key ∈ x.enabled.offered ∧ ∃ v, x.version key = some v ∧ w = .string v := by
    intro w
    simp only [pairs, List.mem_filterMap, Option.map_eq_some_iff, Prod.mk.injEq]
    constructor
    · rintro ⟨_, hmem, v, hv, rfl, rfl⟩
      exact ⟨hmem, v, hv, rfl⟩
    · rintro ⟨hmem, v, hv, rfl⟩
      exact ⟨key, hmem, v, hv, rfl, rfl⟩
  have hnodup : (pairs.map Prod.fst).Nodup := by
    rw [List.map_filterMap]
    refine List.Nodup.filterMap (fun key key' k hk hk' => ?_) x.enabled.offered_nodup
    simp only [Option.map_map, Option.mem_def, Option.map_eq_some_iff, Function.comp_apply] at hk hk'
    obtain ⟨-, -, rfl⟩ := hk
    obtain ⟨-, -, rfl⟩ := hk'
    rfl
  have hget : ∀ w, (Value.obj pairs).get key = some w ↔ (key, w) ∈ pairs := fun w => Value.get_obj hnodup
  have hdeclared : declared (some m) key = ((Value.obj pairs).get key).bind Value.asStr := by
    simp only [declared, Option.bind_some, hm]
    rfl
  rw [hdeclared, Option.bind_eq_some_iff]
  constructor
  · rintro ⟨w, hw, hstr⟩
    obtain ⟨hmem, v', hv', rfl⟩ := (hpairs w).mp ((hget w).mp hw)
    cases hstr
    exact ⟨hmem, hv'⟩
  · rintro ⟨hmem, hv⟩
    exact ⟨.string v, (hget _).mpr ((hpairs _).mpr ⟨hmem, v, hv, rfl⟩), rfl⟩

/-! ### What a message does to the extensions -/

theorem Core.hear_refs (c : Core) (m : Message) : (c.hear m).joinRef = c.joinRef ∧
    (c.hear m).extensionsJoinRef = c.extensionsJoinRef ∧ (c.hear m).consoleJoinRef = c.consoleJoinRef := by
  unfold Core.hear
  repeat' split
  all_goals exact ⟨rfl, rfl, rfl⟩

/-- The extensions' channel becomes joined, and gets attachments, through a reply that is taken for its own. -/
theorem Core.hear_attached {c : Core} {m : Message} (h : c.extensions.joined = false ∧ (c.hear m).extensions.joined = true ∨
    ∃ key ∈ (c.hear m).extensions.attached, key ∉ c.extensions.attached) :
      m.answersExtensions c.extensionsJoinRef = true := by
  revert h
  unfold Core.hear
  repeat' split
  all_goals simp_all [Extensions.onInvitation, Extensions.disconnected]

theorem Core.extensions_hear (c : Core) (m : Message) : (c.hear m).extensions.enabled = c.extensions.enabled ∧
    (c.hear m).extensionsJoinRef = c.extensionsJoinRef ∧
    (c.hear m).extensions.advertised = m.invites.getD c.extensions.advertised ∧
    ∀ key ∈ (c.hear m).extensions.attached, key ∈ c.extensions.attached ∨
      m.answersExtensions c.extensionsJoinRef = true ∧ key ∈ m.listed := by
  cases hdevice : m.onDevice with
  | false =>
    have hinvites : m.invites = none := by simp [Message.invites, hdevice]
    rw [hinvites, Core.hear, hdevice]
    split
    · split
      · exact ⟨rfl, rfl, rfl, fun key hkey => Or.inr ⟨‹_›, hkey⟩⟩
      · exact ⟨rfl, rfl, rfl, fun key hkey => Or.inl hkey⟩
    · exact ⟨rfl, rfl, rfl, fun key hkey => Or.inl hkey⟩
  | true =>
    rw [Core.hear_device hdevice, Message.invites, hdevice]
    by_cases hreply : m.event = event.reply
    · rw [if_pos hreply, hreply]
      split <;> exact ⟨rfl, rfl, rfl, fun key hkey => Or.inl hkey⟩
    rw [if_neg hreply]
    by_cases hget : m.event = event.extensionsGet
    · rw [if_pos hget, if_pos hget]
      exact ⟨rfl, rfl, rfl, fun key hkey => Or.inl hkey⟩
    rw [if_neg hget, if_neg hget]
    split
    · exact ⟨rfl, rfl, rfl, fun key hkey => by cases hkey⟩
    · exact ⟨rfl, rfl, rfl, fun key hkey => Or.inl hkey⟩

section
variable [Serde] {k k' : Talk} {t : List Event} {e : Event}

/-! ### The machine and the join -/

/-- What a step does to the extensions: a message does something, and so does the join. -/
theorem Talk.Step.extensions (hs : Talk.Step k e k') :
    (∃ r, e = .received r ∧ ((∃ m, heard r = some m ∧ k' = k.hear m) ∨ heard r = none ∧ k' = k)) ∨
    (∃ m r, e = .sent m r ∧ m.kind = .extensionsJoin ∧ m.payload = .value k.core.extensions.joinParams ∧
      k.extensionsJoined = false ∧ k' = k.withExtensions m.reference) ∨
    (e.kind ≠ .received ∧ e.kind ≠ .extensionsJoin ∧ k'.core.extensions = k.core.extensions ∧
      k'.core.extensionsJoinRef = k.core.extensionsJoinRef ∧ k'.extensionsJoined = k.extensionsJoined) := by
  have other : ∀ kd, e.kind = kd → kd ≠ .received → kd ≠ .extensionsJoin → e.kind ≠ .received ∧
      e.kind ≠ .extensionsJoin := by
    rintro kd rfl h h'
    exact ⟨h, h'⟩
  cases hs with
  | @hear r m hopen hfresh hm => exact Or.inl ⟨r, rfl, Or.inl ⟨m, hm, rfl⟩⟩
  | @nothing r hopen hfresh hm => exact Or.inl ⟨r, rfl, Or.inr ⟨hm, rfl⟩⟩
  | @joinExtensions m r hopen hfresh hj hx hm hp => exact Or.inr (Or.inl ⟨m, r, rfl, hm, hp, hx, rfl⟩)
  | report pending ho => exact Or.inr (Or.inr ⟨by simp [Event.kind], by simp [Event.kind], rfl, rfl, rfl⟩)
  | reverted detected ho => exact Or.inr (Or.inr ⟨by simp [Event.kind], by simp [Event.kind], rfl, rfl, rfl⟩)
  | ask pending hfresh hopen => exact Or.inr (Or.inr ⟨by simp [Event.kind], by simp [Event.kind], rfl, rfl, rfl⟩)
  | mark r hst => exact Or.inr (Or.inr ⟨by simp [Event.kind], by simp [Event.kind], rfl, rfl, rfl⟩)
  | decide decision he => exact Or.inr (Or.inr ⟨by simp [Event.kind], by simp [Event.kind], rfl, rfl, rfl⟩)
  | download r he => exact Or.inr (Or.inr ⟨by simp [Event.kind], by simp [Event.kind], rfl, rfl, rfl⟩)
  | begin r he => exact Or.inr (Or.inr ⟨by simp [Event.kind], by simp [Event.kind], rfl, rfl, rfl⟩)
  | join r ho hm =>
    obtain ⟨h, h'⟩ := other .deviceJoin hm (by decide) (by decide)
    exact Or.inr (Or.inr ⟨h, h', rfl, rfl, rfl⟩)
  | validate r hst hm =>
    obtain ⟨h, h'⟩ := other .validated hm (by decide) (by decide)
    exact Or.inr (Or.inr ⟨h, h', rfl, rfl, rfl⟩)
  | joinConsole r hopen hfresh hj hx hm =>
    obtain ⟨h, h'⟩ := other .consoleJoin hm (by decide) (by decide)
    exact Or.inr (Or.inr ⟨h, h', rfl, rfl, rfl⟩)
  | @lose m e hfresh hidle hm =>
    rcases Envelope.kind_of_isClosing hm with hk | hk | hk <;> obtain ⟨h, h'⟩ := other _ hk (by decide) (by decide) <;>
      exact Or.inr (Or.inr ⟨h, h', rfl, rfl, rfl⟩)
  | aside hopen hperm =>
    have hplain := hperm.isPlain
    exact Or.inr (Or.inr ⟨Event.not_plain hplain rfl, Event.not_plain hplain rfl, rfl, rfl, rfl⟩)

/-- What the session's join declared is what the record says, and so is what the machine has of it. -/
structure Declares (enabled : Enabled) (k : Talk) (t : List Event) : Prop where
  own : k.core.extensions.enabled = enabled
  invited : advertised t = k.core.extensions.advertised
  sentAs : k.core.extensionsJoinRef = joinRefOf (extensionsJoin t)
  unsent : k.extensionsJoined = false → extensionsJoin t = none
  declares : ∀ m, extensionsJoin t = some m → ∃ before, beforeExtensionsJoin t = some before ∧
    ∀ key v, declared (some m) key = some v ↔ key ∈ enabled.offered ∧ versionFor (advertised before) key = some v
  unjoined : extensionsJoin t = none → beforeExtensionsJoin t = none

theorem Declares.step {enabled : Enabled} (h : Declares enabled k t) (hs : Talk.Step k e k') :
    Declares enabled k' (e :: t) := by
  have hconn := hs.not_connected
  rcases hs.extensions with ⟨r, rfl, ⟨m, hm, rfl⟩ | ⟨hm, rfl⟩⟩ | ⟨m, r, rfl, hm, hp, hx, rfl⟩ | ⟨hr, hj, hext,
    href, hjoined⟩
  · obtain ⟨hown, hsentAs, hinvited, -⟩ := k.core.extensions_hear m
    refine ⟨hown.trans h.own, ?_, hsentAs.trans h.sentAs, h.unsent, h.declares, h.unjoined⟩
    show advertised (.received r :: t) = (k.core.hear m).extensions.advertised
    rw [hinvited, ← h.invited]
    simp [advertised, hm]
  · refine ⟨h.own, ?_, h.sentAs, h.unsent, h.declares, h.unjoined⟩
    simp [advertised, hm, h.invited]
  · have hnow : extensionsJoin (.sent m r :: t) = some m := if_pos hm
    have hbefore : beforeExtensionsJoin (.sent m r :: t) = some t := if_pos hm
    refine ⟨h.own, h.invited, by rw [hnow]; rfl, fun hf => (by cases hf), ?_, fun hno => by rw [hnow] at hno; cases hno⟩
    rw [hnow, hbefore]
    rintro _ ⟨rfl⟩
    refine ⟨t, rfl, fun key v => ?_⟩
    rw [Extensions.declared_joinParams hp, h.own, h.invited]
  · have hsame := extensionsJoin_cons (t := t) hconn hj
    have hbefore := beforeExtensionsJoin_cons (t := t) hconn hj
    refine ⟨hext ▸ h.own, ?_, ?_, ?_, ?_, ?_⟩
    · rw [advertised_cons hconn hr, hext, h.invited]
    · rw [href, hsame, h.sentAs]
    · rw [hjoined, hsame]
      exact h.unsent
    · rw [hsame, hbefore]
      exact h.declares
    · rw [hsame, hbefore]
      exact h.unjoined

/-! ### What is used is attached, and what is attached was declared -/

omit [Serde] in
theorem Extensions.isAttached_iff {x : Extensions} {key : String} : x.isAttached key = true ↔ key ∈ x.attached := by
  simp [Extensions.isAttached, List.any_eq_true]

omit [Serde] in
theorem Extensions.isAttached_of_batched {x : Extensions} (h : x.loggingBatched = true) : x.isAttached loggingKey = true :=
  (Bool.and_eq_true _ _ ▸ h : _ ∧ _).1

omit [Serde] in
theorem Core.Permits.attached {c : Core} (h : c.Permits e) {key : String} (hkey : e.kind.forExtension = some key) :
    c.extensions.isAttached key = true := by
  cases h with
  | kind h =>
    revert h hkey
    cases e.kind <;> simp [Core.permitted, Kind.forExtension]
    all_goals rintro rfl h; exact h
  | line line hm hatt =>
    rw [show (Event.sent _ _).kind = .logging from hm] at hkey
    cases hkey
    exact hatt
  | batch lines hm hbatched =>
    rw [show (Event.sent _ _).kind = .logging from hm] at hkey
    cases hkey
    exact Extensions.isAttached_of_batched hbatched

theorem Talk.Step.attached (hs : Talk.Step k e k') {key : String} (hkey : e.kind.forExtension = some key) :
    k.core.extensions.isAttached key = true := by
  have other : ∀ kd, e.kind = kd → kd.forExtension = none → k.core.extensions.isAttached key = true := by
    rintro kd rfl hnone
    rw [hnone] at hkey
    cases hkey
  cases hs with
  | aside hopen hperm => exact hperm.attached hkey
  | join r ho hm => exact other .deviceJoin hm rfl
  | validate r hst hm => exact other .validated hm rfl
  | joinExtensions r hopen hfresh hj hx hm hp => exact other .extensionsJoin hm rfl
  | joinConsole r hopen hfresh hj hx hm => exact other .consoleJoin hm rfl
  | lose e hfresh hidle hm => rcases Envelope.kind_of_isClosing hm with hk | hk | hk <;> exact other _ hk rfl
  | _ => cases hkey

/-- Every extension that is attached was declared. -/
def Attaches (k : Talk) (t : List Event) : Prop :=
  ∀ key ∈ k.core.extensions.attached, (declared (extensionsJoin t) key).isSome = true

theorem Attaches.step {enabled : Enabled} (hd : Declares enabled k t) (h : Attaches k t)
    (he : listsUndeclared e t = false) (hs : Talk.Step k e k') : Attaches k' (e :: t) := by
  rcases hs.extensions with ⟨r, rfl, ⟨m, hm, rfl⟩ | ⟨hm, rfl⟩⟩ | ⟨m, r, rfl, hm, hp, hx, rfl⟩ | ⟨hr, hj, hext,
    href, hjoined⟩
  · intro key hkey
    show (declared (extensionsJoin t) key).isSome = true
    rcases (k.core.extensions_hear m).2.2.2 key hkey with hkey | ⟨hanswers, hkey⟩
    · exact h key hkey
    · rw [hd.sentAs] at hanswers
      simp only [listsUndeclared, hm, Option.any_some, hanswers, Bool.true_and, List.any_eq_false] at he
      simpa [Option.isSome_iff_ne_none, Option.isNone_iff_eq_none] using he key hkey
  · exact h
  · -- Nothing is attached before the join.
    intro key hkey
    have hsome := h key hkey
    rw [hd.unsent hx] at hsome
    cases hsome
  · intro key hkey
    rw [extensionsJoin_cons hs.not_connected hj]
    exact h key (hext ▸ hkey)

theorem Declares.offered {enabled : Enabled} (h : Declares enabled k t) {key : String}
    (hkey : (declared (extensionsJoin t) key).isSome = true) : key ∈ enabled.offered := by
  obtain ⟨v, hv⟩ := Option.isSome_iff_exists.mp hkey
  cases hjoin : extensionsJoin t with
  | none =>
    rw [hjoin] at hv
    cases hv
  | some m =>
    rw [hjoin] at hv
    obtain ⟨before, -, hdecl⟩ := h.declares m hjoin
    exact ((hdecl key v).mp hv).1

/-- The extensions that a session attaches and uses. -/
structure OptedIn (enabled : Enabled) (link : Link) (t : List Event) : Prop where
  attached : ∀ key ∈ link.extensions.attached, key ∈ enabled.offered ∧ (declared (extensionsJoin t) key).isSome = true
  used : Throughout (fun e older => ∀ key ∈ e.kind.forExtension,
    key ∈ enabled.offered ∧ (declared (extensionsJoin older) key).isSome = true) t

theorem Declares.start (enabled : Enabled) : Declares enabled (Talk.start enabled) [] where
  own := rfl
  invited := rfl
  sentAs := rfl
  unsent _ := rfl
  declares m h := by cases h
  unjoined _ := rfl

theorem declares_of_reads {enabled : Enabled} (h : Reads Talk.Step (Talk.start enabled) [] k t) : Declares enabled k t :=
  h.always (Declares.start enabled) fun hI hs => hI.step hs

end

section
variable {σ : Type} [Serde] [Sha256] (agent : Agent σ)

/-- An extension is attached, and what is its own is read, taken and sent, only if it is enabled and was declared
    in the join, in a session in which every reply to the join lists only what was declared. -/
theorem extensions_opted_in (window : Option SessionWindow) (control : Option (σ → Control × σ)) (env : σ)
    (own : Device) (gas : Nat) (hlisted : Throughout (fun e older => listsUndeclared e older = false)
      (sessionWithin agent window control ⟨env, own, [], gas⟩).2.trace) :
    OptedIn agent.config.extensions (sessionWithin agent window control ⟨env, own, [], gas⟩).2.own.link
      (sessionWithin agent window control ⟨env, own, [], gas⟩).2.trace := by
  obtain ⟨k, hreads, hcore⟩ := session_tells agent window control env own gas
  have hinv := hreads.invariant (I := fun k t => Attaches k t ∧ Throughout (fun e older =>
    ∀ key ∈ e.kind.forExtension, key ∈ agent.config.extensions.offered ∧
      (declared (extensionsJoin older) key).isSome = true) t) hlisted ⟨fun key hkey => (by cases hkey), throughout_nil⟩ ?_
  · refine ⟨fun key hkey => ?_, hinv.2⟩
    have hatt : key ∈ k.core.extensions.attached := by
      rw [hcore]
      exact hkey
    have hsome := hinv.1 key hatt
    exact ⟨(declares_of_reads hreads).offered hsome, hsome⟩
  · rintro k t e k' hr he ⟨hatt, hused⟩ hs
    have hd := declares_of_reads hr
    refine ⟨hatt.step hd he hs, throughout_cons.mpr ⟨fun key hkey => ?_, hused⟩⟩
    have hsome := hatt key (Extensions.isAttached_iff.mp (hs.attached hkey))
    exact ⟨hd.offered hsome, hsome⟩

end

/-! ### The shape of a log frame -/

/-- A log frame has the shape of the version that the session's join declared. -/
def Framed (older : List Event) (m : Envelope) : Prop :=
  ((∃ lines, m.payload = .batch lines) ↔ declared (extensionsJoin older) loggingKey = some loggingBatchedVersion) ∧
    ((∃ line : LogLine, m.payload = .value line.payload) ↔
      declared (extensionsJoin older) loggingKey = some extensionVersion)

section
variable [Serde]

/-- Logging is enabled, the join was sent, and the invitations that came by then and those that have come by now
    make for batches alike. -/
def VersionKept (enabled : Enabled) (older : List Event) : Prop :=
  enabled.logging = true ∧ ∃ before v, beforeExtensionsJoin older = some before ∧ loggingVersion before = some v ∧
    (v = loggingBatchedVersion ↔ loggingVersion older = some loggingBatchedVersion)

theorem loggingVersion_cases {t : List Event} {v : String} (h : loggingVersion t = some v) :
    v = loggingBatchedVersion ∨ v = extensionVersion := by
  have hmem : v ∈ implemented loggingKey := by
    unfold loggingVersion versionFor Extensions.version at h
    split at h
    · obtain ⟨theirs, -, hfind⟩ := Option.bind_eq_some_iff.mp h
      exact List.mem_of_find?_eq_some hfind
    · exact List.mem_of_getLast? h
  simpa [implemented, loggingKey] using hmem

omit [Serde] in
theorem Enabled.logging_offered {enabled : Enabled} : loggingKey ∈ enabled.offered ↔ enabled.logging = true := by
  obtain ⟨geo, health, logging⟩ := enabled
  revert geo health logging
  decide

variable {k k' : Talk} {t : List Event} {enabled : Enabled}

/-- What the join declared of logging. -/
theorem Declares.logging (h : Declares enabled k t) (v : String) : declared (extensionsJoin t) loggingKey = some v ↔
    enabled.logging = true ∧ ∃ before, beforeExtensionsJoin t = some before ∧ loggingVersion before = some v := by
  cases hjoin : extensionsJoin t with
  | none =>
    rw [h.unjoined hjoin]
    simp [declared]
  | some m =>
    obtain ⟨before, hbefore, hdecl⟩ := h.declares m hjoin
    rw [hdecl, hbefore, Enabled.logging_offered]
    simp [loggingVersion]

/-- What the session sends follows the latest invitation. -/
theorem Talk.Step.frame {m : Envelope} {r : Except Error Unit} (hs : Talk.Step k (.sent m r) k')
    (hd : Declares enabled k t) (hm : m.kind = .logging) :
    ((∃ lines, m.payload = .batch lines) ∧ loggingVersion t = some loggingBatchedVersion) ∨
      ((∃ line : LogLine, m.payload = .value line.payload) ∧ loggingVersion t ≠ some loggingBatchedVersion) := by
  have hversion : k.core.extensions.version loggingKey = loggingVersion t := by
    rw [Extensions.version_eq, ← hd.invited]
    rfl
  have other : ∀ kd, m.kind = kd → kd ≠ .logging → False := fun kd hk hne => hne (hk.symm.trans hm)
  cases hs with
  | aside hopen hperm =>
    cases hperm with
    | kind h =>
      rw [show (Event.sent m r).kind = .logging from hm] at h
      cases h
    | line line _ hatt hone hp =>
      refine Or.inr ⟨⟨line, hp⟩, fun hv => ?_⟩
      rw [← hversion] at hv
      simp [Extensions.loggingBatched, hatt, hv] at hone
    | batch lines _ hbatched hp =>
      refine Or.inl ⟨⟨lines, hp⟩, ?_⟩
      rw [← hversion]
      exact beq_iff_eq.mp (Bool.and_eq_true _ _ ▸ hbatched : _ ∧ _).2
  | join r ho hk => exact (other _ hk (by decide)).elim
  | validate r hst hk => exact (other _ hk (by decide)).elim
  | joinExtensions r hopen hfresh hj hx hk hp => exact (other _ hk (by decide)).elim
  | joinConsole r hopen hfresh hj hx hk => exact (other _ hk (by decide)).elim
  | lose e hfresh hidle hclose =>
    rcases Envelope.kind_of_isClosing hclose with hk | hk | hk <;> exact (other _ hk (by decide)).elim

theorem Declares.framed_iff (hd : Declares enabled k t) {m : Envelope}
    (hm : ((∃ lines, m.payload = .batch lines) ∧ loggingVersion t = some loggingBatchedVersion) ∨
      ((∃ line : LogLine, m.payload = .value line.payload) ∧ loggingVersion t ≠ some loggingBatchedVersion)) :
    Framed t m ↔ VersionKept enabled t := by
  have hne : loggingBatchedVersion ≠ extensionVersion := by decide
  unfold Framed VersionKept
  rw [hd.logging, hd.logging]
  rcases hm with ⟨⟨lines, hp⟩, hnow⟩ | ⟨⟨line, hp⟩, hnow⟩
  · have hnoline : ¬∃ line : LogLine, m.payload = .value line.payload := by rw [hp]; rintro ⟨line, h⟩; cases h
    constructor
    · rintro ⟨hbatch, -⟩
      obtain ⟨henabled, before, hbefore, hv⟩ := hbatch.mp ⟨lines, hp⟩
      exact ⟨henabled, before, _, hbefore, hv, iff_of_true rfl hnow⟩
    · rintro ⟨henabled, before, v, hbefore, hv, hiff⟩
      rw [hiff.mpr hnow] at hv
      refine ⟨iff_of_true ⟨lines, hp⟩ ⟨henabled, before, hbefore, hv⟩, iff_of_false hnoline ?_⟩
      rintro ⟨-, before', hbefore', hv'⟩
      rw [hbefore] at hbefore'
      cases hbefore'
      rw [hv] at hv'
      exact hne (Option.some.inj hv')
  · have hnobatch : ¬∃ lines, m.payload = .batch lines := by rw [hp]; rintro ⟨lines, h⟩; cases h
    constructor
    · rintro ⟨-, hone⟩
      obtain ⟨henabled, before, hbefore, hv⟩ := hone.mp ⟨line, hp⟩
      exact ⟨henabled, before, _, hbefore, hv, iff_of_false hne.symm hnow⟩
    · rintro ⟨henabled, before, v, hbefore, hv, hiff⟩
      have hone : v = extensionVersion := (loggingVersion_cases hv).resolve_left fun h => hnow (hiff.mp h)
      subst hone
      refine ⟨iff_of_false hnobatch ?_, iff_of_true ⟨line, hp⟩ ⟨henabled, before, hbefore, hv⟩⟩
      rintro ⟨-, before', hbefore', hv'⟩
      rw [hbefore] at hbefore'
      cases hbefore'
      rw [hv] at hv'
      exact hne (Option.some.inj hv').symm

variable {σ : Type} [Sha256] (agent : Agent σ)

/-- Every log frame has the shape that the join declared, exactly if no invitation that makes for the other shape
    comes between the join and a frame. -/
theorem logging_frames_iff (window : Option SessionWindow) (control : Option (σ → Control × σ)) (env : σ)
    (own : Device) (gas : Nat) :
    let t := (sessionWithin agent window control ⟨env, own, [], gas⟩).2.trace
    Throughout (fun e older => ∀ m r, e = .sent m r → m.kind = .logging → Framed older m) t ↔
      Throughout (fun e older => ∀ m r, e = .sent m r → m.kind = .logging →
        VersionKept agent.config.extensions older) t := by
  intro t
  obtain ⟨k, hreads, -⟩ := session_tells agent window control env own gas
  have heach : Throughout (fun e older => ∀ m r, e = .sent m r → m.kind = .logging →
      (Framed older m ↔ VersionKept agent.config.extensions older)) t := by
    refine hreads.throughout throughout_nil fun hr hs m r he hm => ?_
    subst he
    have hd := declares_of_reads hr
    exact hd.framed_iff (hs.frame hd hm)
  constructor
  · exact fun h e older hsuffix m r he hm => (heach e older hsuffix m r he hm).mp (h e older hsuffix m r he hm)
  · exact fun h e older hsuffix m r he hm => (heach e older hsuffix m r he hm).mpr (h e older hsuffix m r he hm)

end

/-! ### Extensions on the bench -/

section
attribute [local instance] sha256OfByte

/-- The reply to the extensions join, which is the third message of a session here. -/
def extensionsReply (text : String) (keys : List String) : Script :=
  ⟨text, ⟨some "3", some "3", extensionsTopic, event.reply,
    .obj [("status", .string "ok"), ("response", .array (keys.map .string))]⟩⟩

def loggingAttached : Script := extensionsReply "logging is attached" ["logging"]
def geoAttached : Script := extensionsReply "geo is attached" ["geo"]
def locationRequest : Script := ⟨"locate", ⟨none, none, extensionsTopic, "geo:location:request", .obj []⟩⟩

def lateInvitation : Script :=
  ⟨"invite", ⟨none, none, deviceTopic, event.extensionsGet,
    .obj [("extensions", .obj [("logging", .array [.string "0.1.0"])])]⟩⟩

@[reducible] def extensionsSerde : Serde := benchSerde [joinReply, loggingAttached, geoAttached, locationRequest,
    lateInvitation]

attribute [local instance] extensionsSerde

def loggingOnly : Enabled := ⟨false, false, true⟩

/-- A server that is not heard from again until the device has joined its extensions uninvited. -/
def uninvited (script : List Script) : Bench :=
  ⟨[some (.text joinReply.text), none, none, none] ++ script.map (fun m => some (.text m.text)) ++ [none],
    40, [], 0, false, []⟩

def loggingDevice : Device := benchDevice loggingOnly
  (some ⟨⟨[.new "info" "one", .new "info" "two"], 2000⟩, 10, 4096, 0, Level.info.toNat⟩)

theorem extensions_opted_in_logging :
    OptedIn loggingOnly
      (sessionWithin (benchAgent loggingOnly) none none ⟨uninvited [loggingAttached], loggingDevice, [], 12⟩).2.own.link
      (sessionWithin (benchAgent loggingOnly) none none ⟨uninvited [loggingAttached], loggingDevice, [], 12⟩).2.trace :=
  extensions_opted_in (benchAgent loggingOnly) none none (uninvited [loggingAttached]) loggingDevice 12
    (by decide +kernel)

/-- A server attaches `geo` to a device that has enabled logging only, and the location provider is read. -/
theorem extensions_attached_undeclared :
    let out := (sessionWithin (benchAgent loggingOnly) none none
      ⟨uninvited [geoAttached, locationRequest], loggingDevice, [], 12⟩).2
    ¬OptedIn loggingOnly out.own.link out.trace ∧ geoKey ∈ out.own.link.extensions.attached ∧
      ∃ e ∈ out.trace, e.kind = .located := by
  intro out
  refine ⟨fun h => absurd h.used (by decide +kernel), by decide +kernel, by decide +kernel⟩

def Payload.isBatch : Payload → Bool
  | .batch _ => true
  | .value _ => false

/-- No batch is sent where the join did not declare batches. -/
def batchedAsDeclared : Event → List Event → Bool
  | .sent m _, older => !m.payload.isBatch || decide (m.kind ≠ .logging) ||
      declared (extensionsJoin older) loggingKey == some loggingBatchedVersion
  | _, _ => true

theorem Framed.batchedAsDeclared {e : Event} {older : List Event}
    (h : ∀ m r, e = .sent m r → m.kind = .logging → Framed older m) : batchedAsDeclared e older = true := by
  cases e
  case sent m r =>
    by_cases hm : m.kind = .logging
    · have hframed := h m r rfl hm
      cases hp : m.payload with
      | value v => simp [NervesHub.batchedAsDeclared, hp, Payload.isBatch]
      | batch lines => simp [NervesHub.batchedAsDeclared, hframed.1.mp ⟨lines, hp⟩]
    · simp [NervesHub.batchedAsDeclared, hm]
  all_goals rfl

/-- The device joins logging at 0.0.1, and sends a batch once a late invitation names 0.1.0. -/
theorem logging_frame_undeclared :
    ¬Throughout (fun e older => ∀ m r, e = .sent m r → m.kind = .logging → Framed older m)
      (sessionWithin (benchAgent loggingOnly) none none
        ⟨uninvited [loggingAttached, lateInvitation], loggingDevice, [], 12⟩).2.trace :=
  fun h => absurd (h.mono fun _ _ hframed => Framed.batchedAsDeclared hframed) (by decide +kernel)

end

end NervesHub
