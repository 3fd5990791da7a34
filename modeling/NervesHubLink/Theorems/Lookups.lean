import NervesHubLink.Lib.Trace
import NervesHubLink.Theorems.Connections
import NervesHubLink.Whenwhere

/-! What a position is reported on: a whole reply to the request that this lookup made, of a length that is bounded while it
is read. -/

namespace NervesHub
open Act Prog Trace Typestate

/-- What the newest lookup has seen. -/
structure Transcript where
  entropy : Option (List UInt8)
  status : Option UInt16
  returned : Option (Option String)
  body : List UInt8
  ended : Bool

namespace Transcript

def empty : Transcript := ⟨none, none, none, [], false⟩

/-- A lookup begins with its random bytes, and the reply ends with a chunk of nothing. -/
def seen (x : Transcript) : LookupEvent → Transcript
  | .random bytes => ⟨some bytes, none, none, [], false⟩
  | .status code => { x with status := some code }
  | .nonce returned => { x with returned := some returned }
  | .chunk bytes => { x with body := x.body ++ bytes, ended := bytes.isEmpty }
  | _ => x

def of : List LookupEvent → Transcript
  | [] => empty
  | e :: older => (of older).seen e

/-- The service took the request. -/
def Accepted (x : Transcript) : Prop := ∃ code, x.status = some code ∧ 200 ≤ code.toNat ∧ code.toNat < 300

/-- The reply is whole and short, answers the nonce that was sent, and reads so. -/
structure Answers [Parsing] (x : Transcript) (reading : Reading) : Prop where
  accepted : x.Accepted
  ended : x.ended = true
  short : x.body.length ≤ Whenwhere.replyLimit
  parsed : ∃ bytes text, x.entropy = some bytes ∧ x.returned = some (some (Whenwhere.nonce bytes)) ∧
    String.fromUTF8? x.body.toByteArray = some text ∧
      Whenwhere.parse text (Whenwhere.nonce bytes) (some (Whenwhere.nonce bytes)) = .ok reading

end Transcript

/-- A transcript answers in one way. -/
theorem Transcript.Answers.same [Parsing] {x : Transcript} {reading reading' : Reading} (h : x.Answers reading)
    (h' : x.Answers reading') :
    reading = reading' := by
  obtain ⟨bytes, text, hbytes, -, htext, hparse⟩ := h.parsed
  obtain ⟨bytes', text', hbytes', -, htext', hparse'⟩ := h'.parsed
  rw [hbytes] at hbytes'
  cases hbytes'
  rw [htext] at htext'
  cases htext'
  rw [hparse] at hparse'
  cases hparse'
  rfl

namespace LookupEvent

/-- What an event is for the connections. -/
def http? : LookupEvent → Option HttpEvent
  | .http e => some e
  | _ => none

/-- What is true of an event when it happens. -/
def Judged [Parsing] : LookupEvent → List LookupEvent → Prop
  | .requested url, older => ∃ front bytes, (Transcript.of older).entropy = some bytes ∧ bytes.length = Whenwhere.nonceLen ∧
    url = front ++ "nonce=" ++ Whenwhere.nonce bytes
  | .http (.called _ (.read _)), older => (Transcript.of older).Accepted ∧ (Transcript.of older).ended = false ∧
    (Transcript.of older).body.length ≤ Whenwhere.replyLimit
  | .answered r, older => ∀ reading, r = .ok reading ↔ (Transcript.of older).Answers reading
  | .located l, older => ∀ location, l = some location ↔
    ∃ reading older', older = .answered (.ok reading) :: older' ∧ location = reading.location
  | _, _ => True

end LookupEvent

section
variable [Parsing]

theorem parse_ok {body sent : String} {returned : Option String} {reading : Reading}
    (h : Whenwhere.parse body sent returned = .ok reading) :
    returned = some sent := by
  unfold Whenwhere.parse at h
  cases returned with
  | none => cases h
  | some returned =>
    by_cases heq : returned = sent
    · rw [heq]
    · simp [heq] at h

variable {σ : Type}

/-- The lookup has seen `x`, and its connection is the only one. -/
structure Looking (one : Option (Nat × ConnectionPhase)) (x : Transcript) (s : Rec σ LookupEvent Nat) : Prop where
  judged : Throughout LookupEvent.Judged s.trace
  lone : Lone connectionProtocol one s.own (s.trace.filterMap LookupEvent.http?)
  seen : Transcript.of s.trace = x

namespace Looking
variable {one : Option (Nat × ConnectionPhase)} {x : Transcript} {s : Rec σ LookupEvent Nat} {env : σ} {c : Nat}
    {p q : ConnectionPhase}
  {k : ConnectionCall} {e : LookupEvent}

theorem note (h : Looking one x s) (hhttp : e.http? = none) (hjudged : e.Judged s.trace) :
    Looking one (x.seen e) { s with env := env, trace := e :: s.trace } := by
  refine ⟨throughout_cons.mpr ⟨hjudged, h.judged⟩, ?_, ?_⟩
  · rw [List.filterMap_cons_none hhttp]
    exact h.lone
  · rw [Transcript.of, h.seen]

theorem called (h : Looking (some (c, p)) x s) (hstep : connectionProtocol.step p k = some q)
    (hjudged : (LookupEvent.http (.called c k)).Judged s.trace) :
    Looking (some (c, q)) x { s with env := env, trace := .http (.called c k) :: s.trace } :=
  ⟨throughout_cons.mpr ⟨hjudged, h.judged⟩, h.lone.called hstep, h.seen⟩

/-- A call, with what was seen in its answer. -/
theorem calledNote (h : Looking (some (c, p)) x s) (hstep : connectionProtocol.step p k = some q)
    (hjudged : (LookupEvent.http (.called c k)).Judged s.trace) (hhttp : e.http? = none)
    (he : e.Judged (.http (.called c k) :: s.trace)) :
    Looking (some (c, q)) (x.seen e) { s with env := env, trace := e :: .http (.called c k) :: s.trace } :=
  have hcalled : Looking (some (c, q)) x { s with env := env, trace := .http (.called c k) :: s.trace } :=
    h.called hstep hjudged
  hcalled.note hhttp he

theorem made (h : Looking none x s) :
    Looking (some (s.own, .fresh)) x ⟨env, s.own + 1, .http (.made s.own) :: s.trace, s.gas⟩ :=
  ⟨throughout_cons.mpr ⟨trivial, h.judged⟩, h.lone.made, h.seen⟩

theorem dropped (h : Looking (some (c, p)) x s) : Looking none x { s with trace := .http (.dropped c) :: s.trace } :=
  ⟨throughout_cons.mpr ⟨trivial, h.judged⟩, h.lone.dropped, h.seen⟩

end Looking

/-- The lookup has what it takes for `reading`. -/
def GaveReading (one : Option (Nat × ConnectionPhase)) (reading : Reading) (s : Rec σ LookupEvent Nat) : Prop :=
  ∃ x, Looking one x s ∧ x.Answers reading

/-- The lookup has not what it takes. -/
def GaveNone (one : Option (Nat × ConnectionPhase)) (s : Rec σ LookupEvent Nat) : Prop :=
  ∃ x, Looking one x s ∧ ∀ reading, ¬x.Answers reading

theorem unanswered_of_ended {one : Option (Nat × ConnectionPhase)} {x : Transcript} {s : Rec σ LookupEvent Nat}
    (h : Looking one x s) (hended : x.ended = false) : GaveNone one s :=
  ⟨x, h, fun _ hx => by simpa [hended] using hx.ended⟩

variable (idf : LookupIdf σ) {T C : Rec σ LookupEvent Nat → Prop}

namespace Whenwhere

/-- A call that a connection allows, whatever it answers. -/
theorem tryConnection_spec {α : Type} {c : Nat} {p : ConnectionPhase} {x : Transcript} {label : String}
    {f : σ → Except String α × σ}
    {ev : Bool → ConnectionCall} {seen : α → List LookupEvent} {Q : α → Rec σ LookupEvent Nat → Prop}
    (hok : ∀ (s : Rec σ LookupEvent Nat) env a, Looking (some (c, p)) x s →
      Q a { s with env := env, trace := seen a ++ [.http (.called c (ev true))] ++ s.trace })
    (herr : ∀ (s : Rec σ LookupEvent Nat) env, Looking (some (c, p)) x s →
      T { s with env := env, trace := .http (.called c (ev false)) :: s.trace }) :
    Spec (Looking (some (c, p)) x) (tryConnection c label f ev seen) (Ends Q T C) :=
  spec_tryCall (fun s env a h => hok s env a h) fun s env _ h => herr s env h

theorem readBody_spec {c : Nat} {bytes : List UInt8} {code : UInt16} {returned : Option String} (hlow : 200 ≤ code.toNat)
    (hhigh : code.toNat < 300) (n : Nat) (body : List UInt8) (hshort : body.length ≤ replyLimit)
    (hn : replyLimit - body.length < n) :
    Spec (Looking (some (c, .answered)) ⟨some bytes, some code, some returned, body, false⟩) (readBody idf c body)
      (Ends (fun b s => b.length ≤ replyLimit ∧ Looking (some (c, .answered))
        ⟨some bytes, some code, some returned, b, true⟩ s)
        (GaveNone (some (c, .answered))) C) := by
  induction n generalizing body with
  | zero => omega
  | succ n ih =>
    have hread : ∀ {s : Rec σ LookupEvent Nat} {ok : Bool}, Looking (some (c, .answered))
      ⟨some bytes, some code, some returned, body, false⟩ s →
        (LookupEvent.http (.called c (.read ok))).Judged s.trace := by
      intro s ok h
      rw [LookupEvent.Judged, h.seen]
      exact ⟨⟨code, rfl, hlow, hhigh⟩, rfl, hshort⟩
    rw [readBody]
    refine Spec.bind (R := fun chunk => Looking (some (c, .answered))
      ⟨some bytes, some code, some returned, body ++ chunk.val, chunk.val.isEmpty⟩) ?_ fun chunk => ?_
    · refine tryConnection_spec (fun s env chunk h => ?_) fun s env h => ?_
      · exact h.calledNote (e := .chunk chunk.val) rfl (hread h) rfl trivial
      · exact unanswered_of_ended (h.called rfl (hread h)) rfl
    split
    · rename_i hend
      refine Spec.ret fun s h => ⟨hshort, ?_⟩
      rw [hend, List.append_nil] at h
      exact h
    rename_i hend
    have hpos : 0 < chunk.val.length := List.length_pos_iff.mpr hend
    have hempty : chunk.val.isEmpty = false := List.isEmpty_eq_false_iff.mpr hend
    rw [hempty]
    split
    · exact Spec.fail fun s h => unanswered_of_ended h rfl
    · rename_i hlong
      refine ih _ (Nat.not_lt.mp hlong) ?_
      rw [List.length_append] at hlong ⊢
      omega

/-- A request that carries the nonce, and what came of it. -/
theorem exchange_spec {c : Nat} {bytes : List UInt8} {front url : String} (hlen : bytes.length = nonceLen)
    (hurl : url = front ++ "nonce=" ++ nonce bytes) :
    Spec (Looking (some (c, .fresh)) ⟨some bytes, none, none, [], false⟩) (exchange idf c url (nonce bytes))
      (Ends (fun reading s => ∃ p, GaveReading (some (c, p)) reading s) (fun s => ∃ p, GaveNone (some (c, p)) s) C) := by
  have hfail : ∀ {p x} {s : Rec σ LookupEvent Nat}, Looking (some (c, p)) x s → x.ended = false →
      ∃ p, GaveNone (some (c, p)) s :=
    fun h hended => ⟨_, unanswered_of_ended h hended⟩
  refine Spec.bind (R := fun _ => Looking (some (c, .requested)) ⟨some bytes, none, none, [], false⟩) ?_ fun _ => ?_
  · refine tryConnection_spec (fun s env _ h => ?_) fun s env h => hfail (h.called (k := .request false) rfl trivial) rfl
    refine h.calledNote (e := .requested url) rfl trivial rfl ?_
    exact ⟨front, bytes, congrArg Transcript.entropy h.seen, hlen, hurl⟩
  refine Spec.bind (R := fun _ => Looking (some (c, .answered)) ⟨some bytes, none, none, [], false⟩) ?_ fun _ => ?_
  · refine tryConnection_spec (fun s env _ h => ?_) fun s env h => hfail (h.called (k := .response false) rfl trivial) rfl
    exact h.called (k := .response true) rfl trivial
  refine Spec.bind (R := fun code => Looking (some (c, .answered)) ⟨some bytes, some code, none, [], false⟩) ?_
    fun code => ?_
  · exact spec_call fun s env code h => h.calledNote (e := .status code) rfl trivial rfl trivial
  refine Spec.ite (fun _ => Spec.fail fun s h => hfail h rfl) fun hcode => ?_
  obtain ⟨hlow, hhigh⟩ := Classical.not_not.mp hcode
  refine Spec.bind (R := fun returned => Looking (some (c, .answered)) ⟨some bytes, some code, some returned, [], false⟩) ?_
    fun returned => ?_
  · exact spec_call fun s env returned h => h.calledNote (e := .nonce returned) rfl trivial rfl trivial
  refine Spec.bind ((readBody_spec idf hlow hhigh _ [] (Nat.zero_le _) (Nat.lt_succ_self _)).mono (fun _ _ h => h)
    (fun _ h => ⟨_, h⟩)
    fun _ h => h) fun body => ?_
  split
  · rename_i htext
    refine Spec.fail fun s h => ⟨_, _, h.2, fun reading hreading => ?_⟩
    obtain ⟨_, _, -, -, htext', -⟩ := hreading.parsed
    rw [htext] at htext'
    cases htext'
  · rename_i text htext
    refine Spec.ofExcept (fun reading hparse s h => ?_) fun e hparse s h => ?_
    · have hreturned := parse_ok hparse
      subst hreturned
      exact ⟨_, _, h.2, ⟨code, rfl, hlow, hhigh⟩, rfl, h.1, bytes, text, rfl, rfl, htext, hparse⟩
    · refine ⟨_, _, h.2, fun reading hreading => ?_⟩
      obtain ⟨bytes', text', hbytes, hreturned, htext', hparse'⟩ := hreading.parsed
      cases hbytes
      cases hreturned
      rw [htext] at htext'
      cases htext'
      rw [hparse] at hparse'
      cases hparse'

/-- No lookup is going on. -/
def Resting (s : Rec σ LookupEvent Nat) : Prop := ∃ x, Looking none x s

variable (w : Whenwhere)

theorem read_spec : Spec Resting (w.read idf) (Ends (GaveReading none) (GaveNone none) C) := by
  refine Spec.bind (R := fun entropy => Looking none ⟨some entropy.val, none, none, [], false⟩) ?_ fun entropy => ?_
  · exact spec_call fun s env entropy ⟨x, h⟩ => h.note (e := .random entropy.val) rfl trivial
  refine Spec.bind (R := fun c => Looking (some (c, .fresh)) ⟨some entropy.val, none, none, [], false⟩) ?_ fun c => ?_
  · intro s h
    unfold newConnection
    rcases idf.newConnection configuration s.env with ⟨_ | _, env⟩
    · exact unanswered_of_ended ⟨h.judged, h.lone, h.seen⟩ rfl
    · exact h.made
  have hurl : w.requestUrl (nonce entropy.val) =
      w.url ++ (if w.url.toList.contains '?' then "&" else "?") ++ "nonce=" ++ nonce entropy.val := rfl
  refine Spec.bind (Spec.attempt (X := GaveNone none) (exchange_spec idf entropy.property hurl)) fun r => ?_
  cases r with
  | ok reading =>
    refine Spec.bind (R := fun _ => GaveReading none reading) ?_ fun _ => Spec.ret fun _ h => h
    exact fun s ⟨p, x, h, hx⟩ => ⟨x, h.dropped, hx⟩
  | error e =>
    refine Spec.bind (R := fun _ => GaveNone none) ?_ fun _ => Spec.fail fun _ h => h
    exact fun s ⟨p, x, h, hx⟩ => ⟨x, h.dropped, hx⟩

theorem location_spec : Spec Resting (w.location idf)
    (Ends (fun l s => Resting s ∧ (LookupEvent.located l).Judged s.trace) T C) := by
  have hanswered : ∀ {s : Rec σ LookupEvent Nat} {r : Except String Reading} {x}, Looking none x s →
    (∀ reading, r = .ok reading ↔ x.Answers reading) →
      Resting { s with trace := .answered r :: s.trace } := by
    intro s r x h hr
    refine ⟨_, h.note (e := .answered r) rfl ?_⟩
    rw [LookupEvent.Judged, h.seen]
    exact hr
  refine Spec.bind (Spec.attempt (X := T) (w.read_spec idf)) fun r => ?_
  cases r with
  | ok reading =>
    refine Spec.bind (R := fun _ s => Resting s ∧ ∃ older, s.trace = .answered (.ok reading) :: older) ?_
      fun _ => Spec.ret ?_
    · rintro s ⟨x, h, hx⟩
      refine ⟨hanswered h fun reading' => ⟨fun heq => ?_, fun hx' => ?_⟩, s.trace, rfl⟩
      · cases heq
        exact hx
      · rw [hx.same hx']
    · rintro s ⟨h, older, htrace⟩
      refine ⟨h, fun location => ⟨fun heq => ⟨reading, older, htrace, (Option.some.inj heq).symm⟩, ?_⟩⟩
      rintro ⟨reading', older', htrace', rfl⟩
      rw [htrace] at htrace'
      cases htrace'
      rfl
  | error e =>
    refine Spec.bind (R := fun _ s => Resting s ∧ ∃ older, s.trace = .answered (.error e) :: older) ?_ fun _ => Spec.ret ?_
    · rintro s ⟨x, h, hx⟩
      refine ⟨hanswered h fun reading => ⟨nofun, fun hx' => absurd hx' (hx reading)⟩, s.trace, rfl⟩
    · rintro s ⟨h, older, htrace⟩
      refine ⟨h, fun location => ⟨nofun, ?_⟩⟩
      rintro ⟨reading', older', htrace', rfl⟩
      rw [htrace] at htrace'
      cases htrace'

theorem lookups_spec (ws : List Whenwhere) : Spec Resting (lookups idf ws) (Ends (fun _ => Resting) T C) := by
  refine Spec.forM (fun w => Spec.bind (w.location_spec idf) fun l => ?_) ws
  rintro s ⟨⟨x, h⟩, hl⟩
  exact ⟨_, h.note (e := .located l) rfl hl⟩

end Whenwhere

/-- However often a position is looked up and whatever the network answers: a lookup ends, gives up its connection after
    asking it only for what it may, holds no more than the limit and a chunk of a reply, and gives a position exactly on a
    whole reply that answers its own nonce. -/
theorem lookups_judged (ws : List Whenwhere) (env : σ) (gas : Nat) :
    (Whenwhere.lookups idf ws ⟨env, 0, [], gas⟩).1 = .ret () ∧
      Throughout LookupEvent.Judged (Whenwhere.lookups idf ws ⟨env, 0, [], gas⟩).2.trace ∧
      ∃ x, after connectionProtocol
        ((Whenwhere.lookups idf ws ⟨env, 0, [], gas⟩).2.trace.filterMap LookupEvent.http?) = some x ∧
        ∀ i p, x i ≠ .live p := by
  have hstart : Whenwhere.Resting (⟨env, 0, [], gas⟩ : Rec σ LookupEvent Nat) := ⟨_, throughout_nil, .nil _ 0, rfl⟩
  have h := Whenwhere.lookups_spec (T := fun _ => False) (C := fun _ => False) idf ws _ hstart
  rcases ho : (Whenwhere.lookups idf ws ⟨env, 0, [], gas⟩).1 with a | e | _ <;> rw [ho] at h
  · obtain ⟨x, hlooking⟩ := h
    obtain ⟨y, hy, hsole, -⟩ := hlooking.lone
    exact ⟨rfl, hlooking.judged, y, hy, fun i p hlive => by simpa using (hsole i p).mp hlive⟩
  · exact h.elim
  · exact h.elim

end

end NervesHub
