import NervesHubLink.Http

/-! What the stream asks of its HTTP connections. A connection is asked for a response once it has a request, is read once
it has answered, and is given up for good when an open of it failed. -/

namespace NervesHub
open Act Prog Typestate

inductive ConnectionPhase where
  | fresh
  | requested
  | answered
  /-- It could not do what it was asked. -/
  | failed
  deriving DecidableEq, Repr

/-- What a connection can be asked for. It does not begin another request in the middle of one, and not after an error. -/
def connectionProtocol : Protocol ConnectionPhase ConnectionCall where
  start := .fresh
  step
    | .fresh, .request ok => some (if ok then .requested else .failed)
    | .answered, .request ok => some (if ok then .requested else .failed)
    | .requested, .response ok => some (if ok then .answered else .failed)
    | .answered, .look => some .answered
    | .answered, .read _ => some .answered
    | _, _ => none

section
variable {σ : Type}

/-- Nothing was asked for that may not be, the given connection is the only one, and the numbers from `made` on are left. -/
def Alive (one : Option (Nat × ConnectionPhase)) (s : Rec σ HttpEvent EspHttpStream) : Prop :=
  ∃ x, after connectionProtocol s.trace = some x ∧ Sole one x ∧ ∀ i, s.own.made ≤ i → x i = .unmade

/-- The connection is the stream's. -/
def Linked (one : Option (Nat × ConnectionPhase)) (s : Rec σ HttpEvent EspHttpStream) : Prop :=
  Alive one s ∧ s.own.connection = one.map Prod.fst

section
variable {s : Rec σ HttpEvent EspHttpStream} {c : Nat} {p q : ConnectionPhase} {k : ConnectionCall} {env : σ}

theorem Alive.called (h : Alive (some (c, p)) s) (hstep : connectionProtocol.step p k = some q) :
    Alive (some (c, q)) { s with env := env, trace := .called c k :: s.trace } := Lone.called h hstep

theorem Alive.made (h : Alive none s) : Alive (some (s.own.made, .fresh))
    { s with env := env, own := { s.own with made := s.own.made + 1 }, trace := .made s.own.made :: s.trace } := Lone.made h

theorem Alive.dropped (h : Alive (some (c, p)) s) (own : EspHttpStream) (hown : own.made = s.own.made) :
    Alive none { s with own := own, trace := .dropped c :: s.trace } := by
  have hdropped := Lone.dropped h
  rwa [← hown] at hdropped

end

variable (idf : EspHttp σ) {T C : Rec σ HttpEvent EspHttpStream → Prop}

namespace EspHttpStream

/-- The stream has no connection, or one that another request can be made on. -/
def Idle (s : Rec σ HttpEvent EspHttpStream) : Prop :=
  Linked none s ∨ ∃ c p, (p = .fresh ∨ p = .answered) ∧ Linked (some (c, p)) s

/-- The stream has no connection, or one that has answered. -/
def Settled (s : Rec σ HttpEvent EspHttpStream) : Prop := Linked none s ∨ ∃ c, Linked (some (c, .answered)) s

def Open (s : Rec σ HttpEvent EspHttpStream) : Prop := ∃ c, Linked (some (c, .answered)) s

/-- There is a connection, of which nothing is known. -/
def Owned (s : Rec σ HttpEvent EspHttpStream) : Prop := ∃ one, Linked one s

theorem Settled.idle {s : Rec σ HttpEvent EspHttpStream} (h : Settled s) : Idle s := by
  rcases h with h | ⟨c, h⟩
  · exact Or.inl h
  · exact Or.inr ⟨c, .answered, Or.inr rfl, h⟩

/-- A call that a connection allows leaves it in a phase for either answer. -/
theorem tryConnection_spec {α : Type} {c : Nat} {p q r : ConnectionPhase} {f : σ → Except String α × σ}
    {ev : Bool → ConnectionCall}
    (hok : connectionProtocol.step p (ev true) = some q) (herr : connectionProtocol.step p (ev false) = some r) :
    Spec (Linked (some (c, p))) (tryConnection c f ev)
      (Ends (fun _ => Linked (some (c, q))) (Linked (some (c, r))) C) :=
  spec_tryCall (fun _ _ _ h => ⟨h.1.called hok, h.2⟩) fun _ _ _ h => ⟨h.1.called herr, h.2⟩

theorem look_spec {α : Type} {c : Nat} {f : σ → α × σ} : Spec (Linked (some (c, .answered)))
    (call f fun _ => [.called c .look] : HttpProg σ α) (Ends (fun _ => Linked (some (c, .answered))) T C) :=
  spec_call fun _ _ _ h => ⟨h.1.called rfl, h.2⟩

theorem newConnection_spec : Spec (Linked none) (newConnection idf)
    (Ends (fun c s => Alive (some (c, .fresh)) s) (Linked none) C) := by
  rintro s ⟨h, hown⟩
  unfold newConnection
  rcases idf.newConnection s.env with ⟨_ | _, env⟩
  · exact ⟨h, hown⟩
  · exact h.made

theorem takeConnection_spec : Spec Idle (takeConnection idf)
    (Ends (fun c s => ∃ p, (p = .fresh ∨ p = .answered) ∧ Linked (some (c, p)) s) (Linked none) C) := by
  refine spec_own fun o => ?_
  obtain ⟨made, connection | c⟩ := o
  · refine Spec.bind (R := fun c s => Alive (some (c, .fresh)) s) ((newConnection_spec idf).pre ?_) fun c => ?_
    · rintro s ⟨h | ⟨c, p, -, h⟩, hown⟩
      · exact h
      · have := h.2
        simp [hown] at this
    · exact Spec.bind (R := fun _ => Linked (some (c, .fresh))) (fun s h => ⟨h, rfl⟩) fun _ => Spec.ret fun _ h =>
        ⟨.fresh, Or.inl rfl, h⟩
  · refine Spec.ret ?_
    rintro s ⟨h | ⟨c', p, hp, h⟩, hown⟩
    · have := h.2
      simp [hown] at this
    · have hc := h.2
      rw [hown] at hc
      cases hc
      exact ⟨p, hp, h⟩

theorem owned {one : Option (Nat × ConnectionPhase)} {s : Rec σ HttpEvent EspHttpStream} (h : Linked one s) :
    Owned s := ⟨one, h⟩

theorem request_spec (url : String) : Spec Idle (request idf url) (Ends (fun _ => Open) Owned C) := by
  refine Spec.bind ((takeConnection_spec idf).mono (fun _ _ h => h) (fun _ h => owned h) fun _ h => h) fun c => ?_
  refine Spec.bind (R := fun _ => Linked (some (c, .requested))) ?_ fun _ => ?_
  · rintro s ⟨p, rfl | rfl, h⟩
    · exact (tryConnection_spec (C := C) rfl rfl s h).mono (fun _ _ h => h) (fun _ h => owned h) fun _ h => h
    · exact (tryConnection_spec (C := C) rfl rfl s h).mono (fun _ _ h => h) (fun _ h => owned h) fun _ h => h
  refine Spec.bind ((tryConnection_spec rfl rfl).mono (fun _ _ h => h) (fun _ h => owned h) fun _ h => h) fun _ => ?_
  refine Spec.bind look_spec fun status => Spec.ite (fun _ => ?_) fun _ => ?_
  · exact Spec.bind look_spec fun header => Spec.fail fun _ h => owned h
  · exact Spec.bind look_spec fun header => Spec.ret fun _ h => ⟨c, h⟩

theorem dropConnection_spec : Spec Owned (dropConnection : HttpProg σ Unit) (Ends (fun _ => Linked none) T C) := by
  rintro s ⟨one, h, hown⟩
  unfold dropConnection
  cases one with
  | none =>
    rw [hown]
    exact ⟨h, rfl⟩
  | some cp =>
    rw [hown]
    exact ⟨h.dropped _ rfl, rfl⟩

theorem openUrl_spec (url : String) : Spec Idle (openUrl idf url) (Ends (fun _ => Open) (Linked none) C) := by
  refine Spec.bind (Spec.attempt (X := Linked none) (request_spec idf url)) fun r => ?_
  cases r with
  | ok contentLength => exact Spec.ret fun _ h => h
  | error e => exact Spec.bind dropConnection_spec fun _ => Spec.fail fun _ h => h

theorem read_spec : Spec Open (read idf) (Ends (fun _ => Open) Open C) := by
  refine spec_own fun o => ?_
  obtain ⟨made, connection | c⟩ := o
  · exact Spec.fail fun s h => h.1
  · refine ((tryConnection_spec (c := c) (p := .answered) rfl rfl).pre ?_).mono (fun _ _ h => ⟨c, h⟩)
      (fun _ h => ⟨c, h⟩) fun _ h => h
    rintro s ⟨⟨c', h⟩, hown⟩
    have hc := h.2
    rw [hown] at hc
    cases hc
    exact h

theorem new_spec : Spec (Linked none) (new idf) (Ends (fun _ s => ∃ c, Linked (some (c, .fresh)) s) (Linked none) C) := by
  refine Spec.bind (newConnection_spec idf) fun c => ?_
  exact fun s h => ⟨c, h, rfl⟩

/-- Reading a closed stream is an error of its own. -/
theorem read_closed_spec : Spec (Linked none) (read idf) (Ends (fun _ => Linked none) (Linked none) C) := by
  refine spec_own fun o => ?_
  obtain ⟨made, connection | c⟩ := o
  · exact Spec.fail fun s h => h.1
  · rintro s ⟨h, hown⟩
    have := h.2
    simp [hown] at this

theorem read_settled_spec : Spec Settled (read idf) (Ends (fun _ => Settled) Settled C) := by
  rintro s (h | h)
  · exact (read_closed_spec (C := C) idf s h).mono (fun _ _ h => Or.inl h) (fun _ h => Or.inl h) fun _ h => h
  · exact (read_spec (C := C) idf s h).mono (fun _ _ h => Or.inr h) (fun _ h => Or.inr h) fun _ h => h

end EspHttpStream

/-! ### Any calls -/

inductive HttpUse where
  | openUrl (url : String)
  | read
  deriving DecidableEq, Repr

def EspHttpStream.use : HttpUse → HttpProg σ Unit
  | .openUrl url => do let _ ← attempt (openUrl idf url)
  | .read => do let _ ← attempt (read idf)

/-- A stream from `new` to its end, with any calls in between. -/
def httpSession (calls : List HttpUse) : HttpProg σ Unit := do
  match ← attempt (EspHttpStream.new idf) with
  | .error _ => pure ()
  | .ok () => do
    calls.forM (EspHttpStream.use idf)
    EspHttpStream.dropConnection

namespace EspHttpStream

theorem use_settled (call : HttpUse) : Spec Settled (use idf call) (Ends (fun _ => Settled) T C) := by
  cases call with
  | openUrl url =>
    refine Spec.bind (Spec.attempt (X := T) ((openUrl_spec idf url).pre fun _ h => h.idle)) fun r => Spec.ret ?_
    cases r with
    | ok _ => exact fun _ h => Or.inr h
    | error _ => exact fun _ h => Or.inl h
  | read =>
    refine Spec.bind (Spec.attempt (X := T) (read_settled_spec idf)) fun r => Spec.ret ?_
    cases r with
    | ok _ => exact fun _ h => h
    | error _ => exact fun _ h => h

theorem Settled.dropped : Spec Settled (dropConnection : HttpProg σ Unit) (Ends (fun _ => Linked none) T C) := by
  refine dropConnection_spec.pre ?_
  rintro s (h | ⟨c, h⟩)
  · exact ⟨_, h⟩
  · exact ⟨_, h⟩

/-- Something was asked of a connection that may not be. -/
def Refused (s : Rec σ HttpEvent EspHttpStream) : Prop := after connectionProtocol s.trace = none

/-- It stays so. -/
def StaysRefused (s t : Rec σ HttpEvent EspHttpStream) : Prop := Refused s → Refused t

theorem staysRefused_steps : Steps (StaysRefused (σ := σ)) := ⟨fun _ h => h, fun h h' hs => h' (h hs)⟩

theorem Refused.more {s : Rec σ HttpEvent EspHttpStream} (h : Refused s) {own : EspHttpStream} {env : σ}
    (u : List HttpEvent) :
    Refused { s with env := env, own := own, trace := u ++ s.trace } := after_none h u

theorem tryConnection_refused {α : Type} (c : Nat) (f : σ → Except String α × σ) (ev : Bool → ConnectionCall) :
    Keeps StaysRefused (tryConnection c f ev) := keeps_tryCall fun _ _ _ h => h.more _

theorem newConnection_refused : Keeps StaysRefused (newConnection idf) := by
  intro s h
  unfold newConnection
  rcases idf.newConnection s.env with ⟨_ | _, env⟩
  · exact h
  · exact h.more [_]

theorem dropConnection_refused : Keeps StaysRefused (dropConnection : HttpProg σ Unit) := fun _ h => h.more _

theorem request_refused (url : String) : Keeps StaysRefused (request idf url) := by
  have hR : Steps (StaysRefused (σ := σ)) := staysRefused_steps
  have hlook : ∀ {α : Type} {c : Nat} {f : σ → α × σ},
      Keeps StaysRefused (call f fun _ => [.called c .look] : HttpProg σ α) :=
    keeps_call fun _ _ _ h => h.more _
  refine Keeps.bind hR (Keeps.bind hR (Keeps.gets hR _) fun o => ?_) fun c => ?_
  · cases o.connection with
    | some c => exact Keeps.pure hR c
    | none => exact Keeps.bind hR (newConnection_refused idf) fun c => Keeps.bind hR (fun _ h => h) fun _ => Keeps.pure hR c
  refine Keeps.bind hR (tryConnection_refused _ _ _) fun _ => Keeps.bind hR (tryConnection_refused _ _ _) fun _ => ?_
  refine Keeps.bind hR hlook fun status => Keeps.ite ?_ ?_
  · exact Keeps.bind hR hlook fun _ => Keeps.throw hR _
  · exact Keeps.bind hR hlook fun _ => Keeps.pure hR _

theorem use_refused (call : HttpUse) : Keeps StaysRefused (use idf call) := by
  have hR : Steps (StaysRefused (σ := σ)) := staysRefused_steps
  cases call with
  | openUrl url =>
    refine Keeps.bind hR (Keeps.attempt (Keeps.bind hR (Keeps.attempt (request_refused idf url)) fun r => ?_)) fun _ =>
      Keeps.pure hR _
    cases r with
    | ok _ => exact Keeps.pure hR _
    | error e => exact Keeps.bind hR dropConnection_refused fun _ => Keeps.throw hR e
  | read =>
    refine Keeps.bind hR (Keeps.attempt (Keeps.bind hR (Keeps.gets hR _) fun o => ?_)) fun _ => Keeps.pure hR _
    cases o.connection with
    | some c => exact tryConnection_refused _ _ _
    | none => exact Keeps.throw hR _

theorem read_fresh : Spec (fun s => ∃ c, Linked (some (c, .fresh)) s) (use idf .read) (Ends (fun _ => Refused) T C) := by
  have hread : Spec (fun s => ∃ c, Linked (some (c, .fresh)) s) (read idf) (Ends (fun _ => Refused) Refused C) := by
    refine spec_own fun o => ?_
    obtain ⟨made, connection | c⟩ := o
    · rintro s ⟨⟨c, h⟩, hown⟩
      have := h.2
      simp [hown] at this
    · have hrefused : ∀ (s : Rec σ HttpEvent EspHttpStream) (env : σ) (b : Bool),
        ((∃ c, Linked (some (c, .fresh)) s) ∧ s.own = ⟨made, some c⟩) →
          Refused { s with env := env, trace := .called c (.read b) :: s.trace } := by
        rintro s env b ⟨⟨c', ⟨x, hx, hsole, -⟩, hown⟩, hc⟩
        rw [hc] at hown
        cases hown
        exact (after_cons hx).trans (hsole.refused (by cases b <;> rfl))
      exact spec_tryCall (fun s env a h => hrefused s env true h) fun s env e h => hrefused s env false h
  refine Spec.bind (Spec.attempt (X := T) hread) fun r => Spec.ret ?_
  cases r with
  | ok _ => exact fun _ h => h
  | error _ => exact fun _ h => h

theorem session_settled {calls : List HttpUse} (hcalls : calls.head? ≠ some .read) :
    Spec (fun s => ∃ c, Linked (some (c, .fresh)) s) (calls.forM (use idf)) (Ends (fun _ => Owned) T C) := by
  have howned : Spec Settled (calls.tail.forM (use idf)) (Ends (fun _ => Owned) T C) := by
    refine (Spec.forM (use_settled idf) calls.tail).mono ?_ (fun _ h => h) fun _ h => h
    rintro _ s (h | ⟨c, h⟩)
    · exact ⟨_, h⟩
    · exact ⟨_, h⟩
  cases calls with
  | nil => exact Spec.ret fun s ⟨c, h⟩ => ⟨_, h⟩
  | cons call calls =>
    cases call with
    | read => exact absurd rfl hcalls
    | openUrl url =>
      refine Spec.bind (R := fun _ => Settled) ?_ fun _ => howned
      refine Spec.bind (Spec.attempt (X := T) ((openUrl_spec idf url).pre fun s ⟨c, h⟩ =>
          Or.inr ⟨c, .fresh, Or.inl rfl, h⟩)) fun r =>
        Spec.ret ?_
      cases r with
      | ok _ => exact fun _ h => Or.inr h
      | error _ => exact fun _ h => Or.inl h

theorem session_refused (calls : List HttpUse) :
    Spec (fun s => ∃ c, Linked (some (c, .fresh)) s) ((HttpUse.read :: calls).forM (use idf))
      (Post (fun _ => Refused) Refused) := by
  refine Spec.bind (read_fresh idf) fun _ => ?_
  exact Spec.forM (fun call => Spec.of_keeps (use_refused idf call) fun _ _ h hR => hR h) calls

end EspHttpStream

theorem Linked.respected {one : Option (Nat × ConnectionPhase)} {s : Rec σ HttpEvent EspHttpStream} (h : Linked one s) :
    after connectionProtocol s.trace ≠ none := by
  obtain ⟨⟨x, hx, -⟩, -⟩ := h
  simp [hx]

theorem linked_start (env : σ) (gas : Nat) : Linked none (⟨env, ⟨0, none⟩, [], gas⟩ : Rec σ HttpEvent EspHttpStream) :=
  ⟨Lone.nil _ 0, rfl⟩

theorem httpSession_respected {calls : List HttpUse} (hcalls : calls.head? ≠ some .read) :
    Spec (Linked none) (httpSession idf calls) (Post (fun _ => Linked none) (Linked none)) := by
  refine Spec.bind (Spec.attempt (X := Linked none) (EspHttpStream.new_spec idf)) fun r => ?_
  cases r with
  | error e => exact Spec.ret fun _ h => h
  | ok _ => exact Spec.bind (EspHttpStream.session_settled idf hcalls) fun _ => EspHttpStream.dropConnection_spec

theorem new_ok {env env' : σ} {gas : Nat} (h : idf.newConnection env = (.ok (), env')) :
    EspHttpStream.new idf ⟨env, ⟨0, none⟩, [], gas⟩ = (.ret (), ⟨env', ⟨1, some 0⟩, [.made 0], gas⟩) := by
  simp [EspHttpStream.new, EspHttpStream.newConnection, bind_apply, h]

theorem new_error {env env' : σ} {gas : Nat} {e : String} (h : idf.newConnection env = (.error e, env')) :
    EspHttpStream.new idf ⟨env, ⟨0, none⟩, [], gas⟩ = (.err (.download e), ⟨env', ⟨0, none⟩, [], gas⟩) := by
  simp [EspHttpStream.new, EspHttpStream.newConnection, bind_apply, h]

/-- Whatever the connections answer and the caller does, a connection is asked only for what it can be asked for, unless the
    caller begins with a read; then that read is of a connection that was not asked for anything. -/
theorem http_respected_iff (calls : List HttpUse) (env : σ) (gas : Nat) :
    after connectionProtocol (httpSession idf calls ⟨env, ⟨0, none⟩, [], gas⟩).2.trace ≠ none ↔
      ((idf.newConnection env).1.isOk = true → calls.head? ≠ some .read) := by
  by_cases hhead : calls.head? = some .read
  · obtain ⟨calls, rfl⟩ := List.head?_eq_some_iff.mp hhead
    rcases hnew : idf.newConnection env with ⟨e | _, env'⟩
    · have hrun : httpSession idf (.read :: calls) ⟨env, ⟨0, none⟩, [], gas⟩ = (.ret (), ⟨env', ⟨0, none⟩, [], gas⟩) := by
        rw [httpSession, bind_apply, attempt, new_error idf hnew]
        rfl
      rw [hrun]
      simp [after, Except.isOk, Except.toBool]
    · have hfresh : ∃ c, Linked (some (c, .fresh)) (⟨env', ⟨1, some 0⟩, [.made 0], gas⟩ :
        Rec σ HttpEvent EspHttpStream) := by
        have h := EspHttpStream.new_spec (C := Linked none) idf _ (linked_start env gas)
        rw [new_ok idf hnew] at h
        exact h
      have hrefused := Spec.state (Spec.bind (EspHttpStream.session_refused idf calls) fun _ =>
        Spec.of_keeps EspHttpStream.dropConnection_refused fun _ _ h hR => hR h) hfresh
      have hrun : httpSession idf (.read :: calls) ⟨env, ⟨0, none⟩, [], gas⟩ =
          ((HttpUse.read :: calls).forM (EspHttpStream.use idf) >>= fun _ => EspHttpStream.dropConnection)
            ⟨env', ⟨1, some 0⟩, [.made 0], gas⟩ := by
        rw [httpSession, bind_apply, attempt, new_ok idf hnew]
      rw [hrun]
      exact iff_of_false (fun h => h hrefused) fun h => h rfl rfl
  · have hstands := Spec.state (httpSession_respected idf hhead) (linked_start env gas)
    exact iff_of_true hstands.respected fun _ => hhead

/-! ### An update -/

section
open EspHttpStream

/-- A program that has nothing to do with the stream. -/
def Aside {α : Type} (m : HttpProg σ α) : Prop :=
  Keeps (fun s t : Rec σ HttpEvent EspHttpStream => t.own = s.own ∧ t.trace = s.trace) m

theorem Linked.aside {one : Option (Nat × ConnectionPhase)} {s t : Rec σ HttpEvent EspHttpStream} (h : Linked one s)
    (hst : t.own = s.own ∧ t.trace = s.trace) : Linked one t := by
  obtain ⟨hown, htrace⟩ := hst
  rw [Linked, Alive, hown, htrace]
  exact h

theorem Aside.spec {α : Type} {m : HttpProg σ α} (hm : Aside m) {P : Rec σ HttpEvent EspHttpStream → Prop}
    (hP : ∀ {s t : Rec σ HttpEvent EspHttpStream}, P s → t.own = s.own ∧ t.trace = s.trace → P t) :
    Spec P m (Post (fun _ => P) P) :=
  Spec.of_keeps hm fun _ _ h hR => hP h hR

theorem Idle.aside {s t : Rec σ HttpEvent EspHttpStream} (h : Idle s)
    (hst : t.own = s.own ∧ t.trace = s.trace) : Idle t := by
  rcases h with h | ⟨c, p, hp, h⟩
  · exact Or.inl (h.aside hst)
  · exact Or.inr ⟨c, p, hp, h.aside hst⟩

theorem Open.aside {s t : Rec σ HttpEvent EspHttpStream} (h : Open s)
    (hst : t.own = s.own ∧ t.trace = s.trace) : Open t := by
  obtain ⟨c, h⟩ := h
  exact ⟨c, h.aside hst⟩

theorem Owned.aside {s t : Rec σ HttpEvent EspHttpStream} (h : Owned s)
    (hst : t.own = s.own ∧ t.trace = s.trace) : Owned t := by
  obtain ⟨one, h⟩ := h
  exact ⟨one, h.aside hst⟩

theorem aside_tryCall {α : Type} {f : σ → Except Error α × σ} : Aside (tryCall f fun _ => [] : HttpProg σ α) :=
  keeps_tryCall fun _ _ _ => ⟨rfl, rfl⟩

variable [Sha256]

/-- An update downloaded over a stream of its own. The sink and the waits have nothing to do with its connections. -/
def installOverHttp (update : UpdatePayload) (sink : SinkCalls σ) (step : Nat) (onProgress : ProgressCalls σ) :
    HttpProg σ Unit := do
  EspHttpStream.new idf
  let _ ← attempt (install update (EspHttpStream.stream idf) (sink.recorded (fun _ _ => []) (fun _ => []) []) step
    (onProgress.recorded (fun _ => []) (fun _ _ _ => []) fun _ _ => []))
  dropConnection

/-- Whatever the connections, the sink and the waits answer, `install` asks a connection only for what it can be asked for:
    it never begins a request in the middle of another, never comes back to a connection that an open failed on, and reads
    only one that has answered. When it is over, no connection is left. -/
theorem install_respected (update : UpdatePayload) (sink : SinkCalls σ) (step : Nat) (onProgress : ProgressCalls σ)
    (env : σ) (gas : Nat) :
    ∃ x, after connectionProtocol (installOverHttp idf update sink step onProgress
      ⟨env, ⟨0, none⟩, [], gas⟩).2.trace = some x ∧
      ((installOverHttp idf update sink step onProgress ⟨env, ⟨0, none⟩, [], gas⟩).1 ≠ .cut → ∀ i p, x i ≠ .live p) := by
  let sink' : ImageSink (Rec σ HttpEvent EspHttpStream) := sink.recorded (fun _ _ => []) (fun _ => []) []
  let onProgress' : Progress (Rec σ HttpEvent EspHttpStream) :=
    onProgress.recorded (fun _ => []) (fun _ _ _ => []) fun _ _ => []
  have hIdle : ∀ {s}, Idle s → Owned (σ := σ) s := by
    rintro s (h | ⟨c, p, -, h⟩)
    · exact ⟨_, h⟩
    · exact ⟨_, h⟩
  have hOpen : ∀ {s}, Open s → Owned (σ := σ) s := fun ⟨c, h⟩ => ⟨_, h⟩
  have hdownload : ∀ url, Spec Idle (download update url (EspHttpStream.stream idf) sink' step onProgress')
    (Post (fun _ => Owned) Owned) := by
    intro url
    refine (spec_download (O := Open) (F := Open) (fun s g h => Open.aside h ⟨rfl, rfl⟩) (fun _ h => h) (fun url => ?_)
      (fun d => aside_tryCall.spec Idle.aside) (read_spec idf) (fun chunk => aside_tryCall.spec Open.aside)
        (aside_tryCall.spec Open.aside)
      (fun percent => aside_tryCall.spec Open.aside) (fun _ => hIdle) (fun _ => hOpen) update url step).mono
        (fun _ _ => hOpen)
      (fun _ h => h) fun _ h => h
    exact (openUrl_spec idf url).mono (fun _ _ h => h) (fun _ h => Or.inl h) fun _ h => h
  have hinstall : Spec Idle (install update (EspHttpStream.stream idf) sink' step onProgress')
      (Post (fun _ => Owned) Owned) := by
    unfold install
    split
    · exact Spec.fail fun _ => hIdle
    · refine Spec.bind (Spec.attempt (X := Owned) (hdownload _)) fun r => ?_
      cases r with
      | ok report => exact Spec.bind (aside_tryCall.spec Owned.aside) fun _ => Spec.ret fun _ h => h
      | error err =>
        exact Spec.bind (R := fun _ => Owned) (fun s h => Owned.aside h ⟨rfl, rfl⟩) fun _ => Spec.fail fun _ h => h
  have hsession : Spec (Linked none) (installOverHttp idf update sink step onProgress)
    (Ends (fun _ => Linked none) (Linked none) Owned) := by
    refine Spec.bind ((new_spec idf).mono (fun _ _ h => h) (fun _ h => h) fun _ h => h) fun _ => ?_
    refine Spec.bind (Spec.attempt (X := Linked none)
      (hinstall.pre fun s ⟨c, h⟩ => Or.inr ⟨c, .fresh, Or.inl rfl, h⟩)) fun r => ?_
    cases r with
    | ok _ => exact dropConnection_spec
    | error _ => exact dropConnection_spec
  have hend := hsession _ (linked_start env gas)
  rcases ho : (installOverHttp idf update sink step onProgress ⟨env, ⟨0, none⟩, [], gas⟩).1 with a | e | _ <;>
    rw [ho] at hend
  · obtain ⟨⟨x, hx, hsole, -⟩, -⟩ := hend
    exact ⟨x, hx, fun _ i p h => by simpa using (hsole i p).mp h⟩
  · obtain ⟨⟨x, hx, hsole, -⟩, -⟩ := hend
    exact ⟨x, hx, fun _ i p h => by simpa using (hsole i p).mp h⟩
  · obtain ⟨one, ⟨x, hx, -⟩, -⟩ := hend
    exact ⟨x, hx, fun h => absurd rfl h⟩

end

end

end NervesHub
