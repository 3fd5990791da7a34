import NervesHubLink.Theorems.InstallSafe

/-! How often `install` tries to open the image's URL, how long it waits in between, and with what it gives up. -/

namespace NervesHub
open Act Prog Trace

namespace InstallEvent

def isOpen : InstallEvent → Bool
  | .opened _ _ => true
  | _ => false

/-- The error with which the URL could not be opened, or a wait could not be sat out. -/
def failure : InstallEvent → Option Error
  | .opened _ (.error err) => some err
  | .waited _ (.error err) => some err
  | _ => none

/-- A call that moves the image. -/
def isMove : InstallEvent → Bool
  | .read _ => true
  | .wrote _ _ => true
  | _ => false

end InstallEvent
open InstallEvent

/-! ### Attempts, and the waits between them -/

/-- How often the URL was opened, or was tried to be. -/
def opens (t : List InstallEvent) : Nat := t.countP isOpen

def WasOpened (t : List InstallEvent) : Prop := ∃ url n, InstallEvent.opened url (.ok n) ∈ t

/-- The connection, or the server for now, is to blame. -/
def Error.mayPass : Error → Prop
  | .download _ => True
  | .downloadStatus status _ => status = 408 ∨ status = 429 ∨ 500 ≤ status ∧ status ≤ 599
  | _ => False

def Error.retryAfter : Error → Option Nat
  | .downloadStatus _ secs => secs
  | _ => none

/-- The seconds to wait after the first, the second and the third attempt that failed, unless the server says more. -/
def backoffSecs : Nat → Nat
  | 1 => 5
  | 2 => 15
  | _ => 45

def waitSecs (i : Nat) (err : Error) : Nat :=
  match err.retryAfter with
  | some secs => max (backoffSecs i) (min secs 120)
  | none => backoffSecs i

/-- If it is a wait, it is one that the backoff allows. -/
def InstallEvent.InBounds (e : InstallEvent) : Prop := ∀ d r, e = .waited d r → ∃ i err, 1 ≤ i ∧ i ≤ 3 ∧
  d = .fromSecs (waitSecs i err) ∧ backoffSecs i ≤ waitSecs i err ∧ waitSecs i err ≤ 120

/-- What comes after the events of a list, as far as opening is concerned. -/
def Follows (url : Option String) : List InstallEvent → InstallEvent → Prop
  | [], e => ∃ u r, url = some u ∧ e = .opened u r
  | .opened _ (.error err) :: older, e =>
    (opens older < 3 ∧ err.mayPass ∧ ∃ r, e = .waited (.fromSecs (waitSecs (opens older + 1) err)) r) ∨
      (¬(opens older < 3 ∧ err.mayPass) ∧ e = .aborted)
  | .waited _ (.ok ()) :: _, e => ∃ u r, url = some u ∧ e = .opened u r
  | .waited _ (.error _) :: _, e => e = .aborted
  | _, e => e.isOpening = false

/-- What holds of every run of `install`, ended or not. -/
structure Retried (url : Option String) (o : Outcome Error InstallReport) (t : List InstallEvent) : Prop where
  began : ∀ u, url = some u → ∃ newer r, t = newer ++ [.opened u r]
  few : opens t ≤ 4
  follows : Throughout (fun e older => Follows url older e) t
  waits : Throughout (fun e _ => e.InBounds) t
  moved : OnlyAfter (·.isMove) WasOpened t
  again : OnlyAfter (·.isOpening) (fun older => ¬WasOpened older) t
  error : ¬WasOpened t → t ≠ [] → ∃ e older err, t = .aborted :: e :: older ∧ e.failure = some err ∧ o = .err err

@[simp] theorem opens_opened (url : String) (r : Except Error (Option Nat)) (t : List InstallEvent) :
    opens (.opened url r :: t) = opens t + 1 := by simp [opens, isOpen, List.countP_cons]

theorem opens_cons {e : InstallEvent} (h : e.isOpen = false) (t : List InstallEvent) : opens (e :: t) = opens t := by
  simp [opens, h]

/-- A record that is not empty begins with an attempt. -/
theorem began_of_follows {url : Option String} {t : List InstallEvent}
    (h : Throughout (fun e older => Follows url older e) t)
    (hne : t ≠ []) {u : String} (hu : url = some u) : ∃ newer r, t = newer ++ [.opened u r] := by
  obtain ⟨newer, e, rfl⟩ := (List.eq_nil_or_concat' t).resolve_left hne
  obtain ⟨u', r, hurl, rfl⟩ : Follows url [] e := h e [] (List.suffix_append newer [e])
  rw [hurl] at hu
  cases hu
  exact ⟨newer, r, rfl⟩

theorem waitSecs_bounds (i : Nat) (err : Error) : backoffSecs i ≤ waitSecs i err ∧ waitSecs i err ≤ 120 := by
  have hb : backoffSecs i ≤ 120 := by
    unfold backoffSecs
    split <;> decide
  unfold waitSecs
  split <;> omega

/-! ### The code's own terms -/

theorem worthRetrying_iff (err : Error) : worthRetrying err = true ↔ err.mayPass := by
  cases err <;> simp [worthRetrying, Error.mayPass, or_assoc]

theorem retryWait_eq {i : Nat} {backoff : Duration} (h : backoff = .fromSecs (backoffSecs i)) (err : Error) :
    retryWait backoff err = .fromSecs (waitSecs i err) := by
  subst h
  rcases err with _ | _ | _ | _ | _ | _ | ⟨status, _ | secs⟩ | _ | _ | _ <;> try rfl
  show Duration.mk _ = Duration.mk _
  congr 1
  show max _ (min _ _) = max _ (min _ _) * _
  simp only [Duration.fromSecs, retryAfterMax]
  omega

theorem retryWaits_drop {n : Nat} {backoff : Duration} {waits : List Duration} (h : retryWaits.drop n = backoff :: waits) :
    n < 3 ∧ backoff = .fromSecs (backoffSecs (n + 1)) ∧ waits = retryWaits.drop (n + 1) := by
  match n with
  | 0 => cases h; exact ⟨by decide, rfl, rfl⟩
  | 1 => cases h; exact ⟨by decide, rfl, rfl⟩
  | 2 => cases h; exact ⟨by decide, rfl, rfl⟩
  | n + 3 => simp [retryWaits] at h

/-! ### Opening -/

/-- Nothing but attempts that failed, and the waits after them. -/
structure Trying (url : String) (t : List InstallEvent) : Prop where
  follows : Throughout (fun e older => Follows (some url) older e) t
  opening : ∀ e ∈ t, e.isOpening = true
  unopened : ¬WasOpened t
  waits : Throughout (fun e _ => e.InBounds) t

/-- The URL is about to be opened once more. -/
structure Retryable (url : String) (n : Nat) (t : List InstallEvent) : Prop where
  trying : Trying url t
  opens : opens t = n
  next : ∀ r, Follows (some url) t (.opened url r)

structure GaveUp (url : String) (err : Error) (t : List InstallEvent) : Prop where
  trying : Trying url t
  few : opens t ≤ 4
  last : ∃ e older, t = e :: older ∧ e.failure = some err
  next : Follows (some url) t .aborted

/-- It was opened, and what comes since is of no concern to opening. -/
structure Downloading (url : String) (t : List InstallEvent) : Prop where
  few : opens t ≤ 4
  follows : Throughout (fun e older => Follows (some url) older e) t
  waits : Throughout (fun e _ => e.InBounds) t
  moved : OnlyAfter (·.isMove) WasOpened t
  again : OnlyAfter (·.isOpening) (fun older => ¬WasOpened older) t
  opened : WasOpened t
  next : ∀ e : InstallEvent, e.isOpening = false → Follows (some url) t e

section
variable {url : String} {n : Nat} {t : List InstallEvent} {err : Error}

theorem retryable_nil : Retryable url 0 [] :=
  ⟨⟨throughout_nil, by simp, by simp [WasOpened], throughout_nil⟩, rfl, fun r => ⟨url, r, rfl, rfl⟩⟩

theorem Trying.cons (h : Trying url t) {e : InstallEvent} (hnext : Follows (some url) t e) (hop : e.isOpening = true)
    (hun : ∀ url n, e ≠ .opened url (.ok n)) (hwait : ∀ d r, e = .waited d r → ∃ i err, 1 ≤ i ∧ i ≤ 3 ∧
      d = .fromSecs (waitSecs i err)) : Trying url (e :: t) where
  follows := throughout_cons.mpr ⟨hnext, h.follows⟩
  opening := List.forall_mem_cons.mpr ⟨hop, h.opening⟩
  unopened := by
    rintro ⟨u, m, hm⟩
    rcases List.mem_cons.mp hm with hm | hm
    · exact hun u m hm.symm
    · exact h.unopened ⟨u, m, hm⟩
  waits := by
    refine throughout_cons.mpr ⟨fun d r he => ?_, h.waits⟩
    obtain ⟨i, err, hi, hi', hd⟩ := hwait d r he
    exact ⟨i, err, hi, hi', hd, waitSecs_bounds i err⟩

theorem Retryable.opened (h : Retryable url n t) (hn : n ≤ 3) (length : Option Nat) :
    Downloading url (.opened url (.ok length) :: t) where
  few := by
    rw [opens_opened, h.opens]
    omega
  follows := throughout_cons.mpr ⟨h.next _, h.trying.follows⟩
  waits := throughout_cons.mpr ⟨fun d r he => absurd he (by simp), h.trying.waits⟩
  moved := by
    refine onlyAfter_cons.mpr ⟨fun he => absurd he (by simp [isMove]), fun e older hs he => ?_⟩
    have hop := h.trying.opening e (hs.subset List.mem_cons_self)
    cases e <;> simp [isMove, isOpening] at he hop
  again := by
    refine onlyAfter_cons.mpr ⟨fun _ => h.trying.unopened, ?_⟩
    rintro e older hs - ⟨u, m, hm⟩
    exact h.trying.unopened ⟨u, m, hs.subset (List.mem_cons_of_mem _ hm)⟩
  opened := ⟨url, length, List.mem_cons_self⟩
  next e he := he

theorem Retryable.failed (h : Retryable url n t) (hn : n ≤ 3) (hno : ¬(n < 3 ∧ err.mayPass)) :
    GaveUp url err (.opened url (.error err) :: t) where
  trying := h.trying.cons (h.next _) rfl (by simp) (by simp)
  few := by
    rw [opens_opened, h.opens]
    omega
  last := ⟨_, _, rfl, rfl⟩
  next := Or.inr ⟨by rwa [h.opens], rfl⟩

/-- The wait after an attempt that failed, and that is worth another. -/
theorem Retryable.waited (h : Retryable url n t) (hn : n < 3) (hpass : err.mayPass) (r : Except Error Unit) :
    Trying url (.waited (.fromSecs (waitSecs (n + 1) err)) r :: .opened url (.error err) :: t) := by
  refine (h.trying.cons (h.next _) rfl (by simp) (by simp)).cons (Or.inl ⟨by rwa [h.opens], hpass, r, by rw [h.opens]⟩) rfl
    (by simp) ?_
  intro d r' he
  cases he
  exact ⟨n + 1, err, by omega, by omega, rfl⟩

theorem Downloading.cons (h : Downloading url t) {e : InstallEvent} (he : e.isOpening = false) :
    Downloading url (e :: t) where
  few := by
    have hno : isOpen e = false := by cases e <;> simp_all [isOpening, isOpen]
    simpa [opens, hno] using h.few
  follows := throughout_cons.mpr ⟨h.next e he, h.follows⟩
  waits := throughout_cons.mpr ⟨fun d r heq => absurd he (by simp [heq, isOpening]), h.waits⟩
  moved := onlyAfter_cons.mpr ⟨fun _ => h.opened, h.moved⟩
  again := onlyAfter_cons.mpr ⟨fun hop => absurd hop (by simp [he]), h.again⟩
  opened := by
    obtain ⟨u, m, hm⟩ := h.opened
    exact ⟨u, m, List.mem_cons_of_mem _ hm⟩
  next e' he' := by cases e <;> first | exact he' | cases he

end

/-! ### Runs -/

section
variable {σ : Type} (http : HttpCalls σ) (progress : ProgressCalls σ) (url : String)

def OpenEnds (url : String) : Outcome Error (Option Nat) → Rig σ → Prop
  | .ret _, s => Downloading url s.trace
  | .err err, s => GaveUp url err s.trace
  | .cut, _ => False

theorem attempt_open (s : Rig σ) : ∃ r env, attempt (http.rig.openUrl url) s =
    (.ret r, { s with env := env, trace := .opened url r :: s.trace }) := by
  unfold attempt
  obtain ⟨r, -, ⟨n, -, hrun⟩ | ⟨err, -, hrun⟩⟩ :=
    tryCall_cases (X := Unit) (http.openUrl url) (fun r => [InstallEvent.opened url r]) s
  · exact ⟨.ok n, _, by rw [show http.rig.openUrl url s = _ from hrun]; rfl⟩
  · exact ⟨.error err, _, by rw [show http.rig.openUrl url s = _ from hrun]; rfl⟩

theorem openImage_ends (waits : List Duration) : ∀ n, retryWaits.drop n = waits → n ≤ 3 →
    Spec (fun s => Retryable url n s.trace) (openImage url http.rig progress.rig waits) (OpenEnds url) := by
  induction waits with
  | nil =>
    intro n hwaits hn s hs
    have hlast : ¬n < 3 := fun h => by
      have := List.drop_eq_nil_iff.mp hwaits
      simp [retryWaits] at this
      omega
    obtain ⟨r, env, hrun⟩ := attempt_open http url s
    rw [openImage, bind_ret hrun]
    cases r with
    | ok length => exact hs.opened hn length
    | error err => exact hs.failed hn fun h => hlast h.1
  | cons backoff waits ih =>
    intro n hwaits hn s hs
    obtain ⟨hlt, hbackoff, hrest⟩ := retryWaits_drop hwaits
    obtain ⟨r, env, hrun⟩ := attempt_open http url s
    rw [openImage, bind_ret hrun]
    cases r with
    | ok length => exact hs.opened hn length
    | error err =>
      dsimp only
      by_cases hretry : worthRetrying err = true
      · have hpass := (worthRetrying_iff err).mp hretry
        rw [if_pos hretry, retryWait_eq hbackoff]
        obtain ⟨r, -, ⟨u, -, hwait⟩ | ⟨err', -, hwait⟩⟩ := tryCall_cases (X := Unit)
          (progress.wait (.fromSecs (waitSecs (n + 1) err)))
            (fun r => [InstallEvent.waited (.fromSecs (waitSecs (n + 1) err)) r])
          { s with env := env, trace := .opened url (.error err) :: s.trace }
        · rw [bind_ret (show progress.rig.wait _ _ = _ from hwait)]
          refine ih (n + 1) hrest.symm hlt _ ⟨hs.waited hlt hpass _, ?_, fun r => ⟨url, r, rfl, rfl⟩⟩
          rw [← hs.opens, ← opens_opened url (.error err)]
          exact opens_cons rfl _
        · rw [bind_err (show progress.rig.wait _ _ = _ from hwait)]
          refine ⟨hs.waited hlt hpass _, ?_, ⟨_, _, rfl, rfl⟩, rfl⟩
          have hcount : opens (.opened url (.error err) :: s.trace) ≤ 4 := by
            rw [opens_opened, hs.opens]
            omega
          exact (opens_cons rfl _).le.trans hcount
      · rw [if_neg hretry]
        exact hs.failed hn fun h => hretry ((worthRetrying_iff err).mpr h.2)

variable {http progress url} {s : Rig σ}

/-- What moves the image, or commits or aborts it, is of no concern to opening. -/
theorem Downloading.keeps : Steps fun s t : Rig σ => Downloading url s.trace → Downloading url t.trace :=
  ⟨fun _ h => h, fun h k hs => k (h hs)⟩

theorem Downloading.keeps_call {α : Type} (f : σ → Except Error α × σ) {ev : Except Error α → InstallEvent}
    (hev : ∀ r, (ev r).isOpening = false) :
    Keeps (fun s t : Rig σ => Downloading url s.trace → Downloading url t.trace) (tryCall f fun r => [ev r]) :=
  keeps_tryCall fun _ _ r h => h.cons (hev r)

variable [Sha256] (sink : SinkCalls σ) (update : UpdatePayload) (step : Nat)

theorem keeps_copyImage_opened (size : Option Nat) :
    Keeps (fun s t : Rig σ => Downloading url s.trace → Downloading url t.trace)
      (copyImage http.rig sink.rig size step progress.rig) :=
  keeps_copyImage Downloading.keeps (fun _ _ h => h) (Downloading.keeps_call _ fun _ => rfl)
    (fun _ => Downloading.keeps_call _ fun _ => rfl)
    (Downloading.keeps_call _ fun _ => rfl) (fun _ => Downloading.keeps_call _ fun _ => rfl) size step

def DownloadEnds (url : String) : Outcome Error InstallReport → Rig σ → Prop
  | .err err, s => Downloading url s.trace ∨ GaveUp url err s.trace
  | _, s => Downloading url s.trace

theorem download_ends : Spec (fun s => Retryable url 0 s.trace) (download update url http.rig sink.rig step progress.rig)
    (DownloadEnds url) := by
  intro s hs
  have hopen := openImage_ends http progress url retryWaits 0 rfl (by decide) s hs
  unfold download
  rcases hrun : openImage url http.rig progress.rig retryWaits s with ⟨n | err | _, t⟩ <;> rw [hrun] at hopen
  · rw [bind_ret hrun]
    have hrest : Keeps (fun s t : Rig σ => Downloading url s.trace → Downloading url t.trace)
      (copyImage http.rig sink.rig (expectedSize update n)
        step progress.rig >>= fun r => ofExcept (verify update (expectedSize update n) r.1 r.2)) :=
      Keeps.bind Downloading.keeps (keeps_copyImage_opened sink step _) fun r => Keeps.ofExcept Downloading.keeps _
    have h := hrest t hopen
    rcases hout : (copyImage http.rig sink.rig (expectedSize update n) step progress.rig >>= fun r =>
      ofExcept (verify update (expectedSize update n) r.1 r.2)) t with ⟨r | err | _, u⟩ <;> rw [hout] at h
    · exact h
    · exact Or.inl h
    · exact h
  · rw [bind_err hrun]
    exact Or.inr hopen
  · exact absurd hopen id

omit [Sha256] in
theorem Downloading.retried {t : List InstallEvent} (h : Downloading url t) (o : Outcome Error InstallReport) :
    Retried (some url) o t := by
  obtain ⟨u, m, hm⟩ := h.opened
  exact ⟨fun _ => began_of_follows h.follows (List.ne_nil_of_mem hm), h.few, h.follows, h.waits, h.moved, h.again,
    fun hun => absurd h.opened hun⟩

omit [Sha256] in
theorem GaveUp.retried {t : List InstallEvent} {err : Error} (h : GaveUp url err t) :
    Retried (some url) (.err err) (.aborted :: t) := by
  obtain ⟨e, older, rfl, he⟩ := h.last
  have hfollows : Throughout (fun e older => Follows (some url) older e) (.aborted :: e :: older) :=
    throughout_cons.mpr ⟨h.next, h.trying.follows⟩
  refine ⟨fun _ => began_of_follows hfollows (List.cons_ne_nil _ _), (opens_cons rfl _).le.trans h.few, hfollows,
    throughout_cons.mpr ⟨fun d r heq => absurd heq (by simp), h.trying.waits⟩, ?_, ?_, fun _ _ =>
      ⟨e, older, err, rfl, he, rfl⟩⟩
  · rintro e' older' hs hmove
    rcases List.suffix_cons_iff.mp hs with heq | hs
    · cases heq
      cases hmove
    · have hop := h.trying.opening e' (hs.subset List.mem_cons_self)
      cases e' <;> simp [isMove, isOpening] at hmove hop
  · rintro e' older' hs - ⟨u, m, hm⟩
    rcases List.suffix_cons_iff.mp hs with heq | hs
    · cases heq
      exact h.trying.unopened ⟨u, m, hm⟩
    · exact h.trying.unopened ⟨u, m, hs.subset (List.mem_cons_of_mem _ hm)⟩

/-- However opening and waiting go, `install` begins with opening the URL, opens it at most four times, waits as the
    backoff and the server say, gives up with the last error, and never comes back to opening once it has succeeded. -/
theorem install_retried (env : σ) (gas : Nat) :
    Retried (update.actionable.map (·.1)) (install update http.rig sink.rig step progress.rig (Rig.start env gas)).1
      (install update http.rig sink.rig step progress.rig (Rig.start env gas)).2.trace := by
  cases hact : update.actionable with
  | none =>
    unfold install
    rw [hact]
    exact ⟨fun u h => absurd h (Option.some_ne_none u).symm, Nat.zero_le _, throughout_nil, throughout_nil, onlyAfter_nil,
      onlyAfter_nil, fun _ h => absurd rfl h⟩
  | some urlUuid =>
    obtain ⟨url, uuid⟩ := urlUuid
    have hd : DownloadEnds url (download update url http.rig sink.rig step progress.rig (Rig.start env gas)).1
        (download update url http.rig sink.rig step progress.rig (Rig.start env gas)).2 :=
          download_ends sink update step _ retryable_nil
    rcases hrun : download update url http.rig sink.rig step progress.rig (Rig.start env gas) with ⟨report | err | _, t⟩
    all_goals rw [hrun] at hd
    · rw [install_of_ret hact hrun]
      have hcommit : Keeps (fun s t : Rig σ => Downloading url s.trace → Downloading url t.trace)
          (sink.rig.commit >>= fun _ => pure report) :=
        Keeps.bind Downloading.keeps (Downloading.keeps_call _ fun _ => rfl) fun _ => Keeps.pure Downloading.keeps _
      exact (hcommit t hd).retried _
    · rw [install_of_err hact hrun]
      rcases hd with h | h
      · exact (h.cons rfl).retried _
      · exact h.retried
    · rw [install_of_cut hact hrun]
      exact Downloading.retried hd _

end

end NervesHub
