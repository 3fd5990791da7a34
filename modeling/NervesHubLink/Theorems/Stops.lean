import NervesHubLink.Tls
import NervesHubLink.Lib.Mutex

/-! What a stop does to the transport, however its steps fall between the transport's own. -/

namespace NervesHub
namespace Tls
open Machine Trace

variable {ι : Type} {s s' : State ι} {e : Event ι} {t : List (Event ι)} {i : ι}

/-! ### The sections under the lock -/

/-- The task is in a section under the lock. -/
def Task.Holds : Task → Prop
  | .withdrawing _ | .withdrawn _ | .publishing | .published => True
  | _ => False

def Call.Holds : Call → Prop
  | .locked | .reaching _ | .shut => True
  | _ => False

def State.Has (s : State ι) : Holder ι → Prop
  | .task => s.task.Holds
  | .call i => (s.calls i).Holds

/-! ### The connection's socket -/

/-- A number that the transport has a socket under. -/
def Own (sockets : Int → Option Socket) (fd : Int) : Prop :=
  0 ≤ fd ∧ ∃ socket, sockets fd = some socket ∧ socket.owner = .transport

/-- There is no connection, and no socket is published. -/
def State.Apart (s : State ι) : Prop := s.socket < 0 ∧ s.tls = none

/-- There is a connection, whose socket is not published. -/
def State.Unpublished (s : State ι) : Prop := s.socket < 0 ∧ s.tls = some s.sockfd ∧ Own s.sockets s.sockfd

/-- There is a connection, and its socket is the one that is published. -/
def State.Linked (s : State ι) : Prop := s.socket = s.sockfd ∧ s.tls = some s.sockfd ∧ Own s.sockets s.sockfd

/-- What is so of the connection before each step of the task. -/
def State.Fits (s : State ι) : Prop :=
  match s.task with
  | .idle | .closing _ | .withdrawing _ => s.Apart ∨ s.Linked
  | .withdrawn _ | .destroying _ => s.Apart ∨ s.Unpublished
  | .gone | .checking | .opening | .failing none => s.Apart
  | .opened fd | .failing (some fd) => s.Apart ∧ Own s.sockets fd
  | .locking | .publishing => s.Unpublished
  | .published | .waiting | .selecting | .woken => s.Linked
  | .asleep fd => s.Linked ∧ fd = s.sockfd

theorem State.Fits.linked (h : s.Fits) (hs : 0 ≤ s.socket) : s.Linked := by
  have apart : ¬ s.Apart := fun ha => absurd ha.1 (by omega)
  have unpublished : ¬ s.Unpublished := fun hu => absurd hu.1 (by omega)
  unfold State.Fits at h
  split at h <;> simp_all

theorem Own.update {sockets : Int → Option Socket} {fd fd' : Int} {socket : Option Socket} (h : Own sockets fd)
    (hne : fd ≠ fd') : Own (Function.update sockets fd' socket) fd := by
  obtain ⟨hfd, own, hown, ho⟩ := h
  exact ⟨hfd, own, by rw [Function.update_of_ne hne, hown], ho⟩

theorem Own.ne {sockets : Int → Option Socket} {fd fd' : Int} (h : Own sockets fd) (hfree : sockets fd' = none) :
    fd ≠ fd' := by
  obtain ⟨-, own, hown, -⟩ := h
  rintro rfl
  rw [hfree] at hown
  cases hown

theorem Own.opened (sockets : Int → Option Socket) {fd : Int} (hfd : 0 ≤ fd) :
    Own (Function.update sockets fd (some ⟨.transport, false⟩)) fd :=
  ⟨hfd, ⟨.transport, false⟩, by simp, rfl⟩

/-- The numbers stay the transport's, though their sockets may be shut down. -/
theorem State.Fits.mono (h : s.Fits) {sockets : Int → Option Socket} (hown : ∀ fd, Own s.sockets fd → Own sockets fd) :
    State.Fits { s with sockets := sockets } := by
  have unpublished (hu : s.Unpublished) : State.Unpublished { s with sockets := sockets } :=
    ⟨hu.1, hu.2.1, hown _ hu.2.2⟩
  have linked (hl : s.Linked) : State.Linked { s with sockets := sockets } := ⟨hl.1, hl.2.1, hown _ hl.2.2⟩
  unfold State.Fits at h ⊢
  split at h <;> rename_i ht <;> simp only [ht]
  · exact h.imp id linked
  · exact h.imp id linked
  · exact h.imp id linked
  · exact h.imp id unpublished
  · exact h.imp id unpublished
  · exact h
  · exact h
  · exact h
  · exact h
  · exact ⟨h.1, hown _ h.2⟩
  · exact ⟨h.1, hown _ h.2⟩
  · exact unpublished h
  · exact unpublished h
  · exact linked h
  · exact linked h
  · exact linked h
  · exact linked h
  · exact ⟨linked h.1, h.2⟩

def Task.Selects : Task → Prop
  | .selecting | .asleep _ => True
  | _ => False

theorem State.Fits.selects (h : s.Fits) (hs : s.task.Selects) : s.Linked := by
  unfold State.Fits at h
  split at h <;> simp_all [Task.Selects]

/-! ### The task -/

theorem TaskStep.calls (h : TaskStep s e s') : s'.calls = s.calls := by cases h <;> rfl

theorem TaskStep.stopping (h : TaskStep s e s') : s'.stopping = s.stopping := by cases h <;> rfl

theorem TaskStep.turn (h : TaskStep s e s') : Mutex.Turn .task s.lock s'.lock s.Has s'.Has := by
  cases h with
  | withdrawLock ht hl => exact .takes hl rfl trivial
  | publishLock ht hl => exact .takes hl rfl trivial
  | withdrawUnlock ht => exact .gives (by simp [State.Has, ht, Task.Holds]) rfl id
  | publishUnlock ht => exact .gives (by simp [State.Has, ht, Task.Holds]) rfl id
  | @destroy why ht => exact .keeps rfl (by cases why <;> simp [State.Has, ht, Task.Holds, Purpose.next])
  | _ => exact .keeps rfl (by simp [State.Has, Task.Holds, *])

theorem TaskStep.fits (h : TaskStep s e s') (hf : s.Fits) : s'.Fits := by
  cases h with
  | close why ht =>
    simp only [State.Fits, ht] at hf
    exact hf
  | withdrawLock ht hl =>
    simp only [State.Fits, ht] at hf
    exact hf
  | withdraw ht =>
    simp only [State.Fits, ht] at hf ⊢
    rcases hf with hf | hf
    · exact .inl ⟨by simp, hf.2⟩
    · exact .inr ⟨by simp, hf.2⟩
  | withdrawUnlock ht =>
    simp only [State.Fits, ht] at hf
    exact hf
  | @destroy why ht =>
    simp only [State.Fits, ht] at hf
    have hs : s.socket < 0 := hf.elim (·.1) (·.1)
    cases why with
    | close => exact .inl ⟨hs, rfl⟩
    | connect => exact ⟨hs, rfl⟩
    | destroy => exact ⟨hs, rfl⟩
  | connectStopped ht hs =>
    simp only [State.Fits, ht] at hf
    exact .inl hf
  | connectGoes ht hs =>
    simp only [State.Fits, ht] at hf
    exact hf
  | openNothing ht =>
    simp only [State.Fits, ht] at hf
    exact hf
  | openFails fd ht hfd hfree =>
    simp only [State.Fits, ht] at hf
    exact ⟨hf, Own.opened _ hfd⟩
  | openMade fd ht hfd hfree =>
    simp only [State.Fits, ht] at hf
    exact ⟨hf, Own.opened _ hfd⟩
  | noSockfd ht =>
    simp only [State.Fits, ht] at hf
    exact hf
  | @giveUp fd ht =>
    simp only [State.Fits, ht] at hf
    cases fd with
    | none => exact .inl hf
    | some fd => exact .inl hf.1
  | made ht =>
    simp only [State.Fits, ht] at hf
    exact ⟨hf.1.1, rfl, hf.2⟩
  | publishLock ht hl =>
    simp only [State.Fits, ht] at hf
    exact hf
  | publish ht =>
    simp only [State.Fits, ht] at hf
    exact ⟨rfl, hf.2⟩
  | publishUnlock ht =>
    simp only [State.Fits, ht] at hf
    exact .inr hf
  | wait ht hc =>
    simp only [State.Fits, ht] at hf
    rcases hf with hf | hf
    · rw [hf.2] at hc
      cases hc
    · exact hf
  | waitStopped ht hs =>
    simp only [State.Fits, ht] at hf
    exact .inr hf
  | waitGoes ht hs =>
    simp only [State.Fits, ht] at hf
    exact hf
  | select ht =>
    simp only [State.Fits, ht] at hf
    exact ⟨hf, rfl⟩
  | unselectable ht =>
    simp only [State.Fits, ht] at hf
    exact hf
  | wake ht =>
    simp only [State.Fits, ht] at hf
    exact hf.1
  | waited ht =>
    simp only [State.Fits, ht] at hf
    exact .inr hf

/-- The published socket changes under the lock only. -/
theorem TaskStep.socket (h : TaskStep s e s') : s'.socket = s.socket ∨ s.task.Holds := by
  cases h with
  | withdraw ht => exact .inr (by simp [ht, Task.Holds])
  | publish ht => exact .inr (by simp [ht, Task.Holds])
  | _ => exact .inl rfl

/-- The task comes to a `select` by way of the flag. -/
theorem TaskStep.selects (h : TaskStep s e s') (hs : s'.task.Selects) :
    s.stopping = false ∨ s.task.Selects ∧ s'.sockets = s.sockets ∧ s'.sockfd = s.sockfd := by
  cases h with
  | waitGoes ht hf => exact .inl hf
  | select ht => exact .inr ⟨by simp [ht, Task.Selects], rfl, rfl⟩
  | @destroy why ht => cases why <;> simp [Purpose.next, Task.Selects] at hs
  | _ => simp [Task.Selects, *] at hs

theorem TaskStep.selecting (h : TaskStep s e s') (hs : s'.task = .selecting) : s.stopping = false ∧ e = .internal := by
  cases h with
  | waitGoes ht hf => exact ⟨hf, rfl⟩
  | @destroy why ht => cases why <;> simp [Purpose.next] at hs
  | _ => simp_all

theorem TaskStep.ne_stopped (h : TaskStep s e s') : e ≠ .stopped i := by cases h <;> simp

/-! ### Other connections -/

theorem OtherStep.eq (h : OtherStep s e s') : s' = { s with sockets := s'.sockets } := by cases h <;> rfl

theorem OtherStep.internal (h : OtherStep s e s') : e = .internal := by cases h <;> rfl

theorem OtherStep.sockets (h : OtherStep s e s') {fd : Int} (hfd : Own s.sockets fd) : s'.sockets fd = s.sockets fd := by
  cases h with
  | opens fd' hn hfree => exact Function.update_of_ne (hfd.ne hfree) _ _
  | @closes fd' socket hopen hother =>
    refine Function.update_of_ne ?_ _ _
    rintro rfl
    obtain ⟨-, own, hown, ho⟩ := hfd
    rw [hopen] at hown
    cases hown
    rw [hother] at ho
    cases ho

theorem OtherStep.own (h : OtherStep s e s') {fd : Int} (hfd : Own s.sockets fd) : Own s'.sockets fd := by
  obtain ⟨hn, own, hown, ho⟩ := hfd
  exact ⟨hn, own, (h.sockets ⟨hn, own, hown, ho⟩).trans hown, ho⟩

/-! ### Calls of `stop` -/

variable [DecidableEq ι]

@[simp] theorem State.callAt_self (s : State ι) (i : ι) (c : Call) : s.callAt i c i = c := by
  simp [State.callAt]

theorem State.callAt_of_ne (s : State ι) {i j : ι} (c : Call) (hj : j ≠ i) : s.callAt i c j = s.calls j := by
  simp [State.callAt, hj]

theorem StopStep.task (h : StopStep i s e s') : s'.task = s.task := by cases h <;> rfl

theorem StopStep.connection (h : StopStep i s e s') :
    s'.socket = s.socket ∧ s'.tls = s.tls ∧ s'.sockfd = s.sockfd := by cases h <;> exact ⟨rfl, rfl, rfl⟩

theorem StopStep.calls {j : ι} (h : StopStep i s e s') (hj : j ≠ i) : s'.calls j = s.calls j := by
  cases h <;> exact s.callAt_of_ne _ hj

theorem StopStep.ne_waits (h : StopStep i s e s') : e ≠ .waits := by cases h <;> simp

theorem StopStep.stopping (h : StopStep i s e s') :
    s'.stopping = true ∨ s.calls i ≠ .idle ∧ s'.stopping = s.stopping := by
  cases h with
  | flag hc => exact .inl rfl
  | _ => exact .inr ⟨by simp [*], rfl⟩

theorem StopStep.turn (h : StopStep i s e s') : Mutex.Turn (.call i) s.lock s'.lock s.Has s'.Has := by
  cases h with
  | lock hc hl => exact .takes hl rfl (by simp [State.Has, Call.Holds])
  | unlock hc => exact .gives (by simp [State.Has, hc, Call.Holds]) rfl (by simp [State.Has, Call.Holds])
  | _ => exact .keeps rfl (by simp [State.Has, Call.Holds, *])

theorem StopStep.own (h : StopStep i s e s') {fd : Int} (hfd : Own s.sockets fd) : Own s'.sockets fd := by
  cases h with
  | @shutdown fd' hc =>
    by_cases hne : fd = fd'
    · subst hne
      obtain ⟨hn, own, hown, ho⟩ := hfd
      exact ⟨hn, { own with shut := true }, by simp [State.shutDown, hown], ho⟩
    · exact hfd.update hne
  | _ => exact hfd

/-! ### What every step preserves -/

theorem Step.locked (h : Step s e s') (hl : Mutex.Sound s.lock s.Has) : Mutex.Sound s'.lock s'.Has := by
  cases h with
  | task h =>
    refine hl.turn h.turn fun b hb => ?_
    cases b with
    | task => exact absurd rfl hb
    | call j => simp only [State.Has, h.calls]
  | stop i h =>
    refine hl.turn h.turn fun b hb => ?_
    cases b with
    | task => simp only [State.Has, h.task]
    | call j => simp only [State.Has, h.calls fun hj : j = i => hb (congrArg _ hj)]
  | other h =>
    rw [h.eq]
    exact hl

theorem Step.fits (h : Step s e s') (hf : s.Fits) : s'.Fits := by
  cases h with
  | task h => exact h.fits hf
  | stop i h =>
    obtain ⟨hsocket, htls, hsockfd⟩ := h.connection
    have hm := hf.mono fun _ => h.own
    simpa only [State.Fits, State.Apart, State.Linked, State.Unpublished, h.task, hsocket, htls, hsockfd] using hm
  | other h =>
    rw [h.eq]
    exact hf.mono fun _ => h.own

/-! ### What a call of `stop` finds -/

/-- The socket that a call is about to shut down is the one that is published. -/
def State.Aims (s : State ι) : Prop := ∀ i fd, s.calls i = .reaching fd → s.socket = fd ∧ 0 ≤ fd

theorem Step.aims (h : Step s e s') (hl : Mutex.Sound s.lock s.Has) (ha : s.Aims) : s'.Aims := by
  intro i fd hi
  cases h with
  | task h =>
    rw [h.calls] at hi
    rcases h.socket with hs | hs
    · rw [hs]
      exact ha i fd hi
    · have ht : s.Has .task := hs
      have hc : s.Has (.call i) := by simp [State.Has, hi, Call.Holds]
      cases hl.exclusive ht hc
  | stop j h =>
    rw [h.connection.1]
    by_cases hij : i = j
    · subst hij
      cases h with
      | socket hc hs =>
        obtain rfl : s.socket = fd := by simpa using hi
        exact ⟨rfl, hs⟩
      | _ => simp at hi
    · rw [h.calls hij] at hi
      exact ha i fd hi
  | other h =>
    rw [h.eq] at hi ⊢
    exact ha i fd hi

/-- A call that has begun has set the flag. -/
def State.Flagged (s : State ι) : Prop := ∀ i, s.calls i ≠ .idle → s.stopping = true

theorem Step.flagged (h : Step s e s') (hf : s.Flagged) : s'.Flagged := by
  intro i hi
  cases h with
  | task h =>
    rw [h.calls] at hi
    rw [h.stopping]
    exact hf i hi
  | stop j h =>
    rcases h.stopping with hs | ⟨hj, hs⟩
    · exact hs
    · rw [hs]
      exact hf j hj
  | other h =>
    rw [h.eq] at hi ⊢
    exact hf i hi

/-- It has shut the published socket down, if it saw one. -/
def Call.Done : Call → Prop
  | .shut | .returned => True
  | _ => False

/-- No `select` goes on that a call has not cut short. -/
def State.Cut (s : State ι) : Prop :=
  ∀ i, (s.calls i).Done → s.task.Selects → s.sockets s.sockfd = some ⟨.transport, true⟩

theorem Step.cut (h : Step s e s') (hf : s.Fits) (ha : s.Aims) (hflag : s.Flagged) (hc : s.Cut) : s'.Cut := by
  intro i hi hsel
  cases h with
  | task h =>
    rw [h.calls] at hi
    rcases h.selects hsel with hs | ⟨hsel, hsockets, hsockfd⟩
    · have hi' : s.calls i ≠ .idle := fun hc => by simp [hc, Call.Done] at hi
      rw [hflag i hi'] at hs
      cases hs
    · rw [hsockets, hsockfd]
      exact hc i hi hsel
  | stop j h =>
    have hlinked : s.Linked := hf.selects (h.task ▸ hsel)
    obtain ⟨hsocket, -, hn, own, hown, ho⟩ := hlinked
    cases h with
    | shutdown hj =>
      obtain ⟨hfd, -⟩ := ha _ _ hj
      obtain ⟨owner, shut⟩ := own
      cases ho
      simp [State.shutDown, ← hfd, hsocket, hown]
    | noSocket hj hneg => omega
    | unlock hj => exact hc j (by simp [hj, Call.Done]) hsel
    | _ =>
      by_cases hij : i = j
      · subst hij
        simp [Call.Done] at hi
      · simp only [State.callAt_of_ne _ _ hij] at hi
        exact hc i hi hsel
  | other h =>
    have hown := (hf.selects (s := s) (by rw [h.eq] at hsel; exact hsel)).2.2
    have hs := h.sockets hown
    rw [h.eq] at hi hsel ⊢
    exact hs.trans (hc i hi hsel)

/-- A call that is on record as returned has done so. -/
def State.Told (s : State ι) (t : List (Event ι)) : Prop := ∀ i, .stopped i ∈ t → s.calls i = .returned

theorem Step.told (h : Step s e s') (ht : s.Told t) : s'.Told (e :: t) := by
  intro i hi
  cases h with
  | task h =>
    rw [h.calls]
    exact ht i ((List.mem_cons.mp hi).resolve_left h.ne_stopped.symm)
  | stop j h =>
    by_cases hij : i = j
    · subst hij
      cases h with
      | unlock hc => simp
      | _ =>
        have hr := ht i (by simpa using hi)
        simp_all
    · rw [h.calls hij]
      refine ht i ((List.mem_cons.mp hi).resolve_left ?_)
      rintro rfl
      cases h
      exact hij rfl
  | other h =>
    rw [h.internal] at hi
    rw [h.eq]
    exact ht i (by simpa using hi)

/-- A wait that is about to call `select` began before any call returned. -/
def State.Early (s : State ι) (t : List (Event ι)) : Prop := s.task = .selecting → ∀ i, .stopped i ∉ beforeWait t

omit [DecidableEq ι] in
theorem beforeWait_suffix (t : List (Event ι)) : beforeWait t <:+ t := by
  induction t with
  | nil => exact List.suffix_refl _
  | cons e t ih => cases e <;> first | exact List.suffix_cons _ _ | exact ih.trans (List.suffix_cons _ _)

omit [DecidableEq ι] in
theorem beforeWait_cons (he : e ≠ .waits) : beforeWait (e :: t) = beforeWait t := by
  cases e with
  | waits => exact absurd rfl he
  | _ => rfl

theorem Step.early (h : Step s e s') (hflag : s.Flagged) (ht : s.Told t) (he : s.Early t) : s'.Early (e :: t) := by
  intro hs i hi
  cases h with
  | task h =>
    obtain ⟨hf, rfl⟩ := h.selecting hs
    have hr := ht i ((beforeWait_suffix t).subset hi)
    rw [hflag i (by simp [hr])] at hf
    cases hf
  | stop j h =>
    rw [beforeWait_cons h.ne_waits] at hi
    exact he (h.task ▸ hs) i hi
  | other h =>
    rw [beforeWait_cons (by simp [h.internal])] at hi
    rw [h.eq] at hs
    exact he hs i hi

/-- What is so at every moment. -/
structure Sound (s : State ι) (t : List (Event ι)) : Prop where
  lock : Mutex.Sound s.lock s.Has
  fits : s.Fits
  aims : s.Aims
  flagged : s.Flagged
  cut : s.Cut
  told : s.Told t
  early : s.Early t

omit [DecidableEq ι] in
theorem Sound.new (sockets : Int → Option Socket) : Sound (State.new sockets : State ι) [] where
  lock a := by cases a <;> simp [State.new, State.Has, Task.Holds, Call.Holds]
  fits := .inl ⟨by simp [State.new], rfl⟩
  aims i fd h := by cases h
  flagged i h := absurd rfl h
  cut i h := h.elim
  told i h := by cases h
  early h := by cases h

theorem Step.sound (h : Step s e s') (hs : Sound s t) : Sound s' (e :: t) where
  lock := h.locked hs.lock
  fits := h.fits hs.fits
  aims := h.aims hs.lock hs.aims
  flagged := h.flagged hs.flagged
  cut := h.cut hs.fits hs.aims hs.flagged hs.cut
  told := h.told hs.told
  early := h.early hs.flagged hs.told hs.early

/-- From a new transport on. -/
def Runs (sockets : Int → Option Socket) (s : State ι) (t : List (Event ι)) : Prop :=
  Reads Step (State.new sockets) [] s t

variable {sockets : Int → Option Socket}

theorem Runs.sound (h : Runs sockets s t) : Sound s t :=
  h.always (Sound.new sockets) fun hs hstep => hstep.sound hs

/-! ### What a stop comes to -/

/-- An open socket of the transport. -/
def Reaches (reached : Option Socket) : Prop := ∃ socket, reached = some socket ∧ socket.owner = .transport

/-- A shutdown reaches an open socket of the transport. -/
def Event.Safe : Event ι → Prop
  | .shutdown _ _ reached => Reaches reached
  | _ => True

theorem Sound.safe (hs : Sound s t) (h : Step s e s') : e.Safe := by
  cases h with
  | task h => cases h <;> trivial
  | other h => cases h <;> trivial
  | stop i h =>
    cases h with
    | shutdown hc =>
      obtain ⟨hfd, hn⟩ := hs.aims _ _ hc
      obtain ⟨hsocket, -, -, hown⟩ := hs.fits.linked (hfd ▸ hn)
      rw [← hfd, hsocket]
      exact hown
    | _ => trivial

/-- A `select` is called in a wait that began before any call of `stop` returned. -/
def Event.InTime (e : Event ι) (older : List (Event ι)) : Prop :=
  ∀ fd, e = .selects fd → ∀ i, .stopped i ∉ beforeWait older

theorem Sound.inTime (hs : Sound s t) (h : Step s e s') : e.InTime t := by
  rintro fd rfl
  cases h with
  | task h =>
    cases h with
    | select ht => exact hs.early ht
  | stop i h => cases h
  | other h => cases h

/-- The task can leave the wait at once, and no step takes it anywhere else. -/
def State.Returns (s : State ι) : Prop :=
  (∃ s', TaskStep s .internal s' ∧ s'.task = .idle) ∧ ∀ e s', Step s e s' → s'.task = s.task ∨ s'.task = .idle

theorem State.returns (ht : s.task = .waiting) (hf : s.stopping = true) : s.Returns := by
  refine ⟨⟨_, .waitStopped ht hf, rfl⟩, fun e s' h => ?_⟩
  cases h with
  | task h => exact .inr (by cases h <;> simp_all)
  | stop i h => exact .inl h.task
  | other h => exact .inl (by rw [h.eq])

/-- However the steps of stops, of the transport and of other connections fall: a shutdown reaches an open socket of the
transport and no other. Once a call of `stop` has returned, a `select` that still goes on is on a socket that was shut
down, a wait that begins calls none, and it returns. -/
theorem stop_sound (h : Runs sockets s t) :
    Throughout (fun e _ => e.Safe) t ∧ Throughout Event.InTime t ∧
      ∀ i, .stopped i ∈ t →
        (∀ fd, s.task = .asleep fd → s.sockets fd = some ⟨.transport, true⟩) ∧ (s.task = .waiting → s.Returns) := by
  refine ⟨h.throughout throughout_nil fun hr hs => (Runs.sound hr).safe hs,
    h.throughout throughout_nil fun hr hs => (Runs.sound hr).inTime hs, fun i hi => ?_⟩
  have hs := h.sound
  have hr := hs.told i hi
  refine ⟨fun fd ht => ?_, fun ht => State.returns ht (hs.flagged i (by simp [hr]))⟩
  have hfd : fd = s.sockfd := by
    have hf := hs.fits
    simp only [State.Fits, ht] at hf
    exact hf.2
  rw [hfd]
  exact hs.cut i (by simp [hr, Call.Done]) (by simp [ht, Task.Selects])

/-- A stop comes between a wait's look at the flag and its `select`, on a number that another connection had before. -/
theorem stop_sound_selecting : ∃ (s : State Unit) (t : List (Event Unit)), Runs (fun _ => none) s t ∧
    s.task = .asleep 54 ∧ .stopped () ∈ t ∧ s.sockets 54 = some ⟨.transport, true⟩ ∧ Throughout (fun e _ => e.Safe) t := by
  have first : Reads Step (State.new fun _ => none : State Unit) [] _ [] := .start
  have other := first.step (.other (.opens 54 (by decide) rfl)) |>.step (.other (@OtherStep.closes _ _ 54 _ rfl rfl))
  have withdrawn := other.step (.task (.close .connect rfl)) |>.step (.task (.withdrawLock rfl rfl))
    |>.step (.task (.withdraw rfl)) |>.step (.task (.withdrawUnlock rfl)) |>.step (.task (.destroy rfl))
  have connected := withdrawn.step (.task (.connectGoes rfl rfl)) |>.step (.task (.openMade 54 rfl (by decide) rfl))
    |>.step (.task (.made rfl)) |>.step (.task (.publishLock rfl rfl)) |>.step (.task (.publish rfl))
    |>.step (.task (.publishUnlock rfl))
  have waits := connected.step (.task (.wait rfl rfl)) |>.step (.task (.waitGoes rfl rfl))
  have stopped := waits.step (.stop () (.flag rfl)) |>.step (.stop () (.lock rfl rfl))
    |>.step (.stop () (.socket rfl (by decide))) |>.step (.stop () (.shutdown rfl)) |>.step (.stop () (.unlock rfl))
  have selects := stopped.step (.task (.select rfl))
  have h := stop_sound selects
  exact ⟨_, _, selects, rfl, by simp, (h.2.2 () (by simp)).1 54 rfl, h.1⟩

end Tls
end NervesHub
