import NervesHubLink.Lib.Trace
import NervesHubLink.Install

/-! `install` commits only an image it has checked: what the sink accepted is all that the stream delivered,
of the expected length and hash. The loop of `copyImage` carries the invariant, which ties the bytes read,
hashed, written and counted to each other. -/

namespace NervesHub
open Act Prog Trace

namespace InstallEvent

def isCommit : InstallEvent → Bool
  | .committed _ => true
  | _ => false

def isAbort : InstallEvent → Bool
  | .aborted => true
  | _ => false

/-- The bytes that the reads returned, in order. -/
def delivered : List InstallEvent → List UInt8
  | [] => []
  | .read (.ok chunk) :: t => delivered t ++ chunk.val
  | _ :: t => delivered t

/-- The bytes that the sink was given, in order. -/
def received : List InstallEvent → List UInt8
  | [] => []
  | .wrote chunk _ :: t => received t ++ chunk
  | _ :: t => received t

/-- The bytes that the sink took without an error, in order. -/
def accepted : List InstallEvent → List UInt8
  | [] => []
  | .wrote chunk (.ok ()) :: t => accepted t ++ chunk
  | _ :: t => accepted t

/-- The last read found the end of the file. -/
def atEof : List InstallEvent → Prop
  | [] => False
  | .read (.ok chunk) :: _ => chunk.val = []
  | .read (.error _) :: _ => False
  | _ :: t => atEof t

/-- What the open that succeeded said of the length. -/
def contentLength : List InstallEvent → Option Nat
  | [] => none
  | .opened _ (.ok n) :: _ => n
  | _ :: t => contentLength t

end InstallEvent
open InstallEvent

/-- The size the image should have, as far as it is known. -/
def knownSize (update : UpdatePayload) (t : List InstallEvent) : Option Nat := update.size.or (contentLength t)

/-- Everything that has to be so before the sink is told to commit. -/
structure Verified [Sha256] (update : UpdatePayload) (t : List InstallEvent) : Prop where
  notAborted : t.countP isAbort = 0
  eof : atEof t
  complete : accepted t = delivered t
  nonempty : accepted t ≠ []
  length : ∀ n, knownSize update t = some n → (accepted t).length = n
  hash : ∀ sum, update.checksum = some sum → checksumMatches sum (hexUpper (Sha256.digest (accepted t))) = true

/-- What holds of every run of `install`, ended or not. -/
structure SafeInstall [Sha256] (update : UpdatePayload) (o : Outcome Error InstallReport) (t : List InstallEvent) :
    Prop where
  once : AtMostOnce isCommit t
  verified : OnlyAfter (·.isCommit) (Verified update) t
  report : ∀ r, o = .ret r → t.countP isCommit = 1 ∧ r.bytes = (accepted t).length ∧
    r.checksum = hexUpper (Sha256.digest (accepted t))
  bounded : ∀ n, knownSize update t = some n → (received t).length ≤ n + chunkSize

section
variable {σ : Type}

abbrev Rig (σ : Type) := Rec σ InstallEvent Unit

def HttpCalls.rig (c : HttpCalls σ) : HttpStream (Rig σ) :=
  c.recorded (fun url r => [.opened url r]) (fun r => [.read r])

def SinkCalls.rig (c : SinkCalls σ) : ImageSink (Rig σ) :=
  c.recorded (fun chunk r => [.wrote chunk r]) (fun r => [.committed r]) [.aborted]

def ProgressCalls.rig (c : ProgressCalls σ) : Progress (Rig σ) :=
  c.recorded (fun r => [.ticked r]) (fun stage percent r => [.reported stage percent r]) (fun d r => [.waited d r])

def Rig.start (env : σ) (gas : Nat) : Rig σ := ⟨env, (), [], gas⟩

/-! ### Opening -/

/-- Nothing has been read or written, committed or aborted. -/
structure Untouched (t : List InstallEvent) : Prop where
  delivered : delivered t = []
  received : received t = []
  accepted : accepted t = []
  commits : t.countP isCommit = 0
  aborts : t.countP isAbort = 0

/-- An event that a download's start consists of. -/
def InstallEvent.isOpening : InstallEvent → Bool
  | .opened _ _ => true
  | .waited _ _ => true
  | _ => false

theorem Untouched.cons {e : InstallEvent} {t : List InstallEvent} (h : Untouched t) (he : e.isOpening = true) :
    Untouched (e :: t) := by
  cases e <;> simp only [isOpening, reduceCtorEq] at he
  all_goals exact ⟨h.delivered, h.received, h.accepted, by simpa [isCommit] using h.commits,
    by simpa [isAbort] using h.aborts⟩

theorem untouched_nil : Untouched [] := ⟨rfl, rfl, rfl, rfl, rfl⟩

variable (http : HttpCalls σ) (sink : SinkCalls σ) (progress : ProgressCalls σ)

theorem openUrl_spec (url : String) :
    Spec (fun s => Untouched s.trace) (http.rig.openUrl url)
      (Post (fun n s => Untouched s.trace ∧ contentLength s.trace = n) fun s => Untouched s.trace) :=
  spec_tryCall (fun _ _ _ hs => ⟨hs.cons rfl, rfl⟩) (fun _ _ _ hs => hs.cons rfl)

theorem openImage_spec (url : String) (waits : List Duration) :
    Spec (fun s => Untouched s.trace) (openImage url http.rig progress.rig waits)
      (Post (fun n s => Untouched s.trace ∧ contentLength s.trace = n) fun s => Untouched s.trace) := by
  induction waits with
  | nil =>
    refine Spec.bind (openUrl_spec http url).attempt fun r => ?_
    cases r with
    | ok n => exact Spec.ret fun s hs => hs
    | error err => exact Spec.fail fun s hs => hs
  | cons backoff waits ih =>
    refine Spec.bind (openUrl_spec http url).attempt fun r => ?_
    cases r with
    | ok n => exact Spec.ret fun s hs => hs
    | error err =>
      refine Spec.ite (fun _ => ?_) fun _ => Spec.fail fun s hs => hs
      have hwait : Spec (fun s => Untouched s.trace) (progress.rig.wait (retryWait backoff err))
          (Post (fun _ s => Untouched s.trace) fun s => Untouched s.trace) :=
        spec_tryCall (fun s _ _ hs => hs.cons rfl) (fun s _ _ hs => hs.cons rfl)
      exact Spec.bind hwait fun _ => ih

/-! ### Copying -/

variable [Sha256]

/-- The bytes read, hashed, written and counted are the same. -/
structure InStep (update : UpdatePayload) (size : Option Nat) (hasher : Sha256.Ctx) (written : Nat)
    (t : List InstallEvent) : Prop where
  hashed : ∃ chunks : List (List UInt8), hasher = chunks.foldl Sha256.update Sha256.new ∧ chunks.flatten = delivered t
  accepted : accepted t = delivered t
  received : received t = delivered t
  written : written = (delivered t).length
  known : knownSize update t = size
  commits : t.countP isCommit = 0
  aborts : t.countP isAbort = 0

/-- No more than one read has gone past the size. -/
def Bounded (size : Option Nat) (slack written : Nat) : Prop := ∀ n, size = some n → written ≤ n + slack

/-- A download that has stopped, wherever it did, without touching `commit` or `abort`. -/
structure Unfinished (update : UpdatePayload) (t : List InstallEvent) : Prop where
  commits : t.countP isCommit = 0
  aborts : t.countP isAbort = 0
  bounded : ∀ n, knownSize update t = some n → (InstallEvent.received t).length ≤ n + chunkSize

variable {update : UpdatePayload} {size : Option Nat} {hasher : Sha256.Ctx} {written : Nat} {t : List InstallEvent}

theorem InStep.unfinished (h : InStep update size hasher written t) (hb : Bounded size chunkSize written) :
    Unfinished update t := by
  refine ⟨h.commits, h.aborts, fun n hn => ?_⟩
  rw [h.received, ← h.written]
  exact hb n (h.known ▸ hn)

omit [Sha256] in
theorem Bounded.slack (hb : Bounded size 0 written) : Bounded size chunkSize written := fun n hn => by
  have := hb n hn
  omega

theorem Untouched.level (h : Untouched t) (hsize : size = update.size.or (contentLength t)) :
    InStep update size Sha256.new 0 t where
  hashed := ⟨[], rfl, h.delivered.symm⟩
  accepted := h.accepted.trans h.delivered.symm
  received := h.received.trans h.delivered.symm
  written := by rw [h.delivered]; rfl
  known := hsize.symm
  commits := h.commits
  aborts := h.aborts

omit [Sha256] in
theorem Untouched.unfinished (h : Untouched t) : Unfinished update t :=
  ⟨h.commits, h.aborts, fun n _ => by rw [h.received]; exact Nat.zero_le _⟩

/-- Ticks and reports move no bytes. -/
def InstallEvent.isAside : InstallEvent → Bool
  | .ticked _ => true
  | .reported _ _ _ => true
  | _ => false

theorem InStep.aside (h : InStep update size hasher written t) {e : InstallEvent} (he : e.isAside = true) :
    InStep update size hasher written (e :: t) := by
  cases e <;> simp only [isAside, reduceCtorEq] at he
  all_goals exact ⟨h.hashed, h.accepted, h.received, h.written, h.known, by simpa [isCommit] using h.commits,
    by simpa [isAbort] using h.aborts⟩

/-- A chunk read and taken by the sink moves all four along. -/
theorem InStep.chunk (h : InStep update size hasher written t) (chunk : Chunk) :
    InStep update size (Sha256.update hasher chunk.val) (written + chunk.val.length)
      (.wrote chunk.val (.ok ()) :: .read (.ok chunk) :: t) where
  hashed := by
    obtain ⟨chunks, hh, hf⟩ := h.hashed
    refine ⟨chunks ++ [chunk.val], ?_, ?_⟩
    · rw [List.foldl_append, ← hh]
      rfl
    · rw [List.flatten_append, hf]
      simp [delivered]
  accepted := by
    show InstallEvent.accepted t ++ chunk.val = delivered t ++ chunk.val
    rw [h.accepted]
  received := by
    show InstallEvent.received t ++ chunk.val = delivered t ++ chunk.val
    rw [h.received]
  written := by
    show written + chunk.val.length = (delivered t ++ chunk.val).length
    rw [List.length_append, ← h.written]
  known := h.known
  commits := by simpa [isCommit] using h.commits
  aborts := by simpa [isAbort] using h.aborts

/-- A chunk that the sink refused was still no more than one read past the size. -/
theorem InStep.refused (h : InStep update size hasher written t) (hb : Bounded size 0 written) (chunk : Chunk)
    (e : Error) : Unfinished update (.wrote chunk.val (.error e) :: .read (.ok chunk) :: t) where
  commits := by simpa [isCommit] using h.commits
  aborts := by simpa [isAbort] using h.aborts
  bounded n hn := by
    have hle := hb n (h.known ▸ hn)
    have hchunk := chunk.property
    show (InstallEvent.received t ++ chunk.val).length ≤ n + chunkSize
    rw [List.length_append, h.received, ← h.written]
    omega

theorem InStep.ended (h : InStep update size hasher written t) {chunk : Chunk} (hempty : chunk.val = []) :
    InStep update size hasher written (.read (.ok chunk) :: t) := by
  have hd : delivered (.read (.ok chunk) :: t) = delivered t := by simp [delivered, hempty]
  exact ⟨hd ▸ h.hashed, h.accepted.trans hd.symm, h.received.trans hd.symm, hd ▸ h.written, h.known,
    by simpa [isCommit] using h.commits, by simpa [isAbort] using h.aborts⟩

theorem InStep.unread (h : InStep update size hasher written t) (hb : Bounded size 0 written) (e : Error) :
    Unfinished update (.read (.error e) :: t) where
  commits := by simpa [isCommit] using h.commits
  aborts := by simpa [isAbort] using h.aborts
  bounded := (h.unfinished hb.slack).bounded

theorem checkProgress_spec (throttle : ProgressThrottle) (written : Nat) (hasher : Sha256.Ctx) :
    Spec (fun s => InStep update size hasher written s.trace ∧ Bounded size chunkSize written)
      (checkProgress size progress.rig throttle written)
      (Post (fun _ s => InStep update size hasher written s.trace ∧ Bounded size 0 written)
        fun s => Unfinished update s.trace) := by
  unfold checkProgress
  cases size with
  | none => exact Spec.ret fun s hs => ⟨hs.1, fun n hn => by cases hn⟩
  | some total =>
    refine Spec.ite (fun _ => Spec.fail fun s hs => hs.1.unfinished hs.2) fun hle => ?_
    have hwithin : Bounded (some total) 0 written := fun n hn => by
      cases hn
      omega
    split
    · have hreport : ∀ percent, Spec
          (fun s => InStep update (some total) hasher written s.trace ∧ Bounded (some total) chunkSize written)
          (progress.rig.report .downloading percent)
          (Post (fun _ s => InStep update (some total) hasher written s.trace) fun s => Unfinished update s.trace) :=
        fun percent => spec_tryCall (fun s _ _ hs => hs.1.aside rfl) (fun s _ _ hs => (hs.1.aside rfl).unfinished hs.2)
      exact Spec.bind (hreport _) fun _ => Spec.ret fun s hs => ⟨hs, hwithin⟩
    · exact Spec.ret fun s hs => ⟨hs.1, hwithin⟩

/-- `copyImage` has come to the end of the file, with the count and the hash `r`. -/
def Copied.Done (update : UpdatePayload) (size : Option Nat) (r : Nat × String) (s : Rig σ) : Prop :=
  ∃ hasher, InStep update size hasher r.1 s.trace ∧ Bounded size 0 r.1 ∧
    r.2 = Sha256.finalizeHexUpper hasher ∧ atEof s.trace

/-- The loop invariant of `copyImage`, and what the turn that finds the end of the file leaves. -/
theorem copyChunk_spec (c : Copied) :
    Spec (fun s => InStep update size c.hasher c.written s.trace ∧ Bounded size 0 c.written)
      (copyChunk http.rig sink.rig size progress.rig c)
      (Post (Turn.Post (fun c s => InStep update size c.hasher c.written s.trace ∧ Bounded size 0 c.written)
          (Copied.Done update size)) fun s => Unfinished update s.trace) := by
  have hread : Spec (fun s => InStep update size c.hasher c.written s.trace ∧ Bounded size 0 c.written)
      http.rig.read
      (Post (fun chunk s => ∃ t, s.trace = .read (.ok chunk) :: t ∧ InStep update size c.hasher c.written t ∧
        Bounded size 0 c.written) fun s => Unfinished update s.trace) :=
    spec_tryCall (fun s _ _ hs => ⟨s.trace, rfl, hs⟩) (fun s _ e hs => hs.1.unread hs.2 e)
  refine Spec.bind hread fun chunk => Spec.ite (fun hempty => ?_) fun hempty => ?_
  · refine Spec.ret ?_
    rintro s ⟨t, ht, hl, hb⟩
    refine ⟨c.hasher, ?_, hb, rfl, ?_⟩
    · rw [ht]
      exact hl.ended hempty
    · rw [ht]
      exact hempty
  · have hwrite : Spec (fun s => ∃ t, s.trace = .read (.ok chunk) :: t ∧
          InStep update size c.hasher c.written t ∧ Bounded size 0 c.written) (sink.rig.write chunk.val)
        (Post (fun _ s => InStep update size (Sha256.update c.hasher chunk.val) (c.written + chunk.val.length) s.trace ∧
          Bounded size chunkSize (c.written + chunk.val.length)) fun s => Unfinished update s.trace) := by
      refine spec_tryCall ?_ ?_
      · rintro s _ _ ⟨t, ht, hl, hb⟩
        refine ⟨?_, fun n hn => ?_⟩
        · show InStep update size _ _ (.wrote chunk.val (.ok ()) :: s.trace)
          rw [ht]
          exact hl.chunk chunk
        · have := hb n hn
          have := chunk.property
          omega
      · rintro s _ e ⟨t, ht, hl, hb⟩
        show Unfinished update (.wrote chunk.val (.error e) :: s.trace)
        rw [ht]
        exact hl.refused hb chunk e
    refine Spec.bind hwrite fun _ => ?_
    have htick : Spec (fun s => InStep update size (Sha256.update c.hasher chunk.val)
          (c.written + chunk.val.length) s.trace ∧ Bounded size chunkSize (c.written + chunk.val.length))
        progress.rig.tick
        (Post (fun _ s => InStep update size (Sha256.update c.hasher chunk.val)
          (c.written + chunk.val.length) s.trace ∧ Bounded size chunkSize (c.written + chunk.val.length))
          fun s => Unfinished update s.trace) :=
      spec_tryCall (fun s _ _ hs => ⟨hs.1.aside rfl, hs.2⟩) (fun s _ _ hs => (hs.1.aside rfl).unfinished hs.2)
    refine Spec.bind htick fun _ => ?_
    exact Spec.bind (checkProgress_spec progress c.throttle _ _) fun throttle => Spec.ret fun s hs => hs

theorem copyImage_spec (step : Nat) :
    Spec (fun s => InStep update size Sha256.new 0 s.trace) (copyImage http.rig sink.rig size step progress.rig)
      (Post (Copied.Done update size) fun s => Unfinished update s.trace) :=
  (loop_spec (fun _ _ _ h => h) (fun _ _ h => h.1.unfinished h.2.slack)
    (fun c => copyChunk_spec http sink progress c) _).conseq (fun _ hs => ⟨hs, fun _ _ => Nat.zero_le _⟩)
    fun _ _ h => h

/-! ### The whole download -/

omit [Sha256] in
theorem verify_ok {actual : String} {report : InstallReport} (h : verify update size written actual = .ok report) :
    report = ⟨written, actual⟩ ∧ (∀ n, size = some n → written = n) ∧ written ≠ 0 ∧
      ∀ sum, update.checksum = some sum → checksumMatches sum actual = true := by
  unfold verify at h
  split at h
  · cases h
  · rename_i hsize
    by_cases hz : written = 0
    · rw [if_pos hz] at h
      cases h
    · rw [if_neg hz] at h
      split at h
      · cases h
      · rename_i hsum
        cases h
        refine ⟨rfl, fun n hn => ?_, hz, fun sum hs => ?_⟩
        · have hne := Option.filter_eq_none_iff.mp hsize n hn
          simpa using Eq.symm (by simpa using hne)
        · simpa using Option.filter_eq_none_iff.mp hsum sum hs

/-- A download that returned: nothing is committed yet, and everything that has to be so for it is. -/
theorem download_spec (update : UpdatePayload) (url : String) (step : Nat) :
    Spec (fun s => Untouched s.trace) (download update url http.rig sink.rig step progress.rig)
      (Post (fun r s => Verified update s.trace ∧ Unfinished update s.trace ∧ r.bytes = (accepted s.trace).length ∧
        r.checksum = hexUpper (Sha256.digest (accepted s.trace))) fun s => Unfinished update s.trace) := by
  refine Spec.bind ((openImage_spec http progress url retryWaits).conseq (fun _ h => h)
    (T := Post (fun n s => InStep update (expectedSize update n) Sha256.new 0 s.trace)
      fun s => Unfinished update s.trace) fun o s h => ?_) fun contentLength => ?_
  · cases o with
    | ret n => exact h.1.level (by rw [h.2]; rfl)
    | err e => exact h.unfinished
    | cut => exact h.unfinished
  · refine Spec.bind (copyImage_spec http sink progress step) ?_
    rintro ⟨written, actual⟩ s ⟨hasher, hl, hb, rfl, heof⟩
    have hdigest : Sha256.finalizeHexUpper hasher = hexUpper (Sha256.digest (accepted s.trace)) := by
      obtain ⟨chunks, hh, hf⟩ := hl.hashed
      rw [Sha256.finalizeHexUpper, hh, Sha256.finalize_foldl, hf, hl.accepted]
    have hlen : written = (accepted s.trace).length := by rw [hl.accepted]; exact hl.written
    refine Spec.ofExcept (P := fun s' => s' = s) ?_ (fun _ _ s' hs => hs ▸ hl.unfinished hb.slack) s rfl
    rintro report hv s' rfl
    obtain ⟨rfl, hsize, hne, hsum⟩ := verify_ok hv
    refine ⟨⟨hl.aborts, heof, hl.accepted, ?_, ?_, ?_⟩, hl.unfinished hb.slack, hlen, hdigest⟩
    · intro hnil
      exact hne (by rw [hlen, hnil]; rfl)
    · intro n hn
      rw [← hlen]
      exact hsize n (hl.known ▸ hn)
    · intro sum hs
      rw [← hdigest]
      exact hsum sum hs

omit [Sha256] in
/-- Where nothing has been committed, there is nothing to verify. -/
theorem onlyAfter_of_no_commit {c : List InstallEvent → Prop} (h : t.countP isCommit = 0) :
    OnlyAfter (·.isCommit) c t := fun e older hs he => by
  have hz := List.countP_eq_zero.mp h e (hs.subset List.mem_cons_self)
  exact absurd he (by simpa using hz)

theorem Unfinished.safe (h : Unfinished update t) {o : Outcome Error InstallReport} (ho : ∀ r, o ≠ .ret r) :
    SafeInstall update o t where
  once := by rw [AtMostOnce, h.commits]; exact Nat.zero_le 1
  verified := onlyAfter_of_no_commit h.commits
  report r hr := absurd hr (ho r)
  bounded := h.bounded

theorem Unfinished.aborted (h : Unfinished update t) {o : Outcome Error InstallReport} (ho : ∀ r, o ≠ .ret r) :
    SafeInstall update o (.aborted :: t) where
  once := by simp [AtMostOnce, isCommit, h.commits]
  verified := onlyAfter_of_no_commit (by simpa [isCommit] using h.commits)
  report r hr := absurd hr (ho r)
  bounded := h.bounded

/-- The one commit of a run comes where everything is verified. -/
theorem Verified.committed (hv : Verified update t) (h : Unfinished update t) {r : Except Error Unit}
    {o : Outcome Error InstallReport} (ho : ∀ report, o = .ret report →
      report.bytes = (accepted t).length ∧ report.checksum = hexUpper (Sha256.digest (accepted t))) :
    SafeInstall update o (.committed r :: t) where
  once := by simp [AtMostOnce, List.countP_cons, isCommit, h.commits]
  verified := onlyAfter_cons.mpr ⟨fun _ => hv, onlyAfter_of_no_commit h.commits⟩
  report report hr := ⟨by simp [List.countP_cons, isCommit, h.commits], ho report hr⟩
  bounded := h.bounded

omit [Sha256] in
/-- What the commit at the end of an install comes to. -/
theorem commit_cases (report : InstallReport) (t : Rig σ) :
    ((sink.commit t.env).1 = .ok () ∧ ∃ s, (sink.rig.commit >>= fun _ => pure report) t = (.ret report, s) ∧
      s.trace = .committed (.ok ()) :: t.trace) ∨
    ∃ e, (sink.commit t.env).1 = .error e ∧ ∃ s, (sink.rig.commit >>= fun _ => pure report) t = (.err e, s) ∧
      s.trace = .committed (.error e) :: t.trace := by
  obtain ⟨r, hr, ⟨u, rfl, hc⟩ | ⟨e, rfl, hc⟩⟩ :=
    tryCall_cases (X := Unit) sink.commit (fun r => [InstallEvent.committed r]) t
  · have hret : (sink.rig.commit >>= fun _ => pure report) t = (.ret report, _) := bind_ret hc
    exact .inl ⟨hr, _, hret, rfl⟩
  · have herr : (sink.rig.commit >>= fun _ => pure report) t = (.err e, _) := bind_err hc
    exact .inr ⟨e, hr, _, herr, rfl⟩

/-- `install` commits only what it has verified, in every run over any stream, sink and progress. -/
theorem install_safe (update : UpdatePayload) (step : Nat) (env : σ) (gas : Nat) :
    let out := install update http.rig sink.rig step progress.rig (Rig.start env gas)
    SafeInstall update out.1 out.2.trace := by
  cases hact : update.actionable with
  | none =>
    unfold install
    rw [hact]
    exact untouched_nil.unfinished.safe (by simp)
  | some urlUuid =>
    obtain ⟨url, uuid⟩ := urlUuid
    have hd := download_spec http sink progress update url step (Rig.start env gas) untouched_nil
    rcases hrun : download update url http.rig sink.rig step progress.rig (Rig.start env gas) with ⟨report | e | _, t⟩
    all_goals rw [hrun] at hd
    · obtain ⟨hv, hs, hr⟩ := hd
      rw [install_of_ret hact hrun]
      obtain ⟨-, s, hret, htrace⟩ | ⟨e, -, s, herr, htrace⟩ := commit_cases sink report t
      · rw [hret]
        show SafeInstall update _ s.trace
        rw [htrace]
        refine hv.committed hs fun report' h => ?_
        cases h
        exact hr
      · rw [herr]
        show SafeInstall update _ s.trace
        rw [htrace]
        exact hv.committed hs fun report' h => by cases h
    · rw [install_of_err hact hrun]
      exact hd.aborted (by simp)
    · rw [install_of_cut hact hrun]
      exact hd.safe (by simp)

end

end NervesHub
