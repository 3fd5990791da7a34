import NervesHubLink.Lib.Recorded
import NervesHubLink.Update

/-! Downloading an image and writing it to the inactive slot (`install.rs`, `checksum.rs`). -/

namespace NervesHub

/-- `core::time::Duration`. -/
structure Duration where
  nanos : Nat
  deriving DecidableEq, Repr

namespace Duration

def fromSecs (n : Nat) : Duration := ⟨n * 1000000000⟩
def fromMillis (n : Nat) : Duration := ⟨n * 1000000⟩

/-- `as_millis() as u64`. -/
def asMillis (d : Duration) : Nat := d.nanos / 1000000 % 2 ^ 64

def max (a b : Duration) : Duration := ⟨Max.max a.nanos b.nanos⟩
def min (a b : Duration) : Duration := ⟨Min.min a.nanos b.nanos⟩

end Duration

/-! ### Checksums -/

/-- SHA-256, from outside the repository: fed chunk by chunk, it gives the digest of the whole. -/
class Sha256 where
  Ctx : Type
  new : Ctx
  update : Ctx → List UInt8 → Ctx
  finalize : Ctx → List UInt8
  digest : List UInt8 → List UInt8
  finalize_foldl : ∀ chunks : List (List UInt8), finalize (chunks.foldl update new) = digest chunks.flatten

def hexDigit (n : Nat) : Char := if n < 10 then Char.ofNat (48 + n) else Char.ofNat (55 + n)

/-- Each byte as two upper case digits. -/
def hexUpper (bytes : List UInt8) : String :=
  String.ofList (bytes.flatMap fun b => [hexDigit (b.toNat / 16), hexDigit (b.toNat % 16)])

def Sha256.finalizeHexUpper [Sha256] (ctx : Sha256.Ctx) : String := hexUpper (Sha256.finalize ctx)

/-- `checksum::matches`: equal but for the case of ASCII letters. -/
def checksumMatches (expected actual : String) : Bool :=
  expected.toList.map Char.toLower == actual.toList.map Char.toLower

/-! ### The parties of a download -/

def chunkSize : Nat := 4096

/-- What one read yields: it fills at most the buffer it is given. -/
abbrev Chunk := { bytes : List UInt8 // bytes.length ≤ chunkSize }

section
variable (S : Type)

/-- A GET that can be read incrementally. An empty chunk is the end of the file. -/
structure HttpStream where
  openUrl : String → Act S Error (Option Nat)
  read : Act S Error Chunk

structure ImageSink where
  write : List UInt8 → Act S Error Unit
  commit : Act S Error Unit
  abort : S → S

structure Progress where
  tick : Act S Error Unit
  report : Stage → Nat → Act S Error Unit
  wait : Duration → Act S Error Unit

end

/-! ### Parties outside the program

Any functions over the state of the outside, with the events that record each call. -/

/-- The calls of `install`, with what they answered. -/
inductive InstallEvent where
  | opened (url : String) (r : Except Error (Option Nat))
  | read (r : Except Error Chunk)
  | wrote (chunk : List UInt8) (r : Except Error Unit)
  | committed (r : Except Error Unit)
  | aborted
  | ticked (r : Except Error Unit)
  | reported (stage : Stage) (percent : Nat) (r : Except Error Unit)
  | waited (d : Duration) (r : Except Error Unit)

structure HttpCalls (σ : Type) where
  openUrl : String → σ → Except Error (Option Nat) × σ
  read : σ → Except Error Chunk × σ

structure SinkCalls (σ : Type) where
  write : List UInt8 → σ → Except Error Unit × σ
  commit : σ → Except Error Unit × σ
  abort : σ → σ

structure ProgressCalls (σ : Type) where
  tick : σ → Except Error Unit × σ
  report : Stage → Nat → σ → Except Error Unit × σ
  wait : Duration → σ → Except Error Unit × σ

section
variable {σ E X : Type}

def HttpCalls.recorded (c : HttpCalls σ) (opened : String → Except Error (Option Nat) → List E)
    (read : Except Error Chunk → List E) : HttpStream (Rec σ E X) where
  openUrl url := Prog.tryCall (c.openUrl url) (opened url)
  read := Prog.tryCall c.read read

def SinkCalls.recorded (c : SinkCalls σ) (wrote : List UInt8 → Except Error Unit → List E)
    (committed : Except Error Unit → List E) (aborted : List E) : ImageSink (Rec σ E X) where
  write chunk := Prog.tryCall (c.write chunk) (wrote chunk)
  commit := Prog.tryCall c.commit committed
  abort s := { s with env := c.abort s.env, trace := aborted ++ s.trace }

def ProgressCalls.recorded (c : ProgressCalls σ) (ticked : Except Error Unit → List E)
    (reported : Stage → Nat → Except Error Unit → List E) (waited : Duration → Except Error Unit → List E) :
    Progress (Rec σ E X) where
  tick := Prog.tryCall c.tick ticked
  report stage percent := Prog.tryCall (c.report stage percent) (reported stage percent)
  wait d := Prog.tryCall (c.wait d) (waited d)

section
variable {opened : String → Except Error (Option Nat) → List E} {read : Except Error Chunk → List E}
  {wrote : List UInt8 → Except Error Unit → List E} {committed : Except Error Unit → List E} {aborted : List E}
  {ticked : Except Error Unit → List E} {reported : Stage → Nat → Except Error Unit → List E}
  {waited : Duration → Except Error Unit → List E}

@[simp] theorem HttpCalls.recorded_openUrl (c : HttpCalls σ) (url : String) :
    (c.recorded opened read : HttpStream (Rec σ E X)).openUrl url = Prog.tryCall (c.openUrl url) (opened url) := rfl

@[simp] theorem HttpCalls.recorded_read (c : HttpCalls σ) :
    (c.recorded opened read : HttpStream (Rec σ E X)).read = Prog.tryCall c.read read := rfl

@[simp] theorem SinkCalls.recorded_write (c : SinkCalls σ) (chunk : List UInt8) :
    (c.recorded wrote committed aborted : ImageSink (Rec σ E X)).write chunk =
      Prog.tryCall (c.write chunk) (wrote chunk) := rfl

@[simp] theorem SinkCalls.recorded_commit (c : SinkCalls σ) :
    (c.recorded wrote committed aborted : ImageSink (Rec σ E X)).commit = Prog.tryCall c.commit committed := rfl

@[simp] theorem ProgressCalls.recorded_tick (c : ProgressCalls σ) :
    (c.recorded ticked reported waited : Progress (Rec σ E X)).tick = Prog.tryCall c.tick ticked := rfl

@[simp] theorem ProgressCalls.recorded_report (c : ProgressCalls σ) (stage : Stage) (percent : Nat) :
    (c.recorded ticked reported waited : Progress (Rec σ E X)).report stage percent =
      Prog.tryCall (c.report stage percent) (reported stage percent) := rfl

@[simp] theorem ProgressCalls.recorded_wait (c : ProgressCalls σ) (d : Duration) :
    (c.recorded ticked reported waited : Progress (Rec σ E X)).wait d = Prog.tryCall (c.wait d) (waited d) := rfl

end

end

structure InstallReport where
  bytes : Nat
  checksum : String
  deriving DecidableEq, Repr

/-! ### The download -/

def retryWaits : List Duration := [.fromSecs 5, .fromSecs 15, .fromSecs 45]

def retryAfterMax : Duration := .fromSecs 120

/-- Whether a download that couldn't start may start if tried again. -/
def worthRetrying : Error → Bool
  | .download _ => true
  | .downloadStatus status _ => status == 408 || status == 429 || decide (500 ≤ status ∧ status ≤ 599)
  | _ => false

/-- How long to wait after `err`: the backoff, or longer if the server asked for it. -/
def retryWait (backoff : Duration) : Error → Duration
  | .downloadStatus _ (some secs) => backoff.max ((Duration.fromSecs secs).min retryAfterMax)
  | _ => backoff

section
open Act Prog
variable {σ E X : Type}

/-- Opens the image's URL, trying again after each of the waits left if it couldn't be opened for a reason
    that may pass. -/
def openImage (url : String) (http : HttpStream (Rec σ E X)) (onProgress : Progress (Rec σ E X)) :
    List Duration → Prog σ E X Error (Option Nat)
  | [] => do
    match ← attempt (http.openUrl url) with
    | .ok contentLength => pure contentLength
    | .error err => throw err
  | backoff :: waits => do
    match ← attempt (http.openUrl url) with
    | .ok contentLength => pure contentLength
    | .error err =>
      if worthRetrying err then do
        onProgress.wait (retryWait backoff err)
        openImage url http onProgress waits
      else throw err

variable [Sha256]

/-- What `copy` keeps from one chunk to the next. -/
structure Copied where
  throttle : ProgressThrottle
  hasher : Sha256.Ctx
  written : Nat

/-- The checks and the report after a chunk, when the size is known. -/
def checkProgress (expectedSize : Option Nat) (onProgress : Progress (Rec σ E X)) (throttle : ProgressThrottle)
    (written : Nat) : Prog σ E X Error ProgressThrottle :=
  match expectedSize with
  | none => pure throttle
  | some total =>
    if total < written then throw (.download s!"image is longer than the expected {total} bytes")
    else
      match throttle.take written total with
      | (some percent, throttle) => do
        onProgress.report .downloading percent
        pure throttle
      | (none, throttle) => pure throttle

def copyChunk (http : HttpStream (Rec σ E X)) (sink : ImageSink (Rec σ E X)) (expectedSize : Option Nat)
    (onProgress : Progress (Rec σ E X)) (c : Copied) : Prog σ E X Error (Turn Copied (Nat × String)) := do
  let chunk ← http.read
  if chunk.val = [] then
    pure (.done (c.written, Sha256.finalizeHexUpper c.hasher))
  else do
    sink.write chunk.val
    onProgress.tick
    let throttle ← checkProgress expectedSize onProgress c.throttle (c.written + chunk.val.length)
    pure (.next ⟨throttle, Sha256.update c.hasher chunk.val, c.written + chunk.val.length⟩)

/-- Moves the image from the network to the sink a chunk at a time, hashing it on the way. The bytes
    written and their checksum come back. -/
def copyImage (http : HttpStream (Rec σ E X)) (sink : ImageSink (Rec σ E X)) (expectedSize : Option Nat)
    (progressStepPercent : Nat) (onProgress : Progress (Rec σ E X)) : Prog σ E X Error (Nat × String) :=
  loop (copyChunk http sink expectedSize onProgress) ⟨.new progressStepPercent, Sha256.new, 0⟩

/-- What is checked of the whole image before it may be committed. -/
def verify (update : UpdatePayload) (expectedSize : Option Nat) (written : Nat) (actual : String) :
    Except Error InstallReport :=
  match expectedSize.filter (· != written) with
  | some total => .error (.download s!"expected {total} bytes, received {written}")
  | none =>
    if written = 0 then .error (.download "image was empty")
    else
      match update.checksum.filter (fun expected => !checksumMatches expected actual) with
      | some expected => .error (.checksumMismatch expected actual)
      | none => .ok ⟨written, actual⟩

/-- The deployment's size, or else what the server says. -/
def expectedSize (update : UpdatePayload) (contentLength : Option Nat) : Option Nat := update.size.or contentLength

def download (update : UpdatePayload) (url : String) (http : HttpStream (Rec σ E X)) (sink : ImageSink (Rec σ E X))
    (progressStepPercent : Nat) (onProgress : Progress (Rec σ E X)) : Prog σ E X Error InstallReport := do
  let contentLength ← openImage url http onProgress retryWaits
  let (written, actual) ←
    copyImage http sink (expectedSize update contentLength) progressStepPercent onProgress
  ofExcept (verify update (expectedSize update contentLength) written actual)

/-- Downloads an update and commits it to the inactive slot. -/
def install (update : UpdatePayload) (http : HttpStream (Rec σ E X)) (sink : ImageSink (Rec σ E X))
    (progressStepPercent : Nat) (onProgress : Progress (Rec σ E X)) : Prog σ E X Error InstallReport :=
  match update.actionable with
  | none => throw (.download "update has no firmware url")
  | some (url, _) => do
    match ← attempt (download update url http sink progressStepPercent onProgress) with
    | .ok report => do
      sink.commit
      pure report
    | .error err => do
      modify sink.abort
      throw err

/-! ### What a download keeps -/

section Keeps
variable {R : Rec σ E X → Rec σ E X → Prop}

omit [Sha256] in
theorem keeps_openImage (hR : Steps R) {http : HttpStream (Rec σ E X)} {onProgress : Progress (Rec σ E X)}
    (hopen : ∀ url, Keeps R (http.openUrl url)) (hwait : ∀ d, Keeps R (onProgress.wait d)) (url : String)
    (waits : List Duration) : Keeps R (openImage url http onProgress waits) := by
  induction waits with
  | nil =>
    refine Keeps.bind hR (hopen url).attempt fun r => ?_
    cases r with
    | ok n => exact Keeps.pure hR n
    | error err => exact Keeps.throw hR err
  | cons backoff waits ih =>
    refine Keeps.bind hR (hopen url).attempt fun r => ?_
    cases r with
    | ok n => exact Keeps.pure hR n
    | error err => exact Keeps.ite (Keeps.bind hR (hwait _) fun _ => ih) (Keeps.throw hR err)

omit [Sha256] in
theorem keeps_checkProgress (hR : Steps R) {onProgress : Progress (Rec σ E X)}
    (hreport : ∀ percent, Keeps R (onProgress.report .downloading percent)) (size : Option Nat)
    (throttle : ProgressThrottle) (written : Nat) : Keeps R (checkProgress size onProgress throttle written) := by
  unfold checkProgress
  cases size with
  | none => exact Keeps.pure hR _
  | some total =>
    refine Keeps.ite (Keeps.throw hR _) ?_
    split
    · exact Keeps.bind hR (hreport _) fun _ => Keeps.pure hR _
    · exact Keeps.pure hR _

theorem keeps_copyImage (hR : Steps R) (hg : ∀ s g, R s { s with gas := g }) {http : HttpStream (Rec σ E X)}
    {sink : ImageSink (Rec σ E X)} {onProgress : Progress (Rec σ E X)} (hread : Keeps R http.read)
    (hwrite : ∀ chunk : List UInt8, Keeps R (sink.write chunk)) (htick : Keeps R onProgress.tick)
    (hreport : ∀ percent, Keeps R (onProgress.report .downloading percent)) (size : Option Nat) (step : Nat) :
    Keeps R (copyImage http sink size step onProgress) := by
  refine keeps_loop hR hg (fun c => ?_) _
  refine Keeps.bind hR hread fun chunk => Keeps.ite (Keeps.pure hR _) ?_
  refine Keeps.bind hR (hwrite _) fun _ => Keeps.bind hR htick fun _ => ?_
  exact Keeps.bind hR (keeps_checkProgress hR hreport _ _ _) fun _ => Keeps.pure hR _

/-- A download keeps what the calls that it is made of keep. -/
theorem keeps_download (hR : Steps R) (hg : ∀ s g, R s { s with gas := g }) {http : HttpStream (Rec σ E X)}
    {sink : ImageSink (Rec σ E X)} {onProgress : Progress (Rec σ E X)} (hopen : ∀ url, Keeps R (http.openUrl url))
    (hread : Keeps R http.read) (hwrite : ∀ chunk : List UInt8, Keeps R (sink.write chunk))
    (htick : Keeps R onProgress.tick) (hreport : ∀ percent, Keeps R (onProgress.report .downloading percent))
    (hwait : ∀ d, Keeps R (onProgress.wait d)) (update : UpdatePayload) (url : String) (step : Nat) :
    Keeps R (download update url http sink step onProgress) := by
  refine Keeps.bind hR (keeps_openImage hR hopen hwait url _) fun contentLength => ?_
  exact Keeps.bind hR (keeps_copyImage hR hg hread hwrite htick hreport _ step) fun r => Keeps.ofExcept hR _

end Keeps

/-! ### What holds before the stream is open, and after -/

section Opened
variable {I O F J : Rec σ E X → Prop} {http : HttpStream (Rec σ E X)} {sink : ImageSink (Rec σ E X)}
  {onProgress : Progress (Rec σ E X)}

omit [Sha256] in
theorem spec_openImage (hopen : ∀ url, Spec I (http.openUrl url) (Ends (fun _ => O) I I))
    (hwait : ∀ d, Spec I (onProgress.wait d) (Ends (fun _ => I) I I)) (url : String) (waits : List Duration) :
    Spec I (openImage url http onProgress waits) (Ends (fun _ => O) I I) := by
  induction waits with
  | nil =>
    refine Spec.bind (Spec.attempt (X := I) (hopen url)) fun r => ?_
    cases r with
    | ok n => exact Spec.ret fun _ h => h
    | error err => exact Spec.fail fun _ h => h
  | cons backoff waits ih =>
    refine Spec.bind (Spec.attempt (X := I) (hopen url)) fun r => ?_
    cases r with
    | ok n => exact Spec.ret fun _ h => h
    | error err => exact Spec.ite (fun _ => Spec.bind (hwait _) fun _ => ih) fun _ => Spec.fail fun _ h => h

/-- Before each turn of the loop `O` holds, and where it fails `F` does. -/
theorem spec_copyImage (hg : ∀ s g, O s → O { s with gas := g }) (hfail : ∀ s, O s → F s)
    (hread : Spec O http.read (Post (fun _ => O) F))
    (hwrite : ∀ chunk : List UInt8, Spec O (sink.write chunk) (Post (fun _ => O) F))
    (htick : Spec O onProgress.tick (Post (fun _ => O) F))
    (hreport : ∀ percent, Spec O (onProgress.report .downloading percent) (Post (fun _ => O) F)) (size : Option Nat)
    (step : Nat) :
    Spec O (copyImage http sink size step onProgress) (Post (fun _ => O) F) := by
  refine loop_spec (I := fun _ => O) (fun _ => hg) (fun _ => hfail) (fun c => ?_) _
  refine Spec.bind hread fun chunk => Spec.ite (fun _ => Spec.ret fun _ h => h) fun _ => ?_
  refine Spec.bind (hwrite _) fun _ => Spec.bind htick fun _ => Spec.bind (R := fun _ => O) ?_ fun _ =>
    Spec.ret fun _ h => h
  unfold checkProgress
  split
  · exact Spec.ret fun _ h => h
  · refine Spec.ite (fun _ => Spec.fail hfail) fun _ => ?_
    split
    · exact Spec.bind (hreport _) fun _ => Spec.ret fun _ h => h
    · exact Spec.ret fun _ h => h

/-- A download begins where `I` holds, from the open that succeeded on `O` holds, and it fails where one of `I` and `F`
    does. -/
theorem spec_download (hg : ∀ s g, O s → O { s with gas := g }) (hfail : ∀ s, O s → F s)
    (hopen : ∀ url, Spec I (http.openUrl url) (Ends (fun _ => O) I I))
    (hwait : ∀ d, Spec I (onProgress.wait d) (Ends (fun _ => I) I I)) (hread : Spec O http.read (Post (fun _ => O) F))
    (hwrite : ∀ chunk : List UInt8, Spec O (sink.write chunk) (Post (fun _ => O) F))
    (htick : Spec O onProgress.tick (Post (fun _ => O) F))
    (hreport : ∀ percent, Spec O (onProgress.report .downloading percent) (Post (fun _ => O) F)) (hI : ∀ s, I s → J s)
    (hF : ∀ s, F s → J s) (update : UpdatePayload) (url : String) (step : Nat) :
    Spec I (download update url http sink step onProgress) (Post (fun _ => O) J) := by
  refine Spec.bind ((spec_openImage hopen hwait url _).mono (fun _ _ h => h) hI hI) fun contentLength => ?_
  refine Spec.bind ((spec_copyImage hg hfail hread hwrite htick hreport _ step).mono (fun _ _ h => h) hF hF) fun r => ?_
  exact Spec.ofExcept (fun _ _ _ h => h) fun _ _ s h => hF s (hfail s h)

end Opened

/-! ### How a run of `install` follows from the run of `download` in it -/

section Run
variable {update : UpdatePayload} {url uuid : String} {http : HttpStream (Rec σ E X)} {sink : ImageSink (Rec σ E X)}
  {step : Nat} {onProgress : Progress (Rec σ E X)} {s t : Rec σ E X}

theorem install_of_ret (hact : update.actionable = some (url, uuid)) {report : InstallReport}
    (hd : download update url http sink step onProgress s = (.ret report, t)) :
    install update http sink step onProgress s = (sink.commit >>= fun _ => pure report) t := by
  rw [install, hact]
  simp only [bind_apply, attempt, hd]

theorem install_of_err (hact : update.actionable = some (url, uuid)) {e : Error}
    (hd : download update url http sink step onProgress s = (.err e, t)) :
    install update http sink step onProgress s = (.err e, sink.abort t) := by
  rw [install, hact]
  simp only [bind_apply, attempt, hd, modify_apply, throw_apply]

theorem install_of_cut (hact : update.actionable = some (url, uuid))
    (hd : download update url http sink step onProgress s = (.cut, t)) :
    install update http sink step onProgress s = (.cut, t) := by
  rw [install, hact]
  simp only [bind_apply, attempt, hd]

end Run

end

end NervesHub
