import NervesHubLink.Install

/-! Applying an image to the inactive OTA slot (`ota.rs`).

The calls of ESP-IDF are functions that may answer anything; `esp_err_t` zero is success. Applying a patch,
the component hands the rebuilt image to `patch_write` piece by piece while it is fed or finalized, so the
answer of such a call holds the pieces and what `esp_ota_write` said to each. -/

namespace NervesHub
open Act Prog

abbrev OtaHandle := Nat
abbrev DeltaHandle := Nat
abbrev EspErr := Int

def espImageMagic : UInt8 := 0xE9

inductive ImageKind where
  | image
  | patch
  deriving DecidableEq, Repr

/-- Decides from the first byte of the download. -/
def classify (firstByte : UInt8) : ImageKind := if firstByte = espImageMagic then .image else .patch

/-- ESP-IDF, from outside the repository. -/
structure EspIdf (σ : Type) where
  /-- The error, and the handle it leaves if there was none. -/
  otaBegin : σ → (EspErr × OtaHandle) × σ
  otaWrite : OtaHandle → List UInt8 → σ → EspErr × σ
  otaEnd : OtaHandle → σ → EspErr × σ
  otaAbort : OtaHandle → σ → EspErr × σ
  setBootPartition : σ → EspErr × σ
  runningPartition : σ → Bool × σ
  deltaInit : σ → Option DeltaHandle × σ
  deltaFeed : DeltaHandle → List UInt8 → σ → (EspErr × List (List UInt8 × EspErr)) × σ
  deltaFinalize : DeltaHandle → σ → (EspErr × List (List UInt8 × EspErr)) × σ
  deltaDeinit : DeltaHandle → σ → EspErr × σ
  errToName : EspErr → Option String

/-- The calls made on ESP-IDF, with what they answered. -/
inductive OtaEvent where
  | began (err : EspErr) (h : OtaHandle)
  | wrote (h : OtaHandle) (bytes : List UInt8) (err : EspErr)
  | ended (h : OtaHandle) (err : EspErr)
  | aborted (h : OtaHandle)
  | bootSet (err : EspErr)
  | deltaInit (h : Option DeltaHandle)
  | deltaFed (h : DeltaHandle) (ota : OtaHandle) (bytes : List UInt8) (err : EspErr)
  | deltaFinalized (h : DeltaHandle) (ota : OtaHandle) (err : EspErr)
  | deltaDeinit (h : DeltaHandle)

/-- Whether the inactive slot is open for writing: not until the first chunk arrives. -/
inductive Slot where
  | unopened
  | opened (handle : OtaHandle)
  /-- Committed or aborted. -/
  | finished
  deriving DecidableEq, Repr

def Slot.handle : Slot → Option OtaHandle
  | .opened handle => some handle
  | _ => none

/-- What the patch callbacks need: where the rebuilt image goes, and how much of it there is. -/
structure PatchContext where
  ota : OtaHandle
  written : Nat
  deriving DecidableEq, Repr

/-- How the bytes being written are being interpreted. -/
inductive Mode where
  | undecided
  | image
  | patch (handle : DeltaHandle) (context : PatchContext)
  deriving DecidableEq, Repr

def Mode.handle : Mode → Option DeltaHandle
  | .patch handle _ => some handle
  | _ => none

/-- Streams an image into the inactive OTA slot. -/
structure OtaWriter where
  slot : Slot
  written : Nat
  mode : Mode
  deriving DecidableEq, Repr

namespace OtaWriter

/-- What `OtaWriter::begin` makes, once it has found the slot to write. -/
def new : OtaWriter := ⟨.unopened, 0, .undecided⟩

/-- Bytes written into the slot: of the rebuilt image, for a patch. -/
def bytesWritten (w : OtaWriter) : Nat :=
  match w.mode with
  | .patch _ context => context.written
  | _ => w.written

end OtaWriter

section
variable {σ : Type} (idf : EspIdf σ)

abbrev OtaProg (σ α : Type) := Prog σ OtaEvent OtaWriter Error α

def EspIdf.errorName (err : EspErr) : String :=
  match idf.errToName err with
  | some name => s!"{name} ({err})"
  | none => toString err

def EspIdf.check (err : EspErr) (what : String) : OtaProg σ Unit :=
  if err = 0 then pure () else throw (.ota s!"{what} failed: {idf.errorName err}")

namespace OtaWriter

def openSlot : OtaProg σ Unit := do
  let (err, handle) ← call idf.otaBegin (fun r => [.began r.1 r.2])
  idf.check err "esp_ota_begin"
  modifyOwn fun w => { w with slot := .opened handle }

def beginPatch : OtaProg σ Unit := do
  let w ← own
  match w.slot.handle with
  | none => throw (.ota "patch started after the update was finished")
  | some ota =>
    let source ← call idf.runningPartition (fun _ => [])
    if !source then throw (.ota "no running partition to patch against")
    else
      match ← call idf.deltaInit (fun h => [.deltaInit h]) with
      | none => throw (.ota "esp_delta_ota_init failed")
      | some handle => modifyOwn fun w => { w with mode := .patch handle ⟨ota, 0⟩ }

/-- The first byte of the whole download decides how it is read. -/
def decideMode (first : UInt8) : OtaProg σ Unit :=
  match classify first with
  | .image => modifyOwn fun w => { w with mode := .image }
  | .patch => beginPatch idf

/-- `patch_write`, once for each piece that was rebuilt. -/
def patchWritten (context : PatchContext) (pieces : List (List UInt8 × EspErr)) : PatchContext :=
  { context with written := context.written + ((pieces.filter (·.2 == 0)).map (·.1.length)).sum }

/-- Hands a chunk to ESP-IDF, in the way the download was classified. -/
def writeChunk (chunk : List UInt8) : OtaProg σ Unit := do
  let w ← own
  match w.mode with
  | .patch handle context => do
    let (err, pieces) ←
      call (idf.deltaFeed handle chunk) (fun r => [.deltaFed handle context.ota chunk r.1])
    modifyOwn fun w => { w with mode := .patch handle (patchWritten context pieces) }
    idf.check err "esp_delta_ota_feed_patch"
  | _ =>
    match w.slot.handle with
    | none => throw (.ota "write after the update was finished")
    | some handle => do
      let err ← call (idf.otaWrite handle chunk) (fun err => [.wrote handle chunk err])
      idf.check err "esp_ota_write"

def write : List UInt8 → OtaProg σ Unit
  | [] => pure ()
  | first :: rest => do
    let w ← own
    when (w.slot = .unopened) (openSlot idf)
    let w ← own
    when (w.mode = .undecided) (decideMode idf first)
    writeChunk idf (first :: rest)
    modifyOwn fun w => { w with written := w.written + (first :: rest).length }

/-- Finishes rebuilding, for a patch. The delta handle is released either way. -/
def finishPatch : OtaProg σ Unit := do
  let w ← own
  match w.mode with
  | .patch handle context => do
    let (err, _) ← call (idf.deltaFinalize handle) (fun r => [.deltaFinalized handle context.ota r.1])
    let _ ← call (idf.deltaDeinit handle) (fun _ => [.deltaDeinit handle])
    modifyOwn fun w => { w with mode := .image }
    idf.check err "esp_delta_ota_finalize"
  | _ => pure ()

/-- Ends the write, which validates the image, and has it booted next. -/
def endSlot : OtaProg σ Unit := do
  match ← update (fun w => (w.slot, { w with slot := .finished })) (fun _ => []) with
  | .opened handle => do
    let err ← call (idf.otaEnd handle) (fun err => [.ended handle err])
    idf.check err "esp_ota_end"
    let err ← call idf.setBootPartition (fun err => [.bootSet err])
    idf.check err "esp_ota_set_boot_partition"
  | .unopened => throw (.ota "commit with nothing written")
  | .finished => throw (.ota "commit after the update was finished")

def commit : OtaProg σ Unit := do
  finishPatch idf
  endSlot idf

/-- Releases the delta handle of a patch that is being abandoned. -/
def dropPatch (s : Rec σ OtaEvent OtaWriter) : Rec σ OtaEvent OtaWriter :=
  match s.own.mode with
  | .patch handle _ => { s with
      env := (idf.deltaDeinit handle s.env).2
      trace := .deltaDeinit handle :: s.trace
      own := { s.own with mode := .image } }
  | _ => s

/-- Releases the OTA handle without touching the boot partition. -/
def dropSlot (s : Rec σ OtaEvent OtaWriter) : Rec σ OtaEvent OtaWriter :=
  match s.own.slot with
  | .opened handle => { s with
      env := (idf.otaAbort handle s.env).2
      trace := .aborted handle :: s.trace
      own := { s.own with slot := .finished } }
  | _ => { s with own := { s.own with slot := .finished } }

def abort (s : Rec σ OtaEvent OtaWriter) : Rec σ OtaEvent OtaWriter := dropSlot idf (dropPatch idf s)

/-- `impl ImageSink for OtaWriter`. -/
def sink : ImageSink (Rec σ OtaEvent OtaWriter) := ⟨write idf, commit idf, abort idf⟩

/-! ### What the functions of the writer can do -/

theorem check_ok {err : EspErr} (h : err = 0) (what : String) (s : Rec σ OtaEvent OtaWriter) :
    idf.check err what s = (.ret (), s) := by
  rw [EspIdf.check, if_pos h]
  rfl

theorem check_error {err : EspErr} (h : err ≠ 0) (what : String) (s : Rec σ OtaEvent OtaWriter) :
    idf.check err what s = (.err (.ota s!"{what} failed: {idf.errorName err}"), s) := by
  rw [EspIdf.check, if_neg h]
  rfl

theorem check_state (err : EspErr) (what : String) (s : Rec σ OtaEvent OtaWriter) : (idf.check err what s).2 = s := by
  by_cases h : err = 0
  · rw [check_ok idf h]
  · rw [check_error idf h]

theorem check_ne_cut (err : EspErr) (what : String) (s : Rec σ OtaEvent OtaWriter) : (idf.check err what s).1 ≠ .cut := by
  by_cases h : err = 0
  · rw [check_ok idf h]
    simp
  · rw [check_error idf h]
    simp

section
variable (s : Rec σ OtaEvent OtaWriter)

theorem openSlot_cases :
    (∃ err handle env e, err ≠ 0 ∧
      openSlot idf s = (.err e, { s with env := env, trace := .began err handle :: s.trace })) ∨
    ∃ handle env, openSlot idf s =
      (.ret (), { s with env := env, own := { s.own with slot := .opened handle }, trace := .began 0 handle ::
        s.trace }) := by
  unfold openSlot
  rcases hbegin : idf.otaBegin s.env with ⟨⟨err, handle⟩, env⟩
  rw [bind_ret (call_apply _ _ s), hbegin]
  dsimp only
  by_cases herr : err = 0
  · subst herr
    rw [bind_ret (check_ok idf rfl _ _)]
    exact Or.inr ⟨handle, env, rfl⟩
  · rw [bind_err (check_error idf herr _ _)]
    exact Or.inl ⟨err, handle, env, _, herr, rfl⟩

theorem beginPatch_cases :
    (∃ env e, beginPatch idf s = (.err e, { s with env := env })) ∨
    (∃ env e, beginPatch idf s = (.err e, { s with env := env, trace := .deltaInit none :: s.trace })) ∨
    ∃ ota handle env, s.own.slot.handle = some ota ∧ beginPatch idf s = (.ret (), { s with
      env := env
      own := { s.own with mode := .patch handle ⟨ota, 0⟩ }
      trace := .deltaInit (some handle) :: s.trace }) := by
  unfold beginPatch
  rw [own, gets_bind_apply]
  cases hslot : s.own.slot.handle with
  | none => exact Or.inl ⟨s.env, _, rfl⟩
  | some ota =>
    dsimp only
    rw [bind_ret (call_apply _ _ s)]
    by_cases hsource : (idf.runningPartition s.env).1 = true
    · simp only [hsource, Bool.not_true, Bool.false_eq_true, if_false]
      rw [bind_ret (call_apply _ _ _)]
      cases hinit : (idf.deltaInit (idf.runningPartition s.env).2).1 with
      | none => exact Or.inr (Or.inl ⟨_, _, rfl⟩)
      | some handle => exact Or.inr (Or.inr ⟨ota, handle, _, rfl, rfl⟩)
    · simp only [hsource, Bool.not_false, if_true]
      exact Or.inl ⟨_, _, rfl⟩

/-- A chunk is fed to the patch, or written into the slot, or there is no slot to write into. -/
theorem writeChunk_cases (chunk : List UInt8) :
    (∃ handle context err env written o, s.own.mode = .patch handle context ∧ o ≠ .cut ∧
      writeChunk idf chunk s = (o, { s with
        env := env
        own := { s.own with mode := .patch handle { context with written := written } }
        trace := .deltaFed handle context.ota chunk err :: s.trace })) ∨
    (∃ handle err env o, s.own.mode.handle = none ∧ s.own.slot.handle = some handle ∧ o ≠ .cut ∧
      writeChunk idf chunk s = (o, { s with env := env, trace := .wrote handle chunk err :: s.trace })) ∨
    (s.own.mode.handle = none ∧ s.own.slot.handle = none ∧ ∃ e, writeChunk idf chunk s = (.err e, s)) := by
  unfold writeChunk
  rw [own, gets_bind_apply]
  cases hmode : s.own.mode
  case patch handle context =>
    left
    dsimp only
    rw [bind_ret (call_apply _ _ s), modifyOwn, modify_bind_apply]
    exact ⟨handle, context, (idf.deltaFeed handle chunk s.env).1.1, _, _, _, rfl, check_ne_cut idf _ _ _,
      Prod.ext rfl (check_state idf _ _ _)⟩
  -- The other two modes write to the slot.
  all_goals
    right
    dsimp only
    cases hslot : s.own.slot.handle with
    | none => exact Or.inr ⟨rfl, rfl, _, rfl⟩
    | some handle =>
      left
      dsimp only
      rw [bind_ret (call_apply _ _ s)]
      exact ⟨handle, (idf.otaWrite handle chunk s.env).1, _, _, rfl, rfl, check_ne_cut idf _ _ _,
        Prod.ext rfl (check_state idf _ _ _)⟩

theorem finishPatch_cases :
    (∃ handle context env o, s.own.mode = .patch handle context ∧ o ≠ .cut ∧
      (o = .ret () ↔ (idf.deltaFinalize handle s.env).1.1 = 0) ∧ finishPatch idf s = (o, { s with
        env := env
        own := { s.own with mode := .image }
        trace := .deltaDeinit handle :: .deltaFinalized handle context.ota
          (idf.deltaFinalize handle s.env).1.1 :: s.trace })) ∨
    (s.own.mode.handle = none ∧ finishPatch idf s = (.ret (), s)) := by
  unfold finishPatch
  rw [own, gets_bind_apply]
  cases hmode : s.own.mode
  case patch handle context =>
    left
    dsimp only
    rw [bind_ret (call_apply _ _ s), bind_ret (call_apply _ _ _), modifyOwn, modify_bind_apply]
    refine ⟨handle, context, _, _, rfl, check_ne_cut idf _ _ _, ?_, Prod.ext rfl (check_state idf _ _ _)⟩
    by_cases herr : (idf.deltaFinalize handle s.env).1.1 = 0
    · rw [check_ok idf herr]
      exact iff_of_true rfl herr
    · rw [check_error idf herr]
      exact iff_of_false (by simp) herr
  all_goals exact Or.inr ⟨rfl, rfl⟩

/-- The slot is ended, and then made the one to boot from; or there is nothing to end. -/
theorem endSlot_cases :
    (∃ handle err env e, s.own.slot = .opened handle ∧ err ≠ 0 ∧ endSlot idf s = (.err e, { s with
      env := env
      own := { s.own with slot := .finished }
      trace := .ended handle err :: s.trace })) ∨
    (∃ handle err env o, s.own.slot = .opened handle ∧ o ≠ .cut ∧ endSlot idf s = (o, { s with
      env := env
      own := { s.own with slot := .finished }
      trace := .bootSet err :: .ended handle 0 :: s.trace })) ∨
    (s.own.slot.handle = none ∧ ∃ e, endSlot idf s = (.err e, { s with own := { s.own with slot := .finished } })) := by
  unfold endSlot
  rw [bind_ret (update_apply _ _ s)]
  cases hslot : s.own.slot with
  | opened handle =>
    rcases hend : idf.otaEnd handle s.env with ⟨err, env⟩
    dsimp only
    rw [bind_ret (call_apply _ _ _)]
    simp only [hend]
    by_cases herr : err = 0
    · right; left
      subst herr
      rw [bind_ret (check_ok idf rfl _ _), bind_ret (call_apply _ _ _)]
      exact ⟨handle, (idf.setBootPartition env).1, _, _, rfl, check_ne_cut idf _ _ _, Prod.ext rfl (check_state idf _ _ _)⟩
    · left
      rw [bind_err (check_error idf herr _ _)]
      exact ⟨handle, err, env, _, rfl, herr, rfl⟩
  | unopened => exact Or.inr (Or.inr ⟨rfl, _, rfl⟩)
  | finished => exact Or.inr (Or.inr ⟨rfl, _, rfl⟩)

end

end OtaWriter

end

end NervesHub
