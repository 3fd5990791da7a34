import NervesHubLink.Bench
import NervesHubLink.Ota
import NervesHubLink.Theorems.InstallSafe

/-! What `install` leaves open. It aborts the sink unless the download succeeded, so a commit that fails is
not followed by an abort; and the writer's commit releases both of its handles unless a patch could not be
finalized. -/

namespace NervesHub
open Act Prog

/-- The OTA handles that were begun and neither ended nor aborted. -/
def openOta : List OtaEvent → List OtaHandle
  | [] => []
  | .began err h :: t => if err = 0 then h :: openOta t else openOta t
  | .ended h _ :: t => (openOta t).erase h
  | .aborted h :: t => (openOta t).erase h
  | _ :: t => openOta t

/-- The delta handles that were made and not released. -/
def openDelta : List OtaEvent → List DeltaHandle
  | [] => []
  | .deltaInit (some h) :: t => h :: openDelta t
  | .deltaDeinit h :: t => (openDelta t).erase h
  | _ :: t => openDelta t

/-- What is open is what the writer holds, and a patch is applied into an open slot. -/
structure Held (w : OtaWriter) (t : List OtaEvent) : Prop where
  ota : openOta t = w.slot.handle.toList
  delta : openDelta t = w.mode.handle.toList
  patch : w.mode.handle ≠ none → w.slot.handle ≠ none

/-- An event that opens and closes nothing. -/
def OtaEvent.isNeutral : OtaEvent → Bool
  | .began err _ => err != 0
  | .wrote _ _ _ => true
  | .bootSet _ => true
  | .deltaInit h => h.isNone
  | .deltaFed _ _ _ _ => true
  | .deltaFinalized _ _ _ => true
  | _ => false

namespace Held
variable {w : OtaWriter} {t : List OtaEvent}

theorem neutral (h : Held w t) {e : OtaEvent} (he : e.isNeutral = true) : Held w (e :: t) := by
  obtain ⟨hota, hdelta, hpatch⟩ := h
  cases e <;> simp only [OtaEvent.isNeutral, reduceCtorEq, bne_iff_ne, ne_eq, Option.isNone_iff_eq_none] at he
  case began err _ => exact ⟨by rw [openOta, if_neg he, hota], hdelta, hpatch⟩
  case deltaInit _ =>
    subst he
    exact ⟨hota, hdelta, hpatch⟩
  all_goals exact ⟨hota, hdelta, hpatch⟩

theorem began (h : Held w t) (hslot : w.slot = .unopened) (handle : OtaHandle) :
    Held { w with slot := .opened handle } (.began 0 handle :: t) := by
  refine ⟨?_, h.delta, fun _ => by simp [Slot.handle]⟩
  rw [openOta, if_pos rfl, h.ota, hslot]
  rfl

theorem patched (h : Held w t) {ota : OtaHandle} (hslot : w.slot.handle = some ota) (hmode : w.mode = .undecided)
    (handle : DeltaHandle) (context : PatchContext) :
    Held { w with mode := .patch handle context } (.deltaInit (some handle) :: t) := by
  refine ⟨h.ota, ?_, fun _ hnone => by rw [hslot] at hnone; cases hnone⟩
  rw [openDelta, h.delta, hmode]
  rfl

/-- The mode may change as long as the delta handle does not. -/
theorem remode (h : Held w t) {mode : Mode} (hm : mode.handle = w.mode.handle) (written : Nat) :
    Held { w with mode := mode, written := written } t :=
  ⟨h.ota, hm ▸ h.delta, fun hne => h.patch (hm ▸ hne)⟩

theorem released (h : Held w t) {handle : DeltaHandle} (hm : w.mode.handle = some handle) :
    Held { w with mode := .image } (.deltaDeinit handle :: t) := by
  refine ⟨h.ota, ?_, fun hne => absurd rfl hne⟩
  rw [openDelta, h.delta, hm]
  simp [Mode.handle]

theorem closed (h : Held w t) {handle : OtaHandle} (hslot : w.slot = .opened handle) (hmode : w.mode.handle = none)
    {e : OtaEvent}
    (he : e = .aborted handle ∨ ∃ err, e = .ended handle err) : Held { w with slot := .finished } (e :: t) := by
  have hota : (openOta t).erase handle = [] := by
    rw [h.ota, hslot]
    simp [Slot.handle]
  rcases he with rfl | ⟨err, rfl⟩
  all_goals exact ⟨hota, h.delta, fun hne => absurd hmode hne⟩

end Held

section
variable {σ : Type} (idf : EspIdf σ) {s : Rec σ OtaEvent OtaWriter}

namespace OtaWriter

theorem openSlot_held (hs : Held s.own s.trace) (hslot : s.own.slot = .unopened) :
    Held (openSlot idf s).2.own (openSlot idf s).2.trace := by
  rcases openSlot_cases idf s with ⟨err, handle, env, e, herr, hrun⟩ | ⟨handle, env, hrun⟩ <;> rw [hrun]
  · exact hs.neutral (by simpa [OtaEvent.isNeutral] using herr)
  · exact hs.began hslot handle

theorem beginPatch_held (hs : Held s.own s.trace) (hmode : s.own.mode = .undecided) :
    Held (beginPatch idf s).2.own (beginPatch idf s).2.trace := by
  rcases beginPatch_cases idf s with ⟨env, e, hrun⟩ | ⟨env, e, hrun⟩ | ⟨ota, handle, env, hslot, hrun⟩ <;> rw [hrun]
  · exact hs
  · exact hs.neutral rfl
  · exact hs.patched hslot hmode handle _

theorem writeChunk_held (hs : Held s.own s.trace) (chunk : List UInt8) :
    Held (writeChunk idf chunk s).2.own (writeChunk idf chunk s).2.trace := by
  rcases writeChunk_cases idf s chunk with ⟨handle, context, err, env, written, o, hmode, -, hrun⟩ |
    ⟨handle, err, env, o, -, -, -, hrun⟩ | ⟨-, -, e, hrun⟩ <;> rw [hrun]
  · exact (hs.neutral rfl).remode (by rw [hmode]; rfl) _
  · exact hs.neutral rfl
  · exact hs

/-- What every state of the writer has in common. -/
abbrev HeldIn (s : Rec σ OtaEvent OtaWriter) : Prop := Held s.own s.trace

theorem write_rule {I : Rec σ OtaEvent OtaWriter → Prop} (hopen : ∀ s, I s → s.own.slot = .unopened → I (openSlot idf s).2)
    (himage : ∀ s, I s → s.own.mode = .undecided → I { s with own := { s.own with mode := .image } })
    (hpatch : ∀ s, I s → s.own.mode = .undecided → I (beginPatch idf s).2)
    (hchunk : ∀ s chunk, I s → I (writeChunk idf chunk s).2)
    (hcount : ∀ s n, I s → I { s with own := { s.own with written := n } }) (chunk : List UInt8) :
    Spec I (write idf chunk) (Post (fun _ => I) I) := by
  cases chunk with
  | nil => exact Spec.ret fun s hs => hs
  | cons first rest =>
    refine spec_own fun w => Spec.bind (R := fun _ => I) ?_ fun _ => spec_own fun w => ?_
    · refine Spec.when (fun hslot => Spec.of_state ?_) fun _ s hs => hs.1
      rintro s ⟨hs, rfl⟩
      exact hopen s hs hslot
    refine Spec.bind (R := fun _ => I) ?_ fun _ => ?_
    · refine Spec.when (fun hmode => Spec.of_state ?_) fun _ s hs => hs.1
      rintro s ⟨hs, rfl⟩
      unfold decideMode
      cases classify first with
      | image => exact himage s hs hmode
      | patch => exact hpatch s hs hmode
    exact Spec.bind (R := fun _ => I) (Spec.of_state fun s hs => hchunk s _ hs) fun _ =>
      Spec.of_state fun s hs => hcount s _ hs

theorem write_held (chunk : List UInt8) : Spec HeldIn (write idf chunk) (Post (fun _ => HeldIn) HeldIn) :=
  write_rule idf (fun _ => openSlot_held idf) (fun _ hs hmode => hs.remode (by rw [hmode]; rfl) _)
    (fun _ => beginPatch_held idf)
    (fun _ chunk hs => writeChunk_held idf hs chunk) (fun _ _ hs => hs.remode rfl _) chunk

theorem endSlot_held (hs : HeldIn s) : (endSlot idf s).1 ≠ .cut ∧ openOta (endSlot idf s).2.trace = [] ∧
    openDelta (endSlot idf s).2.trace = openDelta s.trace := by
  obtain ⟨hota, -, -⟩ := hs
  have hended : ∀ {handle}, s.own.slot = .opened handle → (openOta s.trace).erase handle = [] := fun hslot => by
    rw [hota, hslot]
    simp [Slot.handle]
  rcases endSlot_cases idf s with ⟨handle, err, env, e, hslot, -, hrun⟩ | ⟨handle, err, env, o, hslot, hcut, hrun⟩ |
    ⟨hslot, e, hrun⟩ <;> rw [hrun]
  · exact ⟨by simp, hended hslot, rfl⟩
  · exact ⟨hcut, hended hslot, rfl⟩
  · exact ⟨by simp, by rw [hota, hslot]; rfl, rfl⟩

/-- The patch, if there is one, can be finalized. -/
def Finalizes (s : Rec σ OtaEvent OtaWriter) : Prop :=
  ∀ handle context, s.own.mode = .patch handle context → (idf.deltaFinalize handle s.env).1.1 = 0

/-- Either way the delta handle is released; but if finalizing failed the slot is still open. -/
theorem finishPatch_held (hs : HeldIn s) : ∃ t, HeldIn t ∧ openDelta t.trace = [] ∧
    ((finishPatch idf s = (.ret (), t) ∧ Finalizes idf s) ∨
      ∃ e, finishPatch idf s = (.err e, t) ∧ openOta t.trace ≠ [] ∧ ¬Finalizes idf s) := by
  rcases finishPatch_cases idf s with ⟨handle, context, env, o, hmode, hcut, hret, hrun⟩ | ⟨hmode, hrun⟩
  · have hhandle : s.own.mode.handle = some handle := by rw [hmode]; rfl
    have hheld := (hs.neutral (e := OtaEvent.deltaFinalized handle context.ota (idf.deltaFinalize handle s.env).1.1)
      rfl).released hhandle
    refine ⟨{ s with
      env := env
      own := { s.own with mode := .image }
      trace := .deltaDeinit handle :: .deltaFinalized handle context.ota (idf.deltaFinalize handle s.env).1.1 :: s.trace },
      hheld, hheld.delta, ?_⟩
    rcases o with _ | e | _
    · refine Or.inl ⟨hrun, fun handle' context' h => ?_⟩
      rw [hmode] at h
      cases h
      exact hret.mp rfl
    · refine Or.inr ⟨e, hrun, ?_, fun h => by simpa using hret.mpr (h _ _ hmode)⟩
      rw [hheld.ota]
      have := hs.patch (by rw [hhandle]; simp)
      simpa using this
    · exact absurd rfl hcut
  · refine ⟨s, hs, by rw [hs.delta, hmode]; rfl, Or.inl ⟨hrun, fun handle context h => ?_⟩⟩
    rw [h] at hmode
    cases hmode

/-- What a commit leaves open: the OTA handle, of a patch that could not be finalized. -/
theorem commit_held (hs : HeldIn s) : (commit idf s).1 ≠ .cut ∧ openDelta (commit idf s).2.trace = [] ∧
    (openOta (commit idf s).2.trace = [] ↔ Finalizes idf s) := by
  obtain ⟨t, ht, hdelta, ⟨hrun, hfin⟩ | ⟨e, hrun, hopen, hfin⟩⟩ := finishPatch_held idf hs
  · rw [commit, bind_ret hrun]
    obtain ⟨hcut, hota, hsame⟩ := endSlot_held idf ht
    exact ⟨hcut, hsame.trans hdelta, fun _ => hfin, fun _ => hota⟩
  · rw [commit, bind_err hrun]
    exact ⟨by simp, hdelta, fun h => absurd h hopen, fun h => absurd h hfin⟩

theorem dropPatch_held (hs : HeldIn s) : HeldIn (dropPatch idf s) ∧ openDelta (dropPatch idf s).trace = [] := by
  unfold dropPatch
  cases hmode : s.own.mode
  case patch handle context =>
    have hhandle : s.own.mode.handle = some handle := by rw [hmode]; rfl
    have hheld := hs.released hhandle
    exact ⟨hheld, hheld.delta⟩
  all_goals exact ⟨hs, by rw [hs.delta, hmode]; rfl⟩

theorem abort_held (hs : HeldIn s) : openOta (abort idf s).trace = [] ∧ openDelta (abort idf s).trace = [] := by
  obtain ⟨hheld, hdelta⟩ := dropPatch_held idf hs
  have hota := hheld.ota
  unfold abort dropSlot
  cases hslot : (dropPatch idf s).own.slot <;> rw [hslot] at hota
  case opened handle => exact ⟨by simp [openOta, hota, Slot.handle], hdelta⟩
  all_goals exact ⟨hota, hdelta⟩

end OtaWriter

/-! ### Installing -/

abbrev Flash (σ : Type) := Rec σ OtaEvent OtaWriter

/-- The other parties of an install into the writer. Their calls open and close nothing. -/
def HttpCalls.aside (c : HttpCalls σ) : HttpStream (Flash σ) := c.recorded (fun _ _ => []) (fun _ => [])

def ProgressCalls.aside (c : ProgressCalls σ) : Progress (Flash σ) :=
  c.recorded (fun _ => []) (fun _ _ _ => []) fun _ _ => []

def Flash.start (env : σ) (gas : Nat) : Flash σ := ⟨env, .new, [], gas⟩

open OtaWriter

variable [Sha256] (http : HttpCalls σ) (progress : ProgressCalls σ)

theorem keeps_download_held (update : UpdatePayload) (url : String) (step : Nat) :
    Keeps (fun s t : Flash σ => HeldIn s → HeldIn t)
      (download update url http.aside (sink idf) step progress.aside) := by
  have hR : Steps fun s t : Flash σ => HeldIn s → HeldIn t := ⟨fun _ h => h, fun h k hs => k (h hs)⟩
  have hwrite : ∀ chunk, Keeps (fun s t : Flash σ => HeldIn s → HeldIn t) ((sink idf).write chunk) :=
    fun chunk s hs => (write_held idf chunk).state hs
  have haside : ∀ {α : Type} (f : σ → Except Error α × σ), Keeps (fun s t : Flash σ => HeldIn s → HeldIn t)
      (tryCall f fun _ => []) := fun f => keeps_tryCall fun _ _ _ h => h
  refine keeps_download hR (fun _ _ h => h) (fun url => ?_) ?_ hwrite ?_ (fun percent => ?_) (fun d => ?_)
    update url step
  all_goals simp only [HttpCalls.aside, HttpCalls.recorded_openUrl, HttpCalls.recorded_read, ProgressCalls.aside,
    ProgressCalls.recorded_tick, ProgressCalls.recorded_report, ProgressCalls.recorded_wait]
  all_goals exact haside _

def Closed (t : List OtaEvent) : Prop := openOta t = [] ∧ openDelta t = []

theorem install_aborted_iff {update : UpdatePayload} {url uuid : String} (hact : update.actionable = some (url, uuid))
    (sink : SinkCalls σ) (step : Nat) (env : σ) (gas : Nat) :
    let d := download update url http.rig sink.rig step progress.rig (Rig.start env gas)
    let out := install update http.rig sink.rig step progress.rig (Rig.start env gas)
    (∀ e, out.1 = .err e → out.2.trace.countP InstallEvent.isAbort = 1) ↔
      ∀ r t, d = (.ret r, t) → (sink.commit t.env).1 = .ok () := by
  intro d out
  have hdownload := download_spec http sink progress update url step (Rig.start env gas) untouched_nil
  rcases hd : d with ⟨r | e | _, t⟩
  all_goals rw [show download update url http.rig sink.rig step progress.rig (Rig.start env gas) = _ from hd] at hdownload
  · obtain ⟨hv, -⟩ := hdownload
    obtain ⟨hc, s, hcommit, -⟩ | ⟨e, hc, s, hcommit, htrace⟩ := commit_cases sink r t
    · have hret : out = (.ret r, s) := (install_of_ret hact hd).trans hcommit
      rw [hret]
      refine iff_of_true (fun e h => by cases h) fun r' t' heq => ?_
      cases heq
      exact hc
    · have herr : out = (.err e, s) := (install_of_ret hact hd).trans hcommit
      rw [herr]
      refine iff_of_false (fun h => ?_) fun h => ?_
      · have hone := h e rfl
        simp [htrace, InstallEvent.isAbort, hv.notAborted] at hone
      · rw [h r t rfl] at hc
        cases hc
  · have hzero := hdownload.aborts
    rw [show out = (.err e, sink.rig.abort t) from install_of_err hact hd]
    refine iff_of_true (fun e' _ => ?_) fun r t h => by simp at h
    show (InstallEvent.aborted :: t.trace).countP InstallEvent.isAbort = 1
    rw [List.countP_cons_of_pos rfl, hzero]
  · rw [show out = (.cut, t) from install_of_cut hact hd]
    exact iff_of_true (fun e h => by simp at h) fun r t h => by simp at h

theorem install_closed_iff {update : UpdatePayload} {url uuid : String} (hact : update.actionable = some (url, uuid))
    (step : Nat) (env : σ) (gas : Nat) :
    let d := download update url http.aside (sink idf) step progress.aside (Flash.start env gas)
    let out := install update http.aside (sink idf) step progress.aside (Flash.start env gas)
    (out.1 ≠ .cut → Closed out.2.trace) ↔ ∀ r t, d = (.ret r, t) → Finalizes idf t := by
  have hheld := keeps_download_held idf http progress update url step (Flash.start env gas)
    ⟨rfl, rfl, fun h => absurd rfl h⟩
  intro d out
  rcases hd : d with ⟨r | e | _, t⟩
  all_goals rw [show download update url http.aside (sink idf) step progress.aside (Flash.start env gas) = _ from hd]
    at hheld
  · obtain ⟨hcut, hdelta, hota⟩ := commit_held idf hheld
    have hout : out = ((sink idf).commit >>= fun _ => pure r) t := install_of_ret hact hd
    have hcut' : (((sink idf).commit >>= fun _ => pure r) t).1 ≠ .cut := fun h => hcut ((bind_pure_cut _ _ t).mp h)
    rw [hout, Closed, bind_pure_state]
    constructor
    · intro h r' t' heq
      cases heq
      exact hota.mp (h hcut').1
    · intro h _
      exact ⟨hota.mpr (h r t rfl), hdelta⟩
  · rw [show out = (.err e, (sink idf).abort t) from install_of_err hact hd]
    exact iff_of_true (fun _ => abort_held idf hheld) fun r t h => by simp at h
  · rw [show out = (.cut, t) from install_of_cut hact hd]
    exact iff_of_true (fun h => absurd rfl h) fun r t h => by simp at h

/-- A clean end: with any sink, an error means that it was aborted, once; and with the writer, nothing is left
    open. Each half holds but for one failure. -/
theorem install_cleanup_iff {update : UpdatePayload} {url uuid : String} (hact : update.actionable = some (url, uuid))
    (sinkCalls : SinkCalls σ) (step : Nat) (env : σ) (gas : Nat) :
    (let d := download update url http.rig sinkCalls.rig step progress.rig (Rig.start env gas)
      let out := install update http.rig sinkCalls.rig step progress.rig (Rig.start env gas)
      (∀ e, out.1 = .err e → out.2.trace.countP InstallEvent.isAbort = 1) ↔
        ∀ r t, d = (.ret r, t) → (sinkCalls.commit t.env).1 = .ok ()) ∧
    (let d := download update url http.aside (sink idf) step progress.aside (Flash.start env gas)
      let out := install update http.aside (sink idf) step progress.aside (Flash.start env gas)
      (out.1 ≠ .cut → Closed out.2.trace) ↔ ∀ r t, d = (.ret r, t) → Finalizes idf t) :=
  ⟨install_aborted_iff http progress hact sinkCalls step env gas, install_closed_iff idf http progress hact step env gas⟩

end

/-! ### A patch that cannot be finalized -/

def quiet : ProgressCalls (List Chunk) := ⟨fun s => (.ok (), s), fun _ _ s => (.ok (), s), fun _ s => (.ok (), s)⟩

def uncommitting : SinkCalls (List Chunk) :=
  ⟨fun _ s => (.ok (), s), fun s => (.error (.ota "esp_ota_end failed: ESP_ERR_OTA_VALIDATE_FAILED (5379)"), s), id⟩

/-- Flash on which every call succeeds but finalizing a patch. -/
def unfinalizing : EspIdf (List Chunk) where
  otaBegin s := ((0, 1), s)
  otaWrite _ _ s := (0, s)
  otaEnd _ s := (0, s)
  otaAbort _ s := (0, s)
  setBootPartition s := (0, s)
  runningPartition s := (true, s)
  deltaInit s := (some 1, s)
  deltaFeed _ _ s := ((0, []), s)
  deltaFinalize _ s := ((-1, []), s)
  deltaDeinit _ s := (0, s)
  errToName _ := some "ESP_FAIL"

section
attribute [local instance] sha256OfByte

def uncommitted : Outcome Error InstallReport × Rig (List Chunk) :=
  install bareUpdate scripted.rig uncommitting.rig 5 quiet.rig (Rig.start patchScript 9)

def unfinalized : Outcome Error InstallReport × Flash (List Chunk) :=
  install bareUpdate scripted.aside (OtaWriter.sink unfinalizing) 5 quiet.aside (Flash.start patchScript 9)

/-- The commit fails, and the sink is not aborted: with the writer, the slot stays open. -/
theorem install_leaves_open :
    ((∃ e, uncommitted.1 = .err e) ∧ uncommitted.2.trace.countP InstallEvent.isAbort = 0) ∧
      (∃ e, unfinalized.1 = .err e) ∧ openOta unfinalized.2.trace = [1] :=
  ⟨⟨⟨_, rfl⟩, by decide⟩, ⟨_, rfl⟩, by decide⟩

/-- Neither half of a clean end there: the commit fails, and the patch cannot be finalized. -/
theorem install_cleanup_bare :
    (¬∀ e, uncommitted.1 = .err e → uncommitted.2.trace.countP InstallEvent.isAbort = 1) ∧
      ¬(unfinalized.1 ≠ .cut → Closed unfinalized.2.trace) := by
  have hact : bareUpdate.actionable = some ("https://files.test/fw.bin", "f2c1") := rfl
  obtain ⟨haborted, hclosed⟩ := install_cleanup_iff unfinalizing scripted quiet hact uncommitting 5 patchScript 9
  refine ⟨fun h => ?_, fun h => ?_⟩
  · have hcommit := haborted.mp h _ _ rfl
    simp [uncommitting] at hcommit
  · have hfinal := hclosed.mp h _ _ rfl 1 _ rfl
    simp [unfinalizing] at hfinal

end

end NervesHub
