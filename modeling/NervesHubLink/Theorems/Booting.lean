import NervesHubLink.Theorems.WriterSafe

/-! An install into the flash of a device: the boot partition is set only to what was downloaded whole, checked and written
without an error, and then the install has succeeded. -/

namespace NervesHub
open Act Prog Trace InstallEvent OtaEvent

namespace OtaEvent

/-- ESP-IDF did what it was asked. -/
def Succeeded : OtaEvent → Prop
  | .began err _ => err = 0
  | .wrote _ _ err => err = 0
  | .ended _ err => err = 0
  | .aborted _ => True
  | .bootSet err => err = 0
  | .deltaInit h => h.isSome = true
  | .deltaFed _ _ _ err => err = 0
  | .deltaFinalized _ _ err => err = 0
  | .deltaDeinit _ => True

/-- The boot partition is left alone. -/
def Bootless (e : OtaEvent) : Prop := e.isBootSet = false

/-- A step towards the new image that went well. -/
def Smooth (e : OtaEvent) : Prop := e.Succeeded ∧ e.Bootless

end OtaEvent

/-- Whatever was called since `base` satisfies `p`. -/
def Since {σ : Type} (p : OtaEvent → Prop) (base : List OtaEvent) (s : Flash σ) : Prop :=
  ∃ new, s.trace = new ++ base ∧ ∀ e ∈ new, p e

namespace Since
variable {σ : Type} {p q : OtaEvent → Prop} {base : List OtaEvent} {s : Flash σ} {e : OtaEvent} {env : σ} {w : OtaWriter}

theorem start (s : Flash σ) : Since p s.trace s := ⟨[], rfl, fun _ h => nomatch h⟩

theorem note (h : Since p base s) (he : p e) : Since p base { s with env := env, own := w, trace := e :: s.trace } := by
  obtain ⟨new, htrace, hnew⟩ := h
  refine ⟨e :: new, ?_, List.forall_mem_cons.mpr ⟨he, hnew⟩⟩
  rw [htrace]
  rfl

theorem mono (h : Since p base s) (hpq : ∀ e, p e → q e) : Since q base s := by
  obtain ⟨new, htrace, hnew⟩ := h
  exact ⟨new, htrace, fun e he => hpq e (hnew e he)⟩

/-- What went well left the boot partition alone. -/
theorem bootless (h : Since Smooth base s) : Since Bootless base s := h.mono fun _ he => he.2

theorem all (h : Since p [] s) : ∀ e ∈ s.trace, p e := by
  obtain ⟨new, htrace, hnew⟩ := h
  rw [htrace, List.append_nil]
  exact hnew

end Since

section
variable {σ : Type} (idf : EspIdf σ)

/-! ### How the writer's calls go -/

namespace OtaWriter
variable {base : List OtaEvent} {C : Flash σ → Prop}

theorem check_spec {P : Flash σ → Prop} (err : EspErr) (what : String) :
    Spec P (idf.check err what) (Ends (fun _ s => err = 0 ∧ P s) (fun s => err ≠ 0 ∧ P s) C) := by
  intro s hs
  by_cases h : err = 0
  · rw [check_ok idf h]
    exact ⟨h, hs⟩
  · rw [check_error idf h]
    exact ⟨h, hs⟩

/-- After a call that succeeded, all has gone well; and in any case the boot partition was left alone. -/
def Answered (base : List OtaEvent) (err : EspErr) (s : Flash σ) : Prop :=
  (err = 0 → Since Smooth base s) ∧ Since Bootless base s

theorem answered_spec (err : EspErr) (what : String) :
    Spec (Answered base err) (idf.check err what) (Ends (fun _ => Since Smooth base) (Since Bootless base) C) :=
  (check_spec idf err what).mono (fun _ _ h => h.2.1 h.1) (fun _ h => h.2.2) fun _ h => h

theorem openSlot_smooth : Spec (Since Smooth base) (openSlot idf)
    (Ends (fun _ => Since Smooth base) (Since Bootless base) C) := by
  refine Spec.bind (R := fun r => Answered base r.1) ?_ fun r => ?_
  · exact spec_call fun s env r h => ⟨fun herr => h.note ⟨herr, rfl⟩, h.bootless.note rfl⟩
  · exact Spec.bind (answered_spec idf _ _) fun _ s h => h

theorem beginPatch_smooth : Spec (Since Smooth base) (beginPatch idf)
    (Ends (fun _ => Since Smooth base) (Since Bootless base) C) := by
  refine spec_own fun w => ?_
  split
  · exact Spec.fail fun s h => h.1.bootless
  · refine Spec.bind (R := fun _ => Since Smooth base) (spec_call fun s env source h => h.1) fun source => ?_
    refine Spec.ite (fun _ => Spec.fail fun s h => h.bootless) fun _ => ?_
    refine Spec.bind (R := fun handle s => (handle.isSome = true → Since Smooth base s) ∧
      Since Bootless base s) ?_ fun handle => ?_
    · exact spec_call fun s env handle h => ⟨fun hsome => h.note ⟨hsome, rfl⟩, h.bootless.note rfl⟩
    · cases handle with
      | none => exact Spec.fail fun s h => h.2
      | some handle => exact fun s h => h.1 rfl

theorem decideMode_smooth (first : UInt8) :
    Spec (Since Smooth base) (decideMode idf first) (Ends (fun _ => Since Smooth base) (Since Bootless base) C) := by
  unfold decideMode
  split
  · exact fun s h => h
  · exact beginPatch_smooth idf

theorem writeChunk_smooth (chunk : List UInt8) :
    Spec (Since Smooth base) (writeChunk idf chunk) (Ends (fun _ => Since Smooth base) (Since Bootless base) C) := by
  refine spec_own fun w => ?_
  split
  · refine Spec.bind (R := fun r => Answered base r.1) ?_ fun r => ?_
    · exact spec_call fun s env r h => ⟨fun herr => h.1.note ⟨herr, rfl⟩, h.1.bootless.note rfl⟩
    · exact Spec.bind (R := fun _ => Answered base r.1) (fun s h => h) fun _ => answered_spec idf _ _
  · split
    · exact Spec.fail fun s h => h.1.bootless
    · refine Spec.bind (R := fun err => Answered base err) ?_ fun err => answered_spec idf _ _
      exact spec_call fun s env err h => ⟨fun herr => h.1.note ⟨herr, rfl⟩, h.1.bootless.note rfl⟩

theorem write_smooth (chunk : List UInt8) :
    Spec (Since Smooth base) (write idf chunk) (Ends (fun _ => Since Smooth base) (Since Bootless base) C) := by
  cases chunk with
  | nil => exact Spec.ret fun s h => h
  | cons first rest =>
    refine spec_own fun w => Spec.bind (R := fun _ => Since Smooth base) ?_ fun _ => spec_own fun w => ?_
    · exact Spec.when (fun _ => (openSlot_smooth idf).pre fun s h => h.1) fun _ s h => h.1
    refine Spec.bind (R := fun _ => Since Smooth base) ?_ fun _ => ?_
    · exact Spec.when (fun _ => (decideMode_smooth idf first).pre fun s h => h.1) fun _ s h => h.1
    exact Spec.bind (writeChunk_smooth idf _) fun _ s h => h

theorem write_ne_cut (chunk : List UInt8) (s : Flash σ) : (write idf chunk s).1 ≠ .cut := by
  intro hcut
  have h := write_smooth (C := fun _ => False) idf chunk s (Since.start s)
  rw [hcut] at h
  exact h

theorem finishPatch_smooth : Spec (Since Smooth base) (finishPatch idf)
    (Ends (fun _ => Since Smooth base) (Since Bootless base) C) := by
  refine spec_own fun w => ?_
  split
  · refine Spec.bind (R := fun r => Answered base r.1) ?_ fun r => ?_
    · exact spec_call fun s env r h => ⟨fun herr => h.1.note ⟨herr, rfl⟩, h.1.bootless.note rfl⟩
    refine Spec.bind (R := fun _ => Answered base r.1) ?_ fun _ => ?_
    · exact spec_call fun s env err h => ⟨fun herr => (h.1 herr).note ⟨trivial, rfl⟩, h.2.note rfl⟩
    · exact Spec.bind (R := fun _ => Answered base r.1) (fun s h => h) fun _ => answered_spec idf _ _
  · exact Spec.ret fun s h => h.1

/-- The last call was to set the boot partition, once all before it had gone well. -/
def Boots (base : List OtaEvent) (err : EspErr) (s : Flash σ) : Prop :=
  ∃ older, s.trace = .bootSet err :: (older ++ base) ∧ ∀ e ∈ older, e.Smooth

theorem endSlot_boots : Spec (Since Smooth base) (endSlot idf)
    (Ends (fun _ => Boots base 0) (fun s => Since Bootless base s ∨ ∃ err, err ≠ 0 ∧ Boots base err s) C) := by
  refine Spec.bind (R := fun _ => Since Smooth base) (fun s h => h) fun slot => ?_
  cases slot with
  | unopened => exact Spec.fail fun s h => Or.inl h.bootless
  | finished => exact Spec.fail fun s h => Or.inl h.bootless
  | opened handle =>
    refine Spec.bind (R := fun err => Answered base err) ?_ fun err => ?_
    · exact spec_call fun s env err h => ⟨fun herr => h.note ⟨herr, rfl⟩, h.bootless.note rfl⟩
    refine Spec.bind ((answered_spec idf _ _).mono (fun _ _ h => h) (fun _ h => Or.inl h) fun _ h => h) fun _ => ?_
    refine Spec.bind (R := Boots base) (spec_call fun s env err h => ?_) fun err => ?_
    · obtain ⟨new, htrace, hnew⟩ := h
      exact ⟨new, by rw [← htrace]; rfl, hnew⟩
    · refine (check_spec idf err _).mono (fun _ s h => ?_) (fun s h => Or.inr ⟨err, h⟩) fun _ h => h
      obtain ⟨rfl, h⟩ := h
      exact h

/-- A commit that succeeds has set the boot partition. One that fails has not, unless that was refused. -/
theorem commit_boots : Spec (Since Smooth base) (commit idf)
    (Ends (fun _ => Boots base 0) (fun s => Since Bootless base s ∨ ∃ err, err ≠ 0 ∧ Boots base err s) C) :=
  Spec.bind ((finishPatch_smooth idf).mono (fun _ _ h => h) (fun _ h => Or.inl h) fun _ h => h) fun _ => endSlot_boots idf

theorem commit_ne_cut (s : Flash σ) : (commit idf s).1 ≠ .cut := by
  intro hcut
  have h := commit_boots (C := fun _ => False) idf s (Since.start s)
  rw [hcut] at h
  exact h

theorem abort_bootless {s : Flash σ} (h : Since Bootless base s) : Since Bootless base (abort idf s) := by
  have hdrop : Since Bootless base (dropPatch idf s) := by
    unfold dropPatch
    split
    · exact h.note rfl
    · exact h
  unfold abort dropSlot
  split
  · exact hdrop.note rfl
  · exact hdrop

end OtaWriter

/-! ### A device: the parties of an install around its flash -/

/-- The writer, as the sink of an install. -/
def OtaWriter.calls : SinkCalls (Flash σ) :=
  ⟨fun chunk => answer (OtaWriter.write idf chunk) (OtaWriter.write_ne_cut idf chunk),
    answer (OtaWriter.commit idf) (OtaWriter.commit_ne_cut idf), OtaWriter.abort idf⟩

/-- A call that has nothing to do with the flash. -/
def besideFlash {α : Type} (f : σ → α × σ) (s : Flash σ) : α × Flash σ := ((f s.env).1, { s with env := (f s.env).2 })

def HttpCalls.beside (c : HttpCalls σ) : HttpCalls (Flash σ) := ⟨fun url => besideFlash (c.openUrl url), besideFlash c.read⟩

def ProgressCalls.beside (c : ProgressCalls σ) : ProgressCalls (Flash σ) :=
  ⟨besideFlash c.tick, fun stage percent => besideFlash (c.report stage percent), fun d => besideFlash (c.wait d)⟩

variable [Sha256] (http : HttpCalls σ) (progress : ProgressCalls σ)

/-- An install on a device, from the start. -/
def installOnDevice (update : UpdatePayload) (step : Nat) (env : σ) (gas : Nat) :
    Outcome Error InstallReport × Rig (Flash σ) :=
  install update http.beside.rig (OtaWriter.calls idf).rig step progress.beside.rig (Rig.start (Flash.start env 0) gas)

/-- What holds of an install, whether it has ended or not: of the flash, and of what had been downloaded when the boot
    partition was set. -/
structure BootsVerified (update : UpdatePayload) (o : Outcome Error InstallReport) (t : List InstallEvent)
    (flash : List OtaEvent) :
    Prop where
  handles : Throughout Allowed flash
  boot : OnlyAfter (·.isBootSet) Bootable flash
  once : AtMostOnce isBootSet flash
  verified : ∀ err, .bootSet err ∈ flash → ∃ r older, t = .committed r :: older ∧ Verified update older ∧
    Streamed (accepted older) flash ∧ ∀ e ∈ flash, e.isBootSet = false → e.Succeeded
  returned : (∃ report, o = .ret report) ↔ .bootSet 0 ∈ flash

/-! ### The start -/

omit [Sha256] in
theorem guarded_start (env : σ) (gas : Nat) : GuardedIn (Flash.start env gas) :=
  ⟨⟨rfl, rfl, fun h => absurd rfl h⟩, throughout_nil, onlyAfter_nil, fun _ ho => (nomatch ho), fun _ _ he => (nomatch he),
    fun _ _ h => (nomatch h)⟩

omit [Sha256] in
theorem flow_start (env : σ) (gas : Nat) : Flow [] (Flash.start env gas) :=
  ⟨⟨rfl, rfl⟩, fun _ => ⟨rfl, rfl⟩, fun _ h => (nomatch h), fun h => (nomatch h)⟩

/-! ### The download -/

/-- The writer has been given what the sink has taken, and all has gone well. -/
structure Streaming (s : Rig (Flash σ)) : Prop where
  flow : Flow (accepted s.trace) s.env
  guarded : GuardedIn s.env
  smooth : Since Smooth [] s.env

/-- The boot partition is as it was. -/
structure Unbooted (s : Rig (Flash σ)) : Prop where
  guarded : GuardedIn s.env
  bootless : Since Bootless [] s.env

variable {idf}

omit [Sha256] in
theorem Streaming.unbooted {s : Rig (Flash σ)} (h : Streaming s) : Unbooted s := ⟨h.guarded, h.smooth.bootless⟩

omit [Sha256] in
/-- A call beside the flash that moves no bytes. -/
theorem beside_streaming {α : Type} {f : σ → Except Error α × σ} {ev : Except Error α → List InstallEvent}
    (hev : ∀ r t, accepted (ev r ++ t) = accepted t) :
    Spec Streaming (tryCall (besideFlash f) ev : Prog (Flash σ) InstallEvent Unit Error α)
      (Post (fun _ => Streaming) Streaming) := by
  refine Spec.of_keeps (R := fun s t => Streaming s → Streaming t) ?_ fun s t h hst => hst h
  intro s h
  have hkept : ∀ r, Streaming { s with env := (besideFlash f s.env).2, trace := ev r ++ s.trace } := fun r =>
    ⟨by rw [hev]; exact ⟨h.flow.streamed, h.flow.unopened, h.flow.opened, h.flow.finished⟩, h.guarded, h.smooth⟩
  obtain ⟨r, -, ⟨a, rfl, hrun⟩ | ⟨e, rfl, hrun⟩⟩ := tryCall_cases (X := Unit) (besideFlash f) ev s
  · rw [hrun]
    exact hkept _
  · rw [hrun]
    exact hkept _

variable (idf)

omit [Sha256] in
theorem write_streaming (chunk : List UInt8) :
    Spec Streaming ((OtaWriter.calls idf).rig.write chunk) (Post (fun _ => Streaming) Unbooted) := by
  refine spec_answer fun s h => ?_
  have hwrite := ((write_flow idf _ chunk).both (write_guarded idf chunk)).both
    (OtaWriter.write_smooth (C := fun _ => True) idf chunk) s.env ⟨⟨h.flow, h.guarded⟩, h.smooth⟩
  refine hwrite.mono (fun _ env h => ?_) (fun env h e => ?_) fun _ _ => trivial
  · exact ⟨h.1.1, h.1.2, h.2⟩
  · exact ⟨h.1.2, h.2⟩

theorem download_streaming (update : UpdatePayload) (url : String) (step : Nat) :
    Spec Streaming (download update url http.beside.rig (OtaWriter.calls idf).rig step progress.beside.rig)
      (Post (fun _ => Streaming) Unbooted) := by
  have hbeside : ∀ {α : Type} {f : σ → Except Error α × σ} {ev : Except Error α → List InstallEvent},
      (∀ r t, accepted (ev r ++ t) = accepted t) →
      Spec Streaming (tryCall (besideFlash f) ev : Prog (Flash σ) InstallEvent Unit Error α)
          (Post (fun _ => Streaming) Unbooted) :=
    fun hev => (beside_streaming hev).mono (fun _ _ h => h) (fun _ h => h.unbooted) fun _ h => h.unbooted
  exact spec_download (I := Streaming) (F := Unbooted) (fun s g h => ⟨h.flow, h.guarded, h.smooth⟩) (fun _ h => h.unbooted)
    (fun url => beside_streaming fun _ _ => rfl) (fun d => beside_streaming fun _ _ => rfl) (hbeside fun _ _ => rfl)
    (write_streaming idf) (hbeside fun _ _ => rfl) (fun percent => hbeside fun _ _ => rfl) (fun _ h => h.unbooted)
      (fun _ h => h)
    update url step

/-! ### The commit -/

/-- The commit came right after `older`, and was answered `r`; in it the boot partition was set last, and that was answered
    `err`. -/
structure Booted (update : UpdatePayload) (r : Except Error Unit) (err : EspErr) (s : Rig (Flash σ)) : Prop where
  guarded : GuardedIn s.env
  boots : OtaWriter.Boots [] err s.env
  verified : ∃ older, s.trace = .committed r :: older ∧ Verified update older ∧ Streamed (accepted older) s.env.trace

/-- The install did not boot what it downloaded. -/
def NotBooted (update : UpdatePayload) (s : Rig (Flash σ)) : Prop :=
  Unbooted s ∨ ∃ e err, err ≠ 0 ∧ Booted update (.error e) err s

theorem commit_booted (update : UpdatePayload) :
    Spec (fun s => Streaming s ∧ Verified update s.trace) (OtaWriter.calls idf).rig.commit
    (Ends (fun _ => Booted update (.ok ()) 0) (NotBooted update) Unbooted) := by
  refine spec_answer ?_
  rintro s ⟨h, hv⟩
  have hguarded : Spec GuardedIn (OtaWriter.commit idf) (Post (fun _ => GuardedIn) GuardedIn) :=
    Spec.of_state fun _ => commit_guarded idf
  have hcommit := ((commit_flow idf _).both hguarded).both (OtaWriter.commit_boots (C := fun _ => True) idf) s.env
    ⟨⟨h.flow, h.guarded⟩, h.smooth⟩
  refine hcommit.mono (fun _ env h => ?_) (fun env h e => ?_) fun _ _ => trivial
  · exact ⟨h.1.2, h.2, s.trace, rfl, hv, h.1.1.streamed⟩
  · obtain ⟨⟨hstreamed, hguarded⟩, hbootless | ⟨err, herr, hboots⟩⟩ := h
    · exact Or.inl ⟨hguarded, hbootless⟩
    · exact Or.inr ⟨e, err, herr, hguarded, hboots, s.trace, rfl, hv, hstreamed⟩

theorem install_booted (update : UpdatePayload) (step : Nat) : Spec (fun s => Streaming s ∧ Untouched s.trace)
    (install update http.beside.rig (OtaWriter.calls idf).rig step progress.beside.rig)
    (Ends (fun _ => Booted update (.ok ()) 0) (NotBooted update) Unbooted) := by
  unfold install
  split
  · exact Spec.fail fun s h => Or.inl h.1.unbooted
  · have hdownload := fun url => (download_streaming idf http progress update url step).both
      (download_spec http.beside (OtaWriter.calls idf) progress.beside update url step)
    refine Spec.bind (Spec.attempt (X := NotBooted update)
      ((hdownload _).mono (fun _ _ h => h) (fun _ h => h.1) fun _ h => h.1))
      fun r => ?_
    cases r with
    | ok report =>
      refine Spec.bind ((commit_booted idf update).pre fun s h => ⟨h.1, h.2.1⟩) fun _ => Spec.ret fun _ h => h
    | error err =>
      refine Spec.bind (R := fun _ => Unbooted) (fun s h => ?_) fun _ => Spec.fail fun s h => Or.inl h
      exact ⟨abort_guarded idf h.guarded, OtaWriter.abort_bootless idf h.bootless⟩

/-! ### The flash -/

variable {idf}

omit [Sha256] in
theorem Unbooted.none {s : Rig (Flash σ)} (h : Unbooted s) (err : EspErr) : .bootSet err ∉ s.env.trace := fun he => by
  cases h.bootless.all _ he

theorem Unbooted.verified {update : UpdatePayload} {o : Outcome Error InstallReport} {s : Rig (Flash σ)} (h : Unbooted s)
    (ho : ∀ report, o ≠ .ret report) : BootsVerified update o s.trace s.env.trace where
  handles := h.guarded.handles
  boot := h.guarded.boot
  once := by
    rw [AtMostOnce, List.countP_eq_zero.mpr fun e he => by rw [h.bootless.all e he]; exact Bool.false_ne_true]
    exact Nat.zero_le 1
  verified err he := absurd he (h.none err)
  returned := iff_of_false (fun ⟨report, hr⟩ => ho report hr) (h.none 0)

theorem Booted.verifies {update : UpdatePayload} {o : Outcome Error InstallReport} {r : Except Error Unit} {err : EspErr}
    {s : Rig (Flash σ)} (h : Booted update r err s) (ho : (∃ report, o = .ret report) ↔ err = 0) :
    BootsVerified update o s.trace s.env.trace := by
  obtain ⟨olderFlash, hflash, hsmooth⟩ := h.boots
  obtain ⟨older, htrace, hv, hstreamed⟩ := h.verified
  rw [List.append_nil] at hflash
  have hset : ∀ err', .bootSet err' ∈ s.env.trace ↔ err' = err := by
    intro err'
    rw [hflash, List.mem_cons]
    refine ⟨?_, fun h => Or.inl (by rw [h])⟩
    rintro (heq | hmem)
    · cases heq
      rfl
    · cases (hsmooth _ hmem).2
  refine ⟨h.guarded.handles, h.guarded.boot, ?_, fun err' he => ⟨r, older, htrace, hv, hstreamed, fun e he hq => ?_⟩, ?_⟩
  · rw [AtMostOnce, hflash, List.countP_cons,
      List.countP_eq_zero.mpr fun e he => by rw [(hsmooth e he).2]; exact Bool.false_ne_true]
    exact Nat.le_refl 1
  · rw [hflash, List.mem_cons] at he
    rcases he with rfl | he
    · cases hq
    · exact (hsmooth e he).1
  · rw [ho, hset 0]
    exact eq_comm

/-- On a device, whatever the network, the flash and the agent's own calls answer: the boot partition is set at most once,
    only after the commit of a download that was whole, of the right length and hash, and all of which was taken without an
    error; and it was set without an error exactly if the install succeeded. For a patch, what is taken is what the
    component is fed: the answers of `esp_ota_write` to the pieces that it rebuilds are its own to heed. -/
theorem boots_verified (update : UpdatePayload) (step : Nat) (env : σ) (gas : Nat) :
    BootsVerified update (installOnDevice idf http progress update step env gas).1
      (installOnDevice idf http progress update step env gas).2.trace
      (installOnDevice idf http progress update step env gas).2.env.trace := by
  have h := install_booted idf http progress update step (Rig.start (Flash.start env 0) gas)
    ⟨⟨flow_start env 0, guarded_start env 0, ⟨[], rfl, fun _ he => nomatch he⟩⟩, untouched_nil⟩
  rw [← installOnDevice] at h
  rcases ho : (installOnDevice idf http progress update step env gas).1 with report | e | _ <;> rw [ho] at h
  · exact Booted.verifies h (iff_of_true ⟨report, rfl⟩ rfl)
  · rcases h with h | ⟨e', err, herr, h⟩
    · exact Unbooted.verified h fun _ heq => by cases heq
    · exact Booted.verifies h (iff_of_false (fun ⟨_, heq⟩ => by cases heq) herr)
  · exact Unbooted.verified h fun _ heq => by cases heq

end

end NervesHub
