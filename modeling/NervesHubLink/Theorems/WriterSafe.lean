import NervesHubLink.Theorems.OtaCleanup

/-! The writer under any sequence of calls: what it does with its handles, when it sets the boot partition, and where the
bytes go. -/

namespace NervesHub
open Act Prog Trace

/-- A call of the sink that the writer is. -/
inductive WriterOp where
  | write (chunk : List UInt8)
  | commit
  | abort

def WriterOp.bytes : WriterOp → List UInt8
  | .write chunk => chunk
  | _ => []

namespace OtaEvent

/-- The handle of the slot that a part of the image goes into. -/
def target : OtaEvent → Option OtaHandle
  | .wrote h _ _ => some h
  | .deltaFed _ ota _ _ => some ota
  | .deltaFinalized _ ota _ => some ota
  | _ => none

def isBootSet : OtaEvent → Bool
  | .bootSet _ => true
  | _ => false

/-- Every handle that is used or released is open. -/
def Allowed : OtaEvent → List OtaEvent → Prop
  | .wrote h _ _, t => h ∈ openOta t
  | .deltaFed h ota _ _, t => h ∈ openDelta t ∧ ota ∈ openOta t
  | .deltaFinalized h ota _, t => h ∈ openDelta t ∧ ota ∈ openOta t
  | .deltaDeinit h, t => h ∈ openDelta t
  | .ended h _, t => h ∈ openOta t
  | .aborted h, t => h ∈ openOta t
  | _, _ => True

/-- The bytes that `esp_ota_write` was given by the writer itself. -/
def written : List OtaEvent → List UInt8
  | [] => []
  | .wrote _ bytes _ :: t => written t ++ bytes
  | _ :: t => written t

/-- The bytes that `esp_delta_ota_feed_patch` was given. -/
def fed : List OtaEvent → List UInt8
  | [] => []
  | .deltaFed _ _ bytes _ :: t => fed t ++ bytes
  | _ :: t => fed t

end OtaEvent
open OtaEvent

/-- The last call ended a slot without an error, and all of the image went into that slot. -/
def Bootable (t : List OtaEvent) : Prop :=
  ∃ h older, t = .ended h 0 :: older ∧ .began 0 h ∈ older ∧ ∀ e ∈ older, ∀ h', e.target = some h' → h' = h

/-- The stream went one way, by its first byte, and not the other. -/
def Streamed (bytes : List UInt8) (t : List OtaEvent) : Prop :=
  if bytes.head?.any (· != espImageMagic) then fed t = bytes ∧ written t = [] else written t = bytes ∧ fed t = []

section
variable {σ : Type} (idf : EspIdf σ)

def WriterOp.perform : WriterOp → OtaProg σ Unit
  | .write chunk => OtaWriter.write idf chunk
  | .commit => OtaWriter.commit idf
  | .abort => modify (OtaWriter.abort idf)

/-- The state after a sequence of calls, whether or not they failed. -/
def WriterOp.run : List WriterOp → Flash σ → Flash σ
  | [], s => s
  | op :: rest, s => WriterOp.run rest (op.perform idf s).2

def WriterOp.Succeed : List WriterOp → Flash σ → Prop
  | [], _ => True
  | op :: rest, s => (op.perform idf s).1 = .ret () ∧ WriterOp.Succeed rest (op.perform idf s).2

def WriterOp.stream (ops : List WriterOp) : List UInt8 := ops.flatMap WriterOp.bytes

/-- What holds after any calls; as long as none of them has failed, of the stream; and if the next one fails, it got all of
    its chunk to the same place or none. -/
structure SafeWriter (ops : List WriterOp) (s : Flash σ) : Prop where
  handles : Throughout Allowed (WriterOp.run idf ops s).trace
  boot : OnlyAfter (·.isBootSet) Bootable (WriterOp.run idf ops s).trace
  untouched : WriterOp.stream ops = [] → (WriterOp.run idf ops s).trace = s.trace ∧ (WriterOp.run idf ops s).env = s.env
  stream : WriterOp.Succeed idf ops s → Streamed (WriterOp.stream ops) (WriterOp.run idf ops s).trace
  failing : WriterOp.Succeed idf ops s → ∀ op : WriterOp,
    Streamed (WriterOp.stream ops) (op.perform idf (WriterOp.run idf ops s)).2.trace ∨
      Streamed (WriterOp.stream (ops ++ [op])) (op.perform idf (WriterOp.run idf ops s)).2.trace

/-! ### Handles -/

/-- What holds of the writer at any time. -/
structure Guarded (w : OtaWriter) (t : List OtaEvent) : Prop where
  held : Held w t
  handles : Throughout Allowed t
  boot : OnlyAfter (·.isBootSet) Bootable t
  one : ∀ h, w.slot = .opened h → .began 0 h ∈ t ∧ ∀ e ∈ t, ∀ h', e.target = some h' → h' = h
  fresh : w.slot = .unopened → ∀ e ∈ t, e.target = none
  into : ∀ handle context, w.mode = .patch handle context → w.slot = .opened context.ota

namespace Guarded
variable {w w' : OtaWriter} {t : List OtaEvent} {e : OtaEvent}

theorem event (h : Guarded w t) (hheld : Held w' (e :: t)) (hslot : w'.slot = w.slot) (hok : e.Allowed t)
    (hboot : e.isBootSet = false) (htarget : ∀ ota, e.target = some ota → w.slot = .opened ota)
    (hinto : ∀ handle context, w'.mode = .patch handle context → w.slot = .opened context.ota) : Guarded w' (e :: t) where
  held := hheld
  handles := throughout_cons.mpr ⟨hok, h.handles⟩
  boot := onlyAfter_cons.mpr ⟨fun hb => absurd hb (by simp [hboot]), h.boot⟩
  one ota ho := by
    rw [hslot] at ho
    obtain ⟨hbegan, hsame⟩ := h.one ota ho
    refine ⟨List.mem_cons_of_mem _ hbegan, List.forall_mem_cons.mpr ⟨fun ota' ht => ?_, hsame⟩⟩
    exact (Slot.opened.inj (ho.symm.trans (htarget ota' ht))).symm
  fresh hf := by
    rw [hslot] at hf
    refine List.forall_mem_cons.mpr ⟨?_, h.fresh hf⟩
    cases ht : e.target with
    | none => rfl
    | some ota =>
      have := htarget ota ht
      rw [hf] at this
      cases this
  into handle context hm := hslot.trans (hinto handle context hm)

theorem began (h : Guarded w t) (hslot : w.slot = .unopened) (ota : OtaHandle) :
    Guarded { w with slot := .opened ota } (.began 0 ota :: t) where
  held := h.held.began hslot ota
  handles := throughout_cons.mpr ⟨trivial, h.handles⟩
  boot := onlyAfter_cons.mpr ⟨fun hb => absurd hb (by simp [isBootSet]), h.boot⟩
  one ota' ho := by
    cases ho
    refine ⟨List.mem_cons_self, List.forall_mem_cons.mpr ⟨fun h' ht => absurd ht (by simp [target]), fun e he h' ht => ?_⟩⟩
    rw [h.fresh hslot e he] at ht
    cases ht
  fresh hf := by cases hf
  into handle context hm := by
    have := h.into handle context hm
    rw [hslot] at this
    cases this

theorem finished (h : Guarded w t) (hheld : Held w' (e :: t)) (hslot : w'.slot = .finished) (hok : e.Allowed t)
    (hboot : e.isBootSet = true → Bootable t) : Guarded w' (e :: t) where
  held := hheld
  handles := throughout_cons.mpr ⟨hok, h.handles⟩
  boot := onlyAfter_cons.mpr ⟨hboot, h.boot⟩
  one ota ho := by rw [hslot] at ho; cases ho
  fresh hf := by rw [hslot] at hf; cases hf
  into handle context hm := absurd (by rw [hslot]; rfl) (hheld.patch (by rw [hm]; simp [Mode.handle]))

/-- The writer may change as long as what it holds does not. -/
theorem remode (h : Guarded w t) (hheld : Held w' t) (hslot : w'.slot = w.slot)
    (hinto : ∀ handle context, w'.mode = .patch handle context → w.slot = .opened context.ota) : Guarded w' t :=
  ⟨hheld, h.handles, h.boot, fun ota ho => h.one ota (hslot ▸ ho), fun hf => h.fresh (hslot ▸ hf),
    fun handle context hm => hslot.trans (hinto handle context hm)⟩

theorem given (h : Guarded w t) (hslot : w.slot.handle = none) (hmode : w.mode.handle = none) :
    Guarded { w with slot := .finished } t where
  held := ⟨by rw [h.held.ota, hslot]; rfl, h.held.delta, fun hne => absurd hmode hne⟩
  handles := h.handles
  boot := h.boot
  one ota ho := by cases ho
  fresh hf := by cases hf
  into handle context hm := by
    have : w.mode.handle = some handle := by rw [show w.mode = .patch handle context from hm]; rfl
    rw [hmode] at this
    cases this

end Guarded

section
open OtaWriter
variable {s : Rec σ OtaEvent OtaWriter}

abbrev GuardedIn (s : Rec σ OtaEvent OtaWriter) : Prop := Guarded s.own s.trace

omit idf in
theorem Held.mem_ota {w : OtaWriter} {t : List OtaEvent} (h : Held w t) {ota : OtaHandle}
    (hslot : w.slot.handle = some ota) :
    ota ∈ openOta t := by simp [h.ota, hslot]

omit idf in
theorem Held.mem_delta {w : OtaWriter} {t : List OtaEvent} (h : Held w t) {handle : DeltaHandle}
    (hmode : w.mode.handle = some handle) : handle ∈ openDelta t := by simp [h.delta, hmode]

omit idf in
theorem Slot.opened_of_handle {slot : Slot} {ota : OtaHandle} (h : slot.handle = some ota) : slot = .opened ota := by
  cases slot <;> cases h
  rfl

theorem write_guarded (chunk : List UInt8) : Spec GuardedIn (write idf chunk) (Post (fun _ => GuardedIn) GuardedIn) := by
  refine write_rule idf (fun s hs hslot => ?_) (fun s hs hmode => ?_) (fun s hs hmode => ?_) (fun s chunk hs => ?_)
    (fun s n hs => ?_) chunk
  · have hheld := openSlot_held idf hs.held hslot
    rcases openSlot_cases idf s with ⟨err, handle, env, e, herr, hrun⟩ | ⟨handle, env, hrun⟩ <;> rw [hrun] at hheld ⊢
    · exact hs.event hheld rfl trivial rfl (fun _ h => by cases h) hs.into
    · exact hs.began hslot handle
  · exact hs.remode (hs.held.remode (by rw [hmode]; rfl) _) rfl fun _ _ h => by cases h
  · have hheld := beginPatch_held idf hs.held hmode
    rcases beginPatch_cases idf s with ⟨env, e, hrun⟩ | ⟨env, e, hrun⟩ | ⟨ota, handle, env, hslot, hrun⟩ <;>
      rw [hrun] at hheld ⊢
    · exact hs
    · exact hs.event hheld rfl trivial rfl (fun _ h => by cases h) hs.into
    · refine hs.event hheld rfl trivial rfl (fun _ h => by cases h) fun _ _ h => ?_
      cases h
      exact Slot.opened_of_handle hslot
  · have hheld := writeChunk_held idf hs.held chunk
    rcases writeChunk_cases idf s chunk with ⟨handle, context, err, env, written, o, hmode, -, hrun⟩ |
      ⟨handle, err, env, o, -, hslot, -, hrun⟩ | ⟨-, -, e, hrun⟩ <;> rw [hrun] at hheld ⊢
    · have hinto := hs.into handle context hmode
      refine hs.event hheld rfl ⟨hs.held.mem_delta ?_, hs.held.mem_ota ?_⟩ rfl ?_ fun _ _ h => ?_
      · rw [hmode]; rfl
      · rw [hinto]; rfl
      · rintro ota ⟨⟩
        exact hinto
      · cases h
        exact hinto
    · exact hs.event hheld rfl (hs.held.mem_ota hslot) rfl
        (fun ota h => by cases h; exact Slot.opened_of_handle hslot) hs.into
    · exact hs
  · exact hs.remode (hs.held.remode rfl _) rfl hs.into

/-- Finishing a patch leaves none behind, however it goes. -/
theorem finishPatch_guarded (hs : GuardedIn s) :
    GuardedIn (finishPatch idf s).2 ∧ (finishPatch idf s).2.own.mode.handle = none := by
  rcases finishPatch_cases idf s with ⟨handle, context, env, o, hmode, -, -, hrun⟩ | ⟨hmode, hrun⟩ <;> rw [hrun]
  · have hhandle : s.own.mode.handle = some handle := by rw [hmode]; rfl
    have hinto := hs.into handle context hmode
    have hfinalized : Guarded s.own
        (.deltaFinalized handle context.ota (idf.deltaFinalize handle s.env).1.1 :: s.trace) := by
      refine hs.event (hs.held.neutral rfl) rfl ⟨hs.held.mem_delta hhandle, hs.held.mem_ota ?_⟩ rfl ?_ hs.into
      · rw [hinto]; rfl
      · rintro ota ⟨⟩
        exact hinto
    refine ⟨hfinalized.event (hfinalized.held.released hhandle) rfl (hfinalized.held.mem_delta hhandle) rfl ?_ ?_, rfl⟩
    · rintro ota ⟨⟩
    · rintro _ _ ⟨⟩
  · exact ⟨hs, hmode⟩

theorem endSlot_guarded (hs : GuardedIn s) (hmode : s.own.mode.handle = none) : GuardedIn (endSlot idf s).2 := by
  rcases endSlot_cases idf s with ⟨handle, err, env, e, hslot, -, hrun⟩ | ⟨handle, err, env, o, hslot, -, hrun⟩ |
    ⟨hslot, e, hrun⟩ <;> rw [hrun]
  · exact hs.finished (hs.held.closed hslot hmode (Or.inr ⟨err, rfl⟩)) rfl
      (hs.held.mem_ota (by rw [hslot]; rfl)) fun h => by cases h
  · have hended := hs.finished (hs.held.closed hslot hmode (Or.inr ⟨0, rfl⟩)) rfl
      (hs.held.mem_ota (by rw [hslot]; rfl)) fun h => by cases h
    obtain ⟨hbegan, hsame⟩ := hs.one handle hslot
    exact hended.finished (hended.held.neutral rfl) rfl trivial fun _ => ⟨handle, s.trace, rfl, hbegan, hsame⟩
  · exact hs.given hslot hmode

theorem commit_guarded (hs : GuardedIn s) : GuardedIn (commit idf s).2 := by
  obtain ⟨hfinished, hmode⟩ := finishPatch_guarded idf hs
  unfold commit
  rcases hrun : finishPatch idf s with ⟨_ | e | _, t⟩ <;> rw [hrun] at hfinished hmode
  · rw [bind_ret hrun]
    exact endSlot_guarded idf hfinished hmode
  · rw [bind_err hrun]
    exact hfinished
  · rw [bind_cut hrun]
    exact hfinished

theorem abort_guarded (hs : GuardedIn s) : GuardedIn (abort idf s) := by
  have hdrop : GuardedIn (dropPatch idf s) ∧ (dropPatch idf s).own.mode.handle = none := by
    unfold dropPatch
    cases hmode : s.own.mode
    case patch handle context =>
      have hhandle : s.own.mode.handle = some handle := by rw [hmode]; rfl
      refine ⟨hs.event (hs.held.released hhandle) rfl (hs.held.mem_delta hhandle) rfl ?_ ?_, rfl⟩
      · rintro ota ⟨⟩
      · rintro _ _ ⟨⟩
    all_goals exact ⟨hs, by rw [hmode]; rfl⟩
  obtain ⟨hs, hmode⟩ := hdrop
  unfold abort dropSlot
  cases hslot : (dropPatch idf s).own.slot
  case opened handle =>
    exact hs.finished (hs.held.closed hslot hmode (Or.inl rfl)) rfl
      (hs.held.mem_ota (by rw [hslot]; rfl)) fun h => by cases h
  all_goals exact hs.given (by rw [hslot]; rfl) hmode

theorem perform_guarded (op : WriterOp) (hs : GuardedIn s) : GuardedIn (op.perform idf s).2 := by
  cases op with
  | write chunk => exact (write_guarded idf chunk).state hs
  | commit => exact commit_guarded idf hs
  | abort => exact abort_guarded idf hs

theorem run_guarded (ops : List WriterOp) (hs : GuardedIn s) : GuardedIn (WriterOp.run idf ops s) := by
  induction ops generalizing s with
  | nil => exact hs
  | cons op ops ih => exact ih (perform_guarded idf op hs)

/-! ### Before the first byte -/

def Idle (s : Rec σ OtaEvent OtaWriter) : Prop := s.own.slot.handle = none ∧ s.own.mode.handle = none

theorem perform_idle {op : WriterOp} (hop : op.bytes = []) (hs : Idle s) :
    Idle (op.perform idf s).2 ∧ (op.perform idf s).2.trace = s.trace ∧ (op.perform idf s).2.env = s.env := by
  obtain ⟨hslot, hmode⟩ := hs
  cases op with
  | write chunk =>
    rw [show chunk = [] from hop]
    exact ⟨⟨hslot, hmode⟩, rfl, rfl⟩
  | commit =>
    have hfinish : finishPatch idf s = (.ret (), s) := by
      rcases finishPatch_cases idf s with ⟨handle, context, env, o, h, -⟩ | ⟨-, hrun⟩
      · rw [h] at hmode
        cases hmode
      · exact hrun
    have hend : ∃ e, endSlot idf s = (.err e, { s with own := { s.own with slot := .finished } }) := by
      rcases endSlot_cases idf s with ⟨handle, err, env, e, h, -⟩ | ⟨handle, err, env, o, h, -⟩ | ⟨-, hrun⟩
      · rw [h] at hslot
        cases hslot
      · rw [h] at hslot
        cases hslot
      · exact hrun
    obtain ⟨e, hend⟩ := hend
    show Idle (commit idf s).2 ∧ (commit idf s).2.trace = s.trace ∧ (commit idf s).2.env = s.env
    rw [commit, bind_ret hfinish, hend]
    exact ⟨⟨rfl, hmode⟩, rfl, rfl⟩
  | abort =>
    have hdrop : dropPatch idf s = s := by
      unfold dropPatch
      split
      · rename_i handle context h
        rw [h] at hmode
        cases hmode
      · rfl
    show Idle (abort idf s) ∧ (abort idf s).trace = s.trace ∧ (abort idf s).env = s.env
    unfold abort dropSlot
    rw [hdrop]
    split
    · rename_i handle h
      rw [h] at hslot
      cases hslot
    · exact ⟨⟨rfl, hmode⟩, rfl, rfl⟩

theorem run_idle {ops : List WriterOp} (hops : WriterOp.stream ops = []) (hs : Idle s) :
    (WriterOp.run idf ops s).trace = s.trace ∧ (WriterOp.run idf ops s).env = s.env := by
  induction ops generalizing s with
  | nil => exact ⟨rfl, rfl⟩
  | cons op ops ih =>
    obtain ⟨hop, hrest⟩ := List.append_eq_nil_iff.mp (show op.bytes ++ WriterOp.stream ops = [] from hops)
    obtain ⟨hidle, htrace, henv⟩ := perform_idle idf hop hs
    obtain ⟨htrace', henv'⟩ := ih hrest hidle
    exact ⟨htrace'.trans htrace, henv'.trans henv⟩

/-! ### The stream -/

def Mode.Suits : Mode → List UInt8 → Prop
  | .undecided, _ => False
  | .image, bytes => bytes.head? = some espImageMagic
  | .patch _ _, bytes => ∃ b, bytes.head? = some b ∧ b ≠ espImageMagic

theorem Mode.Suits.append {m : Mode} {bytes : List UInt8} (h : m.Suits bytes) (more : List UInt8) :
    m.Suits (bytes ++ more) := by
  cases m with
  | undecided => exact h
  | image => exact List.head?_append.trans (by rw [show bytes.head? = _ from h]; rfl)
  | patch handle context =>
    obtain ⟨b, hb, hne⟩ := h
    exact ⟨b, List.head?_append.trans (by rw [hb]; rfl), hne⟩

section
variable {bytes chunk : List UInt8} {t : List OtaEvent}

theorem Streamed.wrote (h : Streamed bytes t) (hm : bytes ≠ [] → bytes.head? = some espImageMagic)
    (hmagic : (bytes ++ chunk).head? = some espImageMagic) (ota : OtaHandle) (err : EspErr) :
    Streamed (bytes ++ chunk) (.wrote ota chunk err :: t) := by
  have hold : OtaEvent.written t = bytes ∧ fed t = [] := by
    rcases bytes with _ | ⟨b, bytes⟩
    · exact h
    · simpa [Streamed, hm (by simp)] using h
  rw [Streamed, hmagic, if_neg (by simp)]
  exact ⟨by rw [OtaEvent.written, hold.1], hold.2⟩

theorem Streamed.fed (h : Streamed bytes t) (hm : bytes ≠ [] → ∃ b, bytes.head? = some b ∧ b ≠ espImageMagic)
    (hother : ∃ b, (bytes ++ chunk).head? = some b ∧ b ≠ espImageMagic) (handle : DeltaHandle) (ota : OtaHandle)
    (err : EspErr) :
    Streamed (bytes ++ chunk) (.deltaFed handle ota chunk err :: t) := by
  have hold : OtaEvent.fed t = bytes ∧ OtaEvent.written t = [] := by
    rcases bytes with _ | ⟨b, bytes⟩
    · exact And.symm h
    · obtain ⟨b', hb', hne⟩ := hm (by simp)
      simpa [Streamed, hb', hne] using h
  obtain ⟨b, hb, hne⟩ := hother
  rw [Streamed, hb, if_pos (by simpa using hne)]
  exact ⟨by rw [OtaEvent.fed, hold.1], hold.2⟩

end

/-- What holds as long as no call has failed. -/
structure Flow (bytes : List UInt8) (s : Rec σ OtaEvent OtaWriter) : Prop where
  streamed : Streamed bytes s.trace
  unopened : s.own.slot = .unopened → bytes = [] ∧ s.own.mode = .undecided
  opened : ∀ handle, s.own.slot = .opened handle → s.own.mode.Suits bytes
  finished : s.own.slot = .finished → s.own.mode.handle = none

/-- The slot is there for the next chunk, and its first byte has decided the mode. Or there is no slot any more. -/
def Decided (bytes chunk : List UInt8) (s : Rec σ OtaEvent OtaWriter) : Prop :=
  Streamed bytes s.trace ∧ (((∃ handle, s.own.slot = .opened handle) ∧ s.own.mode.Suits (bytes ++ chunk) ∧
    (bytes ≠ [] → s.own.mode.Suits bytes)) ∨ s.own.slot = .finished ∧ s.own.mode.handle = none)

theorem writeChunk_flow {bytes chunk : List UInt8} (hs : Decided bytes chunk s) :
    Ends (fun _ => Flow (bytes ++ chunk)) (fun s => Streamed bytes s.trace ∨ Streamed (bytes ++ chunk) s.trace)
      (fun _ => False)
      (writeChunk idf chunk s).1 (writeChunk idf chunk s).2 := by
  obtain ⟨hstream, ⟨⟨ota, hslot⟩, hsuits, hold⟩ | ⟨hslot, hmode⟩⟩ := hs
  · have hdone : ∀ {o : Outcome Error Unit} {u : Rec σ OtaEvent OtaWriter}, o ≠ .cut → Streamed (bytes ++ chunk) u.trace →
        u.own.slot = .opened ota → u.own.mode.Suits (bytes ++ chunk) →
        Ends (fun _ => Flow (bytes ++ chunk)) (fun s => Streamed bytes s.trace ∨ Streamed (bytes ++ chunk) s.trace)
          (fun _ => False) o u := by
      intro o u hcut hstream hslot hsuits
      rcases o with _ | e | _
      · refine ⟨hstream, fun h => ?_, fun _ _ => hsuits, fun h => ?_⟩
        all_goals
          rw [hslot] at h
          cases h
      · exact Or.inr hstream
      · exact absurd rfl hcut
    rcases writeChunk_cases idf s chunk with ⟨handle, context, err, env, written, o, hmode, hcut, hrun⟩ |
      ⟨handle, err, env, o, hmode, -, hcut, hrun⟩ | ⟨-, hnone, -⟩
    · rw [hmode] at hsuits hold
      rw [hrun]
      exact hdone hcut (hstream.fed hold hsuits _ _ _) hslot hsuits
    · cases hm : s.own.mode <;> rw [hm] at hmode hsuits hold
      case undecided => exact absurd hsuits id
      case patch handle context => cases hmode
      rw [hrun]
      exact hdone hcut (hstream.wrote hold hsuits _ _) hslot (by rw [hm]; exact hsuits)
    · rw [hslot] at hnone
      cases hnone
  · rcases writeChunk_cases idf s chunk with ⟨handle, context, err, env, written, o, h, -⟩ | ⟨handle, err,
      env, o, -, h, -⟩ |
      ⟨-, -, e, hrun⟩
    · rw [h] at hmode
      cases hmode
    · rw [hslot] at h
      cases h
    · rw [hrun]
      exact Or.inl hstream

theorem write_flow (bytes chunk : List UInt8) : Spec (Flow bytes) (write idf chunk)
    (Ends (fun _ => Flow (bytes ++ chunk)) (fun s => Streamed bytes s.trace ∨ Streamed (bytes ++ chunk) s.trace)
      fun _ => False) := by
  cases chunk with
  | nil =>
    rw [List.append_nil]
    exact Spec.ret fun s hs => hs
  | cons first rest =>
    -- After the slot was opened, and before the first byte has been looked at.
    let Open (s : Rec σ OtaEvent OtaWriter) : Prop := Flow bytes s ∧ s.own.slot = .finished ∨
      Streamed bytes s.trace ∧ (∃ handle, s.own.slot = .opened handle) ∧
        (bytes = [] ∧ s.own.mode = .undecided ∨ s.own.mode.Suits bytes)
    refine spec_own fun w => Spec.bind (R := fun _ => Open) ?_ fun _ => spec_own fun w => ?_
    · refine Spec.when (fun hslot => ?_) ?_
      · rintro s ⟨hs, rfl⟩
        obtain ⟨hnil, hmode⟩ := hs.unopened hslot
        rcases openSlot_cases idf s with ⟨err, handle, env, e, herr, hrun⟩ | ⟨handle, env, hrun⟩ <;> rw [hrun]
        · exact Or.inl hs.streamed
        · exact Or.inr ⟨hs.streamed, ⟨handle, rfl⟩, Or.inl ⟨hnil, hmode⟩⟩
      · rintro hslot s ⟨hs, rfl⟩
        cases h : s.own.slot with
        | unopened => exact absurd h hslot
        | opened handle => exact Or.inr ⟨hs.streamed, ⟨handle, h⟩, Or.inr (hs.opened handle h)⟩
        | finished => exact Or.inl ⟨hs, h⟩
    refine Spec.bind (R := fun _ => Decided bytes (first :: rest)) ?_ fun _ => ?_
    · refine Spec.when (fun hmode => ?_) ?_
      · rintro s ⟨hs, rfl⟩
        have hstream : Streamed bytes s.trace := by
          rcases hs with ⟨hs, -⟩ | ⟨hs, -⟩
          · exact hs.streamed
          · exact hs
        have hplace : s.own.slot = .finished ∨ (∃ handle, s.own.slot = .opened handle) ∧ bytes = [] := by
          rcases hs with ⟨-, hfin⟩ | ⟨-, hslot, ⟨hnil, -⟩ | hsuits⟩
          · exact Or.inl hfin
          · exact Or.inr ⟨hslot, hnil⟩
          · rw [hmode] at hsuits
            exact absurd hsuits id
        unfold decideMode
        by_cases hfirst : first = espImageMagic
        · rw [classify, if_pos hfirst]
          refine ⟨hstream, ?_⟩
          rcases hplace with hfin | ⟨hslot, rfl⟩
          · exact Or.inr ⟨hfin, rfl⟩
          · exact Or.inl ⟨hslot, congrArg some hfirst, fun h => absurd rfl h⟩
        · rw [classify, if_neg hfirst]
          dsimp only
          rcases beginPatch_cases idf s with ⟨env, e, hrun⟩ | ⟨env, e, hrun⟩ | ⟨ota, handle, env, hota, hrun⟩ <;> rw [hrun]
          · exact Or.inl hstream
          · exact Or.inl hstream
          · refine ⟨hstream, ?_⟩
            rcases hplace with hfin | ⟨hslot, rfl⟩
            · rw [hfin] at hota
              cases hota
            · exact Or.inl ⟨hslot, ⟨first, rfl, hfirst⟩, fun h => absurd rfl h⟩
      · rintro hmode s ⟨⟨hs, hfin⟩ | ⟨hstream, hslot, hs⟩, rfl⟩
        · exact ⟨hs.streamed, Or.inr ⟨hfin, hs.finished hfin⟩⟩
        · rcases hs with ⟨-, h⟩ | h
          · exact absurd h hmode
          · exact ⟨hstream, Or.inl ⟨hslot, h.append _, fun _ => h⟩⟩
    refine Spec.bind (R := fun _ => Flow (bytes ++ first :: rest)) (fun s hs => writeChunk_flow idf hs) fun _ => ?_
    exact fun s hs => ⟨hs.streamed, hs.unopened, hs.opened, hs.finished⟩

theorem commit_flow (bytes : List UInt8) : Spec (Flow bytes) (commit idf)
    (Ends (fun _ => Flow bytes) (fun s => Streamed bytes s.trace) fun _ => False) := by
  refine Spec.bind (R := fun _ s => Streamed bytes s.trace ∧ s.own.mode.handle = none) ?_ fun _ => ?_
  · intro s hs
    rcases finishPatch_cases idf s with ⟨handle, context, env, o, -, hcut, -, hrun⟩ | ⟨hmode, hrun⟩ <;> rw [hrun]
    · rcases o with _ | e | _
      · exact ⟨hs.streamed, rfl⟩
      · exact hs.streamed
      · exact absurd rfl hcut
    · exact ⟨hs.streamed, hmode⟩
  · rintro s ⟨hstream, hmode⟩
    rcases endSlot_cases idf s with ⟨handle, err, env, e, -, -, hrun⟩ | ⟨handle, err, env, o, -, hcut, hrun⟩ | ⟨-, e,
      hrun⟩ <;> rw [hrun]
    · exact hstream
    · rcases o with _ | e | _
      · exact ⟨hstream, fun h => (nomatch h), fun _ h => (nomatch h), fun _ => hmode⟩
      · exact hstream
      · exact absurd rfl hcut
    · exact hstream

theorem abort_flow {bytes : List UInt8} (hs : Flow bytes s) : Flow bytes (abort idf s) := by
  have hdrop : Streamed bytes (dropPatch idf s).trace ∧ (dropPatch idf s).own.mode.handle = none := by
    unfold dropPatch
    cases hmode : s.own.mode
    case patch handle context => exact ⟨hs.streamed, rfl⟩
    all_goals exact ⟨hs.streamed, by rw [hmode]; rfl⟩
  obtain ⟨hstream, hmode⟩ := hdrop
  unfold abort dropSlot
  cases hslot : (dropPatch idf s).own.slot
  all_goals exact ⟨hstream, fun h => (nomatch h), fun _ h => (nomatch h), fun _ => hmode⟩

theorem perform_flow (bytes : List UInt8) (op : WriterOp) : Spec (Flow bytes) (op.perform idf)
    (Ends (fun _ => Flow (bytes ++ op.bytes)) (fun s => Streamed bytes s.trace ∨ Streamed (bytes ++ op.bytes) s.trace)
      fun _ => False) := by
  cases op with
  | write chunk => exact write_flow idf bytes chunk
  | commit =>
    simp only [WriterOp.bytes, List.append_nil, or_self]
    exact commit_flow idf bytes
  | abort =>
    simp only [WriterOp.bytes, List.append_nil, or_self]
    exact fun s hs => abort_flow idf hs

theorem run_flow {ops : List WriterOp} {bytes : List UInt8} (hs : Flow bytes s) (hops : WriterOp.Succeed idf ops s) :
    Flow (bytes ++ WriterOp.stream ops) (WriterOp.run idf ops s) := by
  induction ops generalizing s bytes with
  | nil => exact (List.append_nil bytes).symm ▸ hs
  | cons op ops ih =>
    obtain ⟨hop, hrest⟩ := hops
    have h := perform_flow idf bytes op s hs
    rw [hop] at h
    have hstream : WriterOp.stream (op :: ops) = op.bytes ++ WriterOp.stream ops := rfl
    rw [hstream, ← List.append_assoc]
    exact ih h hrest

end

/-- Whatever the calls of ESP-IDF answer, the writer uses and releases only what is open, boots only what it has ended, and
    sends the stream one way. -/
theorem writer_safe (ops : List WriterOp) (env : σ) (gas : Nat) : SafeWriter idf ops (Flash.start env gas) := by
  have hguarded : GuardedIn (Flash.start env gas) :=
    ⟨⟨rfl, rfl, fun h => absurd rfl h⟩, throughout_nil, onlyAfter_nil, fun h ho => (nomatch ho), fun _ e he => (nomatch he),
      fun _ _ h => (nomatch h)⟩
  have hflow : Flow [] (Flash.start env gas) :=
    ⟨⟨rfl, rfl⟩, fun _ => ⟨rfl, rfl⟩, fun _ h => (nomatch h), fun h => (nomatch h)⟩
  have hrun := run_guarded idf ops hguarded
  refine ⟨hrun.handles, hrun.boot, fun h => run_idle idf h ⟨rfl, rfl⟩, fun h => (run_flow idf hflow h).streamed,
    fun h op => ?_⟩
  have hnext := perform_flow idf (WriterOp.stream ops) op _ (run_flow idf hflow h)
  have hstream : WriterOp.stream (ops ++ [op]) = WriterOp.stream ops ++ op.bytes := by simp [WriterOp.stream]
  rw [hstream]
  rcases hout : op.perform idf (WriterOp.run idf ops (Flash.start env gas)) with ⟨_ | e | _, u⟩ <;> rw [hout] at hnext
  · exact Or.inr hnext.streamed
  · exact hnext
  · exact absurd hnext id

end

end NervesHub
