import NervesHubLink.Theorems.Order
import NervesHubLink.Theorems.Rounds

/-! What a join says of a download that the connection before it was lost in. -/

namespace NervesHub
open Act Prog Trace

/-- The uuid of the update that is being downloaded: the application has decided to apply it, and since then it has neither
    been committed nor reported on. -/
def underway : List Event → Option String
  | [] => none
  | .connected _ :: _ => none
  | .decided update .apply :: _ => update.actionable.map (·.2)
  | .image (.committed _) :: _ => none
  | .sent m _ :: older => if m.kind = .status then none else underway older
  | _ :: older => underway older

/-- The update in whose download the connection was lost: the latest message could not be sent. -/
def lostIn : List Event → Option String
  | [] => none
  | .connected _ :: _ => none
  | .sent _ (.error (.transport _)) :: older => underway older
  | .sent _ _ :: _ => none
  | _ :: older => lostIn older

/-- The update whose download ended with the connection, for whoever connects next: that it failed was the last thing to be
    said, and could not be sent either. -/
def interrupted : List Event → Option String
  | [] => none
  | .sent m (.error (.transport _)) :: older => if m.kind = .status then lostIn older else none
  | .sent _ _ :: _ => none
  | _ :: older => interrupted older

/-- What a message says is being downloaded. -/
def Envelope.downloading (m : Envelope) : Option Value :=
  match m.payload with
  | .value v => v.get "currently_downloading_uuid"
  | .batch _ => none

/-- A join says which download was interrupted, and says nothing if none was. -/
def Reports : Event → List Event → Prop
  | .sent m _, older => m.kind = .deviceJoin → m.downloading = (interrupted older).map .string
  | _, _ => True

/-- A join says of no download. -/
def Event.Omits : Event → Prop
  | .sent m _ => m.kind = .deviceJoin → m.downloading = none
  | _ => True

theorem Event.omits_of_kind {e : Event} (h : e.kind ≠ .deviceJoin) : e.Omits := by
  cases e
  case sent m r => exact fun hm => absurd hm h
  all_goals trivial

theorem joinParams_omits (md : FirmwareMetadata) (version : String) (boot : BootReport) :
    (md.joinParams version none boot).get "currently_downloading_uuid" = none := by
  have hmeta : "meta" ≠ "currently_downloading_uuid" := by decide
  rw [FirmwareMetadata.joinParams, Value.get_set hmeta]
  simp [Value.obj, Value.get, Fields.ofList, Fields.find?_insert]

/-- Where all joins omit it, they report what they should if there is nothing to report. -/
theorem reports_iff {t : List Event} (h : ∀ e ∈ t, e.Omits) :
    Throughout Reports t ↔ Throughout (fun e older => e.kind = .deviceJoin → interrupted older = none) t := by
  have hone : ∀ e older, e.Omits → (Reports e older ↔ (e.kind = .deviceJoin → interrupted older = none)) := by
    intro e older he
    cases e
    case sent m r =>
      refine forall_congr' fun hm => ?_
      rw [he hm, eq_comm, Option.map_eq_none_iff]
    case image e => cases e <;> exact iff_of_true trivial (by simp [Event.kind])
    all_goals exact iff_of_true trivial (by simp [Event.kind])
  induction t with
  | nil => exact iff_of_true throughout_nil throughout_nil
  | cons e older ih =>
    have ih := ih fun e he => h e (List.mem_cons_of_mem _ he)
    rw [throughout_cons, throughout_cons, hone e older (h e List.mem_cons_self)]
    exact and_congr_right fun _ => ih

section
variable {σ : Type} [Serde] {agent : Agent σ}

/-- No join so far has said anything of a download. -/
def Omitting (s : World σ) : Prop := ∀ e ∈ s.trace, e.Omits

omit [Serde] in
theorem Omitting.add {s : World σ} (h : Omitting s) {e : Event} (he : e.Omits) (env : σ) :
    Omitting { s with env := env, trace := e :: s.trace } := List.forall_mem_cons.mpr ⟨he, h⟩

omit [Serde] in
theorem Omitting.keep {s u : World σ} (h : Omitting s) (hsu : Only (· ≠ .deviceJoin) s u) : Omitting u :=
  hsu.holds (J := fun t => ∀ e ∈ t, e.Omits) (fun _ _ he ht => List.forall_mem_cons.mpr ⟨Event.omits_of_kind he, ht⟩) h

theorem openSession_omits : Spec Omitting (openSession agent) (Post (fun _ => Omitting) Omitting) := by
  let New (s : World σ) : Prop := Omitting s ∧ s.own.link.downloading = none
  have hnew : agent.newLink.downloading = none := by
    unfold Agent.newLink
    split <;> rfl
  have hclock : Spec Omitting (nowMs agent) (Post (fun _ => Omitting) Omitting) :=
    spec_call fun s env now hs => hs.add (e := .clock now) trivial env
  refine Spec.bind (R := fun _ => New) (fun s hs => ⟨hs, hnew⟩) fun _ => ?_
  refine Spec.bind (R := fun _ => New) (spec_call fun s env pending hs =>
    ⟨hs.1.add (e := .pendingVerify pending) trivial env, hs.2⟩)
    fun pending => ?_
  refine Spec.bind (R := fun _ => New) (spec_call fun s env reverted hs =>
    ⟨hs.1.add (e := .autoRevert reverted) trivial env, hs.2⟩)
    fun reverted => ?_
  refine Spec.bind (R := fun _ => Omitting) ?_ fun _ => ?_
  · refine Spec.bind (R := fun _ => New) (fun s hs => hs) fun reference => ?_
    refine Spec.bind (R := fun _ => New) (fun s hs => hs) fun _ => ?_
    refine Spec.bind (R := fun (l : Link) s => Omitting s ∧ l.downloading = none) (fun s hs => hs) fun l => ?_
    refine Spec.bind (R := fun _ s => Omitting s ∧ l.downloading = none) (fun s hs => hs) fun l' => ?_
    refine Spec.bind (R := fun _ s => Omitting s ∧ l.downloading = none) (fun s hs => hs) fun l'' => ?_
    have homits : ∀ r, l.downloading = none → (Event.sent ⟨l'.joinRef, some reference, deviceTopic, event.join,
        .value (l.metadata.joinParams l.config.deviceApiVersion l.downloading ⟨!pending, reverted⟩)⟩ r).Omits := by
      intro r hl hm
      rw [hl]
      exact joinParams_omits _ _ _
    exact spec_tryCall (fun s env u hs => hs.1.add (homits _ hs.2) env) fun s env e hs => hs.1.add (homits _ hs.2) env
  · refine Spec.bind hclock fun _ => Spec.bind hclock fun _ => Spec.bind hclock fun _ => ?_
    exact Spec.ret fun s hs => hs

variable [Sha256]

theorem session_omits (window : Option SessionWindow) (control : Option (σ → Control × σ)) :
    Spec Omitting (sessionWithin agent window control) (Post (fun _ => Omitting) Omitting) := by
  have h : Spans agent (Only (σ := σ) (· ≠ .deviceJoin)) (· ≠ .deviceJoin) := only_spans agent (by decide)
  have hkeep : ∀ s u : World σ, Omitting s → Only (· ≠ .deviceJoin) s u → Omitting u := fun _ _ hs hsu => hs.keep hsu
  have hframe : ∀ k ∈ Roams.frameKinds, k ≠ .deviceJoin := by decide
  refine Spans.session_rule (I := fun _ _ => Omitting) (M := fun _ _ _ => Omitting) (fun _ _ _ _ hs => hs)
    (fun _ _ _ hs => hs)
    openSession_omits (fun _ a => ?_) (fun started now a => h.mid_rule (Q := fun _ => Omitting) h.overhear (by decide) hkeep
      (fun _ hs => hs) (fun _ hs => hs) window control started now a) fun _ _ a => ?_
  · exact Spec.of_keeps (h.attend (by decide) (fun a => h.joinConsole (by decide) (fun _ _ => .nothing rfl) a) a) hkeep
  · have hlisten := h.listen (by decide) (fun m k hk => hframe k (Roams.mem_frameKinds m k hk)) a
    refine (Spec.of_keeps hlisten hkeep).mono (fun d s hs => ?_) (fun _ h => h) fun _ h => h
    cases d <;> exact hs

theorem omitting_runs (agent : Agent σ) : Runs agent (fun s t => Omitting s → Omitting t) where
  steps := ⟨fun _ h => h, fun h h' hs => h' (h hs)⟩
  gas _ _ h := h
  between s env e he hs := hs.add (Event.omits_of_kind fun hk => by simp [hk, runKinds] at he) env
  flag _ _ h := h
  session window control _ hs := (session_omits window control).state hs

theorem run_omits (agent : Agent σ) (env : σ) (own : Device) (gas : Nat) : Omitting (run agent ⟨env, own, [], gas⟩).2 :=
  (omitting_runs agent).run ⟨env, own, [], gas⟩ fun e he => by cases he

/-- The joins of a run say which downloads were interrupted, exactly if none was that a join follows. -/
theorem joins_report_iff (agent : Agent σ) (env : σ) (own : Device) (gas : Nat) :
    Throughout Reports (run agent ⟨env, own, [], gas⟩).2.trace ↔
      Throughout (fun e older => e.kind = .deviceJoin → interrupted older = none) (run agent ⟨env, own, [], gas⟩).2.trace :=
  reports_iff (run_omits agent env own gas)

end

/-! ### A connection that is lost when the download has begun -/

section
attribute [local instance] sha256OfByte

@[reducible] def interruptedSerde : Serde := benchSerde [joinReply, updatePush]

attribute [local instance] interruptedSerde

/-- Each of its connections carries two messages, and an image says how long it is. -/
def twoMessages : Agent Bench :=
  { benchAgent .none with
    platform := { Bench.platform with
      connect := fun b => (.ok (), { b with sends := 2 })
      stream := { Bench.platform.stream with openUrl := fun _ b => (.ok (some 1), b) } } }

/-- The second join does not say that the update was being downloaded. -/
theorem join_unreported :
    ¬Throughout Reports (run twoMessages ⟨onProbation [joinReply, updatePush], benchDevice .none none, [], 5⟩).2.trace :=
  (reports_iff (run_omits twoMessages (onProbation [joinReply, updatePush]) (benchDevice .none none) 5)).not.mpr
    (by decide +kernel)

end

end NervesHub
