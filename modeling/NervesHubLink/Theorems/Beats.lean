import NervesHubLink.Theorems.Order
import NervesHubLink.Theorems.Pumping

/-! Heartbeats by the clock. The session's loop and a download each count the interval from a reading of their own; the
record says which reading that is, and from which one the server sees the connection silent. -/

namespace NervesHub
open Act Prog Trace

/-! ### What an interval is counted from -/

/-- The reading that is marked when an event comes after a record. -/
abbrev Mark := Event → List Event → Option Nat

/-- The reading that the session marked last. -/
def marked (mark : Mark) : List Event → Option Nat
  | [] => none
  | .connected _ :: _ => none
  | e :: older => (mark e older).or (marked mark older)

/-- A heartbeat is sent, at the latest reading. -/
def beatMark : Mark := fun e older => if e.kind = .heartbeat then (readings older).head? else none

/-- The session opens: its second reading. -/
def openMark : Mark
  | .clock now, older => if (readings older).length = 1 then some now else none
  | _, _ => none

def beginMark : Mark
  | .clock now, .updateBegun (.ok ()) :: _ => some now
  | _, _ => none

/-- The latest message says that an update is over. -/
def updateOver : List Event → Bool
  | .sent m _ :: older => m.kind == .status && downloading older
  | _ => false

/-- A download has ended, and the loop goes on. -/
def endMark : Mark
  | .clock now, older => if updateOver older then some now else none
  | _, _ => none

/-- Since when no heartbeat has been sent. -/
def lastMark : Mark := fun e older => (beatMark e older).or (openMark e older)

/-- What the session's loop counts from. -/
def loopMark : Mark := fun e older => (lastMark e older).or (endMark e older)

/-- What a download counts from. -/
def pumpMark : Mark := fun e older => (beatMark e older).or (beginMark e older)

/-- The interval is over at the reading `now`. -/
def overdue (interval now : Nat) (base : Option Nat) : Bool := base.any fun last => interval ≤ now - last

/-! ### Ticks and checks -/

def refused : List Event → Bool
  | .image (.opened _ (.error _)) :: _ => true
  | _ => false

/-- The next reading is that of a tick: after a chunk, or between two attempts to start a download. -/
def atTick : List Event → Bool
  | .image (.wrote _ (.ok ())) :: _ => true
  | .slept .retrying _ :: _ => true
  | .clock _ :: older => refused older
  | _ => false

/-- A tick found a heartbeat due by `mark`, and it has not been sent yet; or it could not be sent, and the download has not
    been given up yet. -/
def owes (interval : Nat) (mark : Mark) : List Event → Bool
  | .clock now :: older => atTick older && overdue interval now (marked mark older)
  | .sent m (.error _) :: .clock now :: older =>
    m.kind == .heartbeat && atTick older && overdue interval now (marked mark older)
  | _ => false

/-- The heartbeat is sent, or the download is given up. -/
def pays : Event → List Event → Bool
  | e, .clock _ :: _ => e.kind == .heartbeat
  | .image .aborted, _ => true
  | _, _ => false

def beatSinceReading : List Event → Bool
  | [] => false
  | .connected _ :: _ => false
  | .clock _ :: _ => false
  | .sent m _ :: older => m.kind == .heartbeat || beatSinceReading older
  | _ :: older => beatSinceReading older

/-- At the latest reading no heartbeat was due in the loop, or it has been sent. -/
def checked (interval : Nat) (t : List Event) : Bool :=
  beatSinceReading t || (readings t).head?.all fun now => !overdue interval now (marked loopMark t)

/-- Heartbeats are sent in time: at each tick by `mark`, and before the loop asks its caller, receives or finishes. -/
structure InTime (interval : Nat) (mark : Mark) (o : Outcome Error (Option Stopped)) (t : List Event) : Prop where
  ticks : Throughout (fun e older => owes interval mark older = true → pays e older = true) t
  last : owes interval mark t = false
  checks : Throughout (fun e older => e.kind = .received ∨ e.kind = .controlled → checked interval older = true) t
  finished : o = .ret (some .finished) → checked interval t = true

/-- A tick at which the interval since the last heartbeat is over, and only that: what the download counts, from its
    beginning on, is not. -/
def forgives (interval counted : Nat) : Event → List Event → Bool
  | .clock now, older => atTick older && overdue interval now (marked lastMark older) &&
      !overdue counted now (marked pumpMark older)
  | _, _ => false

/-- The interval that is configured, in milliseconds. -/
def Config.heartbeatInterval (c : Config) : Nat := c.heartbeatIntervalSecs * 1000

theorem Config.heartbeatMs_le (c : Config) : c.heartbeatMs ≤ c.heartbeatInterval := Nat.mod_le _ _

/-! ### What every record has -/

/-- A tick has found no heartbeat due. -/
def undue (interval : Nat) : List Event → Bool
  | .clock now :: older => atTick older && !overdue interval now (marked pumpMark older)
  | _ => false

/-- An event that the code records after `older`. -/
structure Fits (interval : Nat) (e : Event) (older : List Event) : Prop where
  pays : owes interval pumpMark older = true → pays e older = true
  waits : undue interval older = true → e.kind ≠ .heartbeat
  checked : e.kind = .received ∨ e.kind = .controlled → checked interval older = true

/-- A record in which nothing is owed. -/
structure Square (interval : Nat) (t : List Event) : Prop where
  fits : Throughout (Fits interval) t
  paid : owes interval pumpMark t = false

variable {interval last : Nat} {e : Event} {t : List Event}

theorem owes_cons {mark : Mark} (hbeat : e.kind ≠ .heartbeat) (hclock : e.kind = .clock → atTick t = false) :
    owes interval mark (e :: t) = false := by
  cases e
  case clock now => simp [owes, hclock rfl]
  case sent m r =>
    have hm : m.kind ≠ .heartbeat := hbeat
    rcases r with err | _
    · cases t with
      | nil => rfl
      | cons e' older => cases e' <;> simp [owes, hm]
    · rfl
  all_goals rfl

theorem Square.add (h : Square interval t) (hbeat : e.kind ≠ .heartbeat) (hclock : e.kind = .clock → atTick t = false)
    (hcheck : e.kind = .received ∨ e.kind = .controlled → checked interval t = true) : Square interval (e :: t) where
  fits := throughout_cons.mpr ⟨⟨fun h' => absurd (h.paid.symm.trans h') Bool.false_ne_true, fun _ => hbeat, hcheck⟩, h.fits⟩
  paid := owes_cons hbeat hclock

/-! ### Events that leave an interval as it is -/

theorem marked_cons {mark : Mark} (hconn : e.kind ≠ .connected) (hmark : mark e t = none) :
    marked mark (e :: t) = marked mark t := by
  cases e
  case connected r => exact absurd rfl hconn
  all_goals exact (congrArg (Option.or · _) hmark).trans Option.none_or

theorem marked_mark {mark : Mark} {now : Nat} (hconn : e.kind ≠ .connected) (hmark : mark e t = some now) :
    marked mark (e :: t) = some now := by
  cases e
  case connected r => exact absurd rfl hconn
  all_goals exact (congrArg (Option.or · _) hmark).trans Option.some_or

theorem beatMark_none (hbeat : e.kind ≠ .heartbeat) : beatMark e t = none := if_neg hbeat

theorem openMark_none (hopen : e.kind = .clock → (readings t).length ≠ 1) : openMark e t = none := by
  cases e
  case clock now => exact if_neg (hopen rfl)
  all_goals rfl

theorem lastMark_none (hbeat : e.kind ≠ .heartbeat) (hopen : e.kind = .clock → (readings t).length ≠ 1) :
    lastMark e t = none := by
  simp [lastMark, beatMark_none hbeat, openMark_none hopen]

theorem loopMark_none (hbeat : e.kind ≠ .heartbeat) (hopen : e.kind = .clock → (readings t).length ≠ 1)
    (hover : e.kind = .clock → updateOver t = false) : loopMark e t = none := by
  have hend : endMark e t = none := by
    cases e
    case clock now => simp [endMark, hover rfl]
    all_goals rfl
  simp [loopMark, lastMark_none hbeat hopen, hend]

/-- The latest event begins a download. -/
def justBegun : List Event → Bool
  | .updateBegun (.ok ()) :: _ => true
  | _ => false

theorem pumpMark_none (hbeat : e.kind ≠ .heartbeat) (hbegun : e.kind = .clock → justBegun t = false) :
    pumpMark e t = none := by
  have hbegin : beginMark e t = none := by
    cases e
    case clock now =>
      have h := hbegun rfl
      unfold beginMark
      split
      · cases h
      · rfl
    all_goals rfl
  simp [pumpMark, beatMark_none hbeat, hbegin]

/-! ### Where a session is -/

theorem Kind.ne_of_not_mem {k k' : Kind} {ks : List Kind} (h : k ∉ ks) (hk : k' ∈ ks) : k ≠ k' := fun heq => h (heq ▸ hk)

/-- Neither the next reading is that of a tick, nor the one after it. -/
structure Clear (t : List Event) : Prop where
  still : atTick t = false
  plain : refused t = false

def clearKinds : List Kind := [.image, .pause .retrying]

theorem Clear.add (h : Clear t) (he : e.kind ∉ clearKinds) : Clear (e :: t) := by
  have himage : e.kind ≠ .image := Kind.ne_of_not_mem he (by decide)
  have hpause : e.kind ≠ .pause .retrying := Kind.ne_of_not_mem he (by decide)
  cases e
  case clock now => exact ⟨h.plain, rfl⟩
  case slept why d => cases why <;> first | exact absurd rfl hpause | exact ⟨rfl, rfl⟩
  case image ie => cases ie <;> first | exact absurd rfl himage | exact ⟨rfl, rfl⟩
  all_goals exact ⟨rfl, rfl⟩

/-- The session's loop, which counts from `last`. -/
structure Looping (interval last : Nat) (t : List Event) : Prop extends Square interval t, Clear t where
  idle : downloading t = false
  ready : updateOver t = false
  opened : 2 ≤ (readings t).length
  base : marked loopMark t = some last

theorem readings_opened (hopened : 2 ≤ (readings t).length) (hconn : e.kind ≠ .connected) (hjoin : e.kind ≠ .deviceJoin) :
    2 ≤ (readings (e :: t)).length := by
  obtain ⟨new, hnew⟩ := readings_extend (t := t) hconn hjoin
  rw [hnew, List.length_append]
  omega

/-- The kinds of event that change what the loop counts from. -/
def loopKinds : List Kind := [.connected, .deviceJoin, .heartbeat, .httpStarted] ++ clearKinds

theorem Looping.add (h : Looping interval last t) (he : e.kind ∉ loopKinds)
    (hcheck : e.kind = .received ∨ e.kind = .controlled → checked interval t = true) : Looping interval last (e :: t) := by
  have hconn : e.kind ≠ .connected := Kind.ne_of_not_mem he (by decide)
  have hbeat : e.kind ≠ .heartbeat := Kind.ne_of_not_mem he (by decide)
  have hmark : loopMark e t = none := loopMark_none hbeat (fun _ => by have := h.opened; omega) fun _ => h.ready
  exact {
    toSquare := h.toSquare.add hbeat (fun _ => h.still) hcheck
    toClear := h.toClear.add fun hmem => he (List.mem_append_right _ hmem)
    idle := downloading_false hconn (Kind.ne_of_not_mem he (by decide)) h.idle
    ready := by
      cases e
      case sent m r => simp [updateOver, h.idle]
      all_goals rfl
    opened := readings_opened h.opened hconn (Kind.ne_of_not_mem he (by decide))
    base := (marked_cons hconn hmark).trans h.base }

/-- A download, or what is left to say of it. -/
structure Loading (interval : Nat) (t : List Event) : Prop extends Square interval t where
  started : downloading t = true
  opened : 2 ≤ (readings t).length

def loadKinds : List Kind := [.connected, .deviceJoin, .heartbeat, .status, .received, .controlled]

theorem Loading.add (h : Loading interval t) (he : e.kind ∉ loadKinds) (hclock : e.kind = .clock → atTick t = false) :
    Loading interval (e :: t) := by
  have hconn : e.kind ≠ .connected := Kind.ne_of_not_mem he (by decide)
  have hstatus : e.kind ≠ .status := Kind.ne_of_not_mem he (by decide)
  have hcheck : ¬(e.kind = .received ∨ e.kind = .controlled) := by
    rintro (heq | heq)
    · exact Kind.ne_of_not_mem he (by decide) heq
    · exact Kind.ne_of_not_mem he (by decide) heq
  have hstarted : downloading (e :: t) = true := by
    cases e
    case connected r => exact absurd rfl hconn
    case httpStarted r => rfl
    case sent m r => simp [downloading, show m.kind ≠ .status from hstatus, h.started]
    all_goals exact h.started
  exact {
    toSquare := h.toSquare.add (Kind.ne_of_not_mem he (by decide)) hclock fun h => absurd h hcheck
    started := hstarted
    opened := readings_opened h.opened hconn (Kind.ne_of_not_mem he (by decide)) }

/-- The download that goes on counts from `last`. -/
structure Counting (interval last : Nat) (t : List Event) : Prop extends Loading interval t where
  begun : justBegun t = false
  base : marked pumpMark t = some last

def countKinds : List Kind := .updateBegun :: loadKinds

theorem Counting.add (h : Counting interval last t) (he : e.kind ∉ countKinds)
    (hclock : e.kind = .clock → atTick t = false) :
    Counting interval last (e :: t) where
  toLoading := h.toLoading.add (fun hmem => he (List.mem_cons_of_mem _ hmem)) hclock
  begun := by
    have hbegun : e.kind ≠ .updateBegun := Kind.ne_of_not_mem he (by decide)
    cases e
    case updateBegun r => exact absurd rfl hbegun
    all_goals rfl
  base := by
    have hmark : pumpMark e t = none := pumpMark_none (Kind.ne_of_not_mem he (by decide)) fun _ => h.begun
    exact (marked_cons (Kind.ne_of_not_mem he (by decide)) hmark).trans h.base

/-! ### A tick -/

theorem Square.fits_clock (h : Square interval t) (now : Nat) : Throughout (Fits interval) (.clock now :: t) :=
  throughout_cons.mpr ⟨⟨fun h' => absurd (h.paid.symm.trans h') Bool.false_ne_true,
    fun _ => by simp [Event.kind], by simp [Event.kind]⟩,
    h.fits⟩

/-- A download that may be given up: a heartbeat that it owes could not be sent. -/
structure Failing (interval : Nat) (t : List Event) : Prop where
  fits : Throughout (Fits interval) t
  started : downloading t = true
  opened : 2 ≤ (readings t).length
  lost : owes interval pumpMark t = true → pays (.image .aborted) t = true

theorem Loading.failing (h : Loading interval t) : Failing interval t :=
  ⟨h.fits, h.started, h.opened, fun h' => absurd (h.paid.symm.trans h') Bool.false_ne_true⟩

theorem Failing.aborted (h : Failing interval t) : Loading interval (.image .aborted :: t) where
  fits := throughout_cons.mpr ⟨⟨h.lost, fun _ => by simp [Event.kind], by simp [Event.kind]⟩, h.fits⟩
  paid := rfl
  started := h.started
  opened := h.opened

section Tick
variable {now : Nat} (h : Counting interval last t) (htick : atTick t = true)
include h

theorem overdue_pump (now : Nat) : overdue interval now (marked pumpMark t) = decide (interval ≤ now - last) := by
  rw [h.base]
  rfl

theorem Counting.early (hearly : ¬interval ≤ now - last) : Counting interval last (.clock now :: t) where
  fits := h.fits_clock now
  paid := by simp [owes, overdue_pump h, hearly]
  started := h.started
  opened := readings_opened h.opened (by simp [Event.kind]) (by simp [Event.kind])
  begun := rfl
  base := (marked_cons (by simp [Event.kind]) (pumpMark_none (by simp [Event.kind]) fun _ => h.begun)).trans h.base

variable {m : Envelope} (hm : m.kind = .heartbeat) (hdue : interval ≤ now - last)
include hm hdue

theorem Counting.fits_beat (r : Except Error Unit) : Throughout (Fits interval) (.sent m r :: .clock now :: t) := by
  refine throughout_cons.mpr ⟨⟨fun _ => ?_, fun hundue => ?_, fun hkind => ?_⟩, h.fits_clock now⟩
  · simp [pays, Event.kind, hm]
  · simp [undue, overdue_pump h, hdue] at hundue
  · simp [Event.kind, hm] at hkind

theorem Counting.beat : Counting interval now (.sent m (.ok ()) :: .clock now :: t) where
  fits := h.fits_beat hm hdue _
  paid := rfl
  started := by simp [downloading, hm, h.started]
  opened := readings_opened (readings_opened h.opened (by simp [Event.kind]) (by simp [Event.kind]))
    (by simp [Event.kind, hm])
    (by simp [Event.kind, hm])
  begun := rfl
  base := marked_mark (by simp [Event.kind, hm]) (by simp [pumpMark, beatMark, Event.kind, hm, readings])

theorem Counting.lose (e : Error) : Failing interval (.sent m (.error e) :: .clock now :: t) where
  fits := h.fits_beat hm hdue _
  started := by simp [downloading, hm, h.started]
  opened := readings_opened (readings_opened h.opened (by simp [Event.kind]) (by simp [Event.kind]))
    (by simp [Event.kind, hm])
    (by simp [Event.kind, hm])
  lost _ := rfl

end Tick

theorem clear_at_tick (htick : atTick t = true) (now : Nat) : Clear (.clock now :: t) where
  still := by
    cases t with
    | nil => rfl
    | cons e t =>
      cases e
      case image ie =>
        cases ie
        case opened url r => cases r <;> first | rfl | cases htick
        all_goals rfl
      all_goals rfl
  plain := rfl

theorem refused_plain (h : refused t = true) : atTick t = false := by
  cases t with
  | nil => rfl
  | cons e t =>
    cases e
    case image ie => cases ie <;> first | rfl | cases h
    all_goals first | rfl | cases h

theorem clear_sent (m : Envelope) (r : Except Error Unit) : Clear (.sent m r :: t) := ⟨rfl, rfl⟩

/-! ### A download -/

section
variable {σ : Type} [Serde] {agent : Agent σ}

/-- A download goes on, and its own time is what it counts from. -/
def Ticking (agent : Agent σ) (s : World σ) : Prop := Counting agent.config.heartbeatMs s.own.pump.lastHeartbeat s.trace

/-- The kinds of event between the readings and the calls of a download. -/
def Kind.isAmid (k : Kind) : Prop := k ≠ .clock ∧ k ∉ countKinds ∧ k ∉ clearKinds

instance (k : Kind) : Decidable k.isAmid := inferInstanceAs (Decidable (_ ∧ _ ∧ _))

/-- A download goes on, and no tick comes next. -/
def Between (agent : Agent σ) (s : World σ) : Prop := Ticking agent s ∧ Clear s.trace

def Lost (agent : Agent σ) (s : World σ) : Prop := Failing agent.config.heartbeatMs s.trace
def Quits (agent : Agent σ) (s : World σ) : Prop := Square agent.config.heartbeatMs s.trace

omit [Serde] in
theorem Between.keep {s u : World σ} (h : Between agent s) (hsu : Beside Kind.isAmid s u) : Between agent u := by
  let J (t : List Event) : Prop := Counting agent.config.heartbeatMs s.own.pump.lastHeartbeat t ∧ Clear t
  have hadd : ∀ e t, Kind.isAmid (Event.kind e) → J t → J (e :: t) := fun e t he hJ =>
    ⟨hJ.1.add he.2.1 fun hclock => absurd hclock he.1, hJ.2.add he.2.2⟩
  have hJ : J u.trace := hsu.1.holds hadd h
  exact ⟨by rw [Ticking, hsu.2]; exact hJ.1, hJ.2⟩

omit [Serde] in
theorem between_spec {α : Type} {m : Run σ α} {C : World σ → Prop} (hm : Keeps (Beside Kind.isAmid) m)
    (hC : ∀ s, Between agent s → C s) : Spec (Between agent) m (Ends (fun _ => Between agent) (Lost agent) C) :=
  (Spec.of_keeps hm fun _ _ hs hsu => hs.keep hsu).mono (fun _ _ hs => hs) (fun _ hs => hs.1.failing) hC

omit [Serde] in
theorem Between.square {s : World σ} (h : Between agent s) : Quits agent s := h.1.toSquare

theorem tick_beats : Spec (fun s => Ticking agent s ∧ atTick s.trace = true) (Pump.tick agent)
    (Ends (fun _ => Between agent) (Lost agent) (Quits agent)) := by
  let Read (now : Nat) (s : World σ) : Prop := ∃ older, s.trace = .clock now :: older ∧ atTick older = true ∧
    Counting agent.config.heartbeatMs s.own.pump.lastHeartbeat older
  refine Spec.bind (R := Read) (spec_call fun s env now hs => ⟨s.trace, rfl, hs.2, hs.1⟩) fun now => spec_own fun d => ?_
  have hbeside := beside_admits (σ := σ) Kind.isAmid
  have hlogs : ∀ lastLog, Keeps (Beside Kind.isAmid) (sendLogs agent now lastLog) :=
    hbeside.sendLogs (fun _ _ => .nothing rfl rfl) (by decide) now
  refine Spec.bind (R := fun _ => Between agent) (Spec.when (fun hdue => ?_) fun hearly s hs => ?_) fun _ =>
    spec_own fun d' => ?_
  · let Beat (s : World σ) : Prop := Counting agent.config.heartbeatMs now s.trace ∧ Clear s.trace
    refine Spec.bind (R := fun _ => Beat) ?_ fun _ => fun s hs => hs
    refine sendHeartbeat_sends.spec ?_ ?_
    · rintro s m t ⟨⟨older, htrace, -, hcount⟩, rfl⟩ hm - hsent
      rw [htrace] at hsent
      simp only [Beat, hsent]
      exact ⟨hcount.beat hm hdue, clear_sent m _⟩
    · rintro s m e t ⟨⟨older, htrace, -, hcount⟩, rfl⟩ hm - hsent
      rw [htrace] at hsent
      rw [Lost, hsent]
      exact hcount.lose hm hdue e
  · obtain ⟨⟨older, htrace, htick, hcount⟩, rfl⟩ := hs
    simp only [Between, Ticking, htrace]
    exact ⟨hcount.early hearly, clear_at_tick htick now⟩
  · refine Spec.bind ((between_spec (hlogs _) fun _ hs => hs.square).pre fun s hs => hs.1) fun lastLog => ?_
    exact fun s hs => hs

/-- What is left of a download once it is over. -/
def Loaded (agent : Agent σ) (s : World σ) : Prop := Loading agent.config.heartbeatMs s.trace ∧ Clear s.trace

theorem beats_pumps : Pumps agent (Between agent) (fun s => Ticking agent s ∧ atTick s.trace = true)
    (fun s => Ticking agent s ∧ refused s.trace = true) (Lost agent) (Loaded agent) (Quits agent) where
  gas s g hs := hs
  gasTick s g hs := hs
  opens url := by
    simp only [imageStream, HttpCalls.recorded_openUrl]
    refine spec_tryCall (fun s env size hs => ⟨hs.1.add ?_ ?_, ⟨rfl, rfl⟩⟩) fun s env e hs => ⟨hs.1.add ?_ ?_, rfl⟩
    all_goals simp [Event.kind, countKinds, loadKinds]
  waits := spec_call fun s env now hs => ⟨hs.1.add (by simp [Event.kind, countKinds, loadKinds]) fun _ =>
    (refused_plain hs.2), hs.2⟩
  tick := tick_beats
  clock := spec_call fun s env now hs => ⟨hs.1.add (by simp [Event.kind, countKinds, loadKinds]) fun _ => hs.2.still,
    hs.2.add (by simp [Event.kind, clearKinds])⟩
  sleeps d := spec_call fun s env _ hs => ⟨hs.1.add (by simp [Event.kind, countKinds, loadKinds])
    (by simp [Event.kind]), rfl⟩
  reads := by
    simp only [imageStream, HttpCalls.recorded_read]
    refine spec_tryCall (fun s env chunk hs => ⟨hs.1.add ?_ ?_, ⟨rfl, rfl⟩⟩) fun s env e hs => (hs.1.add ?_ ?_).failing
    all_goals simp [Event.kind, countKinds, loadKinds]
  writes chunk := by
    simp only [imageSink, SinkCalls.recorded_write]
    refine spec_tryCall (fun s env _ hs => ⟨hs.1.add ?_ ?_, rfl⟩) fun s env e hs => (hs.1.add ?_ ?_).failing
    all_goals simp [Event.kind, countKinds, loadKinds]
  reports percent := between_spec ((beside_admits _).report (by decide) .downloading percent) fun _ hs => hs.square
  commits := by
    simp only [imageSink, SinkCalls.recorded_commit]
    refine spec_tryCall (fun s env _ hs => ⟨hs.1.toLoading.add ?_ ?_, ⟨rfl, rfl⟩⟩) fun s env e hs =>
      ⟨hs.1.toLoading.add ?_ ?_, ⟨rfl, rfl⟩⟩
    all_goals simp [Event.kind, loadKinds]
  aborts s hs := ⟨hs.aborted, ⟨rfl, rfl⟩⟩
  idle s hs := ⟨hs.1.toLoading, hs.2⟩
  fails s hs := hs.1.failing
  refused s hs := hs.1.failing
  cuts s hs := hs.square
  cutsTick s hs := hs.1.toSquare

/-- The loop goes on with `a`. -/
def Rounding (agent : Agent σ) (a : Session) (s : World σ) : Prop :=
  Looping agent.config.heartbeatMs a.lastHeartbeat s.trace

variable [Sha256]

theorem fetch_beats (a : Session) (update : UpdatePayload) : Spec (Rounding agent a) (agent.fetch update)
    (Ends (fun _ => Loaded agent) (Quits agent) (Quits agent)) := by
  have hload : ∀ {t : List Event} {e : Event}, Loading agent.config.heartbeatMs t ∧ Clear t → e.kind ∉ loadKinds →
      e.kind ∉ clearKinds → Loading agent.config.heartbeatMs (e :: t) ∧ Clear (e :: t) := fun h he he' =>
    ⟨h.1.add he fun _ => h.2.still, h.2.add he'⟩
  have hstart : ∀ (s : World σ) r, Rounding agent a s → Loading agent.config.heartbeatMs (.httpStarted r :: s.trace) ∧
      Clear (.httpStarted r :: s.trace) := fun s r hs =>
    ⟨⟨hs.toSquare.add (by simp [Event.kind]) (by simp [Event.kind]) (by simp [Event.kind]), rfl,
      readings_opened hs.opened (by simp [Event.kind]) (by simp [Event.kind])⟩, ⟨rfl, rfl⟩⟩
  have hpumps : Pumps agent (Between agent) _ _ (Lost agent) (Loaded agent) (Quits agent) := beats_pumps
  refine hpumps.fetch (A := Loaded agent) (B := fun s => Loaded agent s ∧ justBegun s.trace = true)
    (fun s uuid hs => hs) (fun s hs => hs) ?_ ?_ ?_ update
  · exact spec_tryCall (fun s env _ hs => hstart s _ hs) fun s env e hs => hstart s _ hs
  · refine spec_tryCall (fun s env _ hs => ⟨hload hs ?_ ?_, rfl⟩) fun s env e hs => hload hs ?_ ?_
    all_goals simp [Event.kind, loadKinds, clearKinds]
  · refine spec_call fun s env now hs => ?_
    have h := hload (e := .clock now) hs.1 (by simp [Event.kind, loadKinds]) (by simp [Event.kind, clearKinds])
    have hmark : pumpMark (.clock now) s.trace = some now := by
      have hbegun := hs.2
      unfold justBegun at hbegun
      split at hbegun
      · rename_i heq
        rw [heq]
        rfl
      · cases hbegun
    exact ⟨⟨h.1, rfl, marked_mark (by simp [Event.kind]) hmark⟩, h.2⟩

/-! ### The loop -/

/-- The kinds of event between the checks of the loop, with readings among them. -/
def Kind.isRound (k : Kind) : Prop := k ∉ loopKinds ∧ k ≠ .received ∧ k ≠ .controlled

instance (k : Kind) : Decidable k.isRound := inferInstanceAs (Decidable (_ ∧ _ ∧ _))

/-- And once a check has been made: the clock is not read again before the next turn. -/
def Kind.isSince (k : Kind) : Prop := k ∉ loopKinds ∧ k ≠ .clock

instance (k : Kind) : Decidable k.isSince := inferInstanceAs (Decidable (_ ∧ _))

omit [Serde] [Sha256] in
theorem Rounding.keep {a : Session} {s u : World σ} (h : Rounding agent a s) (hsu : Only Kind.isRound s u) :
    Rounding agent a u := by
  refine hsu.holds (J := Looping agent.config.heartbeatMs a.lastHeartbeat) (fun e t he hJ => hJ.add he.1 ?_) h
  rintro (hkind | hkind)
  · exact absurd hkind he.2.1
  · exact absurd hkind he.2.2

/-- A check has been made. -/
def Minded (agent : Agent σ) (a : Session) (s : World σ) : Prop :=
  Rounding agent a s ∧ checked agent.config.heartbeatMs s.trace = true

omit [Serde] [Sha256] in
theorem checked_cons (he : e.kind.isSince) (hchecked : checked interval t = true) :
    checked interval (e :: t) = true := by
  have hconn : e.kind ≠ .connected := Kind.ne_of_not_mem he.1 (by decide)
  have hmark : loopMark e t = none := loopMark_none (Kind.ne_of_not_mem he.1 (by decide)) (fun hclock => absurd hclock he.2)
    fun hclock => absurd hclock he.2
  have hreadings : readings (e :: t) = readings t := readings_cons hconn (Kind.ne_of_not_mem he.1 (by decide)) he.2
  have hsince : beatSinceReading t = true → beatSinceReading (e :: t) = true := by
    intro hbeat
    cases e
    case connected r => exact absurd rfl hconn
    case clock now => exact absurd rfl he.2
    case sent m r => simp [beatSinceReading, hbeat]
    all_goals exact hbeat
  rw [checked, hreadings, marked_cons hconn hmark]
  rw [checked] at hchecked
  rcases Bool.or_eq_true_iff.mp hchecked with hbeat | hnone
  · simp [hsince hbeat]
  · simp [hnone]

omit [Serde] [Sha256] in
theorem Minded.keep {a : Session} {s u : World σ} (h : Minded agent a s) (hsu : Only Kind.isSince s u) : Minded agent a u :=
  hsu.holds (J := fun t => Looping agent.config.heartbeatMs a.lastHeartbeat t ∧ checked agent.config.heartbeatMs t = true)
    (fun _ _ he hJ => ⟨hJ.1.add he.1 fun _ => hJ.2, checked_cons he hJ.2⟩) h

/-! A check that finds a heartbeat due -/

section Check
variable {now : Nat} {m : Envelope} (h : Looping interval last (.clock now :: t)) (hstill : atTick t = false)
    (hm : m.kind = .heartbeat)
include h hstill hm

omit [Serde] [Sha256] in
theorem Looping.fits_beat (r : Except Error Unit) : Throughout (Fits interval) (.sent m r :: .clock now :: t) := by
  refine throughout_cons.mpr ⟨⟨fun h' => absurd (h.paid.symm.trans h') Bool.false_ne_true, fun hundue =>
    ?_, fun hkind => ?_⟩, h.fits⟩
  · simp [undue, hstill] at hundue
  · simp [Event.kind, hm] at hkind

omit [Serde] [Sha256] in
theorem Looping.beat : Looping interval now (.sent m (.ok ()) :: .clock now :: t) where
  fits := h.fits_beat hstill hm _
  paid := rfl
  toClear := clear_sent m _
  idle := downloading_false (by simp [Event.kind, hm]) (by simp [Event.kind, hm]) h.idle
  ready := by simp [updateOver, hm]
  opened := readings_opened h.opened (by simp [Event.kind, hm]) (by simp [Event.kind, hm])
  base := marked_mark (by simp [Event.kind, hm]) (by simp [loopMark, lastMark, beatMark, Event.kind, hm, readings])

omit [Serde] [Sha256] in
theorem Looping.lose (e : Error) : Square interval (.sent m (.error e) :: .clock now :: t) :=
  ⟨h.fits_beat hstill hm _, by simp [owes, hstill]⟩

end Check

omit [Sha256] in
theorem check_beats (a : Session) : Spec (Rounding agent a) (Spans.check agent a)
    (Ends (fun r => Minded agent r.2) (Quits agent) (Quits agent)) := by
  let Read (now : Nat) (s : World σ) : Prop := Rounding agent a s ∧ ∃ older, s.trace = .clock now :: older ∧
    atTick older = false
  refine Spec.bind (R := Read) (spec_call fun s env now hs => ?_) fun now => Spec.bind (R := Minded agent) ?_ fun a' => ?_
  · exact ⟨hs.add (by simp [Event.kind, loopKinds, clearKinds]) (by simp [Event.kind]), s.trace, rfl, hs.still⟩
  · refine Spec.ite (fun hdue => ?_) fun hearly => Spec.ret ?_
    · refine Spec.bind (R := fun _ => Read now) (fun s hs => hs) fun l =>
        Spec.ite (fun _ => Spec.fail fun s hs => hs.1.toSquare) fun _ => ?_
      refine Spec.bind (R := fun _ => Minded agent { a with lastHeartbeat := now }) ?_ fun _ => Spec.ret fun s hs => hs
      refine sendHeartbeat_sends.spec ?_ ?_
      · rintro s m t ⟨hloop, older, htrace, hstill⟩ hm - hsent
        rw [Rounding, htrace] at hloop
        rw [htrace] at hsent
        rw [Minded, Rounding, hsent]
        exact ⟨hloop.beat hstill hm, by simp [checked, beatSinceReading, hm]⟩
      · rintro s m e t ⟨hloop, older, htrace, hstill⟩ hm - hsent
        rw [Rounding, htrace] at hloop
        rw [htrace] at hsent
        rw [Quits, hsent]
        exact hloop.lose hstill hm e
    · rintro s ⟨hloop, older, htrace, -⟩
      refine ⟨hloop, ?_⟩
      rw [Rounding, htrace] at hloop
      rw [htrace, checked, hloop.base]
      simp [readings, overdue, Nat.lt_of_not_le hearly]
  · have hlogs : Keeps (Only Kind.isSince) (pumpLogs agent now a') :=
      Keeps.bind (only_admits _).steps ((only_admits _).sendLogs (fun _ _ => .nothing rfl) (by decide) now _) fun _ =>
        Keeps.pure (only_admits _).steps _
    refine Spec.bind (R := Minded agent) ?_ fun a'' => Spec.ret fun s hs => hs
    have hsame : Returns (fun a'' => a''.lastHeartbeat = a'.lastHeartbeat) (pumpLogs agent now a') :=
      Returns.bind fun lastLog => Returns.pure rfl
    refine ((Spec.of_keeps hlogs fun _ _ hs hsu => Minded.keep hs hsu).returns hsame).mono ?_
      (fun _ hs => hs.1.toSquare) fun _ hs => hs.1.toSquare
    rintro a'' s ⟨hs, heq⟩
    unfold Minded Rounding
    rw [heq]
    exact hs

/-- What a session leaves: and it has made its last check, if it finished. -/
def Parted (agent : Agent σ) (stopped : Option Stopped) (s : World σ) : Prop :=
  Quits agent s ∧ (stopped = some .finished → checked agent.config.heartbeatMs s.trace = true)

theorem update_beats (a : Session) (update : UpdatePayload) :
    Spec (Rounding agent a) (perform agent a (.applyUpdate update))
    (Ends (Turn.Post (Rounding agent) (Parted agent)) (Quits agent) (Quits agent)) := by
  -- The update is over, and said to be.
  let Told (s : World σ) : Prop := Square agent.config.heartbeatMs s.trace ∧ Clear s.trace ∧ downloading s.trace = false ∧
    updateOver s.trace = true ∧ 2 ≤ (readings s.trace).length
  have htold : ∀ {t : List Event} {m : Envelope} {r : Except Error Unit}, Loading agent.config.heartbeatMs t →
    m.kind = .status →
      Square agent.config.heartbeatMs (.sent m r :: t) := fun h hm =>
    h.toSquare.add (by simp [Event.kind, hm]) (by simp [Event.kind, hm]) (by simp [Event.kind, hm])
  have hnone : ∀ k ∈ closingKinds, k ≠ .heartbeat ∧ k ≠ .clock ∧ ¬(k = .received ∨ k = .controlled) := by decide
  have hkeep : ∀ s u : World σ, Quits agent s → Only (· ∈ closingKinds) s u → Quits agent u := fun s u hs hsu => by
    refine hsu.holds (J := Square agent.config.heartbeatMs) (fun e t he hJ => ?_) hs
    obtain ⟨hbeat, hclock, hcheck⟩ := hnone _ he
    exact hJ.add hbeat (fun h => absurd h hclock) fun h => absurd h hcheck
  refine (only_admits (· ∈ closingKinds)).update_rule (fun _ hk => hk) (F := Loaded agent) (G := Told) hkeep
    (fun s hs => hs.1.toSquare) (fun s hs => ⟨hs, by simp⟩) (fetch_beats a update) (fun extra => ?_) ?_
  · refine (sendStatus_sends "failed" extra).spec ?_ ?_
    · rintro s m t ⟨hload, -⟩ hm - hsent
      refine ⟨hsent ▸ htold hload hm, hsent ▸ clear_sent m _, ?_, ?_, ?_⟩
      · simp [hsent, downloading, hm]
      · simp [hsent, updateOver, hm, hload.started]
      · rw [hsent]
        exact readings_opened hload.opened (by simp [Event.kind, hm]) (by simp [Event.kind, hm])
    · rintro s m e t ⟨hload, -⟩ hm - hsent
      rw [Quits, hsent]
      exact htold hload hm
  · refine spec_call fun s env now hs => ?_
    obtain ⟨hsquare, hclear, hidle, hover, hopened⟩ := hs
    exact {
      toSquare := hsquare.add (by simp [Event.kind]) (fun _ => hclear.still) (by simp [Event.kind])
      toClear := hclear.add (by simp [Event.kind, clearKinds])
      idle := hidle
      ready := rfl
      opened := readings_opened hopened (by simp [Event.kind]) (by simp [Event.kind])
      base := marked_mark (by simp [Event.kind]) (by
        have hopen : openMark (.clock now) s.trace = none := openMark_none fun _ => by omega
        simp [loopMark, lastMark, beatMark, hopen, endMark, hover, Event.kind]) }

section
variable {base : List Event} {pending detected : Bool} (hbase : Square interval base)
include hbase

omit [Serde] [Sha256] in
theorem square_opened : Square interval (.autoRevert detected :: .pendingVerify pending :: base) :=
  (hbase.add (by simp [Event.kind]) (by simp [Event.kind]) (by simp [Event.kind])).add (by simp [Event.kind])
    (by simp [Event.kind])
    (by simp [Event.kind])

omit [Serde] [Sha256] in
theorem looping_opened (hbegun : SessionBegins base) {m : Envelope} {started lastHeartbeat lastLog : Nat}
    (hm : m.kind = .deviceJoin) :
    Looping interval lastHeartbeat (.clock started :: .clock lastHeartbeat :: .clock lastLog :: .sent m (.ok ()) ::
      .autoRevert detected :: .pendingVerify pending :: base) where
  toSquare := by
    have hjoin : Square interval (.sent m (.ok ()) :: .autoRevert detected :: .pendingVerify pending :: base) :=
      (square_opened hbase).add (by simp [Event.kind, hm]) (by simp [Event.kind, hm]) (by simp [Event.kind, hm])
    have hclock : ∀ {now : Nat} {t : List Event}, Square interval t → atTick t = false →
        Square interval (.clock now :: t) :=
      fun h hstill => h.add (by simp [Event.kind]) (fun _ => hstill) (by simp [Event.kind])
    exact hclock (hclock (hclock hjoin rfl) rfl) rfl
  toClear := ⟨rfl, rfl⟩
  idle := by rcases hbegun with rfl | ⟨r, older, rfl⟩ <;> simp [downloading]
  ready := rfl
  opened := by simp [readings, hm]
  base := by simp [marked, loopMark, lastMark, beatMark, openMark, endMark, updateOver, readings, hm, Event.kind]

end

omit [Serde] [Sha256] in
theorem square_nil : Square interval [] := ⟨throughout_nil, rfl⟩

theorem session_beats (agent : Agent σ) (window : Option SessionWindow) (control : Option (σ → Control × σ)) :
    Spec (fun s => SessionBegins s.trace ∧ Quits agent s) (sessionWithin agent window control)
      (Ends (Parted agent) (Quits agent) (Quits agent)) := by
  have hround := only_roams (σ := σ) Kind.isRound
  have hsince := only_roams (σ := σ) Kind.isSince
  refine Spans.session_rule (I := fun _ => Rounding agent) (M := fun _ _ => Minded agent) (fun _ _ _ _ hs => hs)
    (fun _ _ s hs => hs.toSquare) ?_ (fun started a => ?_) (fun started now a => ?_) fun started now a => ?_
  · rintro s ⟨hbegun, hbase⟩
    refine (openSession_opens (C := Quits agent) s.trace).mono ?_ ?_ (fun _ hs => hs) s rfl
    · rintro ⟨started, a⟩ t ⟨m, pending, detected, lastLog, lastHeartbeat, hm, rfl, -, htrace⟩
      rw [Rounding, htrace]
      exact looping_opened hbase hbegun hm
    · rintro t ⟨m, e, pending, detected, hm, htrace⟩
      rw [Quits, htrace]
      exact (square_opened hbase).add (by simp [Event.kind, hm]) (by simp [Event.kind, hm]) (by simp [Event.kind, hm])
  · refine hround.attend_rule (I := Rounding agent) (J := fun r => Minded agent r.2) (by decide)
      (hround.joinConsole (by decide) fun s ref => .nothing rfl) (fun _ _ _ hs hsu => hs.keep hsu)
        (fun _ _ hs => hs.toSquare)
      (fun _ _ _ _ _ hs => hs) ?_ check_beats a
    exact hround.confirm_rule (by decide) (fun _ _ _ hs hsu => hs.keep hsu) (fun _ _ hs => hs.toSquare) fun _ _ _ _ hs => hs
  · exact hsince.mid_rule (Q := Parted agent) ((only_admits _).overhear (fun _ _ => .nothing rfl) (by decide)) (by decide)
      (fun _ _ hs hsu => hs.keep hsu) (fun _ hs => hs.1.toSquare)
        (fun _ hs => ⟨hs.1.toSquare, fun _ => hs.2⟩) window control
      started now a
  · refine hround.listen_rule (I := Rounding agent) (fun _ _ => .nothing rfl) (by decide) (fun _ _ _ hs hsu => hs.keep hsu)
      (fun _ _ hs => hs.toSquare) (fun _ _ _ hne hs => ⟨hs.toSquare, fun heq => absurd heq hne⟩) (fun _ _ _ hs => hs)
      update_beats a fun s env r hs => hs.1.add (by simp [Event.kind, loopKinds, clearKinds]) fun _ => hs.2

/-! ### Ticks that forgive nothing -/

omit [Serde] [Sha256] in
theorem overdue_mono {counted now : Nat} {base : Option Nat} (hle : counted ≤ interval)
    (h : overdue interval now base = true) :
    overdue counted now base = true := by
  cases base with
  | none => cases h
  | some last => exact decide_eq_true (hle.trans (of_decide_eq_true h))

omit [Serde] [Sha256] in
theorem checked_mono {counted : Nat} (hle : counted ≤ interval) (h : checked counted t = true) :
    checked interval t = true := by
  rcases Bool.or_eq_true_iff.mp h with hbeat | hnone
  · exact Bool.or_eq_true_iff.mpr (Or.inl hbeat)
  · refine Bool.or_eq_true_iff.mpr (Or.inr ?_)
    cases hhead : (readings t).head? with
    | none => rfl
    | some now =>
      rw [hhead] at hnone
      have hearly : overdue counted now (marked loopMark t) = false := by simpa using hnone
      have hnot : overdue interval now (marked loopMark t) = false := by
        by_contra hover
        rw [overdue_mono hle (Bool.not_eq_false _ ▸ hover)] at hearly
        cases hearly
      simp [hnot]

omit [Serde] [Sha256] in
theorem owes_pump {counted : Nat} (h : Throughout (fun e older => forgives interval counted e older = false) t)
    (howes : owes interval lastMark t = true) : owes counted pumpMark t = true := by
  unfold owes at howes
  split at howes
  · rename_i now older
    have hnone := (throughout_cons.mp h).1
    rw [forgives, howes, Bool.true_and, Bool.not_eq_false'] at hnone
    simp [owes, (Bool.and_eq_true_iff.mp howes).1, hnone]
  · rename_i m e now older
    have hnone := (throughout_cons.mp (throughout_cons.mp h).2).1
    obtain ⟨hbeat, hdue⟩ := Bool.and_eq_true_iff.mp howes
    obtain ⟨hm, htick⟩ := Bool.and_eq_true_iff.mp hbeat
    rw [forgives, htick, hdue, Bool.true_and, Bool.true_and, Bool.not_eq_false'] at hnone
    simp [owes, hm, htick, hnone]
  · cases howes

omit [Serde] [Sha256] in
/-- A tick that forgives a heartbeat goes by without one. -/
theorem forgives_false {counted : Nat} (h : Square counted t)
    (hticks : Throughout (fun e older => owes interval lastMark older = true → pays e older = true) t)
    (hlast : owes interval lastMark t = false) {older : List Event} (he : e :: older <:+ t) :
    forgives interval counted e older = false := by
  by_contra hforgives
  rw [Bool.not_eq_false] at hforgives
  cases e
  case clock now =>
    obtain ⟨howed, hearly⟩ := Bool.and_eq_true_iff.mp hforgives
    obtain ⟨htick, -⟩ := Bool.and_eq_true_iff.mp howed
    have howes : owes interval lastMark (.clock now :: older) = true := howed
    have hundue : undue counted (.clock now :: older) = true := by rw [undue, htick, hearly, Bool.and_self]
    rcases next_of_suffix he with heq | ⟨e', he'⟩
    · rw [heq, hlast] at howes
      cases howes
    · exact (h.fits e' _ he').waits hundue (beq_iff_eq.mp (hticks e' _ he' howes))
  all_goals cases hforgives

/-- Heartbeats go out in time, at the ticks of every download and in the loop, exactly if there is no tick at which the
    interval since the last heartbeat is over while what the code counts, since the beginning of the download, is not. -/
theorem heartbeats_in_time (agent : Agent σ) (window : Option SessionWindow) (control : Option (σ → Control × σ)) (env : σ)
    (own : Device) (gas : Nat) :
    InTime agent.config.heartbeatInterval lastMark (sessionWithin agent window control ⟨env, own, [], gas⟩).1
        (sessionWithin agent window control ⟨env, own, [], gas⟩).2.trace ↔
      Throughout (fun e older => forgives agent.config.heartbeatInterval agent.config.heartbeatMs e older = false)
        (sessionWithin agent window control ⟨env, own, [], gas⟩).2.trace := by
  have hspec := session_beats agent window control ⟨env, own, [], gas⟩ ⟨Or.inl rfl, square_nil⟩
  rcases hrun : sessionWithin agent window control ⟨env, own, [], gas⟩ with ⟨o, s⟩
  rw [hrun] at hspec
  have hle := agent.config.heartbeatMs_le
  have hsquare : Square agent.config.heartbeatMs s.trace := by
    rcases o with stopped | e | _
    · exact hspec.1
    · exact hspec
    · exact hspec
  constructor
  · exact fun h e older he => forgives_false hsquare h.ticks h.last he
  · intro h
    refine ⟨fun e older he howes => (hsquare.fits e older he).pays (owes_pump (h.suffix ?_) howes), ?_, ?_, ?_⟩
    · exact (List.suffix_cons e older).trans he
    · by_contra hlast
      have howes := owes_pump h (Bool.not_eq_false _ ▸ hlast)
      exact Bool.false_ne_true (hsquare.paid.symm.trans howes)
    · exact fun e older he hkind => checked_mono hle ((hsquare.fits e older he).checked hkind)
    · rintro rfl
      exact checked_mono hle (hspec.2 rfl)

end

/-! ### A download begins shortly before a heartbeat is due -/

section
attribute [local instance] sha256OfByte updateSerde

/-- An interval of three seconds. -/
def busyAgent : Agent Bench := { benchAgent .none with config := { benchConfig .none with heartbeatIntervalSecs := 3 } }

/-- The image comes in two chunks. -/
def twoChunks : Bench :=
  ⟨[joinReply, updatePush].map fun m => some (.text m.text), 20, patchScript ++ patchScript, 0, false, []⟩

/-- At the second tick the last heartbeat is three seconds old, and the download two. -/
theorem heartbeats_forgiven :
    ¬InTime busyAgent.config.heartbeatInterval lastMark
      (sessionWithin busyAgent none none ⟨twoChunks, benchDevice .none none, [], 12⟩).1
      (sessionWithin busyAgent none none ⟨twoChunks, benchDevice .none none, [], 12⟩).2.trace := by
  intro h
  have hlate : ¬Throughout (fun e older => owes busyAgent.config.heartbeatInterval lastMark older = true →
    pays e older = true)
      (sessionWithin busyAgent none none ⟨twoChunks, benchDevice .none none, [], 12⟩).2.trace := by decide +kernel
  exact hlate h.ticks

end

end NervesHub
