import NervesHubLink.Theorems.OptIn
import NervesHubLink.Theorems.Rounds
import NervesHubLink.Theorems.Taking

/-! Every line that is offered to the log buffer is carried by a frame, or still queued, or counted as lost. -/

namespace NervesHub
open Act Prog Trace

/-! ### What the record says of the lines -/

/-- The lines that the buffer took in, the oldest first. -/
def keptLines : List Event → List LogLine
  | [] => []
  | .offered (.kept line) :: older => keptLines older ++ [line]
  | _ :: older => keptLines older

/-- How many it turned away. -/
def lostLines : List Event → Nat
  | [] => 0
  | .offered .lost :: older => lostLines older + 1
  | _ :: older => lostLines older

/-- What was carried by frames whose send succeeded: lines, and lost lines that a note counts. Then what was taken
    since the last frame. -/
structure Ledger where
  carried : List LogLine
  told : Nat
  hand : List LogLine
  note : Nat
  deriving DecidableEq, Repr

/-- A frame empties the hand, whether or not it can be sent. -/
def Ledger.enter (l : Ledger) : Event → Ledger
  | .took line => { l with hand := l.hand ++ [line] }
  | .noted lost => { l with note := l.note + lost }
  | .sent m r =>
    if m.kind = .logging then
      match r with
      | .ok () => ⟨l.carried ++ l.hand, l.told + l.note, [], 0⟩
      | .error _ => { l with hand := [], note := 0 }
    else l
  | _ => l

def ledger : List Event → Ledger
  | [] => ⟨[], 0, [], 0⟩
  | e :: older => (ledger older).enter e

/-- The lines as they are sent: stamped a microsecond apart, with the note about lost lines last. -/
def Stamped (raw : List LogLine) (lost : Nat) (lines : List LogLine) : Prop :=
  ∃ micros : Option Nat, lines = (raw.mapIdx fun i line => stamp line (micros.map (atPlace · i))) ++
    if lost = 0 then [] else [stamp (LogBuffer.lossNote lost) (micros.map (atPlace · raw.length))]

/-- A frame's payload carries just these lines. -/
def Carries (payload : Payload) (lines : List LogLine) : Prop :=
  payload = .batch lines ∨ ∃ line, lines = [line] ∧ payload = .value line.payload

/-- A log frame carries what was taken for it. -/
def CarriesHand (e : Event) (older : List Event) : Prop :=
  ∀ m r, e = .sent m r → m.kind = .logging →
    ∃ lines, Stamped (ledger older).hand (ledger older).note lines ∧ Carries m.payload lines

def Event.isLostFrame : Event → Bool
  | .sent m (.error _) => m.kind == .logging
  | _ => false

def NoneLost (t : List Event) : Prop := ∀ e ∈ t, e.isLostFrame = false

instance (t : List Event) : Decidable (NoneLost t) := inferInstanceAs (Decidable (∀ e ∈ t, _))

def Event.isLoss : Event → Bool
  | .offered .lost => true
  | _ => false

def Event.isNote : Event → Bool
  | .noted _ => true
  | _ => false

/-- The lines that wait in the buffer, and the lost lines that it counts. -/
def queuedLines (logs : Option LogBuffer) : List LogLine := (logs.map (·.backlog.lines)).getD []
def lossCount (logs : Option LogBuffer) : UInt32 := (logs.map (·.dropped)).getD 0
def droppedLines (logs : Option LogBuffer) : Nat := (lossCount logs).toNat

/-- How many lost lines no note was made of yet, with those that were counted before the record. -/
def untoldLosses (was : Option LogBuffer) (t : List Event) : Nat := since Event.isLoss Event.isNote (droppedLines was) t

/-- The count of lost lines never comes round: fewer than 2^32 of them are waiting to be told of, at any time. -/
def LossesFit (was : Option LogBuffer) (t : List Event) : Prop := NeverRound Event.isLoss Event.isNote (droppedLines was) t

instance (was : Option LogBuffer) (t : List Event) : Decidable (LossesFit was t) :=
  inferInstanceAs (Decidable (NeverRound Event.isLoss Event.isNote (droppedLines was) t))

/-- How many lines wait, as the record has it. -/
def heldLines (was : Option LogBuffer) : List Event → Nat
  | [] => (queuedLines was).length
  | .offered (.kept _) :: older => heldLines was older + 1
  | .took _ :: older => heldLines was older - 1
  | _ :: older => heldLines was older

/-- Every line that the buffer took in, or held before the record, was carried or is queued, or it is in hand; every
    line that was lost was told of or is counted, or its count is in hand. -/
structure Balanced (was now : Option LogBuffer) (t : List Event) : Prop where
  lines : queuedLines was ++ keptLines t = (ledger t).carried ++ (ledger t).hand ++ queuedLines now
  losses : LossesFit was t → droppedLines was + lostLines t = (ledger t).told + (ledger t).note + droppedLines now
  untold : Shows (lossCount now) (untoldLosses was t)
  held : heldLines was t = (queuedLines now).length
  carries : Throughout CarriesHand t

/-- The same, with nothing in hand. -/
structure Booked (was now : Option LogBuffer) (t : List Event) : Prop extends Balanced was now t where
  hand : (ledger t).hand = [] ∧ (ledger t).note = 0

/-- Every line was carried or is queued, and every lost line was told of or is counted. -/
structure LinesAccounted (was now : Option LogBuffer) (t : List Event) : Prop where
  lines : queuedLines was ++ keptLines t = (ledger t).carried ++ queuedLines now
  losses : droppedLines was + lostLines t = (ledger t).told + droppedLines now
  hand : (ledger t).hand = [] ∧ (ledger t).note = 0
  carries : Throughout CarriesHand t

theorem Booked.accounted {was now : Option LogBuffer} {t : List Event} (h : Booked was now t) (hfit : LossesFit was t) :
    LinesAccounted was now t := by
  have hlines := h.lines
  have hlosses := h.losses hfit
  rw [h.hand.1, List.append_nil] at hlines
  rw [h.hand.2, Nat.add_zero] at hlosses
  exact ⟨hlines, hlosses, h.hand, h.carries⟩

theorem booked_nil (was : Option LogBuffer) : Booked was was [] where
  lines := by simp [keptLines, ledger]
  losses _ := by simp [lostLines, ledger]
  untold := shows_toNat _
  held := rfl
  carries := throughout_nil
  hand := ⟨rfl, rfl⟩

/-! ### Events that have nothing to do with the lines -/

def Kind.isOffTheBooks (k : Kind) : Prop := k ≠ .logging ∧ k ≠ .took ∧ k ≠ .noted ∧ k ≠ .offered

instance (k : Kind) : Decidable k.isOffTheBooks := inferInstanceAs (Decidable (_ ∧ _))

section
variable {e : Event} {t es : List Event}

theorem enter_offTheBooks (h : e.kind.isOffTheBooks) (l : Ledger) : l.enter e = l := by
  cases e
  case sent m r => exact if_neg h.1
  case took line => exact absurd rfl h.2.1
  case noted lost => exact absurd rfl h.2.2.1
  all_goals rfl

theorem offTheBooks_cons (h : e.kind.isOffTheBooks) :
    ledger (e :: t) = ledger t ∧ keptLines (e :: t) = keptLines t ∧ lostLines (e :: t) = lostLines t ∧
      (∀ was, untoldLosses was (e :: t) = untoldLosses was t) ∧ (∀ was, heldLines was (e :: t) = heldLines was t) ∧
      CarriesHand e t := by
  refine ⟨enter_offTheBooks h _, ?_, ?_, fun was => ?_, fun was => ?_, ?_⟩
  · cases e
    case offered fate => exact absurd rfl h.2.2.2
    all_goals rfl
  · cases e
    case offered fate => exact absurd rfl h.2.2.2
    all_goals rfl
  · cases e
    case offered fate => exact absurd rfl h.2.2.2
    case noted lost => exact absurd rfl h.2.2.1
    all_goals rfl
  · cases e
    case offered fate => exact absurd rfl h.2.2.2
    case took line => exact absurd rfl h.2.1
    all_goals rfl
  · rintro m r rfl hm
    exact absurd hm h.1

theorem Balanced.offTheBooks {was now : Option LogBuffer} (h : Balanced was now t) (hes : ∀ e ∈ es, e.kind.isOffTheBooks) :
    Balanced was now (es ++ t) ∧ ledger (es ++ t) = ledger t := by
  induction es with
  | nil => exact ⟨h, rfl⟩
  | cons e es ih =>
    obtain ⟨ih, hledger⟩ := ih fun e' he' => hes e' (List.mem_cons_of_mem _ he')
    obtain ⟨hl, hk, hlost, huntold, hheld, hc⟩ := offTheBooks_cons (t := es ++ t) (hes e List.mem_cons_self)
    refine ⟨⟨?_, fun hfit => ?_, ?_, ?_, ?_⟩, hl.trans hledger⟩
    · rw [List.cons_append, hk, hl]
      exact ih.lines
    · rw [List.cons_append, hlost, hl]
      exact ih.losses (neverRound_cons.mp hfit).2
    · rw [List.cons_append, huntold]
      exact ih.untold
    · rw [List.cons_append, hheld]
      exact ih.held
    · exact throughout_cons.mpr ⟨hc, ih.carries⟩

end

/-! ### What is done to the buffer -/

section
variable {was : Option LogBuffer} {b : LogBuffer} {t : List Event}

/-- What becomes of an offer: it is below the level, taken in, or lost. -/
theorem LogBuffer.offer_cases (b : LogBuffer) (o : Offer) :
    (b.offer o = (.below, b)) ∨
    (∃ line b', b.offer o = (.kept line, b') ∧ b'.backlog.lines = b.backlog.lines ++ [line] ∧ b'.dropped = b.dropped) ∨
    (∃ b', b.offer o = (.lost, b') ∧ b'.backlog.lines = b.backlog.lines ∧ b'.dropped = b.dropped + 1) := by
  have hpush : ∀ line, (∃ b', b.push line = (true, b') ∧ b'.backlog.lines = b.backlog.lines ++ [line] ∧
      b'.dropped = b.dropped) ∨ b.push line = (false, { b with dropped := b.dropped + 1 }) := by
    intro line
    unfold push
    split
    · exact Or.inr rfl
    · exact Or.inl ⟨_, rfl, rfl, rfl⟩
  cases o with
  | push line =>
    rcases hpush line with ⟨b', h, hlines, hdropped⟩ | h
    · exact Or.inr (Or.inl ⟨line, b', by simp [offer, h], hlines, hdropped⟩)
    · exact Or.inr (Or.inr ⟨{ b with dropped := b.dropped + 1 }, by simp only [offer, h], rfl, rfl⟩)
  | record r micros spare =>
    simp only [offer, Capture.log]
    split
    · exact Or.inl rfl
    rcases hasRoom_cases b with h | h
    · rw [h]
      rcases hpush (Capture.line r micros spare) with ⟨b', h', hlines, hdropped⟩ | h'
      · exact Or.inr (Or.inl ⟨_, b', by simp [h'], hlines, hdropped⟩)
      · exact Or.inr (Or.inr ⟨{ b with dropped := b.dropped + 1 }, by simp only [h'], rfl, rfl⟩)
    · rw [h]
      exact Or.inr (Or.inr ⟨_, rfl, rfl, rfl⟩)

theorem Balanced.offer (h : Balanced was (some b) t) (o : Offer) :
    Balanced was (some (b.offer o).2) (.offered (b.offer o).1 :: t) := by
  obtain ⟨hlines, hlosses, huntold, hheld, hcarries⟩ := h
  have hcarries' : ∀ fate, Throughout CarriesHand (.offered fate :: t) := fun fate =>
    throughout_cons.mpr ⟨fun m r heq => (by cases heq), hcarries⟩
  rcases b.offer_cases o with h | ⟨line, b', h, hb, hd⟩ | ⟨b', h, hb, hd⟩ <;> rw [h]
  · exact ⟨hlines, fun hfit => hlosses (neverRound_cons.mp hfit).2, huntold, hheld, hcarries' _⟩
  · refine ⟨?_, fun hfit => ?_, ?_, ?_, hcarries' _⟩
    · show queuedLines was ++ (keptLines t ++ [line]) = (ledger t).carried ++ (ledger t).hand ++ b'.backlog.lines
      rw [hb, ← List.append_assoc, ← List.append_assoc, hlines]
      rfl
    · show droppedLines was + lostLines t = (ledger t).told + (ledger t).note + b'.dropped.toNat
      rw [hd, hlosses (neverRound_cons.mp hfit).2]
      rfl
    · show Shows b'.dropped (untoldLosses was t)
      exact hd ▸ huntold
    · show heldLines was t + 1 = b'.backlog.lines.length
      rw [hb, hheld, List.length_append]
      rfl
  · have hsucc : untoldLosses was (.offered .lost :: t) = untoldLosses was t + 1 := rfl
    refine ⟨?_, fun hfit => ?_, ?_, ?_, hcarries' _⟩
    · show queuedLines was ++ keptLines t = (ledger t).carried ++ (ledger t).hand ++ b'.backlog.lines
      rw [hb, hlines]
      rfl
    · obtain ⟨hlt, hfit⟩ := neverRound_cons.mp hfit
      show droppedLines was + (lostLines t + 1) = (ledger t).told + (ledger t).note + b'.dropped.toNat
      have hnext : (b.dropped + 1).toNat = b.dropped.toNat + 1 := huntold.toNat_succ (hsucc ▸ hlt)
      rw [hd, hnext, ← Nat.add_assoc, hlosses hfit]
      rfl
    · show Shows b'.dropped _
      rw [hd, hsucc]
      exact huntold.succ
    · show heldLines was t = b'.backlog.lines.length
      rw [hb]
      exact hheld

theorem Balanced.offers (h : Balanced was (some b) t) (os : List Offer) :
    Balanced was (some (b.offers os).2) (((b.offers os).1.map Event.offered).reverse ++ t) ∧
      ledger (((b.offers os).1.map Event.offered).reverse ++ t) = ledger t := by
  induction os generalizing b t with
  | nil => exact ⟨h, rfl⟩
  | cons o rest ih =>
    obtain ⟨ih, hledger⟩ := ih (h.offer o)
    simp only [LogBuffer.offers, List.map_cons, List.reverse_cons, List.append_assoc, List.singleton_append]
    exact ⟨ih, hledger⟩

theorem Balanced.took (raw : List LogLine) : ∀ {b : LogBuffer} {t : List Event}, Balanced was (some b) t →
    ∀ {c : LogBuffer},
    b.backlog.lines = raw ++ c.backlog.lines → c.dropped = b.dropped →
    Balanced was (some c) ((raw.map Event.took).reverse ++ t) ∧
      ledger ((raw.map Event.took).reverse ++ t) = { ledger t with hand := (ledger t).hand ++ raw } := by
  induction raw with
  | nil =>
    intro b t h c hb hd
    have hlines : c.backlog.lines = b.backlog.lines := hb.symm
    have hsame : queuedLines (some c) = queuedLines (some b) ∧ lossCount (some c) = lossCount (some b) := ⟨hlines, hd⟩
    refine ⟨⟨?_, ?_, ?_, ?_, h.carries⟩, by simp⟩
    · rw [hsame.1]
      exact h.lines
    · rw [droppedLines, droppedLines, hsame.2]
      exact h.losses
    · rw [hsame.2]
      exact h.untold
    · rw [hsame.1]
      exact h.held
  | cons line raw ih =>
    intro b t h c hb hd
    let b₁ : LogBuffer := { b with backlog := ⟨raw ++ c.backlog.lines, 0⟩ }
    have h₁ : Balanced was (some b₁) (.took line :: t) := by
      refine ⟨?_, fun hfit => h.losses (neverRound_cons.mp hfit).2, h.untold, ?_,
        throughout_cons.mpr ⟨fun m r heq => (by cases heq), h.carries⟩⟩
      · show queuedLines was ++ keptLines t = (ledger t).carried ++ ((ledger t).hand ++ [line]) ++ (raw ++ c.backlog.lines)
        rw [h.lines]
        simp [queuedLines, hb]
      · show heldLines was t - 1 = (raw ++ c.backlog.lines).length
        rw [h.held, show queuedLines (some b) = b.backlog.lines from rfl, hb]
        rfl
    obtain ⟨hbal, hledger⟩ := ih h₁ (c := c) rfl hd
    simp only [List.map_cons, List.reverse_cons, List.append_assoc, List.singleton_append]
    refine ⟨hbal, ?_⟩
    rw [hledger]
    simp [ledger, Ledger.enter]

theorem Balanced.noted (h : Balanced was (some b) t) {c : LogBuffer} (hb : c.backlog.lines = b.backlog.lines)
    (hd : c.dropped = 0) : Balanced was (some c) (.noted b.dropped.toNat :: t) := by
  refine ⟨?_, fun hfit => ?_, ?_, ?_, throughout_cons.mpr ⟨fun m r heq => (by cases heq), h.carries⟩⟩
  · show _ = _ ++ c.backlog.lines
    rw [hb]
    exact h.lines
  · show droppedLines was + lostLines t = (ledger t).told + ((ledger t).note + b.dropped.toNat) + c.dropped.toNat
    rw [hd, h.losses (neverRound_cons.mp hfit).2]
    simp [droppedLines, lossCount, Nat.add_assoc]
  · show Shows c.dropped 0
    rw [hd]
    rfl
  · show heldLines was t = c.backlog.lines.length
    rw [hb]
    exact h.held

theorem Balanced.sent {now : Option LogBuffer} (h : Balanced was now t) {m : Envelope} (hm : m.kind = .logging)
    {lines : List LogLine} (hlines : Stamped (ledger t).hand (ledger t).note lines) (hcarries : Carries m.payload lines) :
    Booked was now (.sent m (.ok ()) :: t) := by
  have hledger : ledger (.sent m (.ok ()) :: t) =
      ⟨(ledger t).carried ++ (ledger t).hand, (ledger t).told + (ledger t).note, [], 0⟩ := if_pos hm
  refine ⟨⟨?_, fun hfit => ?_, h.untold, h.held, throughout_cons.mpr ⟨?_, h.carries⟩⟩, ?_⟩
  · rw [hledger, List.append_nil]
    exact h.lines
  · rw [hledger, Nat.add_zero]
    exact h.losses (neverRound_cons.mp hfit).2
  · rintro m' r heq -
    cases heq
    exact ⟨lines, hlines, hcarries⟩
  · rw [hledger]
    exact ⟨rfl, rfl⟩

end

/-! ### What the agent does to it -/

section
variable {σ : Type} (agent : Agent σ) {was : Option LogBuffer} {l : Ledger} {k : Link} {X C : World σ → Prop}

/-- The lines balance, the ledger reads `l`, and the link is `k`. -/
def InHand (was : Option LogBuffer) (l : Ledger) (k : Link) (s : World σ) : Prop :=
  Balanced was s.own.logs s.trace ∧ ledger s.trace = l ∧ s.own.link = k

theorem overhear_inHand : Spec (InHand was l k) (overhear agent) (Ends (fun _ => InHand was l k) X C) := by
  refine Spec.bind (R := fun _ => InHand was l k) (spec_call fun s env offers hs => hs) fun offers => ?_
  refine Spec.bind (R := fun _ => InHand was l k) (fun s hs => ?_) fun _ => Spec.ret fun s hs => hs
  obtain ⟨hbal, hledger, hlink⟩ := hs
  cases hlogs : s.own.logs with
  | none =>
    rw [hlogs] at hbal
    simp only [update_apply, hlogs, LogBuffer.overhear]
    exact ⟨hbal, hledger, hlink⟩
  | some b =>
    rw [hlogs] at hbal
    simp only [update_apply, hlogs, LogBuffer.overhear]
    exact ⟨(hbal.offers offers).1, (hbal.offers offers).2.trans hledger, hlink⟩

/-- What was popped is in hand with the lines `raw`. -/
def PoppedInHand (was : Option LogBuffer) (carried : List LogLine) (told : Nat) (raw : List LogLine) (k : Link) :
    LogBuffer.Popped → World σ → Prop
  | .line line => InHand was ⟨carried, told, raw ++ [line], 0⟩ k
  | .note lost => fun s => lost ≠ 0 ∧ InHand was ⟨carried, told, raw, lost⟩ k s
  | .nothing => InHand was ⟨carried, told, raw, 0⟩ k

theorem InHand.popped {carried : List LogLine} {told : Nat} {raw : List LogLine} {s : World σ} {b : LogBuffer}
    (hs : InHand was ⟨carried, told, raw, 0⟩ k s) (hlogs : s.own.logs = some b) :
    PoppedInHand was carried told raw k b.pop.1
      { s with own := { s.own with logs := some b.pop.2 }, trace := b.pop.1.events ++ s.trace } := by
  obtain ⟨hbal, hledger, hlink⟩ := hs
  rw [hlogs] at hbal
  cases hlines : b.backlog.lines with
  | cons line rest =>
    obtain ⟨hbal, hledger'⟩ := hbal.took [line] (c := { b with backlog := ⟨rest, b.backlog.bytes - heapCost line⟩ }) hlines
      rfl
    simp only [LogBuffer.pop, hlines, LogBuffer.Popped.events]
    refine ⟨hbal, ?_, hlink⟩
    rw [hledger] at hledger'
    exact hledger'
  | nil =>
    by_cases hdropped : b.dropped = 0
    · simp only [LogBuffer.pop, hlines, hdropped, if_true, LogBuffer.Popped.events]
      exact ⟨hbal, hledger, hlink⟩
    · have hnoted := hbal.noted (c := { b with dropped := 0 }) rfl rfl
      have hlost : b.dropped.toNat ≠ 0 := fun h => hdropped (UInt32.toNat_inj.mp h)
      simp only [LogBuffer.pop, hlines, hdropped, if_false, LogBuffer.Popped.events]
      refine ⟨hlost, hnoted, ?_, hlink⟩
      show Ledger.enter (ledger s.trace) (.noted b.dropped.toNat) = _
      rw [hledger]
      simp [Ledger.enter]

theorem takeStamped_inHand {carried : List LogLine} {told maxLines maxBytes : Nat} {micros : Option Nat} :
    Spec (InHand was ⟨carried, told, [], 0⟩ k) (takeStamped agent maxLines maxBytes micros)
      (Ends (fun lines s => ∃ raw lost, InHand was ⟨carried, told, raw, lost⟩ k s ∧ Stamped raw lost lines ∧
        lines.length ≤ maxLines) X C) := by
  refine takeStamped_rule agent (M := fun batch s => InHand was ⟨carried, told, batch.raw, 0⟩ k s ∧
    batch.raw.length ≤ maxLines ∧
    batch.lines = batch.raw.mapIdx fun i line => stamp line (micros.map (atPlace · i))) (overhear_inHand agent)
    (fun batch s hs => ?_) (fun s hs => ⟨hs, Nat.zero_le _, rfl⟩) (fun s b hs hlogs => ?_) (fun batch s hs => ?_)
    fun batch s b hless hs hlogs => ?_
  · exact ((overhear_inHand agent).mono (fun _ u hu => ⟨hu, hs.2⟩) (fun _ h => h) fun _ h => h) s hs.1
  · obtain ⟨hbal, hledger, hlink⟩ := hs
    rw [hlogs] at hbal
    obtain ⟨hlines, hdropped, hcount, hstamped⟩ := b.drain_lines maxLines maxBytes micros
    obtain ⟨hbal, hledger'⟩ := hbal.took _ hlines hdropped
    refine ⟨⟨hbal, hledger'.trans ?_, hlink⟩, hcount, hstamped⟩
    rw [hledger]
    simp
  · obtain ⟨hs, hcount, hstamped⟩ := hs
    refine ⟨batch.raw, 0, hs, ⟨micros, ?_⟩, ?_⟩
    · rw [if_pos rfl, List.append_nil]
      exact hstamped
    · rw [hstamped, List.length_mapIdx]
      exact hcount
  · obtain ⟨hs, hcount, hstamped⟩ := hs
    have hlen : batch.lines.length = batch.raw.length := by rw [hstamped, List.length_mapIdx]
    have hpopped := hs.popped hlogs
    rw [hlen] at hless ⊢
    cases hpop : b.pop.1 with
    | nothing =>
      rw [hpop] at hpopped
      refine ⟨batch.raw, 0, hpopped, ⟨micros, ?_⟩, ?_⟩
      · simpa [LogBuffer.Popped.sent] using hstamped
      · simpa [LogBuffer.Popped.sent, hlen] using hcount
    -- A line may have come in meanwhile, and then it is taken in place of the note.
    | line line =>
      rw [hpop] at hpopped
      refine ⟨_, 0, hpopped, ⟨micros, ?_⟩, ?_⟩
      · rw [if_pos rfl, List.append_nil, hstamped, List.mapIdx_append]
        simp [LogBuffer.Popped.sent]
      · simp only [LogBuffer.Popped.sent, Option.map_some, Option.toList_some, List.length_append, List.length_singleton]
        omega
    | note lost =>
      rw [hpop] at hpopped
      refine ⟨_, lost, hpopped.2, ⟨micros, ?_⟩, ?_⟩
      · rw [if_neg hpopped.1, hstamped]
        rfl
      · simp only [LogBuffer.Popped.sent, Option.map_some, Option.toList_some, List.length_append, List.length_singleton]
        omega

/-! ### Sending them -/

/-- The lines are accounted for, unless a log frame was lost. -/
def Cleared (was : Option LogBuffer) (s : World σ) : Prop := NoneLost s.trace → Booked was s.own.logs s.trace

/-- What is in hand is ready to be sent as `lines`. -/
def Ready (was : Option LogBuffer) (lines : List LogLine) (s : World σ) : Prop :=
  Balanced was s.own.logs s.trace ∧ Stamped (ledger s.trace).hand (ledger s.trace).note lines

variable [Serde] {lines : List LogLine} {raw : List LogLine} {lost : Nat}

theorem write_cleared {m : Envelope} (hm : m.kind = .logging) (hcarries : Carries m.payload lines) :
    Spec (Ready was lines) (Link.write agent m) (Post (fun _ => Cleared was) (Cleared was)) := by
  refine Spec.bind (R := fun _ => Ready was lines) (fun s hs => hs) fun l => ?_
  refine spec_tryCall (fun s env _ hs _ => hs.1.sent hm hs.2 hcarries) fun s env e hs hnone => ?_
  have hlost := hnone (.sent m (.error e)) List.mem_cons_self
  simp [Event.isLostFrame, hm] at hlost

/-- Lines that go as a batch make one frame, and a line that goes by itself makes one. -/
theorem linkSendLogs_cleared (hlines : lines ≠ []) (hatt : k.extensions.isAttached loggingKey = true)
    (hone : k.extensions.loggingBatched = false → lines.length ≤ 1) :
    Spec (fun s => InHand was ⟨l.carried, l.told, raw, lost⟩ k s ∧ Stamped raw lost lines) (Link.sendLogs agent lines)
      (Post (fun _ => Cleared was) (Cleared was)) := by
  rintro s ⟨⟨hbal, hledger, hlink⟩, hstamped⟩
  have hready : Ready was lines s := ⟨hbal, by rw [hledger]; exact hstamped⟩
  cases hbatched : k.extensions.loggingBatched with
  | true =>
    have hrun : Link.sendLogs agent lines s = (Link.nextRef >>= fun reference => Link.write agent
        ⟨k.extensionsJoinRef, some reference, extensionsTopic, event.loggingSend, .batch lines⟩) s := by
      have hbatch : k.extensions.logBatch lines = some lines := by simp [Extensions.logBatch, hbatched, hlines]
      simp only [Link.sendLogs, NervesHub.link, gets_bind_apply, hlink, hbatch]
    rw [hrun]
    refine Spec.bind (P := Ready was lines) (R := fun _ => Ready was lines) ?_ (fun reference => ?_) s hready
    · exact fun s hs => hs
    exact write_cleared agent rfl (Or.inl rfl)
  | false =>
    obtain ⟨line, rfl⟩ : ∃ line, lines = [line] := by
      have hpos := List.length_pos_iff.mpr hlines
      have hone := hone hbatched
      exact List.length_eq_one_iff.mp (by omega)
    have hrun : Link.sendLogs agent [line] s = Link.sendExtension agent [.send event.loggingSend line.payload] s := by
      have hnone : k.extensions.logBatch [line] = none := by simp [Extensions.logBatch, hbatched]
      have hlogs : k.extensions.logs [line] = [.send event.loggingSend line.payload] := by
        simp [Extensions.logs, Extensions.log, hatt, hbatched]
      simp only [Link.sendLogs, NervesHub.link, gets_bind_apply, hlink, hnone, hlogs]
    rw [hrun]
    refine Spec.bind (P := Ready was [line]) (R := fun _ => Ready was [line]) ?_ (fun reference => ?_) s hready
    · exact fun s hs => hs
    refine Spec.bind (R := fun _ => Ready was [line]) (fun s hs => hs) fun l => ?_
    refine Spec.bind (R := fun _ => Cleared was) ?_ fun _ => Spec.ret fun s hs => hs
    exact write_cleared agent rfl (Or.inr ⟨line, rfl, rfl⟩)

/-- A part of the agent keeps the lines accounted for, as long as no log frame is lost. -/
def Accounts (was : Option LogBuffer) (s t : World σ) : Prop :=
  s.trace <:+ t.trace ∧ (NoneLost t.trace → Booked was s.own.logs s.trace → Booked was t.own.logs t.trace)

omit [Serde] in
theorem accounts_admits : Admits (Accounts (σ := σ) was) Kind.isOffTheBooks where
  steps := by
    refine ⟨fun s => ⟨List.suffix_refl _, fun _ h => h⟩, fun {s t u} hst htu => ⟨hst.1.trans htu.1, fun hnone h => ?_⟩⟩
    exact htu.2 hnone (hst.2 (fun e he => hnone e (htu.1.mem he)) h)
  gas s g := ⟨List.suffix_refl _, fun _ h => h⟩
  calls s env es hes := by
    refine ⟨List.suffix_append _ _, fun _ h => ?_⟩
    obtain ⟨hbal, hledger⟩ := h.toBalanced.offTheBooks hes
    exact ⟨hbal, hledger ▸ h.hand⟩
  aside s _ _ := ⟨List.suffix_refl _, fun _ h => h⟩
  reader _ s _ := ⟨List.suffix_refl _, fun _ h => h⟩

omit [Serde] in
theorem Stamped.nothing (h : Stamped raw lost []) : raw = [] ∧ lost = 0 := by
  obtain ⟨micros, h⟩ := h
  rw [eq_comm, List.append_eq_nil_iff, List.mapIdx_eq_nil_iff] at h
  refine ⟨h.1, ?_⟩
  by_contra hlost
  rw [if_neg hlost] at h
  cases h.2

theorem drainLogs_cleared (hatt : k.extensions.isAttached loggingKey = true) (now lastLog : Nat) {carried : List LogLine}
    {told : Nat} : Spec (InHand was ⟨carried, told, [], 0⟩ k) (drainLogs agent k.logPace.2 now lastLog)
      (Post (fun _ => Cleared was) (Cleared was)) := by
  refine Spec.bind (R := fun _ => InHand was ⟨carried, told, [], 0⟩ k) (spec_call fun s env micros hs =>
    hs) fun micros => ?_
  refine Spec.bind (takeStamped_inHand agent) fun lines => ?_
  rintro s ⟨raw, lost, hs, hstamped, hcount⟩
  by_cases hempty : lines = []
  · subst hempty
    obtain ⟨rfl, rfl⟩ := hstamped.nothing
    obtain ⟨hbal, hledger, -⟩ := hs
    have hhand : (ledger s.trace).hand = [] ∧ (ledger s.trace).note = 0 := by
      rw [hledger]
      exact ⟨rfl, rfl⟩
    exact fun _ => ⟨hbal, hhand⟩
  · rw [if_neg (by simpa using hempty)]
    have hone : k.extensions.loggingBatched = false → lines.length ≤ 1 := by
      intro hsingle
      have hpace : k.logPace.2 = 1 := by simp [Link.logPace, hsingle]
      exact hpace ▸ hcount
    have hsend : Spec (fun s => InHand was ⟨carried, told, raw, lost⟩ k s ∧ Stamped raw lost lines)
        (Link.sendLogs agent lines >>= fun _ => pure now) (Post (fun _ => Cleared was) (Cleared was)) :=
      Spec.bind (linkSendLogs_cleared agent (l := ⟨carried, told, raw, lost⟩) hempty hatt hone) fun _ =>
        Spec.ret fun s hs => hs
    exact hsend s ⟨hs, hstamped⟩

/-- What is taken from the log buffer leaves in a frame at once. -/
theorem accounts_logs (now lastLog : Nat) : Keeps (Accounts was) (sendLogs agent now lastLog) := by
  refine fun s => ⟨(grows_allows agent).logs now lastLog s, fun hnone hs => ?_⟩
  have hcleared : Cleared was (sendLogs agent now lastLog s).2 := by
    have hstay : Cleared was s := fun _ => hs
    show Cleared was ((if (s.own.logs.isNone || !s.own.link.loggingAttached) = true then _ else _ : Run σ Nat) s).2
    split
    · exact hstay
    rename_i hatt
    split
    · exact hstay
    have hatt : s.own.link.extensions.isAttached loggingKey = true := by
      simp only [Bool.or_eq_true, Bool.not_eq_true', not_or, Bool.not_eq_false] at hatt
      exact hatt.2
    have hdrain : Spec (InHand was ⟨(ledger s.trace).carried, (ledger s.trace).told, [], 0⟩ s.own.link)
        (drainLogs agent s.own.link.logPace.2 now lastLog) (Post (fun _ => Cleared was) (Cleared was)) :=
      drainLogs_cleared agent hatt now lastLog
    refine hdrain.state (s := s) ⟨hs.toBalanced, ?_, rfl⟩
    rw [← hs.hand.1, ← hs.hand.2]
  exact hcleared hnone

theorem accounts_spans : Spans agent (Accounts (σ := σ) was) Kind.isOffTheBooks where
  toAdmits := accounts_admits
  level s l := by
    refine ⟨List.suffix_refl _, fun _ h => ?_⟩
    cases hlogs : s.own.logs with
    | none =>
      rw [hlogs] at h
      exact h
    | some b =>
      rw [hlogs] at h
      exact ⟨⟨h.lines, h.losses, h.untold, h.held, h.carries⟩, h.hand⟩
  beat s _ := ⟨List.suffix_refl _, fun _ h => h⟩
  pump s _ := ⟨List.suffix_refl _, fun _ h => h⟩
  logs := accounts_logs agent
  flag s _ := ⟨List.suffix_refl _, fun _ h => h⟩
  relink s _ _ _ _ := ⟨List.suffix_refl _, fun _ h => h⟩
  overhear := by
    refine fun s => ⟨grows_admits.overhear (fun _ _ => List.suffix_refl _) trivial s, fun _ hs => ?_⟩
    have hover : Spec (InHand was (ledger s.trace) s.own.link) (overhear agent)
        (Post (fun _ => InHand was (ledger s.trace) s.own.link) (InHand was (ledger s.trace) s.own.link)) :=
      overhear_inHand agent
    obtain ⟨hbal, hledger, -⟩ := hover.state (s := s) ⟨hs.toBalanced, rfl, rfl⟩
    exact ⟨hbal, hledger ▸ hs.hand⟩

variable [Sha256]

theorem accounts_lasts : Lasts agent (Accounts (σ := σ) was) Kind.isOffTheBooks where
  toSpans := accounts_spans agent
  kinds := by decide
  renew s := ⟨List.suffix_refl _, fun _ h => h⟩
  joinConsole := (accounts_spans agent).joinConsole (by decide) fun s _ => ⟨List.suffix_refl _, fun _ h => h⟩
  listen := by
    refine (accounts_spans agent).listen (by decide) fun m => ?_
    unfold Roams.messageKinds Roams.answerKinds
    split
    · decide
    split
    · decide
    split <;> decide

/-- Begun with an empty record, the program leaves every line accounted for that was offered to the buffer, unless
    a log frame could not be sent, or the count of lost lines came round. -/
def AccountsForLines (m : Run σ Stopped) (env : σ) (own : Device) (gas : Nat) : Prop :=
  NoneLost (m ⟨env, own, [], gas⟩).2.trace → LossesFit own.logs (m ⟨env, own, [], gas⟩).2.trace →
    LinesAccounted own.logs (m ⟨env, own, [], gas⟩).2.own.logs (m ⟨env, own, [], gas⟩).2.trace

omit [Serde] [Sha256] in
theorem Accounts.accountsForLines {m : Run σ Stopped} {env : σ} {own : Device} {gas : Nat}
    (h : Accounts own.logs ⟨env, own, [], gas⟩ (m ⟨env, own, [], gas⟩).2) : AccountsForLines m env own gas :=
  fun hnone hfit => (h.2 hnone (booked_nil own.logs)).accounted hfit

/-- As long as no log frame fails to be sent, and the count of lost lines does not come round: every line that was offered
    to the buffer is carried by a frame or is queued, and every line that was lost is told of or is counted. -/
theorem lines_accounted (agent : Agent σ) (env : σ) (own : Device) (gas : Nat) :
    AccountsForLines (run agent) env own gas ∧ (∀ window, AccountsForLines (runSession agent window) env own gas) ∧
      ∀ control, AccountsForLines (runSessionUntil agent control) env own gas :=
  have h : Runs agent (Accounts own.logs) := (accounts_lasts agent).runs (by decide)
  ⟨Accounts.accountsForLines (h.run _), fun window => Accounts.accountsForLines (h.once (some window) none _),
    fun control => Accounts.accountsForLines (h.once none (some control) _)⟩

end

/-! ### A log frame that fails -/

section
attribute [local instance] sha256OfByte extensionsSerde

/-- A server that attaches logging, over a socket that carries so many frames. -/
def logging (sends : Nat) : Bench := { uninvited [loggingAttached] with sends := sends }

theorem lines_accounted_sent :
    LinesAccounted loggingDevice.logs (run (benchAgent loggingOnly) ⟨logging 40, loggingDevice, [], 12⟩).2.own.logs
      (run (benchAgent loggingOnly) ⟨logging 40, loggingDevice, [], 12⟩).2.trace :=
  (lines_accounted (benchAgent loggingOnly) (logging 40) loggingDevice 12).1 (by decide +kernel) (by decide +kernel)

/-- The socket closes under the first log frame, and the line it carried is gone. -/
theorem lines_lost :
    let out := (run (benchAgent loggingOnly) ⟨logging 4, loggingDevice, [], 12⟩).2
    ¬LinesAccounted loggingDevice.logs out.own.logs out.trace :=
  fun h => absurd h.lines (by decide +kernel)

end

end NervesHub
