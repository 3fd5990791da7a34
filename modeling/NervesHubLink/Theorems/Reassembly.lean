import NervesHubLink.Theorems.Unread

/-! Messages cut into frames, and frames into pieces, come out whole. -/

namespace NervesHub

/-! ### How messages are cut -/

def Frame.bytes : Frame → List UInt8
  | .text s => s.toByteArray.data.toList
  | .binary bytes => bytes

def Frame.isBinary : Frame → Bool
  | .text _ => false
  | .binary _ => true

/-- The payload of a frame in consecutive pieces that are not empty; an empty frame is one empty piece. -/
structure CutFrame where
  chunks : List (List UInt8)
  legal : chunks = [[]] ∨ (chunks ≠ [] ∧ ∀ c ∈ chunks, c ≠ [])

def CutFrame.payload (f : CutFrame) : List UInt8 := f.chunks.flatten

/-- The pieces of a frame from an offset on. -/
def piecesFrom (opcode : UInt8) (fin : Bool) (total : Nat) : Nat → List (List UInt8) → List Piece
  | _, [] => []
  | offset, c :: rest => ⟨opcode, fin, offset, total, c⟩ :: piecesFrom opcode fin total (offset + c.length) rest

def CutFrame.pieces (f : CutFrame) (opcode : UInt8) (fin : Bool) : List Piece :=
  piecesFrom opcode fin f.payload.length 0 f.chunks

/-- A message in frames, of which the first says of what kind it is. -/
structure CutMessage where
  binary : Bool
  first : CutFrame
  rest : List CutFrame

namespace CutMessage

def bytes (m : CutMessage) : List UInt8 := (m.first :: m.rest).flatMap CutFrame.payload

def continuation : List CutFrame → List Piece
  | [] => []
  | f :: rest => f.pieces opcodeContinuation rest.isEmpty ++ continuation rest

def opcode (m : CutMessage) : UInt8 := if m.binary then opcodeBinary else opcodeText

def pieces (m : CutMessage) : List Piece := m.first.pieces m.opcode m.rest.isEmpty ++ continuation m.rest

end CutMessage

/-- A message that is sent whole, and the messages before it that were cut off: of each, so many pieces came. -/
structure Sending where
  cutOff : List (CutMessage × Nat)
  unfinished : ∀ c ∈ cutOff, c.2 < c.1.pieces.length
  frame : Frame
  message : CutMessage
  kind : message.binary = frame.isBinary
  whole : message.bytes = frame.bytes

def Sending.pieces (s : Sending) : List Piece := s.cutOff.flatMap (fun c => c.1.pieces.take c.2) ++ s.message.pieces

/-! ### What comes in -/

/-- A piece, or a frame that the run loop has read. -/
inductive Feed where
  | piece (p : Piece)
  | read (frame : Frame)

/-- What the run loop hears of a list of feeds, and what is left of it. -/
def Inbound.feed (b : Inbound) : List Feed → List Incoming × Inbound
  | [] => ([], b)
  | .piece p :: rest => ((b.piece p).1.toList ++ ((b.piece p).2.feed rest).1, ((b.piece p).2.feed rest).2)
  | .read f :: rest => (b.read f).feed rest

/-- No data piece takes what is held past the limit. -/
def Inbound.Fits (b : Inbound) : List Feed → Prop
  | [] => True
  | .piece p :: rest => ¬b.Exceeds p ∧ (b.piece p).2.Fits rest
  | .read f :: rest => (b.read f).Fits rest

instance (b : Inbound) (p : Piece) : Decidable (b.Exceeds p) := inferInstanceAs (Decidable (_ ∧ _))

instance Inbound.decidableFits : (feeds : List Feed) → (b : Inbound) → Decidable (b.Fits feeds)
  | [], _ => .isTrue trivial
  | .piece p :: rest, b => @instDecidableAnd _ _ _ (decidableFits rest (b.piece p).2)
  | .read f :: rest, b => decidableFits rest (b.read f)

/-- The data pieces; the others are pings, pongs and closes. -/
def dataPieces (feeds : List Feed) : List Piece :=
  feeds.filterMap fun
    | .piece p => if p.isData then some p else none
    | .read _ => none

/-! ### Gathering -/

/-- The piece ends a message. -/
def Piece.ends (p : Piece) : Bool := decide (p.payloadLen ≤ p.offset + p.bytes.length) && p.fin

/-- The message in progress, and whether it is binary. -/
abbrev Gathered := List UInt8 × Bool

/-- The message in progress that a piece adds to. -/
def Gathered.start (g : Gathered) (p : Piece) : Gathered :=
  if p.opcode != opcodeContinuation && p.offset == 0 then ([], p.opcode == opcodeBinary) else g

def Gathered.add (g : Gathered) (p : Piece) : List Frame × Gathered :=
  let g := g.start p
  if p.ends then ((Inbound.finished g.2 (g.1 ++ p.bytes)).toList, ([], g.2)) else ([], (g.1 ++ p.bytes, g.2))

def Gathered.addAll (g : Gathered) : List Piece → List Frame × Gathered
  | [] => ([], g)
  | p :: rest => ((g.add p).1 ++ ((g.add p).2.addAll rest).1, ((g.add p).2.addAll rest).2)

section
variable {b : Inbound} {p : Piece} {g : Gathered}

theorem piece_add (hover : b.overflowed = false) (hdata : p.isData = true) (hfits : ¬b.Exceeds p) :
    waiting (b.piece p).1.toList = (Gathered.add (b.partialMessage, b.binary) p).1 ∧
      ((b.piece p).2.partialMessage, (b.piece p).2.binary) = (Gathered.add (b.partialMessage, b.binary) p).2 ∧
      (b.piece p).2.overflowed = false := by
  -- The state in which the piece is added, in the code and here.
  obtain ⟨message, binary, hstart, hstart', hcarried⟩ : ∃ message binary,
      (if p.opcode != opcodeContinuation && p.offset == 0 then
        { b with partialMessage := [], binary := p.opcode == opcodeBinary } else b) =
        { b with partialMessage := message, binary := binary } ∧
      Gathered.start (b.partialMessage, b.binary) p = (message, binary) ∧ b.carried p = message := by
    unfold Gathered.start Inbound.carried
    split
    · exact ⟨_, _, rfl, rfl, rfl⟩
    · exact ⟨_, _, rfl, rfl, rfl⟩
  have hlimit : ¬maxUnreadBytes < b.unread + message.length + p.bytes.length := by
    rw [← hcarried]
    exact fun h => hfits ⟨hdata, h⟩
  have hpiece : b.piece p = b.dataPiece p := by
    rw [Inbound.piece, if_pos hdata, if_neg (by simp [hover])]
  rw [hpiece]
  unfold Inbound.dataPiece Gathered.add
  rw [hstart, hstart']
  simp only [if_neg hlimit]
  cases hends : p.ends with
  | false =>
    rw [Piece.ends] at hends
    simp [hends, hover, waiting]
  | true =>
    rw [Piece.ends] at hends
    simp only [hends, Bool.not_true, Bool.false_eq_true, if_false, if_true]
    cases Inbound.finished binary (message ++ p.bytes) with
    | none => exact ⟨rfl, rfl, hover⟩
    | some frame => exact ⟨rfl, rfl, hover⟩

theorem piece_aside (hdata : p.isData = false) : waiting (b.piece p).1.toList = [] ∧
    ((b.piece p).2.partialMessage, (b.piece p).2.binary) = (b.partialMessage, b.binary) ∧
      (b.piece p).2.overflowed = b.overflowed := by
  unfold Inbound.piece
  rw [if_neg (by simp [hdata])]
  split
  · exact ⟨rfl, rfl, rfl⟩
  · exact ⟨rfl, rfl, rfl⟩

theorem waiting_append (l m : List Incoming) : waiting (l ++ m) = waiting l ++ waiting m := by simp [waiting]

/-- What the run loop hears is what the data pieces add up to. -/
theorem feed_addAll (feeds : List Feed) : ∀ b : Inbound, b.overflowed = false → b.Fits feeds →
    waiting (b.feed feeds).1 = (Gathered.addAll (b.partialMessage, b.binary) (dataPieces feeds)).1 := by
  induction feeds with
  | nil => exact fun b _ _ => rfl
  | cons feed rest ih =>
    intro b hover hfits
    cases feed with
    | read f => exact ih (b.read f) hover hfits
    | piece p =>
      obtain ⟨hp, hrest⟩ := hfits
      rw [Inbound.feed, waiting_append]
      cases hdata : p.isData with
      | true =>
        obtain ⟨hframes, hstate, hover'⟩ := piece_add hover hdata hp
        have hpieces : dataPieces (.piece p :: rest) = p :: dataPieces rest := by simp [dataPieces, hdata]
        rw [hpieces, Gathered.addAll, hframes, ih _ hover' hrest, hstate]
      | false =>
        obtain ⟨hframes, hstate, hover'⟩ := piece_aside (b := b) hdata
        have hpieces : dataPieces (.piece p :: rest) = dataPieces rest := by simp [dataPieces, hdata]
        rw [hpieces, hframes, List.nil_append, ih _ (hover'.trans hover) hrest, hstate]

theorem addAll_append (l m : List Piece) : ∀ g : Gathered, g.addAll (l ++ m) =
    ((g.addAll l).1 ++ ((g.addAll l).2.addAll m).1, ((g.addAll l).2.addAll m).2) := by
  induction l with
  | nil => exact fun g => rfl
  | cons p l ih =>
    intro g
    rw [List.cons_append, Gathered.addAll, ih, Gathered.addAll, List.append_assoc]

theorem addAll_unended {l : List Piece} (hl : ∀ p ∈ l, p.ends = false) : ∀ g : Gathered, (g.addAll l).1 = [] := by
  induction l with
  | nil => exact fun g => rfl
  | cons p l ih =>
    intro g
    have hp : (g.add p).1 = [] := by simp [Gathered.add, hl p List.mem_cons_self]
    rw [Gathered.addAll, hp, ih fun p' hp' => hl p' (List.mem_cons_of_mem _ hp')]
    rfl

/-! ### A frame -/

/-- What a frame makes of the message in progress. -/
def Gathered.close (g : Gathered) (fin : Bool) (payload : List UInt8) : List Frame × Gathered :=
  if fin then ((Inbound.finished g.2 (g.1 ++ payload)).toList, ([], g.2)) else ([], (g.1 ++ payload, g.2))

variable {opcode : UInt8} {fin : Bool} {total : Nat}

theorem piecesFrom_fin {offset : Nat} {chunks : List (List UInt8)} (h : p ∈ piecesFrom opcode fin total offset chunks) :
    p.fin = fin := by
  induction chunks generalizing offset with
  | nil => cases h
  | cons c rest ih =>
    rcases List.mem_cons.mp h with rfl | h
    · rfl
    · exact ih h

/-- A piece with others of its frame behind it does not end a message. -/
theorem not_ends {offset : Nat} {c payload : List UInt8} (hpayload : payload ≠ []) :
    Piece.ends ⟨opcode, fin, offset, offset + (c ++ payload).length, c⟩ = false := by
  have hpos := List.length_pos_of_ne_nil hpayload
  simp only [Piece.ends, List.length_append, Bool.and_eq_false_iff, decide_eq_false_iff_not]
  exact Or.inl (by omega)

theorem flatten_ne_nil {chunks : List (List UInt8)} (hne : chunks ≠ []) (hall : ∀ c ∈ chunks, c ≠ []) :
    chunks.flatten ≠ [] := by
  obtain ⟨c, rest, rfl⟩ := List.exists_cons_of_ne_nil hne
  have hc := hall c List.mem_cons_self
  simp [hc]

theorem addAll_last {offset : Nat} {c : List UInt8} (hstart : g.start ⟨opcode, fin, offset, offset + c.length, c⟩ = g) :
    g.addAll [⟨opcode, fin, offset, offset + c.length, c⟩] = g.close fin c := by
  have hends : Piece.ends ⟨opcode, fin, offset, offset + c.length, c⟩ = fin := by simp [Piece.ends]
  simp only [Gathered.addAll, Gathered.add, hstart, hends, Gathered.close]
  cases fin <;> simp

theorem addAll_piecesFrom (chunks : List (List UInt8)) :
    ∀ (offset : Nat) (g : Gathered), chunks ≠ [] → (∀ c ∈ chunks, c ≠ []) →
    (∀ c, g.start ⟨opcode, fin, offset, total, c⟩ = g) → total = offset + chunks.flatten.length →
    g.addAll (piecesFrom opcode fin total offset chunks) = g.close fin chunks.flatten := by
  induction chunks with
  | nil => exact fun _ _ h => absurd rfl h
  | cons c rest ih =>
    intro offset g _ hall hstart htotal
    cases rest with
    | nil =>
      obtain rfl : total = offset + c.length := by simpa using htotal
      simpa [piecesFrom] using addAll_last (hstart c)
    | cons c' rest =>
      have hall' : ∀ d ∈ c' :: rest, d ≠ [] := fun d hd => hall d (List.mem_cons_of_mem _ hd)
      have hends : Piece.ends ⟨opcode, fin, offset, total, c⟩ = false := by
        rw [htotal, List.flatten_cons]
        exact not_ends (flatten_ne_nil (by simp) hall')
      have hc := List.length_pos_of_ne_nil (hall c List.mem_cons_self)
      have hlater : (offset + c.length == 0) = false := beq_eq_false_iff_ne.mpr (by omega)
      have hrest := ih (offset + c.length) (g.1 ++ c, g.2) (by simp) hall'
        (fun d => by simp only [Gathered.start, hlater, Bool.and_false, Bool.false_eq_true, if_false])
          (by rw [htotal, List.flatten_cons, List.length_append]; omega)
      rw [piecesFrom, Gathered.addAll, Gathered.add, hstart]
      simp only [hends, Bool.false_eq_true, if_false, List.nil_append]
      rw [hrest]
      simp [Gathered.close]

theorem CutFrame.addAll (f : CutFrame) (opcode : UInt8) (fin : Bool)
    (hstart : ∀ c, g.start ⟨opcode, fin, 0, f.payload.length, c⟩ = g) :
    g.addAll (f.pieces opcode fin) = g.close fin f.payload := by
  rcases f.legal with hempty | ⟨hne, hall⟩
  · have hpayload : f.payload = [] := by simp [CutFrame.payload, hempty]
    rw [hpayload] at hstart
    have hlast : g.addAll [⟨opcode, fin, 0, 0 + ([] : List UInt8).length, []⟩] = g.close fin [] := addAll_last (hstart [])
    simpa [CutFrame.pieces, hempty, hpayload, piecesFrom] using hlast
  · exact addAll_piecesFrom f.chunks 0 g hne hall hstart (by simp [CutFrame.payload])

theorem piecesFrom_unended (chunks : List (List UInt8)) :
    ∀ offset, (∀ c ∈ chunks, c ≠ []) → total = offset + chunks.flatten.length →
    ∀ p ∈ (piecesFrom opcode fin total offset chunks).dropLast, p.ends = false := by
  induction chunks with
  | nil => exact fun _ _ _ p hp => by cases hp
  | cons c rest ih =>
    intro offset hall htotal p hp
    cases rest with
    | nil => cases hp
    | cons c' rest =>
      have hall' : ∀ d ∈ c' :: rest, d ≠ [] := fun d hd => hall d (List.mem_cons_of_mem _ hd)
      rcases List.mem_cons.mp hp with rfl | hp
      · rw [htotal, List.flatten_cons]
        exact not_ends (flatten_ne_nil (by simp) hall')
      · exact ih (offset + c.length) hall' (by rw [htotal, List.flatten_cons, List.length_append]; omega) p hp

theorem CutFrame.unended (f : CutFrame) : ∀ p ∈ (f.pieces opcode fin).dropLast, p.ends = false := by
  rcases f.legal with hempty | ⟨-, hall⟩
  · intro p hp
    rw [CutFrame.pieces, hempty] at hp
    cases hp
  · exact piecesFrom_unended f.chunks 0 hall (by simp [CutFrame.payload])

theorem CutFrame.pieces_ne_nil (f : CutFrame) : f.pieces opcode fin ≠ [] := by
  have hne : f.chunks ≠ [] := by
    rcases f.legal with hempty | ⟨hne, -⟩
    · simp [hempty]
    · exact hne
  obtain ⟨c, rest, hchunks⟩ := List.exists_cons_of_ne_nil hne
  simp [CutFrame.pieces, hchunks, piecesFrom]

/-! ### A message -/

namespace CutMessage

theorem continuation_ne_nil {rest : List CutFrame} (h : rest ≠ []) : continuation rest ≠ [] := by
  obtain ⟨f, rest, rfl⟩ := List.exists_cons_of_ne_nil h
  simp [continuation, f.pieces_ne_nil]

/-- The frames that carry a message on, up to its end. -/
theorem addAll_continuation (rest : List CutFrame) : ∀ g : Gathered, rest ≠ [] →
    g.addAll (continuation rest) = g.close true (rest.flatMap CutFrame.payload) := by
  induction rest with
  | nil => exact fun _ h => absurd rfl h
  | cons f rest ih =>
    intro g _
    have hf := f.addAll (g := g) opcodeContinuation rest.isEmpty fun c => by simp [Gathered.start]
    rw [continuation, addAll_append, hf]
    cases rest with
    | nil => simp [continuation, Gathered.addAll, Gathered.close]
    | cons f' rest =>
      rw [ih _ (by simp)]
      simp [Gathered.close]

/-- A message comes out whole, whatever was in progress before it. -/
theorem addAll (m : CutMessage) (g : Gathered) :
    g.addAll m.pieces = ((Inbound.finished m.binary m.bytes).toList, ([], m.binary)) := by
  have hopcode : m.opcode ≠ opcodeContinuation := by
    unfold opcode
    split <;> decide
  have hbinary : (m.opcode == opcodeBinary) = m.binary := by
    unfold opcode
    cases m.binary <;> rfl
  -- Its first piece clears what there was.
  have hclear : g.addAll (m.first.pieces m.opcode m.rest.isEmpty) =
      Gathered.addAll ([], m.binary) (m.first.pieces m.opcode m.rest.isEmpty) := by
    have hne : m.first.pieces m.opcode m.rest.isEmpty ≠ [] := m.first.pieces_ne_nil
    obtain ⟨p, l, hpieces⟩ := List.exists_cons_of_ne_nil hne
    have hp : p.opcode = m.opcode ∧ p.offset = 0 := by
      unfold CutFrame.pieces at hpieces
      cases hchunks : m.first.chunks with
      | nil => simp [hchunks, piecesFrom] at hpieces
      | cons c rest =>
        rw [hchunks, piecesFrom, List.cons.injEq] at hpieces
        simp [← hpieces.1]
    have hstart : ∀ g : Gathered, g.start p = ([], m.binary) := by
      intro g
      simp [Gathered.start, hp, hopcode, hbinary]
    rw [hpieces, Gathered.addAll, Gathered.addAll, Gathered.add, Gathered.add, hstart, hstart]
  have hfirst := m.first.addAll (g := ([], m.binary)) m.opcode m.rest.isEmpty
    fun c => by simp [Gathered.start, hopcode, hbinary]
  rw [pieces, addAll_append, hclear, hfirst, bytes]
  cases hrest : m.rest with
  | nil => simp [continuation, Gathered.addAll, Gathered.close]
  | cons f rest =>
    rw [addAll_continuation _ _ (by simp)]
    simp [Gathered.close]

theorem continuation_unended (rest : List CutFrame) : ∀ p ∈ (continuation rest).dropLast, p.ends = false := by
  induction rest with
  | nil => exact fun p hp => by cases hp
  | cons f rest ih =>
    intro p hp
    rw [continuation] at hp
    by_cases hrest : rest = []
    · rw [hrest, continuation, List.append_nil] at hp
      exact f.unended p hp
    · rw [List.dropLast_append_of_ne_nil (continuation_ne_nil hrest)] at hp
      rcases List.mem_append.mp hp with hp | hp
      · simp [Piece.ends, piecesFrom_fin hp, hrest]
      · exact ih p hp

theorem unended (m : CutMessage) : ∀ p ∈ m.pieces.dropLast, p.ends = false := by
  intro p hp
  rw [pieces] at hp
  by_cases hrest : m.rest = []
  · rw [hrest, continuation, List.append_nil] at hp
    exact m.first.unended p hp
  · rw [List.dropLast_append_of_ne_nil (continuation_ne_nil hrest)] at hp
    rcases List.mem_append.mp hp with hp | hp
    · simp [Piece.ends, piecesFrom_fin hp, hrest]
    · exact continuation_unended _ p hp

end CutMessage

/-! ### Many messages -/

/-- A message that was sent whole is read as it was. -/
theorem finished_bytes (f : Frame) : Inbound.finished f.isBinary f.bytes = some f := by
  cases f with
  | binary bytes => rfl
  | text s =>
    have hbytes : (⟨s.toByteArray.data.toList.toArray⟩ : ByteArray) = s.toByteArray := by simp
    simp only [Inbound.finished, Frame.isBinary, Frame.bytes, fromUtf8, hbytes, String.fromUTF8?]
    rw [dif_pos s.isValidUTF8]
    rfl

/-- What was cut off brings nothing, and the message behind it comes out whole. -/
theorem Sending.addAll (s : Sending) (g : Gathered) : (g.addAll s.pieces).1 = [s.frame] := by
  have hcut : ∀ p ∈ s.cutOff.flatMap (fun c => c.1.pieces.take c.2), p.ends = false := by
    intro p hp
    obtain ⟨c, hc, hp⟩ := List.mem_flatMap.mp hp
    have hinit : c.1.pieces.take c.2 <+: c.1.pieces.dropLast := by
      rw [List.dropLast_eq_take]
      exact List.take_prefix_take_left (by have := s.unfinished c hc; omega)
    exact c.1.unended p (hinit.subset hp)
  rw [Sending.pieces, addAll_append, addAll_unended hcut, s.message.addAll, s.kind, s.whole, finished_bytes]
  rfl

theorem sendings_addAll (sendings : List Sending) : ∀ g : Gathered,
    (g.addAll (sendings.flatMap Sending.pieces)).1 = sendings.map (·.frame) := by
  induction sendings with
  | nil => exact fun g => rfl
  | cons s rest ih =>
    intro g
    rw [List.flatMap_cons, addAll_append, s.addAll, ih]
    rfl

/-- Whatever the messages, the frames they are cut into, the pieces these are cut into, what was cut off before
    them and what came between the pieces: the run loop hears of each message, once, in order and whole. -/
theorem messages_reassembled (sendings : List Sending) (feeds : List Feed)
    (hdata : dataPieces feeds = sendings.flatMap Sending.pieces) (hfits : Inbound.new.Fits feeds) :
    waiting (Inbound.new.feed feeds).1 = sendings.map (·.frame) := by
  rw [feed_addAll feeds .new rfl hfits, hdata]
  exact sendings_addAll sendings _

/-! ### A message in two frames, behind one that was cut off -/

/-- `hi`, a letter in each of two frames. -/
def greeting : CutMessage := ⟨false, ⟨[[0x68]], Or.inr (by decide)⟩, [⟨[[0x69]], Or.inr (by decide)⟩]⟩

def greetingSent : Sending where
  cutOff := [(⟨true, ⟨[[0xff], [0x01]], Or.inr (by decide)⟩, []⟩, 1)]
  unfinished := by decide
  frame := .text "hi"
  message := greeting
  kind := rfl
  whole := by decide +kernel

/-- A ping comes in between. -/
def greetingFeeds : List Feed :=
  [.piece ⟨opcodeBinary, true, 0, 2, [0xff]⟩, .piece ⟨opcodeText, false, 0, 1, [0x68]⟩, .piece ⟨0x9, true, 0, 0, []⟩,
    .piece ⟨opcodeContinuation, true, 0, 1, [0x69]⟩]

theorem messages_reassembled_greeting : waiting (Inbound.new.feed greetingFeeds).1 = [.text "hi"] :=
  messages_reassembled [greetingSent] greetingFeeds (by decide) (by decide +kernel)

end

end NervesHub
