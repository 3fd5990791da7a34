import NervesHubLink.Inbound
import NervesHubLink.Lib.Machine

/-! What waits to be read is bounded and counted, and a close is judged the same whenever it is read. -/

namespace NervesHub
open Machine Trace

/-! ### The client and the run loop, in any order -/

/-- What happened: an event of the client with what was sent to the run loop, or a read. -/
inductive Exchange where
  | event (e : ClientEvent) (sent : Option Incoming)
  | read (r : Except Error (Option Frame))

inductive Socket.Step : Socket → Exchange → Socket → Prop
  | event {s : Socket} (e : ClientEvent) : Step s (.event e (s.onEvent e).1) (s.onEvent e).2
  | read {s : Socket} : Step s (.read s.recvFrame.1) s.recvFrame.2

namespace Exchange

def sent : Exchange → Option Incoming
  | .event _ sent => sent
  | .read _ => none

def isConnected : Exchange → Bool
  | .event .connected _ => true
  | _ => false

/-- The client says that the socket was closed, or the server does. -/
def isClose : Exchange → Bool
  | .event .closed _ => true
  | .event (.data data) _ => data.opcode == opcodeClose
  | _ => false

def isOverflow (e : Exchange) : Bool := e.sent == some .overflow

def close (e : Exchange) : Option Nat :=
  match e.sent with
  | some (.closed n) => some n
  | _ => none

def frameSent (e : Exchange) : List Frame :=
  match e.sent with
  | some (.frame f) => [f]
  | _ => []

def frameRead : Exchange → List Frame
  | .read (.ok (some frame)) => [frame]
  | _ => []

end Exchange

/-- The numbers of the closes that were sent, the first one first. -/
def closeNumbers (t : List Exchange) : List Nat := (t.filterMap Exchange.close).reverse

def closesIn (t : List Exchange) : Nat := t.countP Exchange.isClose

def framesSent (t : List Exchange) : List Frame := t.reverse.flatMap Exchange.frameSent

def framesRead (t : List Exchange) : List Frame := t.reverse.flatMap Exchange.frameRead

def totalLength (frames : List Frame) : Nat := (frames.map Frame.len).sum

/-- What a data piece adds to: the message it carries on, unless it starts one. -/
def Inbound.carried (b : Inbound) (p : Piece) : List UInt8 :=
  if p.opcode != opcodeContinuation && p.offset == 0 then [] else b.partialMessage

/-- The piece would take what is held past the limit. -/
def Inbound.Exceeds (b : Inbound) (p : Piece) : Prop :=
  p.isData = true ∧ maxUnreadBytes < b.unread + (b.carried p).length + p.bytes.length

section
variable {b : Inbound} {p : Piece} {s s' : Socket} {t : List Exchange} {e : Exchange}

/-! ### One piece -/

theorem finished_len {binary : Bool} {message : List UInt8} {f : Frame}
    (h : Inbound.finished binary message = some f) : f.len = message.length := by
  unfold Inbound.finished at h
  split at h
  · cases h
    rfl
  · obtain ⟨text, htext, rfl⟩ := Option.map_eq_some_iff.mp h
    unfold fromUtf8 String.fromUTF8? at htext
    split at htext
    · cases htext
      exact List.size_toArray
    · cases htext

theorem Piece.not_close (h : p.isData = true) : p.opcode ≠ opcodeClose := by
  rintro hclose
  rw [Piece.isData, hclose] at h
  exact absurd h (by decide)

/-- What a piece does: nothing, or it is gathered, or it finishes a message, or it is one too many, or it is a close. -/
theorem piece_cases (b : Inbound) (p : Piece) :
    (p.opcode ≠ opcodeClose ∧ b.piece p = (none, b)) ∨
    (b.overflowed = false ∧ p.isData = true ∧ b.unread + (b.carried p).length + p.bytes.length ≤ maxUnreadBytes ∧
      ∃ message binary, message.length ≤ (b.carried p).length + p.bytes.length ∧
        b.piece p = (none, { b with partialMessage := message, binary := binary })) ∨
    (b.overflowed = false ∧ p.isData = true ∧ b.unread + (b.carried p).length + p.bytes.length ≤ maxUnreadBytes ∧
      ∃ frame binary, frame.len = (b.carried p).length + p.bytes.length ∧
        b.piece p = (some (.frame frame), { b with partialMessage := [], binary := binary, unread := b.unread +
          frame.len })) ∨
    (b.overflowed = false ∧ b.Exceeds p ∧
      ∃ binary, b.piece p = (some .overflow, { b with partialMessage := [], binary := binary, overflowed := true })) ∨
    (p.opcode = opcodeClose ∧ b.piece p = (some b.closed.1, b.closed.2)) := by
  unfold Inbound.piece
  split
  · rename_i hdata
    split
    · exact Or.inl ⟨Piece.not_close hdata, rfl⟩
    rename_i hover
    have hover : b.overflowed = false := by simpa using hover
    -- The piece starts a message, or carries on what there is.
    have hstart : ∃ binary, (if p.opcode != opcodeContinuation && p.offset == 0 then
        { b with partialMessage := [], binary := p.opcode == opcodeBinary } else b) =
        { b with partialMessage := b.carried p, binary := binary } := by
      unfold Inbound.carried
      split
      · exact ⟨_, rfl⟩
      · exact ⟨b.binary, rfl⟩
    obtain ⟨binary, hstart⟩ := hstart
    unfold Inbound.dataPiece
    rw [hstart]
    simp only
    split
    · rename_i hlimit
      exact Or.inr (Or.inr (Or.inr (Or.inl ⟨hover, ⟨hdata, hlimit⟩, binary, rfl⟩)))
    rename_i hlimit
    have hlimit := Nat.not_lt.mp hlimit
    split
    · exact Or.inr (Or.inl ⟨hover, hdata, hlimit, _, binary, by simp, rfl⟩)
    split
    · rename_i frame hframe
      refine Or.inr (Or.inr (Or.inl ⟨hover, hdata, hlimit, frame, binary, ?_, rfl⟩))
      rw [finished_len hframe, List.length_append]
    · exact Or.inr (Or.inl ⟨hover, hdata, hlimit, [], binary, by simp, rfl⟩)
  · split
    · rename_i hclose
      exact Or.inr (Or.inr (Or.inr (Or.inr ⟨beq_iff_eq.mp hclose, rfl⟩)))
    · rename_i hclose
      exact Or.inl ⟨fun h => hclose (beq_iff_eq.mpr h), rfl⟩

/-! ### What holds at any moment -/

@[simp] theorem framesSent_cons : framesSent (e :: t) = framesSent t ++ e.frameSent := by simp [framesSent]

@[simp] theorem framesRead_cons : framesRead (e :: t) = framesRead t ++ e.frameRead := by simp [framesRead]

@[simp] theorem totalLength_append (l m : List Frame) : totalLength (l ++ m) = totalLength l + totalLength m := by
  simp [totalLength]

def waiting (incoming : List Incoming) : List Frame :=
  incoming.flatMap fun i =>
    match i with
    | .frame f => [f]
    | _ => []

/-- Frames are counted while they wait, what is held stays within the limit, an overflow is told once and leaves
    nothing behind, and the closes are counted. -/
structure Holding (s : Socket) (t : List Exchange) : Prop where
  fifo : framesSent t = framesRead t ++ waiting s.incoming
  unread : s.inbound.unread = totalLength (waiting s.incoming)
  within : s.inbound.unread + s.inbound.partialMessage.length ≤ maxUnreadBytes
  letGo : s.inbound.overflowed = true → s.inbound.partialMessage = []
  once : t.countP Exchange.isOverflow = s.inbound.overflowed.toNat
  closes : s.inbound.closes = closesIn t % 2 ^ 32
  numbers : closesIn t < 2 ^ 32 → closeNumbers t = List.range' 1 (closesIn t)

theorem Holding.start : Holding .new [] where
  fifo := rfl
  unread := rfl
  within := Nat.zero_le _
  letGo h := by cases h
  once := rfl
  closes := rfl
  numbers _ := rfl

theorem Holding.numbers_of_other (h : Holding s t) (hclose : e.isClose = false) (hsent : e.close = none) :
    closesIn (e :: t) < 2 ^ 32 → closeNumbers (e :: t) = List.range' 1 (closesIn (e :: t)) := by
  have hcount : closesIn (e :: t) = closesIn t := by simp [closesIn, hclose]
  have hnumbers : closeNumbers (e :: t) = closeNumbers t := by simp [closeNumbers, hsent]
  rw [hcount, hnumbers]
  exact h.numbers

theorem Holding.numbers_of_close (h : Holding s t) (hclose : e.isClose = true)
    (hsent : e.close = some ((s.inbound.closes + 1) % 2 ^ 32)) :
    closesIn (e :: t) < 2 ^ 32 → closeNumbers (e :: t) = List.range' 1 (closesIn (e :: t)) := by
  intro hlt
  have hcount : closesIn (e :: t) = closesIn t + 1 := by simp [closesIn, hclose]
  rw [hcount] at hlt ⊢
  have hcloses : s.inbound.closes = closesIn t := h.closes.trans (Nat.mod_eq_of_lt (by omega))
  have hnumber : (s.inbound.closes + 1) % 2 ^ 32 = 1 + closesIn t := by
    rw [hcloses, Nat.mod_eq_of_lt hlt, Nat.add_comm]
  rw [hnumber] at hsent
  have hnumbers : closeNumbers (e :: t) = closeNumbers t ++ [1 + closesIn t] := by simp [closeNumbers, hsent]
  rw [hnumbers, h.numbers (by omega), List.range'_concat, Nat.one_mul]

theorem Holding.close (h : Holding s t) {ce : ClientEvent}
    (he : (Exchange.event ce (some s.inbound.closed.1)).isClose = true) :
    Holding ⟨s.inbound.closed.2, s.incoming ++ [s.inbound.closed.1]⟩ (.event ce (some s.inbound.closed.1) :: t) where
  fifo := by
    simp [Exchange.frameSent, Exchange.frameRead, Exchange.sent, h.fifo, waiting, Inbound.closed]
  unread := by
    simp [waiting, Inbound.closed, totalLength, h.unread]
  within := h.within
  letGo := h.letGo
  once := by
    have hnot : (Exchange.event ce (some s.inbound.closed.1)).isOverflow = false := rfl
    rw [List.countP_cons_of_neg (by simp [hnot])]
    exact h.once
  closes := by
    have hcount : closesIn (.event ce (some s.inbound.closed.1) :: t) = closesIn t + 1 := by simp [closesIn, he]
    rw [hcount, Nat.add_mod, ← h.closes]
    show (s.inbound.closes + 1) % 2 ^ 32 = _
    rw [Nat.add_mod, h.closes, Nat.mod_mod]
  numbers := h.numbers_of_close he rfl

/-- Anything but a close, as long as the frames before it and after it balance. -/
theorem Holding.next (h : Holding s t) (hclose : e.isClose = false) (hsent : e.close = none)
    (hfifo : waiting s.incoming ++ e.frameSent = e.frameRead ++ waiting s'.incoming)
    (hunread : s'.inbound.unread = totalLength (waiting s'.incoming))
    (hwithin : s'.inbound.unread + s'.inbound.partialMessage.length ≤ maxUnreadBytes)
    (hletGo : s'.inbound.overflowed = true → s'.inbound.partialMessage = [])
    (honce : s'.inbound.overflowed.toNat = s.inbound.overflowed.toNat + e.isOverflow.toNat)
    (hcloses : s'.inbound.closes = s.inbound.closes) : Holding s' (e :: t) := by
  have hcount : closesIn (e :: t) = closesIn t := by simp [closesIn, hclose]
  refine ⟨?_, hunread, hwithin, hletGo, ?_, ?_, h.numbers_of_other hclose hsent⟩
  · rw [framesSent_cons, framesRead_cons, h.fifo, List.append_assoc, hfifo, List.append_assoc]
  · rw [List.countP_cons, h.once, honce]
    cases e.isOverflow <;> rfl
  · rw [hcount, ← h.closes]
    exact hcloses

/-- What sends nothing changes nothing but the message in progress. -/
theorem Holding.silent (h : Holding s t) {ce : ClientEvent} (he : (Exchange.event ce none).isClose = false) {b : Inbound}
    (hsame : (b.unread, b.overflowed, b.closes) = (s.inbound.unread, s.inbound.overflowed, s.inbound.closes))
    (hwithin : b.unread + b.partialMessage.length ≤ maxUnreadBytes) (hletGo : b.overflowed = true → b.partialMessage = []) :
    Holding ⟨b, s.incoming⟩ (.event ce none :: t) := by
  simp only [Prod.mk.injEq] at hsame
  obtain ⟨hunread, hover, hcloses⟩ := hsame
  exact h.next he rfl (List.append_nil _) (hunread.trans h.unread) hwithin hletGo (congrArg Bool.toNat hover) hcloses

theorem Holding.data (h : Holding s t) (d : DataEvent) :
    Holding (s.onEvent (.data d)).2 (.event (.data d) (s.onEvent (.data d)).1 :: t) := by
  have hwithin := h.within
  have hnot : ∀ {sent}, d.opcode ≠ opcodeClose → (Exchange.event (.data d) sent).isClose = false :=
    fun hd => beq_eq_false_iff_ne.mpr hd
  rcases piece_cases s.inbound d.piece with ⟨hclose, hpiece⟩ | ⟨hover, hd, hlimit, message, binary, hlen, hpiece⟩ |
    ⟨hover, hd, hlimit, frame, binary, hlen, hpiece⟩ | ⟨hover, ⟨hd, hlimit⟩, binary, hpiece⟩ | ⟨hclose, hpiece⟩ <;>
    simp only [Socket.onEvent, hpiece]
  · simp only [Option.toList_none, List.append_nil]
    exact h.silent (hnot hclose) rfl h.within h.letGo
  · simp only [Option.toList_none, List.append_nil]
    refine h.silent (hnot (Piece.not_close hd)) rfl ?_ fun hov => ?_
    · show s.inbound.unread + message.length ≤ _
      omega
    · exact absurd (hover.symm.trans hov) (by simp)
  · refine h.next (hnot (Piece.not_close hd)) rfl ?_ ?_ ?_ (fun _ => rfl) rfl rfl
    · simp [Exchange.frameSent, Exchange.frameRead, Exchange.sent, waiting]
    · simp [waiting, totalLength, h.unread]
    · show s.inbound.unread + frame.len + 0 ≤ _
      omega
  · refine h.next (hnot (Piece.not_close hd)) rfl ?_ ?_ ?_ (fun _ => rfl) ?_ rfl
    · simp [Exchange.frameSent, Exchange.frameRead, Exchange.sent, waiting]
    · simp [waiting, totalLength, h.unread]
    · show s.inbound.unread + 0 ≤ _
      omega
    · rw [hover]
      rfl
  · exact h.close (beq_iff_eq.mpr hclose)

theorem Holding.read (h : Holding s t) : Holding s.recvFrame.2 (.read s.recvFrame.1 :: t) := by
  have hwithin := h.within
  have hunread := h.unread
  have keep : ∀ (rest : List Incoming) (r : Except Error (Option Frame)) (n : Nat),
      waiting s.incoming = (Exchange.read r).frameRead ++ waiting rest → n = totalLength (waiting rest) →
      n ≤ s.inbound.unread → Holding ⟨{ s.inbound with unread := n }, rest⟩ (.read r :: t) := by
    intro rest r n hfifo hn hle
    refine h.next rfl rfl ((List.append_nil _).trans hfifo) hn ?_ h.letGo rfl rfl
    show n + s.inbound.partialMessage.length ≤ _
    omega
  unfold Socket.recvFrame
  rcases hincoming : s.incoming with _ | ⟨frame | n | _, rest⟩ <;> rw [hincoming] at hunread keep <;> simp only
  · have hsame := keep [] (.ok none) _ rfl hunread (Nat.le_refl _)
    rwa [← hincoming] at hsame
  · have hlen : s.inbound.unread = frame.len + totalLength (waiting rest) := by
      simpa [waiting, totalLength] using hunread
    refine keep _ _ _ (by simp [Exchange.frameRead, waiting]) ?_ (Nat.sub_le _ _)
    show s.inbound.unread - frame.len = _
    omega
  · split
    · exact keep _ _ _ (by simp [Exchange.frameRead, waiting]) (by simpa [waiting] using hunread) (Nat.le_refl _)
    · exact keep _ _ _ (by simp [Exchange.frameRead, waiting]) (by simpa [waiting] using hunread) (Nat.le_refl _)
  · exact keep _ _ _ (by simp [Exchange.frameRead, waiting]) (by simpa [waiting] using hunread) (Nat.le_refl _)

theorem Holding.step (h : Holding s t) (hs : Socket.Step s e s') : Holding s' (e :: t) := by
  cases hs with
  | read => exact h.read
  | event ce =>
    cases ce with
    | data d => exact h.data d
    | connected => exact h.silent rfl rfl h.within h.letGo
    | closed => exact h.close rfl
    | other => exact h.silent rfl rfl h.within h.letGo

theorem holding_of_reads (h : Reads Socket.Step .new [] s t) : Holding s t :=
  h.always Holding.start fun hI hs => hI.step hs

/-! ### The limit -/

theorem exists_overflow (h : Holding s t) : (∃ o ∈ t, o.isOverflow = true) ↔ s.inbound.overflowed = true := by
  rw [← List.countP_pos_iff, h.once]
  cases s.inbound.overflowed <;> simp

/-- What a frame or an overflow can come from. -/
theorem Socket.Step.sent_cases (hs : Socket.Step s e s') : e.frameSent = [] ∧ e.isOverflow = false ∨
    (s.inbound.overflowed = false ∧ e.isOverflow = false) ∨
    ∃ d sent, e = .event (.data d) sent ∧ e.frameSent = [] ∧ s.inbound.Exceeds d.piece := by
  cases hs with
  | read => exact Or.inl ⟨rfl, rfl⟩
  | event ce =>
    cases ce with
    | data d =>
      rcases piece_cases s.inbound d.piece with ⟨-, hpiece⟩ | ⟨-, -, -, message, binary, -, hpiece⟩ |
        ⟨hover, -, -, frame, binary, -, hpiece⟩ | ⟨-, hexceeds, binary, hpiece⟩ | ⟨-, hpiece⟩ <;>
        simp only [Socket.onEvent, hpiece]
      · exact Or.inl ⟨rfl, rfl⟩
      · exact Or.inl ⟨rfl, rfl⟩
      · exact Or.inr (Or.inl ⟨hover, rfl⟩)
      · exact Or.inr (Or.inr ⟨d, _, rfl, rfl, hexceeds⟩)
      · exact Or.inl ⟨rfl, rfl⟩
    | connected => exact Or.inl ⟨rfl, rfl⟩
    | closed => exact Or.inl ⟨rfl, rfl⟩
    | other => exact Or.inl ⟨rfl, rfl⟩

/-- What is held of what arrives. -/
structure UnreadBounded (s : Socket) (t : List Exchange) : Prop where
  inOrder : framesRead t <+: framesSent t
  unread : s.inbound.unread + totalLength (framesRead t) = totalLength (framesSent t)
  within : s.inbound.unread + s.inbound.partialMessage.length ≤ maxUnreadBytes
  once : t.countP Exchange.isOverflow ≤ 1
  cause : ∀ e s', Socket.Step s e s' → e.isOverflow = true →
    ∃ d sent, e = .event (.data d) sent ∧ s.inbound.Exceeds d.piece
  silent : Throughout (fun e older => e.frameSent ≠ [] → ∀ o ∈ older, o.isOverflow = false) t
  letGo : (∃ o ∈ t, o.isOverflow = true) → s.inbound.partialMessage = []
  numbers : closesIn t < 2 ^ 32 → closeNumbers t = List.range' 1 (closesIn t)

theorem unread_bounded (h : Reads Socket.Step .new [] s t) : UnreadBounded s t := by
  have hold := holding_of_reads h
  refine ⟨⟨_, hold.fifo.symm⟩, ?_, hold.within, ?_, ?_, ?_, ?_, hold.numbers⟩
  · rw [hold.fifo, totalLength_append, hold.unread, Nat.add_comm]
  · rw [hold.once]
    exact Bool.toNat_le _
  · intro e s' hs he
    rcases hs.sent_cases with ⟨-, hno⟩ | ⟨-, hno⟩ | ⟨d, sent, heq, -, hexceeds⟩
    · rw [he] at hno
      cases hno
    · rw [he] at hno
      cases hno
    · exact ⟨d, sent, heq, hexceeds⟩
  · refine h.throughout throughout_nil fun {k t e k'} hr hs hframe o ho => ?_
    rcases hs.sent_cases with ⟨hno, -⟩ | ⟨hover, -⟩ | ⟨d, sent, -, hno, -⟩
    · exact absurd hno hframe
    · have hnone := (exists_overflow (holding_of_reads hr)).not.mpr (by simp [hover])
      exact Bool.eq_false_iff.mpr fun hov => hnone ⟨o, ho, hov⟩
    · exact absurd hno hframe
  · exact fun hov => hold.letGo ((exists_overflow hold).mp hov)

/-! ### Closes -/

/-- What an event has to do with closes and connections. -/
theorem Socket.Step.close_cases (hs : Socket.Step s e s') :
    (e.close = none ∧ e.isClose = false ∧ e.isConnected = false ∧
      s'.inbound.closesBeforeConnecting = s.inbound.closesBeforeConnecting) ∨
    (e.close = some ((s.inbound.closes + 1) % 2 ^ 32) ∧ e.isClose = true ∧ e.isConnected = false ∧
      s'.inbound.closesBeforeConnecting = s.inbound.closesBeforeConnecting) ∨
    (e.close = none ∧ e.isClose = false ∧ e.isConnected = true ∧
      s'.inbound.closesBeforeConnecting = some (s.inbound.closesBeforeConnecting.getD s.inbound.closes)) := by
  cases hs with
  | read =>
    refine Or.inl ⟨rfl, rfl, rfl, ?_⟩
    unfold Socket.recvFrame
    split
    · rfl
    · rfl
    · rfl
    · split <;> rfl
  | event ce =>
    cases ce with
    | data d =>
      rcases piece_cases s.inbound d.piece with ⟨hclose, hpiece⟩ | ⟨-, hd, -, message, binary, -, hpiece⟩ |
        ⟨-, hd, -, frame, binary, -, hpiece⟩ | ⟨-, ⟨hd, -⟩, binary, hpiece⟩ | ⟨hclose, hpiece⟩ <;>
        simp only [Socket.onEvent, hpiece]
      · exact Or.inl ⟨rfl, beq_eq_false_iff_ne.mpr hclose, rfl, trivial⟩
      · exact Or.inl ⟨rfl, beq_eq_false_iff_ne.mpr (Piece.not_close hd), rfl, trivial⟩
      · exact Or.inl ⟨rfl, beq_eq_false_iff_ne.mpr (Piece.not_close hd), rfl, trivial⟩
      · exact Or.inl ⟨rfl, beq_eq_false_iff_ne.mpr (Piece.not_close hd), rfl, trivial⟩
      · exact Or.inr (Or.inl ⟨rfl, beq_iff_eq.mpr hclose, rfl, rfl⟩)
    | connected => exact Or.inr (Or.inr ⟨rfl, rfl, rfl, rfl⟩)
    | closed => exact Or.inr (Or.inl ⟨rfl, rfl, rfl, rfl⟩)
    | other => exact Or.inl ⟨rfl, rfl, rfl, rfl⟩

/-- A close ends the session if the client had connected before it. -/
def Judged (s : Socket) (t : List Exchange) : Prop :=
  Throughout (fun e older => ∀ n, e.close = some n →
    (s.inbound.endsSession n = true ↔ ∃ o ∈ older, o.isConnected = true)) t

/-- The closes so far are told apart by how many came before the client first connected. -/
structure Judging (s : Socket) (t : List Exchange) : Prop where
  before : ∀ b ∈ s.inbound.closesBeforeConnecting, b ≤ closesIn t
  connected : s.inbound.closesBeforeConnecting.isSome = true ↔ ∃ o ∈ t, o.isConnected = true
  numbers : ∀ e ∈ t, ∀ n ∈ e.close, n ≤ closesIn t
  judged : Judged s t

theorem Judging.step (h : closesIn t < 2 ^ 32 → Judging s t) (hcloses : s.inbound.closes = closesIn t % 2 ^ 32)
    (hs : Socket.Step s e s') (hlt : closesIn (e :: t) < 2 ^ 32) : Judging s' (e :: t) := by
  rcases hs.close_cases with ⟨hclose, hno, hconn, hsame⟩ | ⟨hclose, hyes, hconn, hsame⟩ | ⟨hclose, hno, hconn, hnew⟩
  · have hcount : closesIn (e :: t) = closesIn t := by simp [closesIn, hno]
    obtain ⟨hbefore, hconnected, hnumbers, hjudged⟩ := h (hcount ▸ hlt)
    refine ⟨by rwa [hsame, hcount], by simpa [hsame, hconn] using hconnected, ?_, ?_⟩
    · simpa [hcount, hclose] using hnumbers
    · refine throughout_cons.mpr ⟨fun n hn => by simp [hclose] at hn, ?_⟩
      simpa only [Judged, Inbound.endsSession, hsame] using hjudged
  · have hcount : closesIn (e :: t) = closesIn t + 1 := by simp [closesIn, hyes]
    obtain ⟨hbefore, hconnected, hnumbers, hjudged⟩ := h (by omega)
    have hnumber : (s.inbound.closes + 1) % 2 ^ 32 = closesIn t + 1 := by
      rw [hcloses, Nat.mod_eq_of_lt (show closesIn t < 2 ^ 32 by omega), ← hcount, Nat.mod_eq_of_lt hlt]
    rw [hnumber] at hclose
    refine ⟨fun b hb => ?_, by simpa [hsame, hconn] using hconnected, ?_, ?_⟩
    · rw [hsame] at hb
      exact hcount ▸ (hbefore b hb).trans (Nat.le_succ _)
    · intro e' he' n hn
      rw [hcount]
      rcases List.mem_cons.mp he' with rfl | he'
      · rw [hclose, Option.mem_some_iff] at hn
        exact hn.symm.le
      · exact (hnumbers e' he' n hn).trans (Nat.le_succ _)
    · refine throughout_cons.mpr ⟨fun n hn => ?_, ?_⟩
      · rw [hclose, Option.some_inj] at hn
        rw [← hconnected, Inbound.endsSession, hsame, ← hn]
        cases hb : s.inbound.closesBeforeConnecting with
        | none => simp
        | some b => simpa using Nat.lt_succ_of_le (hbefore b hb)
      · simpa only [Judged, Inbound.endsSession, hsame] using hjudged
  · have hcount : closesIn (e :: t) = closesIn t := by simp [closesIn, hno]
    have hcloses : s.inbound.closes = closesIn t := hcloses.trans (Nat.mod_eq_of_lt (hcount ▸ hlt))
    obtain ⟨hbefore, hconnected, hnumbers, hjudged⟩ := h (hcount ▸ hlt)
    refine ⟨fun b hb => ?_, by simp [hnew, hconn], by simpa [hcount, hclose] using hnumbers, ?_⟩
    · rw [hnew, Option.mem_some_iff] at hb
      rw [hcount, ← hb]
      cases hb' : s.inbound.closesBeforeConnecting with
      | none => exact hcloses.le
      | some b => exact hbefore b hb'
    · refine throughout_cons.mpr ⟨fun n hn => by simp [hclose] at hn, fun e' older hsuffix n hn => ?_⟩
      rw [← hjudged e' older hsuffix n hn]
      cases hb : s.inbound.closesBeforeConnecting with
      | some b => simp [Inbound.endsSession, hnew, hb]
      | none =>
        -- The first connection comes after every close so far.
        have hle := hnumbers e' (hsuffix.subset List.mem_cons_self) n hn
        simp [Inbound.endsSession, hnew, hb, hcloses, hle]

/-- As long as the counter of closes has not come round, a close is judged by whether the client had connected before
    it, at whatever moment. -/
theorem close_judged (h : Reads Socket.Step .new [] s t) (hlt : closesIn t < 2 ^ 32) : Judged s t := by
  have hall := h.always (I := fun s t => Holding s t ∧ (closesIn t < 2 ^ 32 → Judging s t))
    ⟨Holding.start, fun _ => ⟨by simp [Socket.new, Inbound.new], by simp [Socket.new, Inbound.new], by simp,
      throughout_nil⟩⟩ ?_
  · exact (hall.2 hlt).judged
  · rintro s t e s' ⟨hold, hjudging⟩ hs
    exact ⟨hold.step hs, fun hlt => Judging.step hjudging hold.closes hs hlt⟩

/-- A message past the limit, and a close. -/
theorem unread_bounded_overflow :
    let d : DataEvent := ⟨opcodeText, true, 0, 16385, List.replicate 16385 0x61⟩
    UnreadBounded (((Socket.new.onEvent (.data d)).2).onEvent .closed).2
      [.event .closed (((Socket.new.onEvent (.data d)).2).onEvent .closed).1,
          .event (.data d) (Socket.new.onEvent (.data d)).1] :=
  unread_bounded (.step (.step .start (.event (.data ⟨opcodeText, true, 0, 16385, List.replicate 16385 0x61⟩)))
    (.event .closed))

/-- A close of an attempt that failed, a connection, and the close of that. -/
theorem close_judged_twice :
    Judged ⟨⟨[], false, 0, false, 2, some 1⟩, [.closed 1, .closed 2]⟩
      [.event .closed (some (.closed 2)), .event .connected none, .event .closed (some (.closed 1))] :=
  close_judged (.step (.step (.step .start (.event .closed)) (.event .connected)) (.event .closed)) (by decide)

/-- A client that has connected, and reports so many closes. -/
def closesAfterConnecting : Nat → List Exchange
  | 0 => [.event .connected none]
  | n + 1 => .event .closed (some (.closed ((n + 1) % 2 ^ 32))) :: closesAfterConnecting n

theorem reads_closesAfterConnecting (n : Nat) :
    ∃ incoming, Reads Socket.Step .new [] ⟨⟨[], false, 0, false, n % 2 ^ 32, some 0⟩, incoming⟩
      (closesAfterConnecting n) := by
  induction n with
  | zero => exact ⟨_, .step .start (.event .connected)⟩
  | succ n ih =>
    obtain ⟨incoming, hreads⟩ := ih
    have hnext : (n % 2 ^ 32 + 1) % 2 ^ 32 = (n + 1) % 2 ^ 32 := by rw [Nat.add_mod, Nat.mod_mod, ← Nat.add_mod]
    have hstep := Reads.step hreads (.event .closed)
    simp only [Socket.onEvent, Inbound.closed, hnext] at hstep
    exact ⟨_, hstep⟩

/-- The close with which the counter comes round is passed over. -/
theorem close_passed_over : ∃ s, Reads Socket.Step .new [] s (closesAfterConnecting (2 ^ 32)) ∧
    ¬Judged s (closesAfterConnecting (2 ^ 32)) := by
  obtain ⟨incoming, hreads⟩ := reads_closesAfterConnecting (2 ^ 32)
  refine ⟨_, hreads, fun hjudged => ?_⟩
  have hlast : closesAfterConnecting (2 ^ 32) =
      .event .closed (some (.closed 0)) :: closesAfterConnecting (2 ^ 32 - 1) := rfl
  have hconnected : ∀ n, ∃ o ∈ closesAfterConnecting n, o.isConnected = true := by
    intro n
    induction n with
    | zero => exact ⟨_, List.mem_cons_self, rfl⟩
    | succ n ih =>
      obtain ⟨o, ho, hconn⟩ := ih
      exact ⟨o, List.mem_cons_of_mem _ ho, hconn⟩
  rw [hlast] at hjudged
  have hends := ((throughout_cons.mp hjudged).1 0 rfl).mpr (hconnected _)
  exact absurd hends (by simp [Inbound.endsSession])

end

end NervesHub
