import NervesHubLink.Lib.Transducer
import NervesHubLink.Theorems.Truncation

/-! What is typed, and what the terminal shows of it. -/

namespace NervesHub
open Transducer

/-! ### The reader, keystroke by keystroke -/

namespace LineReader

/-- What the reader answers to a chunk: the echo, and the lines. -/
def gather (answers : List (List Char × Option (List Char))) : List Char × List (List Char) :=
  (answers.flatMap Prod.fst, answers.flatMap fun a => a.2.toList)

theorem gather_append (a b : List (List Char × Option (List Char))) :
    gather (a ++ b) = ((gather a).1 ++ (gather b).1, (gather a).2 ++ (gather b).2) := by
  simp [gather]

theorem feedChars_eq (r : LineReader) (typed : List Char) :
    r.feedChars typed = (after step r typed, gather (answers step r typed)) := by
  induction typed generalizing r with
  | nil => rfl
  | cons c rest ih =>
    rw [feedChars]
    simp only [ih]
    simp [gather]

theorem feed_fst (r : LineReader) (data : String) :
    (r.feed data).1 = (String.ofList (gather (answers step r data.toList)).1,
      (gather (answers step r data.toList)).2.map String.ofList) := by
  simp only [feed, feedChars_eq]

theorem feed_snd (r : LineReader) (data : String) : (r.feed data).2 = after step r data.toList := by
  simp only [feed, feedChars_eq]

/-- What comes back for each chunk. -/
def feeds : LineReader → List String → List (String × List String)
  | _, [] => []
  | r, data :: rest => (r.feed data).1 :: feeds (r.feed data).2 rest

/-- The reader after the chunks. -/
def fed : LineReader → List String → LineReader
  | r, [] => r
  | r, data :: rest => fed (r.feed data).2 rest

theorem fed_eq (r : LineReader) (chunks : List String) : r.fed chunks = after step r (chunks.flatMap String.toList) := by
  induction chunks generalizing r with
  | nil => rfl
  | cons data rest ih => rw [fed, ih, feed_snd, List.flatMap_cons, after_append]

theorem feeds_echo (r : LineReader) (chunks : List String) :
    (r.feeds chunks).flatMap (·.1.toList) = (gather (answers step r (chunks.flatMap String.toList))).1 := by
  induction chunks generalizing r with
  | nil => rfl
  | cons data rest ih =>
    rw [feeds, List.flatMap_cons, List.flatMap_cons, ih, answers_append, gather_append, feed_fst, feed_snd]
    simp

theorem feeds_lines (r : LineReader) (chunks : List String) :
    (r.feeds chunks).flatMap Prod.snd =
      (gather (answers step r (chunks.flatMap String.toList))).2.map String.ofList := by
  induction chunks generalizing r with
  | nil => rfl
  | cons data rest ih =>
    rw [feeds, List.flatMap_cons, List.flatMap_cons, ih, answers_append, gather_append, feed_fst, feed_snd, List.map_append]

/-- What a keystroke does: nothing to see, an Enter, an erasure, or one more character. -/
theorem step_cases (r : LineReader) (c : Char) :
    (∃ r', r.step c = (r', [], none) ∧ r'.line = r.line) ∨
    (∃ r', r.step c = (r', ['\r', '\n'], some r.line) ∧ r'.line = []) ∨
    (∃ r', r.step c = (r', ['\x08', ' ', '\x08'], none) ∧ r'.line = r.line.dropLast) ∨
    (isControl c = false ∧ byteLength r.line < 256 ∧ ∃ r', r.step c = (r', [c], none) ∧ r'.line = r.line ++ [c]) := by
  unfold step
  cases hescape : r.escape with
  | started => exact .inl ⟨_, rfl, rfl⟩
  | csi =>
    refine .inl ⟨_, rfl, ?_⟩
    split_ifs <;> rfl
  | no =>
    dsimp only
    split_ifs with hesc hpair henter herase hempty hcontrol hroom
    · exact .inl ⟨_, rfl, rfl⟩
    · exact .inl ⟨_, rfl, rfl⟩
    · exact .inr (.inl ⟨_, rfl, rfl⟩)
    · exact .inl ⟨_, rfl, rfl⟩
    · exact .inr (.inr (.inl ⟨_, rfl, rfl⟩))
    · exact .inl ⟨_, rfl, rfl⟩
    · exact .inr (.inr (.inr ⟨by simpa using hcontrol, hroom, _, rfl, rfl⟩))
    · exact .inl ⟨_, rfl, rfl⟩

/-! ### Lines -/

/-- No control character, and no more than 255 bytes and one character. -/
def Plain (line : List Char) : Prop := (∀ c ∈ line, isControl c = false) ∧ byteLength line ≤ 259

theorem plain_nil : Plain [] := ⟨fun _ h => absurd h List.not_mem_nil, Nat.zero_le _⟩

theorem Plain.dropLast {line : List Char} (h : Plain line) : Plain line.dropLast := by
  obtain ⟨hcontrol, hlength⟩ := h
  refine ⟨fun c hc => hcontrol c (List.dropLast_subset _ hc), ?_⟩
  rcases List.eq_nil_or_concat line with rfl | ⟨init, c, rfl⟩
  · exact hlength
  · rw [List.concat_eq_append, byteLength_append] at hlength
    rw [List.concat_eq_append, List.dropLast_concat]
    omega

theorem Plain.push {line : List Char} {c : Char} (h : Plain line) (hc : isControl c = false)
    (hroom : byteLength line < 256) : Plain (line ++ [c]) := by
  refine ⟨fun d hd => ?_, ?_⟩
  · rcases List.mem_append.mp hd with hd | hd
    · exact h.1 d hd
    · obtain rfl := List.mem_singleton.mp hd
      exact hc
  · have hsize := Char.utf8Size_le_four c
    rw [byteLength_append, byteLength_cons]
    have hnil : byteLength [] = 0 := rfl
    omega

theorem step_plain {r : LineReader} (h : Plain r.line) (c : Char) :
    Plain (r.step c).1.line ∧ ∀ line ∈ (r.step c).2.2, Plain line := by
  rcases step_cases r c with ⟨r', heq, hline⟩ | ⟨r', heq, hline⟩ | ⟨r', heq, hline⟩ | ⟨hc, hroom, r', heq, hline⟩ <;>
    rw [heq, hline]
  · exact ⟨h, fun _ hnone => absurd hnone (by simp)⟩
  · refine ⟨plain_nil, fun line hsome => ?_⟩
    obtain rfl := Option.some.inj hsome
    exact h
  · exact ⟨h.dropLast, fun _ hnone => absurd hnone (by simp)⟩
  · exact ⟨h.push hc hroom, fun _ hnone => absurd hnone (by simp)⟩

theorem after_plain {r : LineReader} (h : Plain r.line) (typed : List Char) : Plain (after step r typed).line :=
  after_invariant (I := fun r : LineReader => Plain r.line) (fun _ c hr => (step_plain hr c).1) h typed

theorem lines_plain {r : LineReader} (h : Plain r.line) (typed : List Char) :
    ∀ line ∈ (gather (answers step r typed)).2, Plain line := by
  induction typed generalizing r with
  | nil =>
    intro line hline
    exact absurd hline List.not_mem_nil
  | cons c rest ih =>
    obtain ⟨hnext, hdone⟩ := step_plain h c
    intro line hline
    rcases List.mem_append.mp hline with hline | hline
    · exact hdone line (Option.mem_toList.mp hline)
    · exact ih hnext line hline

end LineReader

/-! ### The terminal -/

/-- A terminal: what stood left of the cursor in each row that was ended, the row of the cursor, and the cursor. -/
structure Terminal where
  rows : List (List Char)
  cells : List Char
  column : Nat
  /-- The cursor is in the row, or right behind it. -/
  within : column ≤ cells.length

namespace Terminal

def blank : Terminal := ⟨[], [], 0, Nat.le_refl _⟩

def left (t : Terminal) : List Char := t.cells.take t.column

def put (t : Terminal) (c : Char) : Terminal where
  rows := t.rows
  cells := t.left ++ c :: t.cells.drop (t.column + 1)
  column := t.column + 1
  within := by
    have h := t.within
    simp only [left, List.length_append, List.length_take, List.length_cons]
    omega

def back (t : Terminal) : Terminal := ⟨t.rows, t.cells, t.column - 1, Nat.le_trans (Nat.sub_le _ _) t.within⟩

def newRow (t : Terminal) : Terminal := ⟨t.rows ++ [t.left], [], 0, Nat.le_refl _⟩

/-- What the terminal shows of the characters sent to it. `none` is for a character it is not to be sent. -/
def replay : Terminal → List Char → Option Terminal
  | t, [] => some t
  | t, '\r' :: '\n' :: rest => t.newRow.replay rest
  | t, c :: rest => if c = '\x08' then t.back.replay rest else if isControl c then none else (t.put c).replay rest

theorem left_put (t : Terminal) (c : Char) : (t.put c).left = t.left ++ [c] := by
  have hlength : t.left.length = t.column := List.length_take_of_le t.within
  have hcolumn : (t.put c).column = t.left.length + 1 := congrArg Nat.succ hlength.symm
  have htake : (t.left ++ c :: t.cells.drop (t.column + 1)).take (t.left.length + 1) = t.left ++ [c] := by
    rw [List.append_cons, List.take_left' (by simp)]
  rw [left, hcolumn]
  exact htake

theorem left_back (t : Terminal) : t.back.left = t.left.dropLast := by
  have h := t.within
  simp only [left, back]
  rw [List.dropLast_eq_take, List.take_take, List.length_take]
  congr 1
  omega

theorem replay_enter (t : Terminal) (rest : List Char) : t.replay ('\r' :: '\n' :: rest) = t.newRow.replay rest := rfl

theorem replay_put (t : Terminal) {c : Char} (h : isControl c = false) (rest : List Char) :
    t.replay (c :: rest) = (t.put c).replay rest := by
  have hback : c ≠ '\x08' := by
    rintro rfl
    exact absurd h (by decide)
  have hreturn : c ≠ '\r' := by
    rintro rfl
    exact absurd h (by decide)
  rw [replay, if_neg hback, h, if_neg Bool.false_ne_true]
  exact fun tail hc _ => hreturn hc

theorem replay_back (t : Terminal) (rest : List Char) : t.replay ('\x08' :: rest) = t.back.replay rest := by
  rw [replay, if_pos rfl]
  exact fun tail hc _ => absurd hc (by decide)

/-! ### What the echo shows -/

/-- If the terminal shows the line being typed, it does so after the next keystroke, and every line that was
completed has its row. -/
theorem step_shows {r : LineReader} {t : Terminal} (h : t.left = r.line) (c : Char) :
    ∃ t' : Terminal, (∀ rest, t.replay ((r.step c).2.1 ++ rest) = t'.replay rest) ∧
      t'.rows = t.rows ++ (r.step c).2.2.toList ∧ t'.left = (r.step c).1.line := by
  rcases r.step_cases c with ⟨r', heq, hline⟩ | ⟨r', heq, hline⟩ | ⟨r', heq, hline⟩ | ⟨hc, -, r', heq, hline⟩ <;>
    rw [heq, hline, ← h]
  · exact ⟨t, fun _ => rfl, (List.append_nil _).symm, rfl⟩
  · exact ⟨t.newRow, fun rest => t.replay_enter rest, rfl, rfl⟩
  · refine ⟨(t.back.put ' ').back, fun rest => ?_, (List.append_nil _).symm, ?_⟩
    · have hspace : isControl ' ' = false := by decide
      rw [List.cons_append, replay_back, List.cons_append, replay_put _ hspace, List.cons_append, replay_back]
      rfl
    · rw [left_back, left_put, left_back, List.dropLast_concat]
  · exact ⟨t.put c, fun rest => t.replay_put hc rest, (List.append_nil _).symm, left_put t c⟩

theorem answers_show {r : LineReader} {t : Terminal} (h : t.left = r.line) (typed : List Char) :
    ∃ t' : Terminal, t.replay (LineReader.gather (answers LineReader.step r typed)).1 = some t' ∧
      t'.rows = t.rows ++ (LineReader.gather (answers LineReader.step r typed)).2 ∧
      t'.left = (after LineReader.step r typed).line := by
  induction typed generalizing r t with
  | nil => exact ⟨t, rfl, (List.append_nil _).symm, h⟩
  | cons c rest ih =>
    obtain ⟨t₁, hreplay₁, hrows₁, hleft₁⟩ := step_shows h c
    obtain ⟨t₂, hreplay₂, hrows₂, hleft₂⟩ := ih hleft₁
    refine ⟨t₂, ?_, ?_, hleft₂⟩
    · exact (hreplay₁ _).trans hreplay₂
    · rw [hrows₂, hrows₁, List.append_assoc]
      rfl

end Terminal

/-- The terminal shows what was understood: a row for each line, and the line being typed left of the cursor. -/
theorem echo_shows_lines (chunks : List String) :
    ∃ t : Terminal, Terminal.blank.replay ((LineReader.new.feeds chunks).flatMap (·.1.toList)) = some t ∧
      t.rows.map String.ofList = (LineReader.new.feeds chunks).flatMap Prod.snd ∧
      t.left = (LineReader.new.fed chunks).line ∧
      (∀ line ∈ t.rows, LineReader.Plain line) ∧ LineReader.Plain t.left := by
  obtain ⟨t, hreplay, hrows, hleft⟩ := Terminal.answers_show (r := .new) (t := .blank) rfl (chunks.flatMap String.toList)
  have hlines : t.rows = (LineReader.gather (answers LineReader.step .new (chunks.flatMap String.toList))).2 := hrows
  refine ⟨t, ?_, ?_, ?_, ?_, ?_⟩
  · rw [LineReader.feeds_echo, hreplay]
  · rw [LineReader.feeds_lines, hlines]
  · rw [LineReader.fed_eq, hleft]
  · rw [hlines]
    exact LineReader.lines_plain LineReader.plain_nil _
  · rw [hleft]
    exact LineReader.after_plain LineReader.plain_nil _

end NervesHub
