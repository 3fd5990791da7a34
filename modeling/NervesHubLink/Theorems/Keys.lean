import NervesHubLink.Theorems.Terminal

/-! Key sequences between what is typed. -/

namespace NervesHub
open Transducer

/-! ### What is typed -/

/-- What a terminal sends for a key that has no character. -/
inductive KeySequence where
  /-- `ESC [`, any parameters, and the character that ends it. -/
  | csi (parameters : List {c : Char // 0x20 ≤ c.toNat ∧ c.toNat ≤ 0x3F})
    (final : {c : Char // 0x40 ≤ c.toNat ∧ c.toNat ≤ 0x7E})
  /-- `ESC O`, and the character that ends it. -/
  | ss3 (final : {c : Char // 0x40 ≤ c.toNat ∧ c.toNat ≤ 0x7E})

def KeySequence.chars : KeySequence → List Char
  | .csi parameters final => '\x1b' :: '[' :: (parameters.map Subtype.val ++ [final.val])
  | .ss3 final => ['\x1b', 'O', final.val]

inductive Stroke where
  | typed (c : Char)
  | key (k : KeySequence)

/-- A character that was sent, and whether a key sequence was inserted with it. -/
structure SentChar where
  char : Char
  inserted : Bool

def Stroke.sent : Stroke → List SentChar
  | .typed c => [⟨c, false⟩]
  | .key k => k.chars.map (⟨·, true⟩)

def Stroke.typed? : Stroke → Option Char
  | .typed c => some c
  | .key _ => none

def allOf (chunk : List SentChar) : String := String.ofList (chunk.map SentChar.char)

/-- The characters without those inserted. -/
def typedOf (chunk : List SentChar) : String := String.ofList ((chunk.filter fun m => !m.inserted).map SentChar.char)

/-- However it is cut, each chunk is answered as if nothing had been inserted. -/
def KeysIgnored (strokes : List Stroke) : Prop :=
  ∀ chunks : List (List SentChar), chunks.flatten = strokes.flatMap Stroke.sent →
    LineReader.new.feeds (chunks.map allOf) = LineReader.new.feeds (chunks.map typedOf)

/-! ### Where a key sequence may be -/

/-- A place in what is typed. -/
inductive Place where
  | outside
  /-- Right after the carriage return of an Enter. -/
  | entered
  /-- Right after an `ESC`. -/
  | escaped
  | csi
  /-- Right after `ESC O`. -/
  | ss3

namespace Place

def next : Place → Char → Place
  | .escaped, c => if c = '[' then .csi else if c = 'O' then .ss3 else .outside
  | .csi, c => if 0x40 ≤ c.toNat ∧ c.toNat ≤ 0x7E then .outside else .csi
  | _, c => if c = '\x1b' then .escaped else if c = '\r' then .entered else .outside

/-- A key sequence may come here if `rest` is what is typed next: inside no other one, and not between a
carriage return and the line feed of the same Enter. -/
def Free (p : Place) (rest : List Char) : Prop :=
  match p with
  | .outside => True
  | .entered => rest.head? ≠ some '\n'
  | _ => False

end Place

/-- Every key sequence is where one may be. -/
def WellPlaced : Place → List Stroke → Prop
  | _, [] => True
  | p, .typed c :: rest => WellPlaced (p.next c) rest
  | p, .key _ :: rest => p.Free (rest.filterMap Stroke.typed?) ∧ WellPlaced p rest

/-- `ESC O` and its last character come only where the line typed so far takes no more. -/
def OnFullLines (r : LineReader) (strokes : List Stroke) : Prop :=
  ∀ before final after, strokes = before ++ .key (.ss3 final) :: after →
    256 ≤ byteLength (r.feed (String.ofList (before.filterMap Stroke.typed?))).2.line

/-! ### One key sequence -/

namespace LineReader

/-- The answer to a keystroke that shows nothing. -/
def silent : List Char × Option (List Char) := ([], none)

theorem step_esc {r : LineReader} (h : r.escape = .no) :
    r.step '\x1b' = ({ r with pendingNewline := false, escape := .started }, silent) := by
  unfold step
  rw [h]
  rfl

theorem step_bracket {r : LineReader} (h : r.escape = .started) : r.step '[' = ({ r with escape := .csi }, silent) := by
  unfold step
  rw [h]
  rfl

theorem step_letterO {r : LineReader} (h : r.escape = .started) : r.step 'O' = ({ r with escape := .no }, silent) := by
  unfold step
  rw [h]
  rfl

theorem step_parameter {r : LineReader} (h : r.escape = .csi) {c : Char} (hc : c.toNat < 0x40) :
    r.step c = (r, silent) := by
  unfold step
  rw [h]
  exact congrArg (·, silent) (if_neg (by omega))

theorem step_final {r : LineReader} (h : r.escape = .csi) {c : Char} (hc : 0x40 ≤ c.toNat ∧ c.toNat ≤ 0x7E) :
    r.step c = ({ r with escape := .no }, silent) := by
  unfold step
  rw [h]
  exact congrArg (·, silent) (if_pos hc)

/-- A printable character, outside any sequence. -/
theorem step_printable {r : LineReader} (h : r.escape = .no) {c : Char} (hc : 0x40 ≤ c.toNat ∧ c.toNat ≤ 0x7E) :
    r.step c = if byteLength r.line < 256
      then ({ r with pendingNewline := false, line := r.line ++ [c] }, ([c], none))
      else ({ r with pendingNewline := false }, silent) := by
  have hne : ∀ d : Char, d.toNat < 0x40 ∨ 0x7E < d.toNat → c ≠ d := by
    rintro d hd rfl
    omega
  have hcontrol : isControl c = false := by
    simp only [isControl, Bool.or_eq_false_iff, decide_eq_false_iff_not]
    omega
  unfold step
  rw [h]
  simp only [hne '\x1b' (by decide), hne '\n' (by decide), hne '\r' (by decide), hne '\x08' (by decide),
    hne '\x7f' (by decide), hcontrol, if_false, decide_false, Bool.false_and, Bool.or_false, Bool.false_eq_true]
  rfl

theorem answers_csi {r : LineReader} (h : r.escape = .csi) (parameters : List {c : Char // 0x20 ≤ c.toNat ∧ c.toNat ≤ 0x3F})
    (final : {c : Char // 0x40 ≤ c.toNat ∧ c.toNat ≤ 0x7E}) :
    (∀ a ∈ answers step r (parameters.map Subtype.val ++ [final.val]), a = silent) ∧
      after step r (parameters.map Subtype.val ++ [final.val]) = { r with escape := .no } := by
  induction parameters with
  | nil =>
    rw [List.map_nil, List.nil_append, answers_cons, after_cons, step_final h final.property]
    exact ⟨by simp, rfl⟩
  | cons c rest ih =>
    obtain ⟨hanswers, hafter⟩ := ih
    have hparameter : r.step c.val = (r, silent) := step_parameter h (by have := c.property; omega)
    rw [List.map_cons, List.cons_append, answers_cons, after_cons, hparameter]
    refine ⟨fun a ha => ?_, hafter⟩
    rcases List.mem_cons.mp ha with rfl | ha
    · rfl
    · exact hanswers a ha

/-- The last character of `ESC O x` is read like any other. -/
theorem answers_ss3 {r : LineReader} (h : r.escape = .no) (final : {c : Char // 0x40 ≤ c.toNat ∧ c.toNat ≤ 0x7E}) :
    answers step r (KeySequence.ss3 final).chars =
        [silent, silent, (step { r with pendingNewline := false } final.val).2] ∧
      after step r (KeySequence.ss3 final).chars = (step { r with pendingNewline := false } final.val).1 := by
  obtain ⟨line, escape, pending⟩ := r
  cases h
  have hesc : step ⟨line, .no, pending⟩ '\x1b' = (⟨line, .started, false⟩, silent) := step_esc rfl
  have hO : step ⟨line, .started, false⟩ 'O' = (⟨line, .no, false⟩, silent) := step_letterO rfl
  simp only [KeySequence.chars, answers_cons, answers_nil, after_cons, after_nil, hesc, hO, and_self]

/-- A key sequence shows nothing, and only makes the reader forget a carriage return; but the last character of
`ESC O x` is typed, if there is room for it. -/
theorem answers_key {r : LineReader} (h : r.escape = .no) (k : KeySequence)
    (hfull : ∀ final, k = .ss3 final → 256 ≤ byteLength r.line) :
    (∀ a ∈ answers step r k.chars, a = silent) ∧ after step r k.chars = { r with pendingNewline := false } := by
  cases k with
  | csi parameters final =>
    obtain ⟨line, escape, pending⟩ := r
    cases h
    obtain ⟨hanswers, hafter⟩ := answers_csi (r := ⟨line, .csi, false⟩) rfl parameters final
    rw [KeySequence.chars, answers_cons, answers_cons, after_cons, after_cons, step_esc rfl, step_bracket rfl]
    refine ⟨fun a ha => ?_, hafter⟩
    rcases List.mem_cons.mp ha with rfl | ha
    · rfl
    · rcases List.mem_cons.mp ha with rfl | ha
      · rfl
      · exact hanswers a ha
  | ss3 final =>
    obtain ⟨hanswers, hafter⟩ := answers_ss3 h final
    have hdropped : step { r with pendingNewline := false } final.val = ({ r with pendingNewline := false }, silent) := by
      rw [step_printable (r := { r with pendingNewline := false }) h final.property]
      exact if_neg (Nat.not_lt.mpr (hfull final rfl))
    rw [hanswers, hafter, hdropped]
    exact ⟨by simp, rfl⟩

theorem answers_key_typed {r : LineReader} (h : r.escape = .no) (final : {c : Char // 0x40 ≤ c.toNat ∧ c.toNat ≤ 0x7E})
    (hroom : byteLength r.line < 256) : ([final.val], none) ∈ answers step r (KeySequence.ss3 final).chars := by
  have htyped : step { r with pendingNewline := false } final.val =
      ({ r with pendingNewline := false, line := r.line ++ [final.val] }, ([final.val], none)) :=
    (step_printable (r := { r with pendingNewline := false }) h final.property).trans (if_pos hroom)
  rw [(answers_ss3 h final).1, htyped]
  simp

/-! ### The reader with the key sequences, and without -/

def readAll (r : LineReader) (m : SentChar) : LineReader × List Char × Option (List Char) := r.step m.char

/-- The reader fed only what was typed. -/
def readTyped (r : LineReader) (m : SentChar) : LineReader × List Char × Option (List Char) :=
  if m.inserted then (r, silent) else r.step m.char

theorem answers_readAll (r : LineReader) (chunk : List SentChar) :
    answers readAll r chunk = answers step r (chunk.map SentChar.char) ∧
      after readAll r chunk = after step r (chunk.map SentChar.char) := by
  induction chunk generalizing r with
  | nil => exact ⟨rfl, rfl⟩
  | cons m rest ih =>
    obtain ⟨hanswers, hafter⟩ := ih (r.step m.char).1
    exact ⟨congrArg _ hanswers, hafter⟩

theorem gather_readTyped (r : LineReader) (chunk : List SentChar) :
    gather (answers readTyped r chunk) = gather (answers step r ((chunk.filter fun m => !m.inserted).map SentChar.char)) ∧
      after readTyped r chunk = after step r ((chunk.filter fun m => !m.inserted).map SentChar.char) := by
  induction chunk generalizing r with
  | nil => exact ⟨rfl, rfl⟩
  | cons m rest ih =>
    obtain ⟨c, inserted⟩ := m
    cases inserted with
    | true =>
      obtain ⟨hgather, hafter⟩ := ih r
      exact ⟨hgather, hafter⟩
    | false =>
      obtain ⟨hgather, hafter⟩ := ih (r.step c).1
      refine ⟨?_, hafter⟩
      have hcons : ∀ (a : List Char × Option (List Char)) as, gather (a :: as) =
          (a.1 ++ (gather as).1, a.2.toList ++ (gather as).2) := fun _ _ => rfl
      have hread : r.readTyped ⟨c, false⟩ = r.step c := rfl
      rw [answers_cons, hcons, hread, hgather]
      rfl

/-- What comes back for a chunk that is answered so. -/
def told (answers : List (List Char × Option (List Char))) : String × List String :=
  (String.ofList (gather answers).1, (gather answers).2.map String.ofList)

theorem feeds_allOf (r : LineReader) (chunks : List (List SentChar)) :
    r.feeds (chunks.map allOf) = (chunked readAll r chunks).map told := by
  induction chunks generalizing r with
  | nil => rfl
  | cons chunk rest ih =>
    obtain ⟨hanswers, hafter⟩ := answers_readAll r chunk
    rw [List.map_cons, feeds, feed_fst, feed_snd, ih, chunked, List.map_cons, hafter, hanswers, allOf, String.toList_ofList]
    rfl

theorem feeds_typedOf (r : LineReader) (chunks : List (List SentChar)) :
    r.feeds (chunks.map typedOf) = (chunked readTyped r chunks).map told := by
  induction chunks generalizing r with
  | nil => rfl
  | cons chunk rest ih =>
    obtain ⟨hgather, hafter⟩ := gather_readTyped r chunk
    rw [List.map_cons, feeds, feed_fst, feed_snd, ih, chunked, List.map_cons, hafter, told, hgather, typedOf,
      String.toList_ofList]

theorem told_singleton_injective : Function.Injective fun a => told [a] := by
  rintro ⟨echo, line⟩ ⟨echo', line'⟩ h
  obtain ⟨hecho, hline⟩ := Prod.mk.inj h
  have hecho' : echo = echo' := by simpa [gather] using String.ofList_injective hecho
  have hline' : line = line' := by
    cases line <;> cases line' <;> simp_all [gather, String.ofList_inj]
  rw [hecho', hline']

end LineReader

theorem keysIgnored_iff_answers (strokes : List Stroke) :
    KeysIgnored strokes ↔ answers LineReader.readAll .new (strokes.flatMap Stroke.sent) =
      answers LineReader.readTyped .new (strokes.flatMap Stroke.sent) := by
  constructor
  · intro h
    have hsingle := h ((strokes.flatMap Stroke.sent).map ([·])) (by simp [← List.flatMap_def])
    rw [LineReader.feeds_allOf, LineReader.feeds_typedOf, chunked_singletons, chunked_singletons, List.map_map,
      List.map_map] at hsingle
    exact LineReader.told_singleton_injective.list_map hsingle
  · intro h chunks hchunks
    rw [LineReader.feeds_allOf, LineReader.feeds_typedOf, (answers_eq_iff _).mp h chunks hchunks]

/-! ### A whole text -/

namespace Place

def escape : Place → Escape
  | .escaped => .started
  | .csi => .csi
  | _ => .no

/-- The reader is at a place. -/
structure Of (p : Place) (r : LineReader) : Prop where
  escape : r.escape = p.escape
  pending : r.pendingNewline = true ↔ p = .entered

theorem step_open {r : LineReader} (h : r.escape = .no) (c : Char) :
    ((r.step c).1.escape = if c = '\x1b' then .started else .no) ∧ ((r.step c).1.pendingNewline = true ↔ c = '\r') := by
  unfold LineReader.step
  rw [h]
  dsimp only
  split_ifs with hesc hpair henter herase hempty hcontrol hroom <;> simp_all

theorem Of.step {p : Place} {r : LineReader} (h : p.Of r) (c : Char) : (p.next c).Of (r.step c).1 := by
  obtain ⟨hescape, hpending⟩ := h
  have hopen : p.escape = .no → p.next c = (if c = '\x1b' then .escaped else if c = '\r' then .entered else .outside) →
      (p.next c).Of (r.step c).1 := by
    intro hno hnext
    obtain ⟨hesc, hreturn⟩ := step_open (hescape.trans hno) c
    rw [hnext]
    refine ⟨hesc.trans ?_, hreturn.trans ?_⟩
    · split_ifs <;> rfl
    · split_ifs <;> simp_all
  cases p with
  | outside => exact hopen rfl rfl
  | entered => exact hopen rfl rfl
  | ss3 => exact hopen rfl rfl
  | escaped =>
    have hstep : (r.step c).1 = { r with escape := if c = '[' then .csi else .no } := by
      unfold LineReader.step
      rw [hescape]
      rfl
    have hquiet : r.pendingNewline = false := by simpa using hpending
    rw [hstep, next]
    split_ifs <;> exact ⟨rfl, by simp [hquiet]⟩
  | csi =>
    have hstep : (r.step c).1 = if 0x40 ≤ c.toNat ∧ c.toNat ≤ 0x7E then { r with escape := .no } else r := by
      unfold LineReader.step
      rw [hescape]
      rfl
    have hquiet : r.pendingNewline = false := by simpa using hpending
    rw [hstep, next]
    split_ifs
    · exact ⟨rfl, by simp [hquiet]⟩
    · exact ⟨hescape, by simp [hquiet]⟩

/-- A reader that was sent key sequences beside one that was not: it may have forgotten a carriage return, if no
line feed comes next. -/
inductive Beside (p : Place) (rest : List Char) : LineReader → LineReader → Prop
  | same (r : LineReader) : Beside p rest r r
  | forgot (r : LineReader) : p = .entered → rest.head? ≠ some '\n' → Beside p rest { r with pendingNewline := false } r

theorem Beside.step {p : Place} {c : Char} {rest : List Char} {r s : LineReader} (hs : p.Of s)
    (h : Beside p (c :: rest) r s) : r.step c = s.step c := by
  cases h with
  | same => rfl
  | forgot _ hp hnext =>
    obtain ⟨line, escape, pending⟩ := s
    have hno : escape = .no := hs.escape.trans (by rw [hp]; rfl)
    have hfeed : c ≠ '\n' := fun hc => hnext (congrArg some hc)
    subst hno
    simp only [LineReader.step, hfeed, decide_false, Bool.false_and]

/-- After a key sequence where one may be. -/
theorem Beside.key {p : Place} {rest : List Char} {r s : LineReader} (hs : p.Of s) (h : Beside p rest r s)
    (hfree : p.Free rest) : Beside p rest { r with pendingNewline := false } s ∧ r.escape = .no ∧ r.line = s.line := by
  cases p with
  | outside =>
    cases h with
    | forgot _ hp _ => cases hp
    | same =>
      have hquiet : r.pendingNewline = false := by simpa using hs.pending
      have hsame : { r with pendingNewline := false } = r := by
        rw [← hquiet]
      exact ⟨hsame.symm ▸ .same r, hs.escape, rfl⟩
  | entered =>
    cases h with
    | forgot _ _ hnext => exact ⟨.forgot s rfl hnext, hs.escape, rfl⟩
    | same => exact ⟨.forgot r rfl hfree, hs.escape, rfl⟩
  | escaped => exact hfree.elim
  | csi => exact hfree.elim
  | ss3 => exact hfree.elim

end Place

theorem onFullLines_nil (r : LineReader) : OnFullLines r [] := fun before _ _ h => by
  simp at h

theorem onFullLines_typed {r : LineReader} {c : Char} {rest : List Stroke} :
    OnFullLines r (.typed c :: rest) ↔ OnFullLines (r.step c).1 rest := by
  constructor
  · rintro h before final after rfl
    have hline := h (.typed c :: before) final after rfl
    rw [LineReader.feed_snd] at hline ⊢
    simpa [Stroke.typed?] using hline
  · intro h before final after heq
    cases before with
    | nil =>
      obtain ⟨hne, -⟩ := List.cons.inj heq
      cases hne
    | cons stroke before =>
      obtain ⟨rfl, hrest⟩ := List.cons.inj heq
      have hline := h before final after hrest
      rw [LineReader.feed_snd] at hline ⊢
      simpa [Stroke.typed?] using hline

theorem onFullLines_key {r : LineReader} {k : KeySequence} {rest : List Stroke} :
    OnFullLines r (.key k :: rest) ↔ (∀ final, k = .ss3 final → 256 ≤ byteLength r.line) ∧ OnFullLines r rest := by
  constructor
  · intro h
    constructor
    · rintro final rfl
      have hline := h [] final rest rfl
      rw [LineReader.feed_snd] at hline
      simpa using hline
    · rintro before final after rfl
      exact h (.key k :: before) final after rfl
  · rintro ⟨hfirst, hrest⟩ before final after heq
    cases before with
    | nil =>
      obtain ⟨hkey, -⟩ := List.cons.inj heq
      rw [LineReader.feed_snd]
      simpa using hfirst final (Stroke.key.inj hkey)
    | cons stroke before =>
      obtain ⟨rfl, htail⟩ := List.cons.inj heq
      exact hrest before final after htail

/-- While a key sequence comes in, the reader that is not sent it rests. -/
theorem answers_inserted (r : LineReader) (chars : List Char) :
    (∀ a ∈ answers LineReader.readTyped r (chars.map (⟨·, true⟩)), a = LineReader.silent) ∧
      after LineReader.readTyped r (chars.map (⟨·, true⟩)) = r := by
  induction chars with
  | nil => exact ⟨by simp, rfl⟩
  | cons c rest ih =>
    obtain ⟨hanswers, hafter⟩ := ih
    refine ⟨fun a ha => ?_, hafter⟩
    rcases List.mem_cons.mp ha with rfl | ha
    · rfl
    · exact hanswers a ha

theorem answers_sent (r : LineReader) (chars : List Char) :
    answers LineReader.readAll r (chars.map (⟨·, true⟩)) = answers LineReader.step r chars ∧
      after LineReader.readAll r (chars.map (⟨·, true⟩)) = after LineReader.step r chars := by
  have hchars : (chars.map fun c => (⟨c, true⟩ : SentChar)).map SentChar.char = chars := by
    rw [List.map_map]
    exact List.map_id _
  obtain ⟨hanswers, hafter⟩ := LineReader.answers_readAll r (chars.map (⟨·, true⟩))
  rw [hchars] at hanswers hafter
  exact ⟨hanswers, hafter⟩

theorem answers_eq_iff_onFullLines {p : Place} {r s : LineReader} {strokes : List Stroke}
    (hplaced : WellPlaced p strokes) (hs : p.Of s) (h : Place.Beside p (strokes.filterMap Stroke.typed?) r s) :
    answers LineReader.readAll r (strokes.flatMap Stroke.sent) =
      answers LineReader.readTyped s (strokes.flatMap Stroke.sent) ↔ OnFullLines s strokes := by
  induction strokes generalizing p r s with
  | nil => exact iff_of_true rfl (onFullLines_nil s)
  | cons stroke rest ih =>
    cases stroke with
    | typed c =>
      have hstep : r.readAll ⟨c, false⟩ = s.readTyped ⟨c, false⟩ := h.step hs
      rw [onFullLines_typed, ← ih hplaced (hs.step c) (.same _), List.flatMap_cons, Stroke.sent, List.singleton_append,
        answers_cons, answers_cons, hstep, List.cons.injEq]
      exact and_iff_right rfl
    | key k =>
      obtain ⟨hfree, hplaced⟩ := hplaced
      obtain ⟨hbeside, hno, hline⟩ := h.key hs hfree
      obtain ⟨hresting, hrest⟩ := answers_inserted s k.chars
      obtain ⟨hsent, hafter⟩ := answers_sent r k.chars
      rw [onFullLines_key, List.flatMap_cons, Stroke.sent, answers_append, answers_append, hsent, hafter, hrest, ← hline]
      by_cases hfull : ∀ final, k = .ss3 final → 256 ≤ byteLength r.line
      · obtain ⟨hsilent, hforgot⟩ := LineReader.answers_key hno k hfull
        have hkey : answers LineReader.step r k.chars =
            answers LineReader.readTyped s (k.chars.map (⟨·, true⟩)) := by
          rw [List.eq_replicate_iff.mpr ⟨rfl, hsilent⟩, List.eq_replicate_iff.mpr ⟨rfl, hresting⟩]
          simp
        rw [hkey, hforgot, List.append_cancel_left_eq, ih hplaced hs hbeside]
        exact (and_iff_right hfull).symm
      · refine iff_of_false (fun heq => ?_) fun hboth => hfull hboth.1
        obtain ⟨final, hnot⟩ := not_forall.mp hfull
        obtain ⟨rfl, hroom⟩ := Classical.not_imp.mp hnot
        have hlength : (answers LineReader.step r (KeySequence.ss3 final).chars).length =
            (answers LineReader.readTyped s ((KeySequence.ss3 final).chars.map (⟨·, true⟩))).length := by simp
        have htyped := LineReader.answers_key_typed hno final (Nat.lt_of_not_le hroom)
        rw [(List.append_inj heq hlength).1] at htyped
        cases hresting _ htyped

/-- Key sequences are ignored exactly if those that begin with `ESC O` come on full lines only. -/
theorem keysIgnored_iff (strokes : List Stroke) (h : WellPlaced .outside strokes) :
    KeysIgnored strokes ↔ OnFullLines .new strokes := by
  rw [keysIgnored_iff_answers]
  exact answers_eq_iff_onFullLines h ⟨rfl, by simp [LineReader.new]⟩ (.same _)

def upArrow : Stroke := .key (.csi [] ⟨'A', by decide⟩)

/-- An arrow key after `he`. -/
theorem arrow_ignored : KeysIgnored [.typed 'h', .typed 'e', upArrow, .typed 'a', .typed 'p', .typed '\r'] := by
  have hplaced : WellPlaced .outside [.typed 'h', .typed 'e', upArrow, .typed 'a', .typed 'p', .typed '\r'] :=
    And.intro trivial trivial
  refine (keysIgnored_iff _ hplaced).mpr fun before final after h => ?_
  have hmem : Stroke.key (.ss3 final) ∈ [.typed 'h', .typed 'e', upArrow, .typed 'a', .typed 'p', .typed '\r'] :=
    h ▸ List.mem_append_right before List.mem_cons_self
  simp [upArrow] at hmem

def functionKey : List Stroke := .key (.ss3 ⟨'P', by decide⟩) :: ['h', 'e', 'a', 'p', '\r'].map .typed

/-- A function key before `heap`: what is run is `Pheap`. -/
theorem function_key_typed :
    WellPlaced .outside functionKey ∧ ¬ KeysIgnored functionKey ∧
      (LineReader.new.feed (allOf (functionKey.flatMap Stroke.sent))).1.2 = ["Pheap"] ∧
      (LineReader.new.feed (typedOf (functionKey.flatMap Stroke.sent))).1.2 = ["heap"] := by
  have hall : (LineReader.new.feed (allOf (functionKey.flatMap Stroke.sent))).1.2 = ["Pheap"] := by
    rw [LineReader.feed_fst, allOf, String.toList_ofList]
    rfl
  have htyped : (LineReader.new.feed (typedOf (functionKey.flatMap Stroke.sent))).1.2 = ["heap"] := by
    rw [LineReader.feed_fst, typedOf, String.toList_ofList]
    rfl
  refine ⟨And.intro trivial trivial, fun h => ?_, hall, htyped⟩
  have hsame := h [functionKey.flatMap Stroke.sent] (by simp)
  have hlines := congrArg (fun told => told.map Prod.snd) hsame
  simp only [List.map_cons, List.map_nil, LineReader.feeds, hall, htyped] at hlines
  exact absurd hlines (by decide)

end NervesHub
