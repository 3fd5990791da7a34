import NervesHubLink.Console
import Mathlib.Data.List.Induction
import Mathlib.Tactic.Common

/-! What a command prints, up to the limit and past it. -/

namespace NervesHub

/-! ### Bytes -/

theorem byteLength_cons (c : Char) (line : List Char) : byteLength (c :: line) = c.utf8Size + byteLength line := by
  simp [byteLength]

theorem byteLength_append (a b : List Char) : byteLength (a ++ b) = byteLength a + byteLength b := by
  simp [byteLength]

theorem byteLength_replicate (n : Nat) (c : Char) : byteLength (List.replicate n c) = n * c.utf8Size := by
  simp [byteLength]

theorem utf8ByteSize_eq (s : String) : s.utf8ByteSize = byteLength s.toList := by
  rw [← String.ofList_toList (s := s)]
  induction s.toList with
  | nil => rfl
  | cons c rest ih =>
    have hcons : String.ofList (c :: rest) = String.singleton c ++ String.ofList rest := by
      rw [← String.toList_inj]
      simp
    rw [hcons, String.utf8ByteSize_append, String.utf8ByteSize_singleton, ih]
    simp [byteLength]

/-- `kept` is all of the line that fits into `room` bytes, and `d` is the character after it. -/
structure Overflows (room : Nat) (line kept : List Char) (d : Char) : Prop where
  split : ∃ rest, line = kept ++ d :: rest
  fits : byteLength kept ≤ room
  past : room < byteLength kept + d.utf8Size

theorem Overflows.exists (line : List Char) (room : Nat) (h : room < byteLength line) :
    ∃ kept d, Overflows room line kept d := by
  induction line generalizing room with
  | nil => simp [byteLength] at h
  | cons c rest ih =>
    rw [byteLength_cons] at h
    by_cases hc : c.utf8Size ≤ room
    · obtain ⟨kept, d, ⟨⟨rest', rfl⟩, hfits, hpast⟩⟩ := ih (room - c.utf8Size) (by omega)
      refine ⟨c :: kept, d, ⟨⟨rest', rfl⟩, ?_, ?_⟩⟩ <;> rw [byteLength_cons] <;> omega
    · exact ⟨[], c, ⟨⟨rest, rfl⟩, Nat.zero_le _, by simpa [byteLength] using hc⟩⟩

namespace Output

/-! ### One write -/

theorem cut_fitting {room : Nat} {line : List Char} (h : byteLength line ≤ room) : cut room line = line := by
  induction line generalizing room with
  | nil => rfl
  | cons c rest ih =>
    rw [byteLength_cons] at h
    rw [cut, if_pos (by omega), ih (by omega)]

theorem cut_overflowing {room : Nat} {line kept : List Char} {d : Char} (h : Overflows room line kept d) :
    cut room line = kept := by
  obtain ⟨⟨rest, rfl⟩, hfits, hpast⟩ := h
  induction kept generalizing room with
  | nil =>
    have hd : ¬ d.utf8Size ≤ room := by simpa [byteLength] using hpast
    rw [List.nil_append, cut, if_neg hd]
  | cons c kept ih =>
    rw [byteLength_cons] at hfits hpast
    rw [List.cons_append, cut, if_pos (by omega), ih (by omega) (by omega)]

theorem cut_zero (line : List Char) : cut 0 line = [] := by
  cases line with
  | nil => rfl
  | cons c rest =>
    have hpos := Char.utf8Size_pos c
    rw [cut, if_neg (by omega)]

theorem writeStr_text (o : Output) (s : String) :
    (o.writeStr s).text = o.text ++ String.ofList (cut (maxOutput - o.text.utf8ByteSize) s.toList) := by
  unfold writeStr
  dsimp only
  split_ifs with hfull hlong
  · rw [hfull, cut_zero]
    simp
  · rfl
  · rw [cut_fitting (by rw [← utf8ByteSize_eq]; omega), String.ofList_toList]

theorem writeStr_truncated (o : Output) (s : String) :
    (o.writeStr s).truncated = true ↔
      o.truncated = true ∨ maxOutput ≤ o.text.utf8ByteSize ∨ maxOutput < o.text.utf8ByteSize + s.utf8ByteSize := by
  unfold writeStr
  dsimp only
  split_ifs with hfull hlong
  · exact iff_of_true rfl (.inr (.inl (by omega)))
  · exact iff_of_true rfl (.inr (.inr (by omega)))
  · refine ⟨.inl, ?_⟩
    rintro (h | h | h)
    · exact h
    · omega
    · omega

/-- A write that begins with a character for which there is no room changes nothing. -/
theorem writeStr_stuck {o : Output} {s : String}
    (h : ∀ c ∈ s.toList.head?, maxOutput < o.text.utf8ByteSize + c.utf8Size) : (o.writeStr s).text = o.text := by
  rw [writeStr_text]
  cases hs : s.toList with
  | nil => simp [cut]
  | cons c rest =>
    have hc : ¬ c.utf8Size ≤ maxOutput - o.text.utf8ByteSize := by
      have hpos := Char.utf8Size_pos c
      have hlong := h c (by simp [hs])
      omega
    rw [cut, if_neg hc]
    simp

/-! ### Many writes -/

theorem writePieces_append (o : Output) (ws vs : List String) :
    o.writePieces (ws ++ vs) = (o.writePieces ws).writePieces vs := List.foldl_append

theorem writePieces_grows (o : Output) (ws : List String) : o.text.toList <+: (o.writePieces ws).text.toList := by
  induction ws generalizing o with
  | nil => exact List.prefix_refl _
  | cons s rest ih =>
    refine List.IsPrefix.trans ?_ (ih (o.writeStr s))
    rw [writeStr_text, String.toList_append]
    exact List.prefix_append _ _

theorem writePieces_truncated {o : Output} (h : o.truncated = true) (ws : List String) :
    (o.writePieces ws).truncated = true := by
  induction ws generalizing o with
  | nil => exact h
  | cons s rest ih => exact ih ((writeStr_truncated o s).mpr (.inl h))

theorem writePieces_stuck {o : Output} {ws : List String}
    (h : ∀ s ∈ ws, ∀ c ∈ s.toList.head?, maxOutput < o.text.utf8ByteSize + c.utf8Size) :
    (o.writePieces ws).text = o.text := by
  induction ws generalizing o with
  | nil => rfl
  | cons s rest ih =>
    have hsame := writeStr_stuck (h s List.mem_cons_self)
    have hrest := ih (o := o.writeStr s) fun t ht => by
      rw [hsame]
      exact h t (List.mem_cons_of_mem _ ht)
    exact hrest.trans hsame

/-- If a later write begins with a character that fits, then one such character is what comes next. -/
theorem writePieces_resumes {o : Output} (ws : List String)
    (h : ∃ s ∈ ws, ∃ c ∈ s.toList.head?, o.text.utf8ByteSize + c.utf8Size ≤ maxOutput) :
    ∃ c, o.text.utf8ByteSize + c.utf8Size ≤ maxOutput ∧ o.text.toList ++ [c] <+: (o.writePieces ws).text.toList := by
  induction ws generalizing o with
  | nil =>
    obtain ⟨s, hs, -⟩ := h
    exact absurd hs List.not_mem_nil
  | cons s rest ih =>
    by_cases hfit : ∃ c ∈ s.toList.head?, o.text.utf8ByteSize + c.utf8Size ≤ maxOutput
    · obtain ⟨c, hc, hroom⟩ := hfit
      refine ⟨c, hroom, List.IsPrefix.trans ?_ (writePieces_grows (o.writeStr s) rest)⟩
      obtain ⟨tail, htail⟩ := List.head?_eq_some_iff.mp hc
      rw [writeStr_text, String.toList_append, htail, cut, if_pos (by omega), String.toList_ofList]
      exact (List.prefix_append_right_inj _).mpr ⟨_, rfl⟩
    · have hsame : (o.writeStr s).text = o.text := writeStr_stuck fun c hc => by
        by_contra hle
        exact hfit ⟨c, hc, by omega⟩
      obtain ⟨t, ht, c, hc, hroom⟩ := h
      rcases List.mem_cons.mp ht with rfl | ht
      · exact absurd ⟨c, hc, hroom⟩ hfit
      · have hrest := ih (o := o.writeStr s) ⟨t, ht, c, hc, by rw [hsame]; exact hroom⟩
        rw [hsame] at hrest
        exact hrest

/-! ### All that was written -/

/-- As long as everything fits, everything is there. -/
theorem writePieces_fitting {ws : List String} (h : (String.join ws).utf8ByteSize ≤ maxOutput) :
    (new.writePieces ws).text = String.join ws ∧
      ((new.writePieces ws).truncated = true ↔
        (String.join ws).utf8ByteSize = maxOutput ∧ ws.getLast? = some "") := by
  induction ws using List.reverseRecOn with
  | nil => simp [writePieces, new]
  | append_singleton ws w ih =>
    have hjoin : String.join (ws ++ [w]) = String.join ws ++ w := by simp
    have hsize : (String.join ws ++ w).utf8ByteSize = (String.join ws).utf8ByteSize + w.utf8ByteSize :=
      String.utf8ByteSize_append
    rw [hjoin, hsize] at h
    obtain ⟨htext, htruncated⟩ := ih (by omega)
    have hlast : new.writePieces (ws ++ [w]) = (new.writePieces ws).writeStr w := writePieces_append _ _ _
    rw [hlast, hjoin, hsize]
    constructor
    · rw [writeStr_text, htext, cut_fitting (by rw [← utf8ByteSize_eq]; omega), String.ofList_toList]
    · rw [writeStr_truncated, htruncated, htext, List.getLast?_concat, Option.some.injEq,
        ← String.utf8ByteSize_eq_zero_iff]
      constructor
      · rintro (⟨hfull, -⟩ | hfull | hpast) <;> omega
      · rintro ⟨hfull, hempty⟩
        exact .inr (.inl (by omega))

/-- The write with the first character that does not fit. -/
theorem exists_past (ws : List String) (h : maxOutput < (String.join ws).utf8ByteSize) :
    ∃ before w after kept d, ws = before ++ w :: after ∧ (String.join before).utf8ByteSize ≤ maxOutput ∧
      Overflows (maxOutput - (String.join before).utf8ByteSize) w.toList kept d := by
  induction ws using List.reverseRecOn with
  | nil => simp at h
  | append_singleton ws w ih =>
    by_cases hpast : maxOutput < (String.join ws).utf8ByteSize
    · obtain ⟨before, v, after, kept, d, rfl, hbefore, hover⟩ := ih hpast
      exact ⟨before, v, after ++ [w], kept, d, by simp, hbefore, hover⟩
    · have hsize : (String.join (ws ++ [w])).utf8ByteSize = (String.join ws).utf8ByteSize + w.utf8ByteSize := by
        simp
      rw [hsize, utf8ByteSize_eq w] at h
      obtain ⟨kept, d, hover⟩ := Overflows.exists w.toList (maxOutput - (String.join ws).utf8ByteSize) (by omega)
      exact ⟨ws, w, [], kept, d, rfl, by omega, hover⟩

/-- What the write that goes past the limit leaves. -/
theorem writePieces_past {before : List String} {w : String} {kept : List Char} {d : Char}
    (hbefore : (String.join before).utf8ByteSize ≤ maxOutput)
    (h : Overflows (maxOutput - (String.join before).utf8ByteSize) w.toList kept d) :
    (new.writePieces (before ++ [w])).text = String.join before ++ String.ofList kept ∧
      (new.writePieces (before ++ [w])).truncated = true := by
  obtain ⟨htext, -⟩ := writePieces_fitting hbefore
  have hlast : new.writePieces (before ++ [w]) = (new.writePieces before).writeStr w := writePieces_append _ _ _
  rw [hlast, writeStr_text, writeStr_truncated, htext, cut_overflowing h]
  refine ⟨rfl, .inr (.inr ?_)⟩
  obtain ⟨⟨rest, hrest⟩, -, hpast⟩ := h
  rw [utf8ByteSize_eq w, hrest, byteLength_append, byteLength_cons]
  omega

end Output

/-- All that was written, if it fits; and otherwise no more of its beginning than fits, and the marker. -/
def Printed (ws : List String) (text : String) : Prop :=
  ((String.join ws).utf8ByteSize ≤ maxOutput → text = String.join ws) ∧
    (maxOutput < (String.join ws).utf8ByteSize →
      ∃ kept rest, String.join ws = kept ++ rest ∧ kept.utf8ByteSize ≤ maxOutput ∧
        text = kept ++ "\r\n[output truncated]")

/-- Nothing is written into a full output but what goes past the limit, and nothing that would fit after that. -/
structure CutForGood (ws : List String) : Prop where
  /-- No empty write comes last if all that is written fits exactly. -/
  full : (String.join ws).utf8ByteSize = maxOutput → ws.getLast? ≠ some ""
  /-- No write after the one that goes past the limit begins with a character that still fits. -/
  past : ∀ (before after : List String) (w : String) (kept : List Char) (d : Char), ws = before ++ w :: after →
    (String.join before).utf8ByteSize ≤ maxOutput →
    Overflows (maxOutput - (String.join before).utf8ByteSize) w.toList kept d →
    ∀ s ∈ after, ∀ c ∈ s.toList.head?, maxOutput < (String.join before).utf8ByteSize + byteLength kept + c.utf8Size

namespace Output

theorem finish_truncated {o : Output} (h : o.truncated = true) : o.finish = o.text ++ "\r\n[output truncated]" := by
  rw [finish, if_pos h]

theorem finish_whole {o : Output} (h : o.truncated ≠ true) : o.finish = o.text := by
  rw [finish, if_neg h]

/-- With everything fitting, only an empty write into the full output spoils it. -/
theorem printed_fitting {ws : List String} (h : (String.join ws).utf8ByteSize ≤ maxOutput) :
    Printed ws (new.writePieces ws).finish ↔
      ((String.join ws).utf8ByteSize = maxOutput → ws.getLast? ≠ some "") := by
  obtain ⟨htext, htruncated⟩ := writePieces_fitting h
  constructor
  · rintro ⟨hwhole, -⟩ hfull hempty
    have hmarked := hwhole h
    rw [finish_truncated (htruncated.mpr ⟨hfull, hempty⟩), htext] at hmarked
    simpa using congrArg String.utf8ByteSize hmarked
  · intro hlast
    refine ⟨fun _ => ?_, fun hpast => absurd hpast (by omega)⟩
    rw [finish_whole (mt htruncated.mp fun ⟨hfull, hempty⟩ => hlast hfull hempty), htext]

/-- All that was written, around the character that is past the limit. -/
theorem join_around {before after : List String} {w : String} {kept rest : List Char} {d : Char}
    (hrest : w.toList = kept ++ d :: rest) : String.join (before ++ w :: after) =
      String.join before ++ String.ofList kept ++ (String.ofList (d :: rest) ++ String.join after) := by
  rw [← String.toList_inj]
  simp [hrest]

theorem past_limit {before after : List String} {w : String} {kept rest : List Char} {d : Char}
    (hrest : w.toList = kept ++ d :: rest) (hbefore : (String.join before).utf8ByteSize ≤ maxOutput)
    (hpast : maxOutput - (String.join before).utf8ByteSize < byteLength kept + d.utf8Size) :
    maxOutput < (String.join (before ++ w :: after)).utf8ByteSize := by
  rw [join_around hrest, utf8ByteSize_eq]
  simp only [String.toList_append, String.toList_ofList, byteLength_append, byteLength_cons]
  rw [← utf8ByteSize_eq]
  omega

/-- Past the limit, only a later write that begins with a character that still fits spoils it. -/
theorem printed_past {before : List String} (after : List String) {w : String} {kept : List Char} {d : Char}
    (hbefore : (String.join before).utf8ByteSize ≤ maxOutput)
    (h : Overflows (maxOutput - (String.join before).utf8ByteSize) w.toList kept d) :
    Printed (before ++ w :: after) (new.writePieces (before ++ w :: after)).finish ↔
      ∀ s ∈ after, ∀ c ∈ s.toList.head?,
        maxOutput < (String.join before).utf8ByteSize + byteLength kept + c.utf8Size := by
  obtain ⟨htext, htruncated⟩ := writePieces_past hbefore h
  obtain ⟨⟨rest, hrest⟩, hfits, hpast⟩ := h
  have hsplit : new.writePieces (before ++ w :: after) = (new.writePieces (before ++ [w])).writePieces after := by
    rw [← writePieces_append, List.append_assoc, List.singleton_append]
  have hall : String.join (before ++ w :: after) =
      String.join before ++ String.ofList kept ++ (String.ofList (d :: rest) ++ String.join after) := join_around hrest
  have hsize : (new.writePieces (before ++ [w])).text.utf8ByteSize =
      (String.join before).utf8ByteSize + byteLength kept := by
    rw [htext, String.utf8ByteSize_append, utf8ByteSize_eq (String.ofList kept), String.toList_ofList]
  have hover : maxOutput < (String.join (before ++ w :: after)).utf8ByteSize := past_limit hrest hbefore hpast
  rw [hsplit, finish_truncated (writePieces_truncated htruncated after)]
  constructor
  · rintro ⟨-, hprefix⟩ s hs c hc
    by_contra hle
    obtain ⟨e, hroom, hnext⟩ := writePieces_resumes (o := new.writePieces (before ++ [w])) after
      ⟨s, hs, c, hc, by rw [hsize]; omega⟩
    obtain ⟨kept', rest', hwhole, -, htaken⟩ := hprefix hover
    rw [String.append_left_inj] at htaken
    rw [htaken, htext] at hnext
    -- the character that came next is not the one that was dropped
    have hboth : (String.join before ++ String.ofList kept).toList ++ [e] <+:
        (String.join before ++ String.ofList kept).toList ++ (d :: rest ++ (String.join after).toList) := by
      refine hnext.trans ⟨rest'.toList, ?_⟩
      rw [← String.toList_append, ← hwhole, hall]
      simp
    obtain ⟨tail, htail⟩ := (List.prefix_append_right_inj _).mp hboth
    obtain ⟨rfl, -⟩ := List.cons.inj htail
    omega
  · intro hstuck
    refine ⟨fun hle => absurd hle (by omega), fun _ => ?_⟩
    refine ⟨_, _, hall, ?_, ?_⟩
    · rw [← htext, hsize]
      omega
    · rw [writePieces_stuck fun s hs c hc => by rw [hsize]; exact hstuck s hs c hc, htext]

end Output

/-- What is taken of an output is all that was written or a beginning of it, exactly if no write comes after the
    output is full, or after the first character that did not fit, that changes it or marks it. -/
theorem finish_printed_iff (ws : List String) :
    Printed ws (Output.new.writePieces ws).finish ↔ CutForGood ws := by
  constructor
  · intro h
    refine ⟨fun hfull => (Output.printed_fitting (by omega)).mp h hfull, ?_⟩
    rintro before after w kept d rfl hbefore hover
    exact (Output.printed_past after hbefore hover).mp h
  · intro h
    by_cases hfits : (String.join ws).utf8ByteSize ≤ maxOutput
    · exact (Output.printed_fitting hfits).mpr h.full
    · obtain ⟨before, w, after, kept, d, rfl, hbefore, hover⟩ := Output.exists_past ws (by omega)
      exact (Output.printed_past after hbefore hover).mpr (h.past before after w kept d rfl hbefore hover)

/-- An `é` for which one byte is left is dropped, and the `a` after it is not. -/
theorem finish_goes_on :
    ¬ Printed [String.ofList (List.replicate 2047 'x'), "é", "a"]
      (Output.new.writePieces [String.ofList (List.replicate 2047 'x'), "é", "a"]).finish := by
  have hsize : (String.join [String.ofList (List.replicate 2047 'x')]).utf8ByteSize = 2047 := by
    rw [String.join_cons, String.join_nil, String.append_empty, utf8ByteSize_eq, String.toList_ofList, byteLength_replicate]
    rfl
  have hover : Overflows (maxOutput - (String.join [String.ofList (List.replicate 2047 'x')]).utf8ByteSize)
      "é".toList [] 'é' := by
    rw [hsize]
    exact ⟨⟨[], rfl⟩, by decide, by decide⟩
  intro h
  have hstuck := (Output.printed_past ["a"] (by rw [hsize]; decide) hover).mp h "a" (by simp) 'a' (by simp)
  rw [hsize] at hstuck
  exact absurd hstuck (by decide)

end NervesHub
