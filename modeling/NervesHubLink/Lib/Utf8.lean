import Mathlib.Data.List.Basic

/-! UTF-8 read with U+FFFD in place of what is ill-formed: one for each part that begins a character as far as it goes. -/

namespace Utf8

def isContinuation (b : UInt8) : Bool := 0x80 ≤ b && b ≤ 0xBF

/-- Whether `b` may follow the first byte `lead` of a character of three bytes or four. -/
def mayFollow (lead b : UInt8) : Bool :=
  if lead = 0xE0 then 0xA0 ≤ b && b ≤ 0xBF
  else if lead = 0xED then 0x80 ≤ b && b ≤ 0x9F
  else if lead = 0xF0 then 0x90 ≤ b && b ≤ 0xBF
  else if lead = 0xF4 then 0x80 ≤ b && b ≤ 0x8F
  else isContinuation b

/-- How many bytes one U+FFFD stands for, where no character begins. -/
def badLength : List UInt8 → Nat
  | lead :: second :: rest =>
    if 0xE0 ≤ lead && lead ≤ 0xEF then if mayFollow lead second then 2 else 1
    else if 0xF0 ≤ lead && lead ≤ 0xF4 then
      if mayFollow lead second then
        match rest with
        | third :: _ => if isContinuation third then 3 else 2
        | [] => 2
      else 1
    else 1
  | _ => 1

/-- At most as many characters as the first argument says. -/
def lossyN : Nat → List UInt8 → List Char
  | 0, _ => []
  | _ + 1, [] => []
  | n + 1, b :: bytes =>
    match ByteArray.utf8DecodeChar? (b :: bytes).toByteArray 0 with
    | some c => c :: lossyN n ((b :: bytes).drop c.utf8Size)
    | none => '\uFFFD' :: lossyN n ((b :: bytes).drop (badLength (b :: bytes)))

def lossy (bytes : List UInt8) : String := String.ofList (lossyN bytes.length bytes)

theorem lossyN_encode (chars : List Char) (n : Nat) (hn : (chars.flatMap String.utf8EncodeChar).length ≤ n) :
    lossyN n (chars.flatMap String.utf8EncodeChar) = chars := by
  induction chars generalizing n with
  | nil => cases n <;> rfl
  | cons c chars ih =>
    rw [List.flatMap_cons, List.length_append, String.length_utf8EncodeChar] at hn
    have hpos := c.utf8Size_pos
    obtain ⟨n, rfl⟩ : ∃ m, n = m + 1 := ⟨n - 1, by omega⟩
    obtain ⟨b, bytes, hb⟩ : ∃ b bytes, (c :: chars).flatMap String.utf8EncodeChar = b :: bytes := by
      have : 0 < ((c :: chars).flatMap String.utf8EncodeChar).length := by simp; omega
      exact List.exists_cons_of_length_pos this
    have hdecode : ByteArray.utf8DecodeChar? (b :: bytes).toByteArray 0 = some c := by
      rw [← hb, List.flatMap_cons, List.toByteArray_append]
      exact ByteArray.utf8DecodeChar?_utf8EncodeChar_append
    have hdrop : (b :: bytes).drop c.utf8Size = chars.flatMap String.utf8EncodeChar := by
      rw [← hb, List.flatMap_cons, ← String.length_utf8EncodeChar, List.drop_left]
    rw [hb, lossyN, hdecode]
    simp only [hdrop]
    rw [ih n (by omega)]

theorem toByteArray_toList (s : String) : s.toByteArray.data.toList = s.toList.flatMap String.utf8EncodeChar := by
  rw [← String.utf8Encode_toList, List.utf8Encode]
  simp

theorem lossy_encode (chars : List Char) : lossy (chars.flatMap String.utf8EncodeChar) = String.ofList chars := by
  rw [lossy, lossyN_encode _ _ (Nat.le_refl _)]

/-! ### NUL -/

theorem nul_iff {c : Char} : c = '\x00' ↔ c.val.toNat = 0 := by
  constructor
  · rintro rfl
    rfl
  · intro h
    exact Char.ext (UInt32.toNat.inj h)

/-- A zero is written for NUL, and for nothing else. -/
theorem zero_mem_encode {c : Char} : 0 ∈ String.utf8EncodeChar c ↔ c = '\x00' := by
  have hofNat : ∀ n : Nat, 0 = UInt8.ofNat n ↔ n % 256 = 0 := by
    intro n
    rw [← UInt8.toNat_inj]
    simp [eq_comm]
  rw [nul_iff]
  simp only [String.utf8EncodeChar]
  split_ifs <;> simp only [List.mem_cons, List.not_mem_nil, or_false, hofNat] <;> omega

theorem encode_nul : String.utf8EncodeChar '\x00' = [0] := by decide

theorem takeWhile_encode (chars : List Char) : (chars.flatMap String.utf8EncodeChar).takeWhile (· ≠ 0) =
    (chars.takeWhile (· ≠ '\x00')).flatMap String.utf8EncodeChar := by
  induction chars with
  | nil => rfl
  | cons c chars ih =>
    by_cases hc : c = '\x00'
    · subst hc
      rw [List.flatMap_cons, encode_nul]
      rfl
    · have hall : ∀ b ∈ String.utf8EncodeChar c, decide (b ≠ 0) = true := by
        intro b hb
        exact decide_eq_true fun h => hc (zero_mem_encode.mp (h ▸ hb))
      rw [List.flatMap_cons, List.takeWhile_append_of_pos hall, ih, List.takeWhile_cons_of_pos (by simpa using hc),
        List.flatMap_cons]

/-- What was written up to a zero reads as it was up to the NUL. -/
theorem lossy_takeWhile (s : String) : lossy (s.toByteArray.data.toList.takeWhile (· ≠ 0)) =
    String.ofList (s.toList.takeWhile (· ≠ '\x00')) := by
  rw [toByteArray_toList, takeWhile_encode, lossy_encode]

end Utf8
