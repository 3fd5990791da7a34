import Mathlib.Data.List.Basic
import Mathlib.Data.List.Nodup

/-! Base64 without padding, over any alphabet of sixty-four letters. -/

namespace Base64

/-- Sixty-four letters, no two of them the same. -/
structure Alphabet where
  letters : List Char
  length : letters.length = 64
  nodup : letters.Nodup

namespace Alphabet
variable (a : Alphabet)

/-- The letter for the low six bits of `n`. -/
def letter (n : Nat) : Char := a.letters.get ⟨n % 64, by rw [a.length]; exact Nat.mod_lt _ (by decide)⟩

/-- The six bits that a letter stands for. -/
def value (c : Char) : Option Nat := if c ∈ a.letters then some (a.letters.idxOf c) else none

theorem letter_mem (n : Nat) : a.letter n ∈ a.letters := List.get_mem _ _

@[simp] theorem value_letter (n : Nat) : a.value (a.letter n) = some (n % 64) := by
  rw [value, if_pos (a.letter_mem n), letter]
  exact congrArg some (a.nodup.idxOf_getElem _ _)

/-- The number that up to three bytes make, the first of them the most significant. -/
def group (x y z : UInt8) : Nat := x.toNat * 65536 + y.toNat * 256 + z.toNat

def encode : List UInt8 → List Char
  | [] => []
  | [x] => [a.letter (group x 0 0 / 262144), a.letter (group x 0 0 / 4096)]
  | [x, y] => [a.letter (group x y 0 / 262144), a.letter (group x y 0 / 4096), a.letter (group x y 0 / 64)]
  | x :: y :: z :: rest =>
    a.letter (group x y z / 262144) :: a.letter (group x y z / 4096) :: a.letter (group x y z / 64) ::
      a.letter (group x y z) :: encode rest

/-- The byte of eight of the bits of `n`. -/
def byte (n : Nat) : UInt8 := UInt8.ofNat (n % 256)

/-- Four letters make three bytes; at the end three letters make two and two make one, and the bits left over are zeros. -/
def decode : List Char → Option (List UInt8)
  | [] => some []
  | [_] => none
  | [c, d] => do
    let v ← a.value c
    let w ← a.value d
    if w % 16 = 0 then some [byte (v * 4 + w / 16)] else none
  | [c, d, e] => do
    let v ← a.value c
    let w ← a.value d
    let x ← a.value e
    if x % 4 = 0 then some [byte (v * 4 + w / 16), byte (w * 16 + x / 4)] else none
  | c :: d :: e :: f :: rest => do
    let v ← a.value c
    let w ← a.value d
    let x ← a.value e
    let y ← a.value f
    let bytes ← decode rest
    some (byte (v * 4 + w / 16) :: byte (w * 16 + x / 4) :: byte (x * 64 + y) :: bytes)

theorem byte_eq {n : Nat} {x : UInt8} (h : n % 256 = x.toNat) : byte n = x := by
  rw [byte, h, UInt8.ofNat_toNat]

theorem first_byte (x y z : UInt8) : byte (group x y z / 262144 % 64 * 4 + group x y z / 4096 % 64 / 16) = x := by
  have hx := x.toNat_lt
  have hy := y.toNat_lt
  have hz := z.toNat_lt
  refine byte_eq ?_
  simp only [group]
  omega

theorem second_byte (x y z : UInt8) : byte (group x y z / 4096 % 64 * 16 + group x y z / 64 % 64 / 4) = y := by
  have hy := y.toNat_lt
  have hz := z.toNat_lt
  refine byte_eq ?_
  simp only [group]
  omega

theorem third_byte (x y z : UInt8) : byte (group x y z / 64 % 64 * 64 + group x y z % 64) = z := by
  have hz := z.toNat_lt
  refine byte_eq ?_
  simp only [group]
  omega

theorem decode_pair (k l : Nat) : a.decode [a.letter k, a.letter l] =
    if l % 64 % 16 = 0 then some [byte (k % 64 * 4 + l % 64 / 16)] else none := by
  rw [decode, value_letter, value_letter]
  rfl

theorem decode_triple (k l m : Nat) : a.decode [a.letter k, a.letter l, a.letter m] =
    if m % 64 % 4 = 0 then some [byte (k % 64 * 4 + l % 64 / 16), byte (l % 64 * 16 + m % 64 / 4)] else none := by
  rw [decode, value_letter, value_letter, value_letter]
  rfl

theorem decode_four {k l m n : Nat} {rest : List Char} {bytes : List UInt8} (h : a.decode rest = some bytes) :
    a.decode (a.letter k :: a.letter l :: a.letter m :: a.letter n :: rest) =
      some (byte (k % 64 * 4 + l % 64 / 16) :: byte (l % 64 * 16 + m % 64 / 4) ::
        byte (m % 64 * 64 + n % 64) :: bytes) := by
  rw [decode, value_letter, value_letter, value_letter, value_letter, h]
  rfl

theorem decode_encode (bytes : List UInt8) : a.decode (a.encode bytes) = some bytes := by
  induction bytes using encode.induct with
  | case1 => rfl
  | case2 x =>
    have hrest : group x 0 0 / 4096 % 64 % 16 = 0 := by simp only [group, UInt8.toNat_zero]; omega
    rw [encode, decode_pair, if_pos hrest, first_byte]
  | case3 x y =>
    have hrest : group x y 0 / 64 % 64 % 4 = 0 := by simp only [group, UInt8.toNat_zero]; omega
    rw [encode, decode_triple, if_pos hrest, first_byte, second_byte]
  | case4 x y z rest ih => rw [encode, decode_four a ih, first_byte, second_byte, third_byte]

theorem encode_mem {bytes : List UInt8} {c : Char} (h : c ∈ a.encode bytes) : c ∈ a.letters := by
  induction bytes using encode.induct with
  | case1 => cases h
  | case2 x =>
    simp only [encode, List.mem_cons, List.not_mem_nil, or_false] at h
    rcases h with rfl | rfl <;> exact a.letter_mem _
  | case3 x y =>
    simp only [encode, List.mem_cons, List.not_mem_nil, or_false] at h
    rcases h with rfl | rfl | rfl <;> exact a.letter_mem _
  | case4 x y z rest ih =>
    simp only [encode, List.mem_cons] at h
    rcases h with rfl | rfl | rfl | rfl | h
    · exact a.letter_mem _
    · exact a.letter_mem _
    · exact a.letter_mem _
    · exact a.letter_mem _
    · exact ih h

end Alphabet

/-- The capital letters, the small ones, the digits, and two characters that a URL may hold. -/
def urlSafe : Alphabet where
  letters := (List.range 26).map (fun i => Char.ofNat ('A'.toNat + i)) ++
    (List.range 26).map (fun i => Char.ofNat ('a'.toNat + i)) ++
    (List.range 10).map (fun i => Char.ofNat ('0'.toNat + i)) ++ ['-', '_']
  length := by decide
  nodup := List.Nodup.of_map Char.toNat (by decide)

end Base64
