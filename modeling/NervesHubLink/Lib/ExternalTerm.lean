import Mathlib.Data.Nat.Digits.Lemmas

/-! Erlang's external term format, as far as integers, binaries and tuples go: how such a term is written, and
how it is read. -/

namespace ExternalTerm

inductive Term where
  | integer (n : Int)
  | binary (bytes : List UInt8)
  | tuple (items : List Term)

def versionMagic : UInt8 := 131
def smallIntegerExt : UInt8 := 97
def integerExt : UInt8 := 98
def smallTupleExt : UInt8 := 104
def binaryExt : UInt8 := 109
def smallBigExt : UInt8 := 110

/-- The number that bytes make, the first of them the least significant. -/
def littleEndian (bytes : List UInt8) : Nat := Nat.ofDigits 256 (bytes.map UInt8.toNat)

/-- The same, with the first of them the most significant. -/
def bigEndian (bytes : List UInt8) : Nat := littleEndian bytes.reverse

/-- The number of 32 bits that four bytes make. -/
def signed32 (bytes : List UInt8) : Int := (bigEndian bytes : Int).bmod (2 ^ 32)

/-! ### Writing -/

/-- How an integer is written: in a byte if it fits, else in 32 bits if it fits, else as its sign and as few digits as there
    can be. -/
inductive WritesInteger : Int → List UInt8 → Prop
  | small (b : UInt8) : WritesInteger b.toNat [smallIntegerExt, b]
  | wide {n : Int} {bytes : List UInt8} (hlong : n < 0 ∨ 255 < n) (hlen : bytes.length = 4) (hn : signed32 bytes = n) :
    WritesInteger n (integerExt :: bytes)
  | big {n : Int} {digits : List UInt8} (hlong : n < -2 ^ 31 ∨ 2 ^ 31 ≤ n) (hlen : digits.length < 256)
    (hleast : digits.getLast? ≠ some 0) (hn : littleEndian digits = n.natAbs) :
    WritesInteger n (smallBigExt :: UInt8.ofNat digits.length :: (if n < 0 then 1 else 0) :: digits)

/-- How a term is written, with lengths that fit. -/
inductive Writes : Term → List UInt8 → Prop
  | integer {n : Int} {bytes : List UInt8} (h : WritesInteger n bytes) : Writes (.integer n) bytes
  | binary {len bytes : List UInt8} (hlen : len.length = 4) (hn : bigEndian len = bytes.length) :
      Writes (.binary bytes) (binaryExt :: len ++ bytes)
  | tuple {items : List (Term × List UInt8)} (hlen : items.length < 256) (h : ∀ item ∈ items, Writes item.1 item.2) :
    Writes (.tuple (items.map Prod.fst)) (smallTupleExt :: UInt8.ofNat items.length :: (items.map Prod.snd).flatten)

/-! ### Reading -/

/-- The first `n` bytes, and the rest. -/
def split (n : Nat) (bytes : List UInt8) : Option (List UInt8 × List UInt8) :=
  if n ≤ bytes.length then some (bytes.take n, bytes.drop n) else none

/-- So many terms, one after another. -/
def readMany (item : List UInt8 → Option (Term × List UInt8)) : Nat → List UInt8 → Option (List Term × List UInt8)
  | 0, bytes => some ([], bytes)
  | n + 1, bytes => do
    let (first, bytes) ← item bytes
    let (others, bytes) ← readMany item n bytes
    some (first :: others, bytes)

/-- A term that is not nested deeper than `depth`, and what follows it. -/
def read : Nat → List UInt8 → Option (Term × List UInt8)
  | 0, _ => none
  | _, [] => none
  | depth + 1, tag :: bytes =>
    if tag = smallIntegerExt then
      match bytes with
      | b :: bytes => some (.integer b.toNat, bytes)
      | [] => none
    else if tag = integerExt then do
      let (front, bytes) ← split 4 bytes
      some (.integer (signed32 front), bytes)
    else if tag = smallBigExt then
      match bytes with
      | n :: sign :: bytes => do
        let (digits, bytes) ← split n.toNat bytes
        some (.integer (if sign = 0 then littleEndian digits else -littleEndian digits), bytes)
      | _ => none
    else if tag = binaryExt then do
      let (len, bytes) ← split 4 bytes
      let (front, bytes) ← split (bigEndian len) bytes
      some (.binary front, bytes)
    else if tag = smallTupleExt then
      match bytes with
      | n :: bytes => do
        let (items, bytes) ← readMany (read depth) n.toNat bytes
        some (.tuple items, bytes)
      | [] => none
    else none

/-- The term that bytes are, all of them. -/
def decode : List UInt8 → Option Term
  | [] => none
  | version :: bytes =>
    if version = versionMagic then
      match read bytes.length bytes with
      | some (term, []) => some term
      | _ => none
    else none

theorem split_append {n : Nat} {front bytes : List UInt8} (h : front.length = n) :
    split n (front ++ bytes) = some (front, bytes) := by
  subst h
  simp [split]

theorem WritesInteger.length_pos {n : Int} {bytes : List UInt8} (h : WritesInteger n bytes) : 0 < bytes.length := by
  cases h <;> exact Nat.succ_pos _

theorem WritesInteger.read {n : Int} {bytes : List UInt8} (h : WritesInteger n bytes) (depth : Nat) (rest : List UInt8) :
    read (depth + 1) (bytes ++ rest) = some (.integer n, rest) := by
  cases h with
  | small b => rfl
  | wide hlong hlen hn =>
    subst hn
    simp [ExternalTerm.read, smallIntegerExt, integerExt, split_append hlen]
  | @big _ digits hlong hlen hleast hn =>
    have hcount : (UInt8.ofNat digits.length).toNat = digits.length := by
      rw [UInt8.toNat_ofNat', Nat.mod_eq_of_lt hlen]
    by_cases hneg : n < 0
    · have hvalue : -(littleEndian digits : Int) = n := by omega
      simp [ExternalTerm.read, smallIntegerExt, integerExt, smallBigExt, hcount, split_append rfl, hneg, hvalue]
    · have hvalue : (littleEndian digits : Int) = n := by omega
      simp [ExternalTerm.read, smallIntegerExt, integerExt, smallBigExt, hcount, split_append rfl, hneg, hvalue]

theorem readMany_flatten {item : List UInt8 → Option (Term × List UInt8)} {items : List (Term × List UInt8)}
    (h : ∀ written ∈ items, ∀ rest, item (written.2 ++ rest) = some (written.1, rest)) (rest : List UInt8) :
    readMany item items.length ((items.map Prod.snd).flatten ++ rest) = some (items.map Prod.fst, rest) := by
  induction items with
  | nil => rfl
  | cons written items ih =>
    have hfirst := h written List.mem_cons_self ((items.map Prod.snd).flatten ++ rest)
    have hothers := ih fun written hw => h written (List.mem_cons_of_mem _ hw)
    simp [readMany, hfirst, hothers]

/-- What is read back is what was written, and no byte more is read. -/
theorem Writes.read {t : Term} {bytes : List UInt8} (h : Writes t bytes) :
    ∀ depth rest, bytes.length ≤ depth → ExternalTerm.read depth (bytes ++ rest) = some (t, rest) := by
  induction h with
  | @integer n bytes h =>
    rintro (_ | depth) rest hdepth
    · exact absurd hdepth (Nat.not_le.mpr h.length_pos)
    · exact h.read depth rest
  | @binary len bytes hlen hn =>
    rintro (_ | depth) rest hdepth
    · exact absurd hdepth (Nat.not_succ_le_zero _)
    · simp [ExternalTerm.read, smallIntegerExt, integerExt, smallBigExt, binaryExt, split_append hlen, split_append hn.symm]
  | @tuple items hlen h ih =>
    rintro (_ | depth) rest hdepth
    · exact absurd hdepth (Nat.not_succ_le_zero _)
    have hcount : (UInt8.ofNat items.length).toNat = items.length := by
      rw [UInt8.toNat_ofNat', Nat.mod_eq_of_lt hlen]
    have hitems : ∀ written ∈ items, ∀ rest, ExternalTerm.read depth (written.2 ++ rest) = some (written.1, rest) := by
      intro written hw rest
      have hle := (List.sublist_flatten_of_mem (List.mem_map_of_mem (f := Prod.snd) hw)).length_le
      simp only [List.length_cons] at hdepth
      exact ih written hw _ rest (by omega)
    simp [ExternalTerm.read, smallIntegerExt, integerExt, smallBigExt, binaryExt, smallTupleExt, hcount,
      readMany_flatten hitems]

/-- Bytes that a term was written as, and nothing else, are that term. -/
theorem Writes.decode {t : Term} {bytes : List UInt8} (h : Writes t bytes) : decode (versionMagic :: bytes) = some t := by
  have hread := h.read bytes.length [] (Nat.le_refl _)
  rw [List.append_nil] at hread
  simp [ExternalTerm.decode, hread]

end ExternalTerm
