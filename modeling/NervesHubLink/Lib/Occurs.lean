import Mathlib.Data.List.Infix
import Mathlib.Data.List.Nodup

/-! Where one list occurs in another. -/

namespace Occurs

variable {α : Type}

/-- `needle` stands in `data` at `i`. -/
def At (needle data : List α) (i : Nat) : Prop := i ≤ data.length ∧ needle <+: data.drop i

section
variable {needle data a b : List α} {i : Nat}

theorem At.bound (h : At needle data i) : i + needle.length ≤ data.length := by
  obtain ⟨hi, hpre⟩ := h
  have := hpre.length_le
  rw [List.length_drop] at this
  omega

/-- In the first part of a list, if there is room for it there. -/
theorem at_append_left (hi : i + needle.length ≤ a.length) : At needle (a ++ b) i ↔ At needle a i := by
  have hdrop : (a ++ b).drop i = a.drop i ++ b := List.drop_append_of_le_length (by omega)
  constructor
  · rintro ⟨-, h⟩
    rw [hdrop] at h
    refine ⟨by omega, (List.isPrefix_append_of_length ?_).mp h⟩
    rw [List.length_drop]
    omega
  · rintro ⟨-, h⟩
    refine ⟨by simp; omega, ?_⟩
    rw [hdrop]
    exact h.trans (List.prefix_append _ _)

/-- In the last part of a list, from where that begins. -/
theorem at_append_right (needle a b : List α) (i : Nat) : At needle (a ++ b) (a.length + i) ↔ At needle b i := by
  unfold At
  rw [List.drop_append, List.drop_of_length_le (by omega), List.nil_append, List.length_append]
  simp

/-- Over an element that is not in it, it does not stand. -/
theorem not_at_of_getElem? {x : α} {k : Nat} (hx : x ∉ needle) (hle : i ≤ k) (hlt : k < i + needle.length)
    (hk : data[k]? = some x) : ¬ At needle data i := by
  rintro ⟨-, rest, h⟩
  have hget : needle[k - i]? = some x := by
    have hleft : (needle ++ rest)[k - i]? = needle[k - i]? := List.getElem?_append_left (by omega)
    rw [← hleft, h, List.getElem?_drop, ← hk]
    congr 1
    omega
  exact hx (List.mem_of_getElem? hget)

end

variable [DecidableEq α]

instance (needle data : List α) (i : Nat) : Decidable (At needle data i) := inferInstanceAs (Decidable (_ ∧ _))

/-! ### Looking for every place -/

/-- The first place from `start` on. -/
def find (needle data : List α) (start : Nat) : Option Nat :=
  (List.range' start (data.length + 1 - start)).find? fun i => At needle data i

/-- One place after the other, from `start` on. -/
def findFrom (needle data : List α) : Nat → Nat → List Nat
  | 0, _ => []
  | n + 1, start =>
    match find needle data start with
    | none => []
    | some found => found :: findFrom needle data n (found + 1)

/-- Every place. A list of `n` elements has `n + 1` at most. -/
def findAll (needle data : List α) : List Nat := findFrom needle data (data.length + 1) 0

section
variable {needle data : List α} {start found i n : Nat}

theorem find_eq_some : find needle data start = some found ↔
    start ≤ found ∧ At needle data found ∧ ∀ i, start ≤ i → i < found → ¬ At needle data i := by
  unfold find
  rw [List.find?_range'_eq_some]
  simp only [decide_eq_true_eq, Bool.not_eq_true', decide_eq_false_iff_not, List.mem_range'_1]
  constructor
  · rintro ⟨hat, ⟨hle, -⟩, hmin⟩
    exact ⟨hle, hat, hmin⟩
  · rintro ⟨hle, hat, hmin⟩
    have := hat.1
    exact ⟨hat, ⟨hle, by omega⟩, hmin⟩

theorem find_eq_none (h : find needle data start = none) (hi : start ≤ i) : ¬ At needle data i := by
  intro hat
  have := hat.1
  unfold find at h
  have hnot := List.find?_eq_none.mp h i (List.mem_range'_1.mpr ⟨hi, by omega⟩)
  simp [hat] at hnot

theorem mem_findFrom (hn : data.length < start + n) : i ∈ findFrom needle data n start ↔ start ≤ i ∧ At needle data i := by
  induction n generalizing start with
  | zero =>
    simp only [findFrom, List.not_mem_nil, false_iff, not_and]
    intro hle hat
    have := hat.1
    omega
  | succ n ih =>
    unfold findFrom
    cases hf : find needle data start with
    | none => simpa using fun hle => find_eq_none hf hle
    | some found =>
      obtain ⟨hle, hat, hmin⟩ := find_eq_some.mp hf
      rw [List.mem_cons, ih (by omega)]
      constructor
      · rintro (rfl | ⟨hlt, h⟩)
        · exact ⟨hle, hat⟩
        · exact ⟨by omega, h⟩
      · rintro ⟨hi, h⟩
        rcases Nat.lt_trichotomy i found with hlt | rfl | hlt
        · exact absurd h (hmin i hi hlt)
        · exact Or.inl rfl
        · exact Or.inr ⟨hlt, h⟩

theorem mem_findAll : i ∈ findAll needle data ↔ At needle data i := by
  rw [findAll, mem_findFrom (by omega)]
  simp

theorem findFrom_nodup (n start : Nat) (hn : data.length < start + n) : (findFrom needle data n start).Nodup := by
  induction n generalizing start with
  | zero => exact List.nodup_nil
  | succ n ih =>
    unfold findFrom
    cases hf : find needle data start with
    | none => exact List.nodup_nil
    | some found =>
      have hle := (find_eq_some.mp hf).1
      refine List.nodup_cons.mpr ⟨fun hmem => ?_, ih _ (by omega)⟩
      have := ((mem_findFrom (by omega)).mp hmem).1
      omega

/-- There is one place only, and it is `i`. -/
theorem findAll_eq_singleton : findAll needle data = [i] ↔ ∀ j, At needle data j ↔ j = i := by
  constructor
  · intro h j
    rw [← mem_findAll, h, List.mem_singleton]
  · intro h
    have hnodup : (findAll needle data).Nodup := findFrom_nodup _ _ (by omega)
    refine List.perm_singleton.mp ((List.perm_ext_iff_of_nodup hnodup (List.nodup_singleton i)).mpr fun j => ?_)
    rw [mem_findAll, h, List.mem_singleton]

end

end Occurs
