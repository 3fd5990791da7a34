import Mathlib.Algebra.Order.Group.Int
import Mathlib.Algebra.Order.Group.MinMax
import Mathlib.Tactic.Abel

/-! Dates on clocks that have nothing to do with each other: a date is moved from one clock to another so that it is
as long ago there. Then the subtraction of machine integers that stops at the ends of their range. -/

namespace Clock

variable {G : Type} [AddCommGroup G] [LinearOrder G]

/-- How long ago a date is on its clock. A date that is yet to come is not at all. -/
def age (now date : G) : G := max 0 (now - date)

/-- A date on the clock that reads `there`, as long ago as it is on the one that reads `here`. -/
def moved (date here there : G) : G := there - age here date

variable {date here there later now : G}

theorem age_nonneg : 0 ≤ age now date := le_max_left _ _

theorem sub_moved : now - moved date here there = (now - there) + age here date := by
  unfold moved
  abel

/-- As time goes on the date grows older, and if the clock is set back it is new again at most. -/
theorem age_moved : age later (moved date here there) = max 0 (age here date + (later - there)) := by
  rw [age, sub_moved, add_comm]

/-- There and back, or on to a third clock: the age is what it was, and what the clock in between went on. -/
theorem sub_moved_moved {here' there' : G} :
    there' - moved (moved date here there) here' there' = max 0 (age here date + (here' - there)) := by
  rw [sub_moved, sub_self, zero_add, age_moved]

end Clock

/-! ### Machine integers -/

namespace Int64

/-- The difference, or the end of the range that it is past. -/
def saturatingSub (a b : Int64) : Int64 := ofIntClamp (a.toInt - b.toInt)

variable {a b : Int64}

theorem toInt_saturatingSub :
    (saturatingSub a b).toInt = max (-2 ^ 63) (min (2 ^ 63 - 1) (a.toInt - b.toInt)) := by
  have hmin : minValue.toInt = -2 ^ 63 := by decide
  have hmax : maxValue.toInt = 2 ^ 63 - 1 := by decide
  unfold saturatingSub ofIntClamp
  split_ifs with hlow hhigh
  · rw [toInt_ofIntLE]
    omega
  · omega
  · omega

theorem toInt_max : (max a b).toInt = max a.toInt b.toInt := by
  rw [show max a b = if a ≤ b then b else a from rfl]
  split_ifs with h
  · exact (max_eq_right (le_iff_toInt_le.mp h)).symm
  · refine (max_eq_left ?_).symm
    exact Int.le_of_not_le fun hle => h (le_iff_toInt_le.mpr hle)

end Int64
