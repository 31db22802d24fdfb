import Mathlib.Algebra.Order.Archimedean.Basic
import Mathlib.Algebra.Order.Floor.Ring
import Mathlib.Data.Int.Log
import Mathlib.Data.Rat.Floor
import Mathlib.Tactic.Linarith
import Mathlib.Tactic.NormNum

/-! Rationals rounded to floats of double precision, as far as their exponents are within
range: to the nearest one, and between two of them to the even one. -/
namespace Binary64

/-- The nearest integer, and between two of them the even one. -/
def nearestInt (value : ℚ) : ℤ :=
  let rest := value - ⌊value⌋
  if rest < 1 / 2 ∨ rest = 1 / 2 ∧ ⌊value⌋ % 2 = 0 then ⌊value⌋ else ⌊value⌋ + 1

/-- What the last of 53 places is worth. -/
def lastPlace (value : ℚ) : ℚ := 2 ^ (Int.log 2 |value| - 52)

def nearest (value : ℚ) : ℚ := nearestInt (value / lastPlace value) * lastPlace value

theorem abs_nearestInt_sub_le (value : ℚ) : |(nearestInt value : ℚ) - value| ≤ 1 / 2 := by
  have hBelow := Int.floor_le value
  have hAbove := Int.lt_floor_add_one value
  rw [abs_le]
  simp only [nearestInt]
  split_ifs with h
  · have hRest : value - ⌊value⌋ ≤ 1 / 2 := by
      rcases h with hLess | ⟨hHalf, _⟩
      · exact hLess.le
      · exact hHalf.le
    constructor <;> linarith
  · have hRest : 1 / 2 ≤ value - ⌊value⌋ := by
      rw [not_or] at h
      exact le_of_not_gt h.1
    push_cast
    constructor <;> linarith

theorem lastPlace_pos (value : ℚ) : 0 < lastPlace value := zpow_pos two_pos _

/-- Rounding is off by half of the last place at most. -/
theorem abs_nearest_sub_le (value : ℚ) : |nearest value - value| ≤ lastPlace value / 2 := by
  have hPos := lastPlace_pos value
  have hScaled : nearest value - value =
      ((nearestInt (value / lastPlace value) : ℚ) - value / lastPlace value) *
        lastPlace value := by
    rw [nearest, sub_mul, div_mul_cancel₀ value hPos.ne']
  rw [hScaled, abs_mul, abs_of_pos hPos]
  calc |(nearestInt (value / lastPlace value) : ℚ) - value / lastPlace value| * lastPlace value
      ≤ 1 / 2 * lastPlace value :=
        mul_le_mul_of_nonneg_right (abs_nearestInt_sub_le _) hPos.le
    _ = lastPlace value / 2 := by ring

/-- Below a power of two, the last place is worth that power without its 53 bits. -/
theorem lastPlace_le {value : ℚ} {bits : ℤ} (hPos : 0 < value) (h : value < 2 ^ bits) :
    lastPlace value ≤ 2 ^ (bits - 53) := by
  have hTwo : (1 : ℕ) < 2 := one_lt_two
  have hLog : Int.log 2 |value| < bits := by
    rw [abs_of_pos hPos]
    exact (Int.lt_zpow_iff_log_lt hTwo hPos).mp (by exact_mod_cast h)
  exact zpow_le_zpow_right₀ one_le_two (by omega)

/-- Rationals that are more than a last place apart keep their order. -/
theorem nearest_lt_nearest {first second place : ℚ} (hFirst : lastPlace first ≤ place)
    (hSecond : lastPlace second ≤ place) (h : first + place < second) :
    nearest first < nearest second := by
  have hLow := (abs_le.mp (abs_nearest_sub_le first)).2
  have hHigh := (abs_le.mp (abs_nearest_sub_le second)).1
  linarith

end Binary64
