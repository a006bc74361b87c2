import Mathlib.Data.Int.Log
import Mathlib.Data.Rat.Floor
import Mathlib.Tactic.Linarith
import Mathlib.Tactic.FieldSimp
import Mathlib.Tactic.Positivity

namespace Rounding

/-- The nearest integer, ties to even. -/
def roundHalfEven (x : ℚ) : ℤ :=
  if Int.fract x < 1 / 2 then ⌊x⌋
  else if 1 / 2 < Int.fract x then ⌊x⌋ + 1
  else ⌊x⌋ + ⌊x⌋ % 2

@[simp] theorem roundHalfEven_intCast (n : ℤ) : roundHalfEven n = n := by
  simp [roundHalfEven]

theorem roundHalfEven_floor_or (x : ℚ) : roundHalfEven x = ⌊x⌋ ∨ roundHalfEven x = ⌊x⌋ + 1 := by
  unfold roundHalfEven
  split
  · exact .inl rfl
  · split
    · exact .inr rfl
    · omega

/-- Rounding does not leave an interval with integer ends. -/
theorem roundHalfEven_mem {x : ℚ} (low high : ℤ) (above : (low : ℚ) ≤ x) (below : x ≤ high) :
    low ≤ roundHalfEven x ∧ roundHalfEven x ≤ high := by
  have floorAbove : low ≤ ⌊x⌋ := Int.le_floor.mpr above
  rcases below.lt_or_eq with under | whole
  · have floorBelow : ⌊x⌋ < high := Int.floor_lt.mpr under
    rcases roundHalfEven_floor_or x with down | up <;> omega
  · subst whole
    rw [roundHalfEven_intCast]
    exact ⟨by exact_mod_cast above, le_rfl⟩

/-- A number that `precision` digits of the base write, times a power of the base. -/
def Fits (base precision : ℕ) (x : ℚ) : Prop :=
  ∃ coefficient exponent : ℤ, |coefficient| < (base : ℤ) ^ precision ∧ x = coefficient * (base : ℚ) ^ exponent

/-- The power of the base that the last of `precision` digits of a number counts. -/
def lastPlace (base precision : ℕ) (x : ℚ) : ℤ := Int.log base |x| + 1 - precision

/-- A number to `precision` significant digits, ties to even. -/
def round (base precision : ℕ) (x : ℚ) : ℚ :=
  roundHalfEven (x / (base : ℚ) ^ lastPlace base precision x) * (base : ℚ) ^ lastPlace base precision x

section
variable {base precision : ℕ}

@[simp] theorem round_zero : round base precision 0 = 0 := by
  have rounded := roundHalfEven_intCast 0
  rw [round, zero_div, ← Int.cast_zero, rounded, Int.cast_zero, zero_mul]

theorem fits_zero (positive : 0 < base) : Fits base precision 0 :=
  ⟨0, 0, by positivity, by simp⟩

variable (base_gt : 1 < base)
include base_gt

/-- Counted in its last place, a number has at most `precision` digits. -/
theorem abs_scaled_lt (precision : ℕ) (x : ℚ) :
    |x / (base : ℚ) ^ lastPlace base precision x| < (base : ℚ) ^ precision := by
  have base_pos : (0 : ℚ) < base := by exact_mod_cast zero_lt_one.trans base_gt
  have positive := zpow_pos base_pos (lastPlace base precision x)
  rw [abs_div, abs_of_pos positive, div_lt_iff₀ positive, ← zpow_natCast, ← zpow_add₀ base_pos.ne']
  have places : (precision : ℤ) + lastPlace base precision x = Int.log base |x| + 1 := by
    rw [lastPlace]
    omega
  rw [places]
  exact Int.lt_zpow_succ_log_self base_gt |x|

/-- The numbers that rounding leaves alone are those with few enough digits. -/
theorem round_eq_self_iff {x : ℚ} : round base precision x = x ↔ Fits base precision x := by
  have base_pos : (0 : ℚ) < base := by exact_mod_cast zero_lt_one.trans base_gt
  have positive (e : ℤ) : (0 : ℚ) < (base : ℚ) ^ e := zpow_pos base_pos e
  constructor
  · intro same
    refine ⟨_, _, ?_, same.symm⟩
    have scaled : x / (base : ℚ) ^ lastPlace base precision x =
        roundHalfEven (x / (base : ℚ) ^ lastPlace base precision x) := by
      rw [div_eq_iff (positive _).ne']
      exact same.symm
    have bounded := abs_scaled_lt base_gt precision x
    rw [scaled] at bounded
    exact_mod_cast bounded
  · rintro ⟨coefficient, exponent, bounded, rfl⟩
    by_cases zero : coefficient = 0
    · simp [zero]
    -- The last place is no higher than the exponent, so the number is a whole number of last places.
    have magnitude : |(coefficient : ℚ) * (base : ℚ) ^ exponent| < (base : ℚ) ^ (precision + exponent) := by
      rw [abs_mul, abs_of_pos (positive exponent), zpow_add₀ base_pos.ne', zpow_natCast]
      exact mul_lt_mul_of_pos_right (by exact_mod_cast bounded) (positive exponent)
    have nonzero : 0 < |(coefficient : ℚ) * (base : ℚ) ^ exponent| :=
      abs_pos.mpr (mul_ne_zero (by exact_mod_cast zero) (positive exponent).ne')
    have low : lastPlace base precision (coefficient * (base : ℚ) ^ exponent) ≤ exponent := by
      have log := (Int.lt_zpow_iff_log_lt base_gt nonzero).mp magnitude
      rw [lastPlace]
      omega
    obtain ⟨shift, above⟩ := Int.le.dest low
    have whole : (coefficient : ℚ) * (base : ℚ) ^ exponent /
        (base : ℚ) ^ lastPlace base precision (coefficient * (base : ℚ) ^ exponent) =
          ((coefficient * (base : ℤ) ^ shift : ℤ) : ℚ) := by
      rw [div_eq_iff (positive _).ne']
      nth_rewrite 1 [← above]
      rw [zpow_add₀ base_pos.ne', zpow_natCast]
      push_cast
      ring
    rw [round, whole, roundHalfEven_intCast, ← whole, div_mul_cancel₀ _ (positive _).ne']

/-- What rounding returns has few enough digits. -/
theorem round_fits (digits : 0 < precision) (x : ℚ) : Fits base precision (round base precision x) := by
  have base_pos : (0 : ℚ) < base := by exact_mod_cast zero_lt_one.trans base_gt
  have scaled := abs_lt.mp (abs_scaled_lt base_gt precision x)
  have within := roundHalfEven_mem (x := x / (base : ℚ) ^ lastPlace base precision x)
    (-(base : ℤ) ^ precision) ((base : ℤ) ^ precision) (by push_cast; exact scaled.1.le)
    (by push_cast; exact scaled.2.le)
  rcases (abs_le.mpr within).lt_or_eq with fewer | carried
  · exact ⟨_, _, fewer, rfl⟩
  -- A carry out of the first digit leaves a power of the base.
  have one : (1 : ℤ) < (base : ℤ) ^ precision := one_lt_pow₀ (by exact_mod_cast base_gt) digits.ne'
  rcases (abs_eq (by positivity)).mp carried with top | bottom
  · refine ⟨1, precision + lastPlace base precision x, by simpa using one, ?_⟩
    rw [round, top, zpow_add₀ base_pos.ne', zpow_natCast]
    push_cast
    ring
  · refine ⟨-1, precision + lastPlace base precision x, by simpa using one, ?_⟩
    rw [round, bottom, zpow_add₀ base_pos.ne', zpow_natCast]
    push_cast
    ring

theorem round_round (digits : 0 < precision) (x : ℚ) :
    round base precision (round base precision x) = round base precision x :=
  (round_eq_self_iff base_gt).mpr (round_fits base_gt digits x)

end
end Rounding
