import LedgerLens.Library.Decimal

namespace Rounding
variable {base precision : ℕ} (base_gt : 1 < base)
include base_gt

/-- A power of the base moves every digit by as many places. -/
theorem log_zpow_mul {x : ℚ} (positive : 0 < x) (k : ℤ) : Int.log base ((base : ℚ) ^ k * x) = k + Int.log base x := by
  have base_pos : (0 : ℚ) < base := by exact_mod_cast zero_lt_one.trans base_gt
  have shift_pos : (0 : ℚ) < (base : ℚ) ^ k := zpow_pos base_pos k
  refine eq_of_forall_le_iff fun n => ?_
  rw [← Int.zpow_le_iff_le_log base_gt (mul_pos shift_pos positive), ← sub_le_iff_le_add',
    ← Int.zpow_le_iff_le_log base_gt positive, zpow_sub₀ base_pos.ne', div_le_iff₀' shift_pos]

theorem lastPlace_zpow_mul {x : ℚ} (nonzero : x ≠ 0) (k : ℤ) :
    lastPlace base precision ((base : ℚ) ^ k * x) = k + lastPlace base precision x := by
  have base_pos : (0 : ℚ) < base := by exact_mod_cast zero_lt_one.trans base_gt
  rw [lastPlace, lastPlace, abs_mul, abs_of_pos (zpow_pos base_pos k), log_zpow_mul base_gt (abs_pos.mpr nonzero)]
  ring

/-- Rounding to so many digits commutes with a power of the base. -/
theorem round_zpow_mul (k : ℤ) (x : ℚ) :
    round base precision ((base : ℚ) ^ k * x) = (base : ℚ) ^ k * round base precision x := by
  have base_pos : (0 : ℚ) < base := by exact_mod_cast zero_lt_one.trans base_gt
  have shift : (base : ℚ) ^ k ≠ 0 := (zpow_pos base_pos k).ne'
  by_cases nonzero : x = 0
  · subst nonzero
    rw [mul_zero, round_zero, mul_zero]
  · rw [round, lastPlace_zpow_mul base_gt nonzero, zpow_add₀ base_pos.ne', mul_div_mul_left _ _ shift, round]
    ring

end Rounding

namespace Decimal

/-- The second number is the first one times a factor. -/
structure Rescaled (factor : ℚ) (x y : Decimal) : Prop where
  finite : y.isFinite = x.isFinite
  value : y.value = factor * x.value

/-- Other spellings are rescaled as well. -/
theorem Rescaled.respell {factor : ℚ} {x y x' y' : Decimal} (rescaled : Rescaled factor x y) (left : Rescaled 1 x x')
    (right : Rescaled 1 y y') : Rescaled factor x' y' where
  finite := by rw [right.finite, rescaled.finite, left.finite]
  value := by rw [right.value, one_mul, rescaled.value, left.value, one_mul]

namespace Context

/-- A change of unit that the rounding does not notice. -/
structure Scales (ctx : Context) (factor : ℚ) : Prop where
  positive : 0 < factor
  round_mul : ∀ x, ctx.round (factor * x) = factor * ctx.round x

theorem exact_scales {factor : ℚ} (positive : 0 < factor) : exact.Scales factor := ⟨positive, fun _ => rfl⟩

/-- Where so many digits are kept, the unit can be changed by powers of ten. -/
theorem rounded_scales (precision : ℕ) (k : ℤ) : (rounded precision).Scales (10 ^ k) where
  positive := zpow_pos (by norm_num) k
  round_mul x := Rounding.round_zpow_mul (by norm_num : 1 < 10) k x

namespace Scales
variable {ctx : Context} {factor : ℚ} (scales : ctx.Scales factor)
include scales

theorem add (x y : ℚ) : ctx.add (factor * x) (factor * y) = factor * ctx.add x y := by
  rw [Context.add, ← mul_add, scales.round_mul, Context.add]

theorem sub (x y : ℚ) : ctx.sub (factor * x) (factor * y) = factor * ctx.sub x y := by
  rw [Context.sub, ← mul_sub, scales.round_mul, Context.sub]

theorem neg (x : ℚ) : ctx.neg (factor * x) = factor * ctx.neg x := by
  rw [Context.neg, ← mul_neg, scales.round_mul, Context.neg]

theorem sum (xs : List ℚ) : ctx.sum (xs.map (factor * ·)) = factor * ctx.sum xs := by
  have accumulated (start : ℚ) : (xs.map (factor * ·)).foldl ctx.add (factor * start) =
      factor * xs.foldl ctx.add start := by
    induction xs generalizing start with
    | nil => rfl
    | cons x xs ih => rw [List.map_cons, List.foldl_cons, List.foldl_cons, scales.add, ih]
  have whole := accumulated 0
  rwa [mul_zero] at whole

/-- A product whose factors are counted in units of which this one is made up. -/
theorem mul {f g : ℚ} (made : f * g = factor) (x y : ℚ) : ctx.mul (f * x) (g * y) = factor * ctx.mul x y := by
  rw [Context.mul, mul_mul_mul_comm, made, scales.round_mul, Context.mul]

/-- A ratio has no unit. -/
theorem div (x y : ℚ) : ctx.div (factor * x) (factor * y) = ctx.div x y := by
  rw [Context.div, mul_div_mul_left _ _ scales.positive.ne', Context.div]

theorem lt (x y : ℚ) : factor * x < factor * y ↔ x < y := mul_lt_mul_iff_right₀ scales.positive

theorem pos (x : ℚ) : 0 < factor * x ↔ 0 < x := mul_pos_iff_of_pos_left scales.positive

theorem neg_iff (x : ℚ) : factor * x < 0 ↔ x < 0 := by
  rw [← not_le, ← not_le, mul_nonneg_iff_of_pos_left scales.positive]

theorem nonpos (x : ℚ) : factor * x ≤ 0 ↔ x ≤ 0 := by
  rw [← not_lt, scales.pos, not_lt]

theorem eq_zero (x : ℚ) : factor * x = 0 ↔ x = 0 := by
  rw [mul_eq_zero, or_iff_right scales.positive.ne']

end Scales
end Context
end Decimal
