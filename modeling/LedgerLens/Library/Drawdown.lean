import Mathlib.Algebra.Order.Field.Basic
import Mathlib.Data.List.Induction
import Mathlib.Order.Bounds.Basic
import Mathlib.Tactic.FieldSimp
import Mathlib.Tactic.Ring

namespace Drawdown
universe u
variable {K : Type u} [Field K]

/-- The relative changes from a price to the same or a later one. -/
def changes (prices : List K) : Set K :=
  {change | ∃ i j : Nat, i ≤ j ∧ ∃ earlier later,
    prices[i]? = some earlier ∧ prices[j]? = some later ∧ change = later / earlier - 1}

/-- The relative change of every price to the next one. -/
def returns (prices : List K) : List K :=
  (prices.zip prices.tail).map fun (previous, current) => current / previous - 1

theorem mem_changes_concat {prices : List K} {price change : K} :
    change ∈ changes (prices ++ [price]) ↔
      change ∈ changes prices ∨ ∃ earlier ∈ prices ++ [price], change = price / earlier - 1 := by
  constructor
  · rintro ⟨i, j, order, earlier, later, first, second, rfl⟩
    by_cases last : j < prices.length
    · rw [List.getElem?_append_left (order.trans_lt last)] at first
      rw [List.getElem?_append_left last] at second
      exact .inl ⟨i, j, order, earlier, later, first, second, rfl⟩
    · rw [List.getElem?_append_right (not_lt.mp last)] at second
      obtain rfl := List.mem_singleton.mp (List.mem_of_getElem? second)
      exact .inr ⟨earlier, List.mem_of_getElem? first, rfl⟩
  · rintro (⟨i, j, order, earlier, later, first, second, rfl⟩ | ⟨earlier, member, rfl⟩)
    · obtain ⟨early, _⟩ := List.getElem?_eq_some_iff.mp first
      obtain ⟨late, _⟩ := List.getElem?_eq_some_iff.mp second
      refine ⟨i, j, order, earlier, later, ?_, ?_, rfl⟩
      · rwa [List.getElem?_append_left early]
      · rwa [List.getElem?_append_left late]
    · obtain ⟨i, bound, rfl⟩ := List.getElem_of_mem member
      refine ⟨i, prices.length, ?_, _, price, List.getElem?_eq_getElem bound, by simp, rfl⟩
      rw [List.length_append, List.length_singleton] at bound
      exact Nat.lt_succ_iff.mp bound

variable [LinearOrder K]

/-- One step of a running peak with the worst change from it. -/
def track (state : K × K) (price : K) : K × K :=
  let peak := max state.1 price
  (peak, min state.2 (price / peak - 1))

/-- One step along a wealth index, with its peak and the worst change from it. -/
def compound (state : K × K × K) (periodReturn : K) : K × K × K :=
  let wealth := state.1 * (1 + periodReturn)
  let peak := max state.2.1 wealth
  (wealth, peak, min state.2.2 (wealth / peak - 1))

theorem compound_wealth (periodReturns : List K) (state : K × K × K) :
    (periodReturns.foldl compound state).1 =
      periodReturns.foldl (fun wealth periodReturn => wealth * (1 + periodReturn)) state.1 :=
  (List.foldl_hom Prod.fst fun _ _ => rfl).symm

variable [IsStrictOrderedRing K]

/-- A change is never a complete loss, and the worst one never a gain. -/
theorem isLeast_changes_bounds {prices : List K} {worst : K} (nonempty : prices ≠ [])
    (positive : ∀ price ∈ prices, 0 < price) (least : IsLeast (changes prices) worst) : -1 < worst ∧ worst ≤ 0 := by
  constructor
  · obtain ⟨i, j, _, earlier, later, first, second, rfl⟩ := least.1
    have ratio := div_pos (positive later (List.mem_of_getElem? second)) (positive earlier (List.mem_of_getElem? first))
    exact neg_lt_sub_iff_lt_add.mpr (lt_add_of_pos_right 1 ratio)
  · obtain ⟨price, rest, rfl⟩ := List.exists_cons_of_ne_nil nonempty
    refine least.2 ⟨0, 0, le_rfl, price, price, rfl, rfl, ?_⟩
    exact (sub_eq_zero.mpr (div_self (positive price List.mem_cons_self).ne')).symm

/-- One pass with a running peak finds the worst change of all pairs. -/
theorem isLeast_track {first : K} {rest : List K} (positive : ∀ price ∈ first :: rest, 0 < price) :
    IsGreatest {price | price ∈ first :: rest} (rest.foldl track (first, 0)).1 ∧
      IsLeast (changes (first :: rest)) (rest.foldl track (first, 0)).2 := by
  induction rest using List.reverseRecOn with
  | nil =>
    refine ⟨⟨List.mem_cons_self, fun price member => (List.mem_singleton.mp member).le⟩,
      ⟨0, 0, le_rfl, first, first, rfl, rfl, ?_⟩, ?_⟩
    · exact (sub_eq_zero.mpr (div_self (positive first List.mem_cons_self).ne')).symm
    · rintro _ ⟨i, j, _, earlier, later, early, late, rfl⟩
      rw [List.mem_singleton.mp (List.mem_of_getElem? early), List.mem_singleton.mp (List.mem_of_getElem? late)]
      exact (sub_eq_zero.mpr (div_self (positive first List.mem_cons_self).ne')).ge
  | append_singleton rest price ih =>
    rw [← List.cons_append] at positive ⊢
    obtain ⟨peak, worst⟩ := ih fun price member => positive price (List.mem_append_left _ member)
    rw [List.foldl_append]
    set state := rest.foldl track (first, 0)
    change IsGreatest _ (max state.1 price) ∧ IsLeast _ (min state.2 (price / max state.1 price - 1))
    have top : IsGreatest {earlier | earlier ∈ first :: rest ++ [price]} (max state.1 price) := by
      refine ⟨?_, fun earlier member => ?_⟩
      · rcases max_choice state.1 price with same | same <;> rw [same]
        · exact List.mem_append_left _ peak.1
        · exact List.mem_append_right _ (List.mem_singleton_self price)
      · rcases List.mem_append.mp member with before | last
        · exact le_max_of_le_left (peak.2 before)
        · exact le_max_of_le_right (List.mem_singleton.mp last).le
    refine ⟨top, ?_, fun change member => ?_⟩
    · rcases min_choice state.2 (price / max state.1 price - 1) with same | same <;> rw [same]
      · exact mem_changes_concat.mpr (.inl worst.1)
      · exact mem_changes_concat.mpr (.inr ⟨_, top.1, rfl⟩)
    · rcases mem_changes_concat.mp member with before | ⟨earlier, listed, rfl⟩
      · exact min_le_of_left_le (worst.2 before)
      · refine min_le_of_right_le (sub_le_sub_right ?_ 1)
        exact div_le_div_of_nonneg_left (positive price (by simp)).le (positive earlier listed) (top.2 listed)

/-- Along the returns of a series, the wealth index is the series in units of a price, so it has the same worst
change. -/
theorem compound_returns {unit : K} (nonzero : 0 < unit) {price peak : K} {rest : List K}
    (positive : ∀ later ∈ price :: rest, 0 < later) (worst : K) :
    (returns (price :: rest)).foldl compound (price / unit, peak / unit, worst) =
      (((price :: rest).getLast (List.cons_ne_nil price rest)) / unit, (rest.foldl track (peak, worst)).1 / unit,
        (rest.foldl track (peak, worst)).2) := by
  induction rest generalizing price peak worst with
  | nil => rfl
  | cons next rest ih =>
    obtain ⟨start, positive⟩ := List.forall_mem_cons.mp positive
    have wealth : price / unit * (1 + (next / price - 1)) = next / unit := by
      field_simp
      ring
    have top : max (peak / unit) (next / unit) = max peak next / unit :=
      (Monotone.map_max fun _ _ order => (div_le_div_iff_of_pos_right nonzero).mpr order).symm
    have step : compound (price / unit, peak / unit, worst) (next / price - 1) =
        (next / unit, max peak next / unit, min worst (next / max peak next - 1)) := by
      simp only [compound, wealth, top, div_div_div_cancel_right₀ nonzero.ne']
    change (returns (next :: rest)).foldl compound (compound (price / unit, peak / unit, worst) (next / price - 1)) = _
    rw [step, ih positive, List.getLast_cons_cons]
    rfl

end Drawdown
