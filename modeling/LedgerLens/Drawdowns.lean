import LedgerLens.Analytics
import LedgerLens.Library.Drawdown

namespace LedgerLens

/-- The checks pass only on distinct dates with finite positive prices. -/
theorem foldlM_checkPriceBar {bars : List PriceBar} {seenDates dates : List Date}
    (run : bars.foldlM checkPriceBar seenDates = .ok dates) :
    (bars.map PriceBar.date).Nodup ∧ (∀ bar ∈ bars, bar.date ∉ seenDates) ∧
      ∀ bar ∈ bars, bar.adjustedClose.isFinite ∧ 0 < bar.adjustedClose.value := by
  induction bars generalizing seenDates with
  | nil => simp
  | cons bar bars ih =>
    obtain ⟨next, checked, run⟩ := Checked.foldlM_cons_eq_ok.mp run
    obtain ⟨fresh, checked⟩ := Checked.guard_eq_ok.mp checked
    obtain ⟨usable, checked⟩ := Checked.guard_eq_ok.mp checked
    cases checked
    obtain ⟨distinct, unseen, positive⟩ := ih run
    rw [not_or, not_not, not_le] at usable
    refine ⟨?_, List.forall_mem_cons.mpr ⟨fresh, fun other member seen => ?_⟩,
      List.forall_mem_cons.mpr ⟨usable, positive⟩⟩
    · refine List.nodup_cons.mpr ⟨fun member => ?_, distinct⟩
      obtain ⟨other, listed, same⟩ := List.mem_map.mp member
      exact unseen other listed (same ▸ List.mem_cons_self)
    · exact unseen other member (List.mem_cons_of_mem _ seen)

/-- An accepted series in date order, with one finite positive price a date. -/
structure AcceptedSeries (priceBars orderedBars : List PriceBar) : Prop where
  perm : orderedBars.Perm priceBars
  ascending : orderedBars.Pairwise fun a b => a.date < b.date
  positive : ∀ bar ∈ orderedBars, 0 < bar.adjustedClose.value

theorem acceptedSeries_of_validateAndOrder {priceBars orderedBars : List PriceBar}
    (accepted : validateAndOrder priceBars = .ok orderedBars) : AcceptedSeries priceBars orderedBars := by
  obtain ⟨_, run, accepted⟩ := Checked.bind_eq_ok.mp accepted
  cases Checked.pure_eq_ok.mp accepted
  obtain ⟨distinct, _, positive⟩ := foldlM_checkPriceBar run
  refine ⟨StableSort.sortOn_perm _ _, ?_, fun bar member => (positive bar member).2⟩
  have sorted := StableSort.sortOn_sorted PriceBar.date priceBars
  exact sorted.imp₂ (fun a b order different => lt_of_le_of_ne order different) (List.pairwise_map.mp distinct)

section Exact
attribute [local instance] FloatArithmetic.rational

/-- The adjusted closes of a series. -/
def adjustedCloses (bars : List PriceBar) : List ℚ := bars.map fun bar => bar.adjustedClose.value

theorem max_eq_max (x y : ℚ) : FloatArithmetic.max x y = max x y := by
  rw [max_def_lt]
  exact if_congr decide_eq_true_iff rfl rfl

theorem min_eq_min (x y : ℚ) : FloatArithmetic.min x y = min x y := by
  rw [min_comm, min_def_lt]
  exact if_congr decide_eq_true_iff rfl rfl

theorem calculateSimpleReturns_eq {priceBars orderedBars : List PriceBar}
    (accepted : validateAndOrder priceBars = .ok orderedBars) :
    calculateSimpleReturns .exact priceBars = .ok (Drawdown.returns (adjustedCloses orderedBars)) := by
  rw [calculateSimpleReturns, accepted, Checked.ok_bind, Checked.pure_eq_ok, Drawdown.returns, adjustedCloses,
    ← List.map_tail, List.zip_map, List.map_map]
  rfl

theorem calculateMaxDrawdown_eq {priceBars rest : List PriceBar} {first : PriceBar}
    (accepted : validateAndOrder priceBars = .ok (first :: rest)) :
    calculateMaxDrawdown .exact priceBars =
      .ok (some ((adjustedCloses rest).foldl Drawdown.track (first.adjustedClose.value, (0 : ℚ))).2) := by
  rw [calculateMaxDrawdown, accepted, Checked.ok_bind, adjustedCloses, List.foldl_map]
  rfl

theorem calculateCompoundedReturn_eq {returns : List ℚ} (nonempty : returns ≠ []) :
    calculateCompoundedReturn returns = some ((returns.foldl Drawdown.compound (1, 1, 0)).1 - 1) := by
  rw [calculateCompoundedReturn, if_neg nonempty, Drawdown.compound_wealth]
  rfl

theorem calculateMaxDrawdownFromReturns_eq (returns : List ℚ) :
    calculateMaxDrawdownFromReturns returns = (returns.foldl Drawdown.compound (1, 1, 0)).2.2 := by
  let tracked (state : DrawdownState ℚ) : ℚ × ℚ × ℚ := (state.wealth, state.peak, state.maxDrawdown)
  refine congrArg (fun state => state.2.2) (List.foldl_hom tracked fun state periodReturn => ?_).symm
  simp only [tracked, Drawdown.compound, max_eq_max, min_eq_min]
  rfl

/-- Both drawdown algorithms find the worst change from a price to a later one, and the returns of a series
compound to the change from its first price to its last. -/
theorem drawdowns_agree {priceBars orderedBars : List PriceBar} (nonempty : priceBars ≠ [])
    (accepted : validateAndOrder priceBars = .ok orderedBars) :
    orderedBars.Perm priceBars ∧ (orderedBars.Pairwise fun a b => a.date < b.date) ∧
      ∃ (maxDrawdown : ℚ) (returns : List ℚ),
        calculateMaxDrawdown .exact priceBars = .ok (some maxDrawdown) ∧
        IsLeast (Drawdown.changes (adjustedCloses orderedBars)) maxDrawdown ∧ -1 < maxDrawdown ∧ maxDrawdown ≤ 0 ∧
        calculateSimpleReturns .exact priceBars = .ok returns ∧
        calculateMaxDrawdownFromReturns returns = maxDrawdown ∧
        (2 ≤ priceBars.length → ∃ first ∈ (adjustedCloses orderedBars).head?,
          ∃ last ∈ (adjustedCloses orderedBars).getLast?,
            calculateCompoundedReturn returns = some (last / first - 1)) := by
  obtain ⟨perm, ascending, positive⟩ := acceptedSeries_of_validateAndOrder accepted
  obtain ⟨first, rest, rfl⟩ : ∃ first rest, orderedBars = first :: rest :=
    List.exists_cons_of_ne_nil fun empty => nonempty (List.perm_nil.mp (empty ▸ perm.symm))
  have prices : ∀ price ∈ adjustedCloses (first :: rest), 0 < price := List.forall_mem_map.mpr positive
  have start := prices first.adjustedClose.value List.mem_cons_self
  obtain ⟨_, least⟩ := Drawdown.isLeast_track prices
  obtain ⟨above, below⟩ := Drawdown.isLeast_changes_bounds (List.cons_ne_nil _ _) prices least
  -- The wealth index of the returns is the series in units of its first price.
  have index : (Drawdown.returns (adjustedCloses (first :: rest))).foldl Drawdown.compound
      (first.adjustedClose.value / first.adjustedClose.value,
        first.adjustedClose.value / first.adjustedClose.value, 0) = _ := Drawdown.compound_returns start prices 0
  rw [div_self start.ne'] at index
  refine ⟨perm, ascending, _, _, calculateMaxDrawdown_eq accepted, least, above, below,
    calculateSimpleReturns_eq accepted, ?_, fun several => ?_⟩
  · rw [calculateMaxDrawdownFromReturns_eq]
    exact congrArg (fun state => state.2.2) index
  · obtain ⟨second, later, rfl⟩ : ∃ second later, rest = second :: later := by
      refine List.exists_cons_of_ne_nil fun empty => ?_
      rw [← perm.length_eq, empty] at several
      exact absurd several (Nat.not_succ_le_self 1)
    have change : Drawdown.returns (adjustedCloses (first :: second :: later)) ≠ [] := List.cons_ne_nil _ _
    refine ⟨_, rfl, _, List.getLast?_eq_getLast_of_ne_nil (List.cons_ne_nil _ _), ?_⟩
    rw [calculateCompoundedReturn_eq change]
    exact congrArg (fun state => some (state.1 - 1)) index

section Samples

/-- A price that rises, falls below the first one and recovers, listed out of order. -/
def sampleSeries : List PriceBar :=
  [(738888, 120), (738887, 100), (738890, 130), (738889, 90)].map fun (ordinal, price) =>
    ⟨"A", ⟨ordinal⟩, .finite false price 0⟩

theorem sample_drawdown :
    calculateMaxDrawdown .exact sampleSeries = .ok (some (-1 / 4 : ℚ)) ∧
      IsLeast (Drawdown.changes [100, 120, 90, 130]) (-1 / 4 : ℚ) := by
  have accepted : validateAndOrder sampleSeries = .ok (StableSort.sortOn PriceBar.date sampleSeries) := by
    decide +kernel
  have closes : adjustedCloses (StableSort.sortOn PriceBar.date sampleSeries) = [100, 120, 90, 130] := by
    decide +kernel
  have found : calculateMaxDrawdown .exact sampleSeries = .ok (some (-1 / 4 : ℚ)) := by decide +kernel
  obtain ⟨_, _, maxDrawdown, _, computed, least, _⟩ := drawdowns_agree (List.cons_ne_nil _ _) accepted
  cases found.symm.trans computed
  exact ⟨found, closes ▸ least⟩

end Samples
end Exact
end LedgerLens
