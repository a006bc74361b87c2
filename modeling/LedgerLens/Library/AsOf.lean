import Mathlib.Data.List.MinMax
import Mathlib.Data.List.Nodup

namespace AsOf
universe u v
variable {α : Type u} {κ : Type v} [LinearOrder κ] {time : α → κ} {observations : List α}

/-- The observation with the greatest time up to a bound. -/
def latest (time : α → κ) (observations : List α) (bound : κ) : Option α :=
  (observations.filter fun observation => time observation ≤ bound).argmax time

theorem latest_eq_none {bound : κ} :
    latest time observations bound = none ↔ ∀ observation ∈ observations, bound < time observation := by
  simp [latest, List.argmax_eq_none, List.filter_eq_nil_iff]

theorem latest_isSome {bound : κ} :
    (latest time observations bound).isSome ↔ ∃ observation ∈ observations, time observation ≤ bound := by
  rw [← not_iff_not, Option.not_isSome_iff_eq_none, latest_eq_none]
  simp only [not_exists, not_and, not_le]

theorem latest_mem {bound : κ} {observation : α} (found : latest time observations bound = some observation) :
    observation ∈ observations ∧ time observation ≤ bound ∧
      ∀ other ∈ observations, time other ≤ bound → time other ≤ time observation := by
  obtain ⟨member, reached⟩ := List.mem_filter.mp (List.argmax_mem found)
  refine ⟨member, by simpa using reached, fun other listed early => ?_⟩
  exact List.le_of_mem_argmax (List.mem_filter.mpr ⟨listed, by simpa using early⟩) found

/-- With one observation at a time, the latest is the only one that nothing later precedes the bound. -/
theorem latest_eq_some (distinct : (observations.map time).Nodup) {bound : κ} {observation : α} :
    latest time observations bound = some observation ↔
      observation ∈ observations ∧ time observation ≤ bound ∧
        ∀ other ∈ observations, time other ≤ bound → time other ≤ time observation := by
  refine ⟨latest_mem, fun ⟨member, reached, greatest⟩ => ?_⟩
  cases found : latest time observations bound with
  | none => exact absurd reached (not_le.mpr (latest_eq_none.mp found observation member))
  | some other =>
    obtain ⟨listed, early, above⟩ := latest_mem found
    have same : time other = time observation :=
      le_antisymm (greatest other listed early) (above observation member reached)
    exact congrArg some (List.inj_on_of_nodup_map distinct listed member same)

/-- Earlier observations do not change what is the latest, once there is one. -/
theorem latest_of_filter (distinct : (observations.map time).Nodup) {start bound : κ} {observation : α}
    (found : latest time (observations.filter fun other => start ≤ time other) bound = some observation) :
    latest time observations bound = some observation := by
  obtain ⟨member, reached, greatest⟩ := latest_mem found
  obtain ⟨listed, since⟩ := List.mem_filter.mp member
  refine (latest_eq_some distinct).mpr ⟨listed, reached, fun other own early => ?_⟩
  rcases le_total start (time other) with late | before
  · exact greatest other (List.mem_filter.mpr ⟨own, decide_eq_true late⟩) early
  · exact before.trans (of_decide_eq_true since)

theorem latest_self (distinct : (observations.map time).Nodup) {observation : α}
    (member : observation ∈ observations) : latest time observations (time observation) = some observation :=
  (latest_eq_some distinct).mpr ⟨member, le_rfl, fun _ _ early => early⟩

/-- While nothing new is observed, the latest observation is carried forward. -/
theorem latest_carry {earlier bound : κ} (order : earlier ≤ bound)
    (quiet : ∀ observation ∈ observations, time observation ≤ bound → time observation ≤ earlier) :
    latest time observations bound = latest time observations earlier := by
  unfold latest
  refine congrArg (List.argmax time) (List.filter_congr fun observation member => ?_)
  exact decide_eq_decide.mpr ⟨quiet observation member, fun early => early.trans order⟩

/-- What lies beyond the bound plays no part. -/
theorem latest_congr {others : List α} {bound : κ}
    (same : (observations.filter fun observation => time observation ≤ bound) =
      others.filter fun observation => time observation ≤ bound) :
    latest time observations bound = latest time others bound :=
  congrArg (List.argmax time) same

/-- Going through a calendar that has every time observed, the latest observation is the one made on
the day, or else the one carried over from the day before. -/
theorem latest_next (distinct : (observations.map time).Nodup) {seen later : List κ} {bound : κ}
    (ascending : (seen ++ bound :: later).Pairwise (· < ·))
    (complete : ∀ observation ∈ observations, time observation ∈ seen ++ bound :: later) :
    latest time observations bound =
      (observations.find? fun observation => time observation = bound).or
        (seen.getLast?.bind fun earlier => latest time observations earlier) := by
  cases today : observations.find? fun observation => time observation = bound with
  | some observation =>
    have member := List.mem_of_find?_eq_some today
    have same : time observation = bound := by simpa using List.find?_some today
    rw [Option.some_or, ← same]
    exact latest_self distinct member
  | none =>
    rw [Option.none_or]
    have absent : ∀ observation ∈ observations, time observation ≠ bound := by
      intro observation member
      simpa using List.find?_eq_none.mp today observation member
    obtain ⟨_, afterwards, across⟩ := List.pairwise_append.mp ascending
    have before : ∀ observation ∈ observations, time observation ≤ bound → time observation ∈ seen := by
      intro observation member early
      rcases List.mem_append.mp (complete observation member) with old | new
      · exact old
      · rcases List.mem_cons.mp new with same | beyond
        · exact absurd same (absent observation member)
        · exact absurd early (not_le.mpr (List.rel_of_pairwise_cons afterwards beyond))
    cases seen using List.reverseRecOn with
    | nil =>
      refine latest_eq_none.mpr fun observation member => not_le.mp fun early => ?_
      cases before observation member early
    | append_singleton earlierDays earlier =>
      rw [List.getLast?_concat, Option.bind_some]
      have order : earlier < bound := across earlier (by simp) bound (by simp)
      refine latest_carry order.le fun observation member early => ?_
      rcases List.mem_append.mp (before observation member early) with old | last
      · have sorted := (List.pairwise_append.mp ascending).1
        exact ((List.pairwise_append.mp sorted).2.2 _ old earlier (by simp)).le
      · exact (List.mem_singleton.mp last).le

end AsOf
