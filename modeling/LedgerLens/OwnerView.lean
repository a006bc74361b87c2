import LedgerLens.SoundLedger

namespace LedgerLens
open Decimal (Context)
variable {F α : Type}

/-- Everything in a store that belongs to one user, in the order it was stored. -/
structure OwnerView (F : Type) where
  portfolios : List (UUID × Portfolio)
  transactions : List Transaction
  analysisSnapshots : List (AnalysisSnapshot F)

def Store.viewOf (user : UUID) (store : Store F) : OwnerView F where
  portfolios := store.portfolios.entries.filter fun entry => entry.2.ownerId = user
  transactions := store.transactions.filter fun t => store.owns user t.portfolioId
  analysisSnapshots := store.analysisSnapshots.filter fun snapshot => store.owns user snapshot.portfolioId

theorem Store.owns_iff {store : Store F} {user portfolioId : UUID} :
    store.owns user portfolioId ↔ ∃ portfolio, (portfolioId, portfolio) ∈ (store.viewOf user).portfolios := by
  simp only [owns, Option.any_eq_true, Dict.get?_eq_some, viewOf, List.mem_filter,
    decide_eq_true_eq]

/-- The ownership check can be made from the user's own data. -/
theorem requireOwned_of_view {store other : Store F} {user : UUID} (same : store.viewOf user = other.viewOf user)
    (portfolioId : UUID) :
    requireOwned user portfolioId (store.portfolios.get? portfolioId) =
      requireOwned user portfolioId (other.portfolios.get? portfolioId) := by
  have transfer : ∀ {left right : Store F}, left.viewOf user = right.viewOf user → ∀ portfolio,
      requireOwned user portfolioId (left.portfolios.get? portfolioId) = .ok portfolio →
        requireOwned user portfolioId (right.portfolios.get? portfolioId) = .ok portfolio := by
    intro left right same portfolio owned
    obtain ⟨found, owner⟩ := requireOwned_eq_ok.mp owned
    have listed : (portfolioId, portfolio) ∈ (left.viewOf user).portfolios :=
      List.mem_filter.mpr ⟨Dict.get?_eq_some.mp found, by simpa using owner⟩
    rw [same] at listed
    obtain ⟨member, _⟩ := List.mem_filter.mp listed
    exact requireOwned_eq_ok.mpr ⟨Dict.get?_eq_some.mpr member, owner⟩
  have refused : ∀ {found : Option Portfolio} {raised}, requireOwned user portfolioId found = .error raised →
      raised = .portfolioNotFound portfolioId := by
    intro found raised failed
    cases found with
    | none => exact (Except.error.inj failed).symm
    | some portfolio =>
      simp only [requireOwned] at failed
      split at failed
      · exact (Except.error.inj failed).symm
      · cases failed
  cases left : requireOwned user portfolioId (store.portfolios.get? portfolioId) with
  | ok portfolio => exact (transfer same portfolio left).symm
  | error raised =>
    cases right : requireOwned user portfolioId (other.portfolios.get? portfolioId) with
    | ok portfolio => rw [transfer same.symm portfolio right] at left; cases left
    | error other => rw [refused left, refused right]

theorem owns_of_view {store other : Store F} {user : UUID} (same : store.viewOf user = other.viewOf user)
    (portfolioId : UUID) : store.owns user portfolioId = other.owns user portfolioId := by
  rw [Bool.eq_iff_iff, Store.owns_iff, Store.owns_iff, same]

/-- The rows of an owned portfolio can be read off the user's own data. -/
theorem rows_of_view {store other : Store F} {user portfolioId : UUID}
    (same : store.viewOf user = other.viewOf user) (owned : store.owns user portfolioId) :
    store.rows portfolioId = other.rows portfolioId := by
  have own : ∀ {kept : Store F}, kept.owns user portfolioId →
      kept.rows portfolioId = rowsOf portfolioId (kept.viewOf user).transactions := by
    intro kept owned
    unfold Store.rows rowsOf Store.viewOf
    rw [List.filter_filter]
    refine List.filter_congr fun t _ => ?_
    by_cases mine : t.portfolioId = portfolioId
    · simp [mine, owned]
    · simp [mine]
  rw [own owned, own (owns_of_view same portfolioId ▸ owned), same]

theorem snapshots_of_view {store other : Store F} {user portfolioId : UUID}
    (same : store.viewOf user = other.viewOf user) (owned : store.owns user portfolioId) :
    (store.analysisSnapshots.filter fun snapshot => snapshot.portfolioId = portfolioId) =
      other.analysisSnapshots.filter fun snapshot => snapshot.portfolioId = portfolioId := by
  have own : ∀ {kept : Store F}, kept.owns user portfolioId →
      (kept.analysisSnapshots.filter fun snapshot => snapshot.portfolioId = portfolioId) =
        (kept.viewOf user).analysisSnapshots.filter fun snapshot => snapshot.portfolioId = portfolioId := by
    intro kept owned
    unfold Store.viewOf
    rw [List.filter_filter]
    refine List.filter_congr fun snapshot _ => ?_
    by_cases mine : snapshot.portfolioId = portfolioId
    · simp [mine, owned]
    · simp [mine]
  rw [own owned, own (owns_of_view same portfolioId ▸ owned), same]

/-- Two worlds that one user cannot tell apart. -/
structure Alike (user : UUID) (left right : World F) : Prop where
  view : left.store.viewOf user = right.store.viewOf user
  calls : left.calls = right.calls

/-- Two such worlds in which the user owns a portfolio. -/
def AlikeOn (user portfolioId : UUID) (left right : World F) : Prop :=
  Alike user left right ∧ left.store.owns user portfolioId

abbrev Blind (user : UUID) (x : Service F α) : Prop := Program.Respects (Alike user) x

abbrev BlindOn (user portfolioId : UUID) (x : Service F α) : Prop :=
  Program.Respects (AlikeOn user portfolioId) x

theorem blind_requireOwned (user portfolioId : UUID) : Blind (F := F) user (do
    let portfolio ← PortfolioRepository.get portfolioId
    Program.lift (requireOwned user portfolioId portfolio)) :=
  ⟨fun _ _ alike => requireOwned_of_view alike.view portfolioId, fun _ _ alike => alike⟩

/-- What comes after the ownership check only has to be blind where the portfolio is owned. -/
theorem Blind.owned {user portfolioId : UUID} {rest : Portfolio → Service F α}
    (within : ∀ portfolio, BlindOn user portfolioId (rest portfolio)) : Blind user (do
      let portfolio ← PortfolioRepository.get portfolioId
      let portfolio ← Program.lift (requireOwned user portfolioId portfolio)
      rest portfolio) := by
  rw [← Program.bind_assoc]
  refine (blind_requireOwned user portfolioId).guard (fun world portfolio next checked => ?_) within
  have passed : requireOwned user portfolioId (world.store.portfolios.get? portfolioId) = .ok portfolio :=
    congrArg Prod.fst checked
  have kept : world = next := congrArg Prod.snd checked
  exact kept ▸ owns_of_requireOwned passed

section Reads
variable {user portfolioId : UUID} {left right : World F}

theorem AlikeOn.ledger (alike : AlikeOn user portfolioId left right) :
    left.store.ledger portfolioId = right.store.ledger portfolioId :=
  congrArg ledgerSorted (rows_of_view alike.1.view alike.2)

theorem AlikeOn.byExternalId (alike : AlikeOn user portfolioId left right) (externalId : String) :
    left.store.byExternalId portfolioId externalId = right.store.byExternalId portfolioId externalId := by
  have among : ∀ store : Store F, store.byExternalId portfolioId externalId =
      (store.rows portfolioId).find? fun t => t.externalId = externalId := by
    intro store
    rw [Store.byExternalId, Store.rows, rowsOf, List.find?_filter]
    simp only [decide_eq_true_eq]
  rw [among, among, rows_of_view alike.1.view alike.2]

end Reads

section Writes
variable {user : UUID} {left right : World F}

theorem Alike.record (alike : Alike user left right) (call : OutsideCall F) :
    Alike user (left.record call) (right.record call) :=
  ⟨alike.view, congrArg (· ++ [call]) alike.calls⟩

theorem viewOf_addTransaction (store : Store F) (user : UUID) (t : Transaction) :
    (store.addTransaction t).viewOf user =
      { store.viewOf user with
        transactions := (store.viewOf user).transactions ++ if store.owns user t.portfolioId then [t] else [] } := by
  have appended : (store.transactions ++ [t]).filter (fun t => store.owns user t.portfolioId) =
      (store.viewOf user).transactions ++ if store.owns user t.portfolioId then [t] else [] := by
    rw [List.filter_append, List.filter_singleton, Bool.cond_eq_ite]
    rfl
  exact congrArg (fun rows => { store.viewOf user with transactions := rows }) appended

theorem viewOf_addSnapshot (store : Store F) (user : UUID) (snapshot : AnalysisSnapshot F) :
    (store.addSnapshot snapshot).viewOf user =
      { store.viewOf user with
        analysisSnapshots := (store.viewOf user).analysisSnapshots ++
          if store.owns user snapshot.portfolioId then [snapshot] else [] } := by
  have appended : (store.analysisSnapshots ++ [snapshot]).filter (fun other => store.owns user other.portfolioId) =
      (store.viewOf user).analysisSnapshots ++ if store.owns user snapshot.portfolioId then [snapshot] else [] := by
    rw [List.filter_append, List.filter_singleton, Bool.cond_eq_ite]
    rfl
  exact congrArg (fun rows => { store.viewOf user with analysisSnapshots := rows }) appended

theorem Alike.addTransaction (alike : Alike user left right) (t : Transaction) :
    Alike user (left.update fun store => store.addTransaction t)
      (right.update fun store => store.addTransaction t) := by
  refine ⟨?_, alike.calls⟩
  rw [World.update_store, World.update_store, viewOf_addTransaction, viewOf_addTransaction, alike.view,
    owns_of_view alike.view]

theorem Alike.addSnapshot (alike : Alike user left right) (snapshot : AnalysisSnapshot F) :
    Alike user (left.update fun store => store.addSnapshot snapshot)
      (right.update fun store => store.addSnapshot snapshot) := by
  refine ⟨?_, alike.calls⟩
  rw [World.update_store, World.update_store, viewOf_addSnapshot, viewOf_addSnapshot, alike.view,
    owns_of_view alike.view]

end Writes
end LedgerLens
