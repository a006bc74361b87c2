import LedgerLens.ImportReports
import LedgerLens.OwnerIsolation
import LedgerLens.Payloads

namespace LedgerLens
open TransactionImportService (commitOutcome commitRow)
open Decimal (Context)
variable {F : Type} [UnicodeDatabase]

/-- What holds of the rows of every store the services can reach. -/
structure ReachedStore (store : Store F) : Prop where
  sound : SoundStore store
  built : ∀ portfolioId, ∀ t ∈ store.rows portfolioId, t.Built ∧ t.Valid

theorem Grows.reached {ctx : Context} {before after : World F} (grows : Grows ctx before after)
    (reached : ReachedStore before.store) : ReachedStore after.store where
  sound := grows.sound reached.sound
  built := grows.invariant (fun rows => ∀ t ∈ rows, t.Built ∧ t.Valid) reached.built fun _ _ accepted built =>
    List.forall_mem_append.mpr ⟨built, List.forall_mem_singleton.mpr ⟨accepted.built, accepted.valid⟩⟩

theorem reachedStore_empty : ReachedStore (F := F) {} :=
  ⟨fun _ => .nil, fun _ => by simp [Store.rows, rowsOf]⟩

/-- A later world: rows were added, and no portfolio changed hands. -/
structure Advances (ctx : Context) (before after : World F) : Prop where
  grows : Grows ctx before after
  owns : ∀ user portfolioId, before.store.owns user portfolioId → after.store.owns user portfolioId

instance (ctx : Context) : Std.Refl (Advances (F := F) ctx) := ⟨fun _ => ⟨.refl, fun _ _ owned => owned⟩⟩

instance (ctx : Context) : IsTrans (World F) (Advances ctx) where
  trans _ _ _ first second :=
    ⟨first.grows.trans second.grows, fun user id owned => second.owns user id (first.owns user id owned)⟩

theorem commitRow_advances (ctx : Context) (ownerId portfolioId : UUID) (candidate : TransactionImportCandidate)
    (fresh : Fresh) : Program.Preserves (Advances (F := F) ctx) (commitRow ctx ownerId portfolioId candidate fresh) :=
  ⟨fun world => ⟨(TransactionImportService.commitRow_grows ..).step world, fun user other owned => by
    rwa [((TransactionImportService.commitRow_touches ctx ownerId portfolioId candidate fresh).step world).owns]⟩⟩

omit [UnicodeDatabase] in
theorem assertOwned_foreign {ownerId portfolioId : UUID} {world : World F}
    (foreign : ¬ world.store.owns ownerId portfolioId) :
    (TransactionImportService.assertOwned ownerId portfolioId).run world =
      (.error (.portfolioNotFound portfolioId), world) :=
  owned_foreign (by simpa using foreign) _

section Serving
variable [FloatArithmetic F]

theorem serve_advances (ctx : Context) (wiring : Wiring) (call : Call F) :
    Program.Preserves (Advances ctx) (serve ctx wiring call) := by
  refine ⟨fun world => ⟨(serve_grows ctx wiring call).step world, fun user portfolioId owned => ?_⟩⟩
  cases about : call.request.portfolioId with
  | some own => rwa [((serve_touches ctx wiring about).step world).owns]
  | none =>
    obtain ⟨ownerId, request⟩ := call
    cases request with
    | listPortfolios limit offset =>
      have reads := (PortfolioService.list_reads (F := F) ownerId limit offset).step world
      simp only [serve, Program.map_run]
      rwa [reads]
    | createPortfolio name baseCurrency id =>
      simp only [serve, Program.map_run]
      cases found : world.store.portfolios.get? id with
      | some existing => rwa [PortfolioService.create_run_taken ownerId name baseCurrency world found]
      | none =>
        rw [PortfolioService.create_run_unused ownerId name baseCurrency world found, World.update_store,
          owns_addPortfolio]
        split
        · next same => simp [Store.owns, ← same, found] at owned
        · exact owned
    | _ => cases about

theorem runCalls_advances (ctx : Context) (wiring : Wiring) (world : World F) (calls : List (Call F)) :
    Advances ctx world (runCalls ctx wiring world calls) := by
  induction calls generalizing world with
  | nil => exact Std.Refl.refl _
  | cons call rest ih => exact IsTrans.trans _ _ _ ((serve_advances ctx wiring call).step world) (ih _)

end Serving

theorem Grows.mem {ctx : Context} {before after : World F} (grows : Grows ctx before after) {portfolioId : UUID}
    {t : Transaction} (stored : t ∈ before.store.rows portfolioId) : t ∈ after.store.rows portfolioId := by
  obtain ⟨member, own⟩ := List.mem_filter.mp stored
  exact List.mem_filter.mpr ⟨grows.keeps_rows.subset member, own⟩

/-- A stored transaction is the only one with its external id. -/
theorem SoundLedger.filter_externalId {rows : List Transaction} (sound : SoundLedger rows) {t : Transaction}
    (stored : t ∈ rows) : (rows.filter fun other => other.externalId = t.externalId) = [t] := by
  have distinct := sound.externalIds
  clear sound
  induction rows with
  | nil => cases stored
  | cons head rest ih =>
    obtain ⟨absent, tail⟩ := List.nodup_cons.mp distinct
    rcases List.mem_cons.mp stored with rfl | later
    · have others : (rest.filter fun other => other.externalId = t.externalId) = [] :=
        List.filter_eq_nil_iff.mpr fun other member same =>
          absent (List.mem_map.mpr ⟨other, member, by simpa using same⟩)
      simp [others]
    · have different : ¬ head.externalId = t.externalId := fun same =>
        absent (same ▸ List.mem_map_of_mem later)
      simp [different, ih later tail]

omit [UnicodeDatabase] in
theorem mem_rows_of_byExternalId {store : Store F} {portfolioId : UUID} {externalId : String} {t : Transaction}
    (found : store.byExternalId portfolioId externalId = some t) :
    t ∈ store.rows portfolioId ∧ t.externalId = externalId := by
  have own := List.find?_some found
  simp only [decide_eq_true_eq] at own
  exact ⟨List.mem_filter.mpr ⟨List.mem_of_find?_eq_some found, by simpa using own.1⟩, own.2⟩

theorem byExternalId_of_stored {store : Store F} {portfolioId : UUID} (sound : SoundLedger (store.rows portfolioId))
    {t : Transaction} (stored : t ∈ store.rows portfolioId) :
    store.byExternalId portfolioId t.externalId = some t := by
  have only := sound.filter_externalId stored
  rw [Store.rows, rowsOf, List.filter_filter] at only
  rw [Store.byExternalId, ← List.head?_filter]
  have same : (store.transactions.filter fun other =>
      decide (other.portfolioId = portfolioId ∧ other.externalId = t.externalId)) = [t] := by
    rw [← only]
    exact List.filter_congr fun other _ => by rw [Bool.decide_and, Bool.and_comm]
  rw [same]
  rfl

/-- How a request that carries the external id of a stored transaction has to be answered. -/
structure Retried (t : Transaction) (newTransaction : NewTransaction) (outcome : Except Error TransactionCreation) :
    Prop where
  replayed : SamePayload newTransaction t → outcome = .ok ⟨t, false⟩
  refused : ¬ SamePayload newTransaction t → ∃ raised, outcome = .error raised

theorem admit_retried (ctx : Context) {ownerId portfolioId : UUID} {newTransaction : NewTransaction} (fresh : Fresh)
    {store : Store F} {t : Transaction} (reached : ReachedStore store) (owned : store.owns ownerId portfolioId)
    (stored : t ∈ store.rows portfolioId) (carries : Text.strip newTransaction.externalId = t.externalId) :
    Retried t newTransaction (admission ctx ownerId portfolioId newTransaction fresh store) := by
  obtain ⟨built, valid⟩ := reached.built portfolioId t stored
  have found := byExternalId_of_stored (reached.sound portfolioId) stored
  have own : t.portfolioId = portfolioId := by simpa using (List.mem_filter.mp stored).2
  constructor
  · intro same
    obtain ⟨other, run, otherValid, sameStored⟩ := same.builds built valid carries fresh
    rw [own] at run
    obtain ⟨portfolio, passed⟩ := owned_of_owns owned
    obtain ⟨located, owner⟩ := requireOwned_eq_ok.mp passed
    refine admit_eq_ok.mpr ⟨portfolio, other, located, owner, run, otherValid, .inl ⟨t, ?_, ?_, rfl⟩⟩
    · rw [← sameStored.externalId]
      exact found
    · exact (sameTransactionPayload_iff valid otherValid).mpr sameStored
  · intro different
    cases decided : admission ctx ownerId portfolioId newTransaction fresh store with
    | error raised => exact ⟨raised, rfl⟩
    | ok creation =>
      exfalso
      obtain ⟨portfolio, other, _, _, run, otherValid, outcome⟩ := admit_eq_ok.mp decided
      have from_request := BuiltFrom.of_eq_ok run
      rw [from_request.externalId_eq, carries, found] at outcome
      rcases outcome with ⟨existing, located, same, _⟩ | ⟨absent, _⟩
      · cases located
        exact different (.of_same from_request otherValid ((sameTransactionPayload_iff valid otherValid).mp same))
      · cases absent

/-- What a creation reports is stored afterwards. -/
theorem admit_stored {ctx : Context} {ownerId portfolioId : UUID} {newTransaction : NewTransaction} {fresh : Fresh}
    {store : Store F} {creation : TransactionCreation}
    (decided : admission ctx ownerId portfolioId newTransaction fresh store = .ok creation) :
    creation.transaction ∈ (settleCreation (.ok creation) store).rows portfolioId := by
  obtain ⟨portfolio, other, _, _, run, otherValid, outcome⟩ := admit_eq_ok.mp decided
  rcases outcome with ⟨existing, located, _, rfl⟩ | ⟨_, _, rfl⟩
  · exact (mem_rows_of_byExternalId located).1
  · have own := (BuiltFrom.of_eq_ok run).portfolioId_eq
    subst own
    change other ∈ rowsOf other.portfolioId (store.transactions ++ [other])
    rw [rowsOf_append_own]
    exact List.mem_append_right _ (List.mem_singleton_self other)

/-- How an import row that carries the external id of a stored transaction has to be reported. -/
structure RowRetried (t : Transaction) (candidate : TransactionImportCandidate) (row : TransactionImportRowResult) :
    Prop where
  replayed : ∀ newTransaction ∈ candidate.readable, Text.strip newTransaction.externalId = t.externalId →
    SamePayload newTransaction t → row = importRowResult candidate .replayed (some t) none
  refused : ∀ newTransaction ∈ candidate.readable, Text.strip newTransaction.externalId = t.externalId →
    ¬ SamePayload newTransaction t → row.status = .failed ∧ row.transaction = none

omit [UnicodeDatabase] in
theorem commitOutcome_failed {candidate : TransactionImportCandidate} {raised : Error}
    {row : TransactionImportRowResult} (reported : commitOutcome candidate (.error raised) = .ok row) :
    row.status = .failed ∧ row.transaction = none := by
  cases raised <;> cases reported <;> exact ⟨rfl, rfl⟩

section Rows
variable {ctx : Context} {ownerId portfolioId : UUID} {world after : World F}

theorem commitRow_retried {candidate : TransactionImportCandidate} {fresh : Fresh} {row : TransactionImportRowResult}
    {t : Transaction} (reached : ReachedStore world.store) (owned : world.store.owns ownerId portfolioId)
    (stored : t ∈ world.store.rows portfolioId)
    (run : (commitRow ctx ownerId portfolioId candidate fresh).run world = (.ok row, after)) :
    RowRetried t candidate row := by
  have reports : ∀ newTransaction ∈ candidate.readable,
      commitOutcome candidate (admission ctx ownerId portfolioId newTransaction fresh world.store) = .ok row := by
    intro newTransaction readable
    rw [commitRow_run _ _ _ readable] at run
    exact congrArg Prod.fst run
  constructor
  · intro newTransaction readable carries same
    have retried := admit_retried ctx fresh reached owned stored carries
    have reported := reports newTransaction readable
    rw [retried.replayed same] at reported
    exact (Except.ok.inj reported).symm
  · intro newTransaction readable carries different
    obtain ⟨raised, failed⟩ := (admit_retried ctx fresh reached owned stored carries).refused different
    have reported := reports newTransaction readable
    rw [failed] at reported
    exact commitOutcome_failed reported

/-- What a row reports is stored afterwards. -/
theorem commitRow_stored {candidate : TransactionImportCandidate} {fresh : Fresh} {row : TransactionImportRowResult}
    {t : Transaction} (run : (commitRow ctx ownerId portfolioId candidate fresh).run world = (.ok row, after))
    (reported : row.transaction = some t) : t ∈ after.store.rows portfolioId := by
  cases readable : candidate.readable with
  | none =>
    rw [commitRow_run_unread _ _ _ readable] at run
    cases Except.ok.inj (congrArg Prod.fst run)
    cases reported
  | some newTransaction =>
    rw [commitRow_run _ _ _ readable] at run
    have outcome := congrArg Prod.fst run
    have stored : world.update _ = after := congrArg Prod.snd run
    cases decided : admission ctx ownerId portfolioId newTransaction fresh world.store with
    | error raised =>
      rw [decided] at outcome
      rw [(commitOutcome_failed outcome).2] at reported
      cases reported
    | ok creation =>
      rw [decided] at outcome stored
      cases Except.ok.inj outcome
      cases reported
      rw [← stored]
      exact admit_stored decided

/-- The rows that the loop gets through, up to one that raises. -/
abbrev processedRows (ctx : Context) (ownerId portfolioId : UUID) (fresh : Nat → Fresh)
    (candidates : List (TransactionImportCandidate × Nat)) (world : World F) : List TransactionImportRowResult :=
  Program.collected (fun row => commitRow ctx ownerId portfolioId row.1 (fresh row.2)) candidates world

/-- Rows behind the moment a transaction was stored retry it; so do the rows behind the one that
reports it, whether or not a later row raises. -/
theorem processedRows_retried (ctx : Context) (fresh : Nat → Fresh)
    (candidates : List (TransactionImportCandidate × Nat)) (world : World F) (reached : ReachedStore world.store)
    (owned : world.store.owns ownerId portfolioId) :
    (∀ t ∈ world.store.rows portfolioId, ∀ pair ∈
        (candidates.map Prod.fst).zip (processedRows ctx ownerId portfolioId fresh candidates world),
      RowRetried t pair.1 pair.2) ∧
      ((candidates.map Prod.fst).zip (processedRows ctx ownerId portfolioId fresh candidates world)).Pairwise
        (fun earlier later => ∀ t, earlier.2.transaction = some t → RowRetried t later.1 later.2) ∧
      ∀ row ∈ processedRows ctx ownerId portfolioId fresh candidates world, ∀ t, row.transaction = some t →
        t ∈ ((commitRows ctx ownerId portfolioId fresh candidates).run world).2.store.rows portfolioId := by
  induction candidates generalizing world with
  | nil => exact ⟨by simp, .nil, by simp [processedRows, Program.collected]⟩
  | cons candidate rest ih =>
    have step := (commitRow_advances ctx ownerId portfolioId candidate.1 (fresh candidate.2)).step world
    rcases first : (commitRow ctx ownerId portfolioId candidate.1 (fresh candidate.2)).run world with
      ⟨raised | row, next⟩
    · have nothing : processedRows ctx ownerId portfolioId fresh (candidate :: rest) world = [] :=
        Program.collected_cons_error (a := candidate) first rest
      rw [nothing, List.zip_nil_right]
      exact ⟨by simp, .nil, by simp⟩
    · rw [first] at step
      obtain ⟨stored, pairs, reported⟩ := ih next (step.grows.reached reached) (step.owns _ _ owned)
      have through : Grows ctx next ((commitRows ctx ownerId portfolioId fresh rest).run next).2 :=
        ((Program.Preserves.collect (fun row : TransactionImportCandidate × Nat =>
          commitRow_advances (F := F) ctx ownerId portfolioId row.1 (fresh row.2)) rest).step next).grows
      have processed : processedRows ctx ownerId portfolioId fresh (candidate :: rest) world =
          row :: processedRows ctx ownerId portfolioId fresh rest next :=
        Program.collected_cons_ok (a := candidate) first rest
      rw [processed, List.map_cons, List.zip_cons_cons, commitRows, Program.collect_cons_state, first]
      refine ⟨fun t member => ?_, List.pairwise_cons.mpr ⟨fun pair listed t own => ?_, pairs⟩, ?_⟩
      · exact List.forall_mem_cons.mpr
          ⟨commitRow_retried reached owned member first, stored t (step.grows.mem member)⟩
      · exact stored t (commitRow_stored first own) pair listed
      · exact List.forall_mem_cons.mpr ⟨fun t own => through.mem (commitRow_stored first own), reported⟩

end Rows
end LedgerLens
