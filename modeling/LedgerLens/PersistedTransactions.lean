import LedgerLens.StoredRows

namespace LedgerLens
open Checked (OnlyRaises)
open PostgresTransactionRepository

section Persistence
variable [UnicodeDatabase]

/-- The texts of a request, normalized, have no NUL. -/
structure NewTransaction.PlainText (newTransaction : NewTransaction) : Prop where
  externalId : '\x00' ∉ (Text.strip newTransaction.externalId).toList
  symbol : ∀ symbol ∈ newTransaction.symbol, '\x00' ∉ (Text.upper (Text.strip symbol)).toList

section Accepted

variable {newTransaction : NewTransaction} {portfolioId transactionId : UUID} {createdAt : DateTime} {t : Transaction}

theorem BuiltFrom.plainText_iff (built : BuiltFrom portfolioId newTransaction transactionId createdAt t) :
    t.PlainText ↔ newTransaction.PlainText := by
  constructor
  · rintro ⟨externalId, symbol⟩
    rw [built.externalId_eq] at externalId
    rw [built.symbol_eq] at symbol
    exact ⟨externalId, fun requested present => symbol _ (Option.mem_map_of_mem _ present)⟩
  · rintro ⟨externalId, symbol⟩
    refine ⟨built.externalId_eq ▸ externalId, fun normalized named => ?_⟩
    rw [built.symbol_eq] at named
    obtain ⟨requested, present, rfl⟩ := Option.map_eq_some_iff.mp named
    exact symbol requested present

/-- The fees of a built transaction are no negative zero. -/
theorem BuiltFrom.fees_holds (built : BuiltFrom portfolioId newTransaction transactionId createdAt t)
    (numbers : BuiltNumbers newTransaction t) (admits : feesField.Admits t.fees) : moneyColumn.Holds t.fees := by
  rcases admits.nonneg.lt_or_eq with positive | zero
  · exact admits.holds numbers.fees_quantized positive
  · obtain ⟨fees, quantized, chosen⟩ := built.fees
    obtain ⟨fees, rfl⟩ := quantizeExact_some quantized
    by_cases truthy : fees.truthy
    · have kept : t.fees = fees := by rw [chosen, orElseFalsy, if_pos truthy]
      obtain ⟨negative, units, shape, _⟩ := numbers.fees_quantized
      rw [shape] at zero
      have noUnits : units = 0 := by
        have size : (0 : ℚ) < 10 ^ (-8 : Int) := by positivity
        cases negative <;> simpa [Decimal.value, size.ne'] using zero.symm
      rw [← kept, shape, noUnits] at truthy
      exact absurd truthy (by simp [Decimal.truthy])
    · have fallback : t.fees = .finite false 0 (-8) := by rw [chosen, orElseFalsy, if_neg truthy]
      rw [fallback]
      exact moneyColumn.holds_units (by decide)

/-- What `_build_transaction` makes of an accepted request fits the columns and the constraints. -/
theorem TransactionInput.Accepts.storable (accepts : TransactionInput.Accepts newTransaction)
    (convertible : newTransaction.occurredAt.astimezoneUtc.isSome)
    (symbol : ∀ symbol ∈ newTransaction.symbol, (Text.upper (Text.strip symbol)).length ≤ 32)
    (built : buildTransaction portfolioId newTransaction transactionId createdAt = .ok t) : t.Storable := by
  obtain ⟨_, same, numbers⟩ := accepts.builds convertible portfolioId transactionId createdAt
  cases built.symm.trans same
  have from_request := BuiltFrom.of_eq_ok built
  have quantity := numbers.quantity.admits accepts.quantity
  have unitPrice := numbers.unitPrice.admits accepts.unitPrice
  have cashAmount := numbers.cashAmount.admits accepts.cashAmount
  have fees : feesField.Admits t.fees := accepts.fees.of_value numbers.fees.2.1 numbers.fees.2.2
  obtain ⟨trade, transfer⟩ := payloadMatchesTransactionType_eq_ok accepts.payload
  have named : newTransaction.symbol.isSome = t.symbol.isSome := by
    rw [from_request.symbol_eq, Option.isSome_map]
  rw [named, numbers.quantity.isSome_eq, numbers.unitPrice.isSome_eq, numbers.cashAmount.isSome_eq,
    ← from_request.transactionType_eq] at trade transfer
  exact {
    externalId := by
      rw [from_request.externalId_eq]
      exact (Text.length_strip_le _).trans accepts.externalId.2
    symbol := by
      rw [from_request.symbol_eq]
      intro s normalized
      obtain ⟨requested, present, rfl⟩ := Option.map_eq_some_iff.mp normalized
      exact symbol requested present
    occurredAt := (from_request.occurredAt_of_aware accepts.occurredAt).1
    recorded := by rw [from_request.createdAt_eq, Option.isSome_some]
    quantity := fun q present =>
      ⟨(quantity q present).holds (numbers.quantity_quantized q present) ((quantity q present).positive rfl),
        (quantity q present).positive rfl⟩
    unitPrice := fun q present =>
      ⟨(unitPrice q present).holds (numbers.unitPrice_quantized q present) ((unitPrice q present).positive rfl),
        (unitPrice q present).positive rfl⟩
    cashAmount := fun q present =>
      ⟨(cashAmount q present).holds (numbers.cashAmount_quantized q present) ((cashAmount q present).positive rfl),
        (cashAmount q present).positive rfl⟩
    fees := ⟨from_request.fees_holds numbers fees, fees.nonneg⟩
    trade := fun typed => by simpa using trade typed
    transfer := fun typed => by simpa using transfer typed }

end Accepted

/-- A request for a transaction, with what the service and the repository draw on its way. -/
structure Addition where
  portfolioId : UUID
  newTransaction : NewTransaction
  fresh : Fresh
  draws : Draws

namespace Addition

def build (addition : Addition) : Except Error Transaction :=
  buildTransaction addition.portfolioId addition.newTransaction addition.fresh.id addition.fresh.now

structure Admitted (addition : Addition) : Prop where
  accepts : TransactionInput.Accepts addition.newTransaction
  convertible : addition.newTransaction.occurredAt.astimezoneUtc.isSome
  symbol : ∀ symbol ∈ addition.newTransaction.symbol, (Text.upper (Text.strip symbol)).length ≤ 32

theorem Admitted.storable {addition : Addition} (admitted : addition.Admitted) {t : Transaction}
    (built : addition.build = .ok t) : t.Storable :=
  admitted.accepts.storable admitted.convertible admitted.symbol built

end Addition

/-- The database, with the transactions that were added to it so far. -/
structure Session where
  tables : Tables
  added : List Transaction := []
  deriving DecidableEq

namespace Session
variable (s : Session)

def add (addition : Addition) : Except (Error ⊕ DatabaseError) Session := do
  let transaction ← addition.build.mapError .inl
  let tables ← (PostgresTransactionRepository.add s.tables addition.draws transaction).mapError .inr
  return ⟨tables, s.added ++ [transaction]⟩

/-- A unit of work: an exception leaves it by way of a rollback. -/
def unitOfWork (additions : List Addition) : Session :=
  match additions.foldlM add s with
  | .ok done => done
  | .error _ => s

def run (units : List (List Addition)) : Session := units.foldl unitOfWork s

/-- A database without a transaction. -/
def start (portfolios : List UUID) : Session := ⟨⟨portfolios, [], []⟩, []⟩

end Session

section Runs
variable {s next : Session} {addition : Addition}

theorem Session.add_eq_ok (run : s.add addition = .ok next) :
    ∃ t, addition.build = .ok t ∧ PostgresTransactionRepository.add s.tables addition.draws t = .ok next.tables ∧
      next.added = s.added ++ [t] := by
  unfold Session.add at run
  cases built : addition.build with
  | error raised => rw [built] at run; cases run
  | ok t =>
    cases stored : PostgresTransactionRepository.add s.tables addition.draws t with
    | error raised => rw [built] at run; simp only [Except.mapError, Checked.ok_bind, stored] at run; cases run
    | ok tables =>
      rw [built] at run
      simp only [Except.mapError, Checked.ok_bind, stored] at run
      cases run
      exact ⟨t, rfl, stored, rfl⟩

/-- An addition fails in the database only, and for the reasons of the database. -/
theorem Session.add_raises {e : Error ⊕ DatabaseError} {t : Transaction} (built : addition.build = .ok t)
    (storable : t.Storable) (failed : s.add addition = .error e) :
    ∃ raised, e = .inr raised ∧ (Collision s.tables addition.draws t raised ∨ RefusedText t raised) := by
  unfold Session.add at failed
  rw [built] at failed
  cases stored : PostgresTransactionRepository.add s.tables addition.draws t with
  | error raised =>
    simp only [Except.mapError, Checked.ok_bind, stored, Checked.error_bind, Except.error.injEq] at failed
    exact ⟨raised, failed.symm, PostgresTransactionRepository.add_raises storable raised stored⟩
  | ok tables =>
    simp only [Except.mapError, Checked.ok_bind, stored] at failed
    cases failed

theorem Session.add_of_stored {t : Transaction} {tables : Tables} (built : addition.build = .ok t)
    (stored : PostgresTransactionRepository.add s.tables addition.draws t = .ok tables) :
    s.add addition = .ok ⟨tables, s.added ++ [t]⟩ := by
  unfold Session.add
  rw [built]
  simp only [Except.mapError, Checked.ok_bind, stored]
  rfl

theorem Stores.session_add (stores : Stores s.tables s.added) (admitted : addition.Admitted)
    (run : s.add addition = .ok next) : Stores next.tables next.added := by
  obtain ⟨t, built, stored, added⟩ := Session.add_eq_ok run
  rw [added]
  exact stores.add (admitted.storable built) stored

/-- Whatever becomes of a unit of work, the tables hold what was added. -/
theorem Stores.unitOfWork (stores : Stores s.tables s.added) {additions : List Addition}
    (admitted : ∀ addition ∈ additions, addition.Admitted) :
    Stores (s.unitOfWork additions).tables (s.unitOfWork additions).added := by
  unfold Session.unitOfWork
  split
  · next done run =>
    refine Checked.foldlM_prefix_invariant (fun _ s => Stores s.tables s.added) stores run ?_
    intro seen addition later s next whole holds step
    exact holds.session_add (admitted addition (by simp [whole])) step
  · exact stores

theorem Stores.run (stores : Stores s.tables s.added) {units : List (List Addition)}
    (admitted : ∀ additions ∈ units, ∀ addition ∈ additions, addition.Admitted) :
    Stores (s.run units).tables (s.run units).added := by
  induction units generalizing s with
  | nil => exact stores
  | cons additions units ih =>
    obtain ⟨head, tail⟩ := List.forall_mem_cons.mp admitted
    exact ih (stores.unitOfWork head) tail

end Runs

/-- What the database gives back of the transactions that were added to it. -/
structure Session.RoundTrips (s : Session) : Prop where
  assets : DistinctAssets s.tables.assets
  /-- Every row meets every constraint. -/
  checks : ∀ row ∈ s.tables.transactions, ∀ check ∈ row.checks, check.2
  /-- A portfolio lists the transactions that were added to it, in the order of the ledger. -/
  listed : ∀ portfolioId, listForPortfolio s.tables portfolioId =
    .ok ((ledgerSorted (s.added.filter fun t => t.portfolioId = portfolioId)).map Transaction.inUtc)
  /-- This is the order in which `derive_positions` takes them, as they were added and as they are read. -/
  ordered : ∀ portfolioId,
    Checked.sortOnM ledgerOrder (s.added.filter fun t => t.portfolioId = portfolioId) =
      .ok (ledgerSorted (s.added.filter fun t => t.portfolioId = portfolioId)) ∧
    Checked.sortOnM ledgerOrder
        ((ledgerSorted (s.added.filter fun t => t.portfolioId = portfolioId)).map Transaction.inUtc) =
      .ok ((ledgerSorted (s.added.filter fun t => t.portfolioId = portfolioId)).map Transaction.inUtc)
  /-- No two of them tie in that order. -/
  keys : (s.added.map Transaction.ledgerKey).Nodup
  found : ∀ t ∈ s.added, getByExternalId s.tables t.portfolioId t.externalId = .ok (some t.inUtc)
  /-- Only the UTC offset of the time of recording can differ from what was added. -/
  recorded : ∀ t ∈ s.added, ∃ createdAt utc, t.createdAt = some createdAt ∧ t.inUtc.createdAt = some utc ∧
    utc.isUtc ∧ utc.instant = createdAt.instant

omit [UnicodeDatabase] in
theorem Stores.roundTrips {s : Session} (stores : Stores s.tables s.added) : s.RoundTrips := by
  have written : ∀ t ∈ s.added, t.Storable ∧ t.inUtc.createdAt.isSome := fun t member =>
    let ⟨_, _, written⟩ := Checked.exists_of_forall₂ stores.written t member
    ⟨written.storable, written.recorded⟩
  refine ⟨stores.assets, stores.checks, stores.listForPortfolio, fun portfolioId => ⟨?_, ?_⟩, stores.ledgerKeys,
    fun t member => stores.getByExternalId member, fun t member => Transaction.inUtc_createdAt (written t member).2⟩
  · refine sortOnM_ledgerOrder_of_isUtc fun t member => ?_
    exact (written t (List.mem_of_mem_filter member)).1.occurredAt
  · have read : ∀ t ∈ ledgerSorted (s.added.filter fun t => t.portfolioId = portfolioId), t ∈ s.added :=
      fun t member => List.mem_of_mem_filter (StableSort.mem_sortOn.mp member)
    have utc : ∀ t ∈ (ledgerSorted (s.added.filter fun t => t.portfolioId = portfolioId)).map Transaction.inUtc,
        t.occurredAt.isUtc := by
      intro _ member
      obtain ⟨t, listed, rfl⟩ := List.mem_map.mp member
      exact (written t (read t listed)).1.occurredAt
    rw [sortOnM_ledgerOrder_of_isUtc utc]
    refine congrArg Except.ok (StableSort.sortOn_of_sorted (List.pairwise_map.mpr ?_))
    refine (StableSort.sortOn_sorted Transaction.ledgerKey _).imp_of_mem fun {a b} left right order => ?_
    rw [Transaction.inUtc_ledgerKey (written a (read a left)).2,
      Transaction.inUtc_ledgerKey (written b (read b right)).2]
    exact order

/-- Whatever is added to whichever portfolios: what `TransactionInput` validates is accepted, requests that
were accepted become transactions that the columns hold as they are, and what was added is read back as the
transactions that their requests make again. A request that collides with nothing is added and read back
exactly when its texts have no NUL. -/
theorem persistence_round_trips_iff (portfolios : List UUID) {units : List (List Addition)}
    (admitted : ∀ additions ∈ units, ∀ addition ∈ additions, addition.Admitted) :
    (∀ parsers : FieldParsers, parsers.Enforces → ∀ payload newTransaction,
      TransactionInput.modelValidate parsers payload = .ok newTransaction → TransactionInput.Accepts newTransaction) ∧
    ((Session.start portfolios).run units).RoundTrips ∧
    ∀ addition : Addition, addition.Admitted → ∃ t, addition.build = .ok t ∧
      BuiltNumbers addition.newTransaction t ∧ t.Storable ∧
      (∀ e, ((Session.start portfolios).run units).add addition = .error e → ∃ raised, e = .inr raised ∧
        (Collision ((Session.start portfolios).run units).tables addition.draws t raised ∨ RefusedText t raised)) ∧
      ((∀ raised, ¬ Collision ((Session.start portfolios).run units).tables addition.draws t raised) →
        ((∃ next, ((Session.start portfolios).run units).add addition = .ok next ∧
            next.added = ((Session.start portfolios).run units).added ++ [t] ∧ next.RoundTrips) ↔
          addition.newTransaction.PlainText)) ∧
      (t ∈ ((Session.start portfolios).run units).added → ∀ transactionId createdAt, ∃ rebuilt existing,
        buildTransaction addition.portfolioId addition.newTransaction transactionId createdAt = .ok rebuilt ∧
        getByExternalId ((Session.start portfolios).run units).tables rebuilt.portfolioId rebuilt.externalId =
          .ok (some existing) ∧
        sameTransactionPayload existing rebuilt) := by
  have stores := Stores.run (s := Session.start portfolios) (Stores.empty portfolios) admitted
  generalize (Session.start portfolios).run units = s at stores
  refine ⟨fun _ enforces _ _ validated => modelValidate_accepts enforces validated, stores.roundTrips,
    fun addition accepted => ?_⟩
  obtain ⟨t, built, numbers⟩ := accepted.accepts.builds accepted.convertible addition.portfolioId addition.fresh.id
    addition.fresh.now
  have storable := accepted.storable built
  refine ⟨t, built, numbers, storable, fun e => Session.add_raises built storable, fun free => ?_,
    fun added id now => ?_⟩
  · rw [← (BuiltFrom.of_eq_ok built).plainText_iff, ← PostgresTransactionRepository.add_isOk_iff storable free]
    constructor
    · rintro ⟨next, run, _⟩
      obtain ⟨other, same, stored, _⟩ := Session.add_eq_ok run
      cases built.symm.trans same
      exact ⟨next.tables, stored⟩
    · rintro ⟨tables, stored⟩
      have run := Session.add_of_stored built stored
      exact ⟨_, run, rfl, (stores.session_add accepted run).roundTrips⟩
  · have again : buildTransaction addition.portfolioId addition.newTransaction id now = .ok (t.restamp id now) := by
      rw [buildTransaction_restamp _ _ addition.fresh.id _ addition.fresh.now, built]
      rfl
    have found := stores.getByExternalId added
    exact ⟨t.restamp id now, t.inUtc, again, found, storable.same_inUtc id now⟩

end Persistence

section Samples

attribute [local instance] Text.asciiDatabase

/-- Two hours east of Greenwich. -/
def samplePurchaseTime : DateTime := ⟨86400000000, some 7200000000, by decide, by rintro _ ⟨⟩; decide⟩

/-- A purchase of one and a half shares. -/
def samplePurchase (portfolioId : Nat) (externalId symbol : String) (id : Nat) : Addition where
  portfolioId := ⟨portfolioId⟩
  newTransaction := {
    externalId := externalId
    transactionType := .buy
    occurredAt := samplePurchaseTime
    symbol := some symbol
    quantity := some (.finite false 15 (-1))
    unitPrice := some (.finite false 10 0) }
  fresh := ⟨⟨id⟩, DateTime.ofInstant 86400000000 (by decide), rfl⟩
  draws := ⟨⟨100 + id⟩, DateTime.ofInstant 0 (by decide)⟩

theorem samplePurchase_admitted (portfolioId : Nat) {externalId symbol : String} (id : Nat)
    (named : 1 ≤ externalId.length ∧ externalId.length ≤ 100) (listed : 1 ≤ symbol.length ∧ symbol.length ≤ 32)
    (normalized : (Text.upper (Text.strip symbol)).length ≤ 32) :
    (samplePurchase portfolioId externalId symbol id).Admitted := by
  have quantity : quantityField.Admits (.finite false 15 (-1)) :=
    ⟨rfl, by norm_num [Decimal.value], fun _ => by norm_num [Decimal.value],
      withinDigits_value 1 (by decide) (by decide)⟩
  have unitPrice : moneyField.Admits (.finite false 10 0) :=
    ⟨rfl, by norm_num [Decimal.value], fun _ => by norm_num [Decimal.value],
      withinDigits_value 0 (by decide) (by decide)⟩
  have fees : feesField.Admits (.finite false 0 0) :=
    ⟨rfl, by norm_num [Decimal.value], by rintro ⟨⟩, withinDigits_value 0 (by decide) (by decide)⟩
  have convertible : samplePurchaseTime.astimezoneUtc.isSome := by decide +kernel
  refine ⟨⟨named, rfl, ?_, ?_, ?_, ?_, fees, rfl⟩, convertible, ?_⟩
  · rintro _ ⟨⟩
    exact listed
  · rintro _ ⟨⟩
    exact quantity
  · rintro _ ⟨⟩
    exact unitPrice
  · rintro _ ⟨⟩
  · rintro _ ⟨⟩
    exact normalized

/-- The second unit of work is rolled back: it ends with an external id that the portfolio knows. -/
def sampleUnits : List (List Addition) :=
  [[samplePurchase 1 "first" " aapl " 3],
    [samplePurchase 1 "second" "MSFT" 4, samplePurchase 1 "first " "AAPL" 5],
    [samplePurchase 2 "first" "Aapl" 6]]

theorem sample_round_trip :
    ((Session.start [⟨1⟩, ⟨2⟩]).run sampleUnits).RoundTrips ∧
    ((Session.start [⟨1⟩, ⟨2⟩]).run sampleUnits).tables.assets = [⟨⟨103⟩, "AAPL"⟩] ∧
    ((Session.start [⟨1⟩, ⟨2⟩]).run sampleUnits).added.map (fun t => (t.portfolioId.int, t.id.int)) =
      [(1, 3), (2, 6)] := by
  have admitted : ∀ additions ∈ sampleUnits, ∀ addition ∈ additions, addition.Admitted := by
    simp only [sampleUnits, List.forall_mem_cons, List.not_mem_nil, false_imp_iff, implies_true, and_true]
    refine ⟨?_, ⟨?_, ?_⟩, ?_⟩ <;> exact samplePurchase_admitted _ _ (by decide) (by decide) (by decide)
  exact ⟨(persistence_round_trips_iff [⟨1⟩, ⟨2⟩] admitted).2.1, by decide +kernel, by decide +kernel⟩

/-- A request with a NUL in its external id is accepted, collides with nothing, and is not stored. -/
theorem nul_is_not_stored :
    let s := Session.start [⟨1⟩]
    let addition := samplePurchase 1 "a\x00b" "AAPL" 3
    addition.Admitted ∧ (∀ t, addition.build = .ok t → ∀ raised, ¬ Collision s.tables addition.draws t raised) ∧
      s.add addition = .error (.inr (.dataError "external_id")) ∧
      listForPortfolio (s.unitOfWork [addition]).tables ⟨1⟩ = .ok [] := by
  intro s addition
  have admitted : addition.Admitted := samplePurchase_admitted 1 3 (by decide) (by decide) (by decide)
  refine ⟨admitted, fun t built raised collision => ?_, by decide +kernel, by decide +kernel⟩
  have from_request := BuiltFrom.of_eq_ok built
  cases collision with
  | assetId taken => simp [s, Session.start] at taken
  | id taken => simp [s, Session.start] at taken
  | externalId taken => simp [s, Session.start] at taken
  | portfolio missing => exact missing (from_request.portfolioId_eq ▸ List.mem_singleton_self _)
  | clock overflows =>
    have utc : addition.fresh.now.isUtc := DateTime.ofInstant_isUtc _
    have kept : t.inUtc.createdAt = some addition.fresh.now := by
      rw [Transaction.inUtc, from_request.createdAt_eq, Option.bind_some, DateTime.astimezoneUtc_of_isUtc utc]
    rw [kept] at overflows
    cases overflows

end Samples
end LedgerLens
