import LedgerLens.TransactionTables
import LedgerLens.AcceptedInputs
import LedgerLens.Library.UniqueRows

namespace LedgerLens
open Checked (OnlyRaises)
open Decimal (IsQuantized)
open PostgresTransactionRepository

/-- A transaction as the database gives it back: its time of recording is in UTC. -/
def Transaction.inUtc (t : Transaction) : Transaction :=
  { t with createdAt := t.createdAt.bind DateTime.astimezoneUtc }

/-- What the columns of `TransactionRecord` hold as it is and its constraints let through. -/
structure Transaction.Storable (t : Transaction) : Prop where
  externalId : t.externalId.length ≤ 100
  symbol : ∀ symbol ∈ t.symbol, symbol.length ≤ 32
  occurredAt : t.occurredAt.isUtc
  recorded : t.createdAt.isSome
  quantity : ∀ q ∈ t.quantity, quantityColumn.Holds q ∧ 0 < q.value
  unitPrice : ∀ q ∈ t.unitPrice, moneyColumn.Holds q ∧ 0 < q.value
  cashAmount : ∀ q ∈ t.cashAmount, moneyColumn.Holds q ∧ 0 < q.value
  fees : moneyColumn.Holds t.fees ∧ 0 ≤ t.fees.value
  trade : t.transactionType.isTrade →
    t.symbol.isSome ∧ t.quantity.isSome ∧ t.unitPrice.isSome ∧ t.cashAmount = none
  transfer : ¬ t.transactionType.isTrade →
    t.symbol = none ∧ t.quantity = none ∧ t.unitPrice = none ∧ t.cashAmount.isSome

/-- The texts of a transaction have no NUL. -/
structure Transaction.PlainText (t : Transaction) : Prop where
  externalId : '\x00' ∉ t.externalId.toList
  symbol : ∀ symbol ∈ t.symbol, '\x00' ∉ symbol.toList

theorem TransactionType.ofValue_value (transactionType : TransactionType) :
    TransactionType.ofValue transactionType.value = some transactionType := by
  cases transactionType <;> decide

/-- A quantized number that a field admits is one that a column of its size holds. -/
theorem DecimalField.Admits.holds {field : DecimalField} {q : Decimal} (admits : field.Admits q)
    (quantized : IsQuantized defaultPrecision (-field.decimalPlaces) q) (positive : 0 < q.value) :
    (⟨field.maxDigits, field.decimalPlaces⟩ : Sql.Numeric).Holds q := by
  obtain ⟨units, bound, whole⟩ := admits.digits
  refine Sql.Numeric.holds_of_pos quantized positive ?_
  rw [whole, div_mul_cancel₀ _ (by positivity)]
  exact_mod_cast bound

section Columns

theorem nullableValue_of_holds {column : Sql.Numeric} {value : Option Decimal} (name : String)
    (holds : ∀ q ∈ value, column.Holds q ∧ 0 < q.value) : nullableValue name column.store value = .ok value := by
  cases value with
  | none => rfl
  | some q =>
    rw [nullableValue, (holds q rfl).1.exact]
    rfl

theorem all_positive {column : Sql.Numeric} {value : Option Decimal}
    (holds : ∀ q ∈ value, column.Holds q ∧ 0 < q.value) : value.all Sql.Numeric.positive := by
  cases value with
  | none => rfl
  | some q => exact Sql.Numeric.positive_of_pos (holds q rfl).2

variable {t : Transaction}

/-- Only the time of recording changes on its way into the columns. -/
theorem Transaction.Storable.inColumns (storable : t.Storable) (assetId : Option UUID) (now : DateTime) :
    (record t assetId now).inColumns =
      if '\x00' ∈ t.externalId.toList then .error (.dataError "external_id")
      else if t.inUtc.createdAt.isSome then .ok (record t.inUtc assetId now)
      else .error (.dataError "created_at") := by
  have typed : Sql.varchar 16 t.transactionType.value = some t.transactionType.value := by
    cases t.transactionType <;> decide
  obtain ⟨createdAt, recorded⟩ := Option.isSome_iff_exists.mp storable.recorded
  have utc : t.inUtc.createdAt = createdAt.astimezoneUtc := by simp [inUtc, recorded]
  by_cases nul : '\x00' ∈ t.externalId.toList
  · rw [if_pos nul]
    simp only [TransactionRecord.inColumns, record, Sql.varchar_of_le storable.externalId, Sql.text_of_mem nul]
    rfl
  rw [if_neg nul]
  simp only [TransactionRecord.inColumns, record, Sql.varchar_of_le storable.externalId, Sql.text_of_notMem nul, typed,
    Sql.timestamptz, DateTime.astimezoneUtc_of_isUtc storable.occurredAt,
    nullableValue_of_holds "quantity" storable.quantity, nullableValue_of_holds "unit_price" storable.unitPrice,
    nullableValue_of_holds "cash_amount" storable.cashAmount, storable.fees.1.exact, columnValue, Checked.ok_bind,
    recorded, Option.getD_some, utc]
  cases converted : createdAt.astimezoneUtc with
  | none => rfl
  | some time =>
    simp only [Option.isSome_some, if_true, inUtc, recorded, Option.bind_some, converted, Option.getD_some,
      Checked.ok_bind]
    rfl

theorem Transaction.Storable.payloadMatchesType (storable : t.Storable) {assetId : Option UUID}
    (own : assetId.isSome = t.symbol.isSome) (now : DateTime) :
    (record t assetId now).payloadMatchesType := by
  by_cases trade : t.transactionType.isTrade
  · obtain ⟨symbol, quantity, unitPrice, cashAmount⟩ := storable.trade trade
    have typed : t.transactionType.value ∈ ["BUY", "SELL"] := by
      revert trade
      cases t.transactionType <;> decide
    exact decide_eq_true (.inl ⟨typed, own.trans symbol, quantity, unitPrice, by simp [record, cashAmount]⟩)
  · obtain ⟨symbol, quantity, unitPrice, cashAmount⟩ := storable.transfer trade
    have typed : t.transactionType.value ∈ ["DEPOSIT", "WITHDRAWAL"] := by
      revert trade
      cases t.transactionType <;> decide
    have unnamed : assetId = none := by
      rw [symbol] at own
      exact Option.not_isSome_iff_eq_none.mp (by simp [own])
    exact decide_eq_true (.inr ⟨typed, by simp [record, unnamed], by simp [record, quantity],
      by simp [record, unitPrice], cashAmount⟩)

theorem Transaction.Storable.checks (storable : t.Storable) {assetId : Option UUID}
    (own : assetId.isSome = t.symbol.isSome) (now : DateTime) :
    ∀ check ∈ (record t.inUtc assetId now).checks, check.2 := by
  have fees : Sql.Numeric.nonNegative t.fees :=
    (Sql.Numeric.nonNegative_iff storable.fees.1.isFinite).mpr storable.fees.2
  simp only [TransactionRecord.checks, List.forall_mem_cons, List.not_mem_nil, false_imp_iff, implies_true, and_true]
  exact ⟨all_positive storable.cashAmount, fees, storable.payloadMatchesType own now, all_positive storable.quantity,
    all_positive storable.unitPrice⟩

end Columns

section Assets

/-- The asset that a symbol goes by. -/
def Names (assets : List AssetRecord) : Option String → Option UUID → Prop
  | none, none => True
  | some symbol, some assetId => ⟨assetId, symbol⟩ ∈ assets
  | _, _ => False

/-- No two assets share an id or a symbol. -/
structure DistinctAssets (assets : List AssetRecord) : Prop where
  ids : (assets.map AssetRecord.id).Nodup
  symbols : (assets.map AssetRecord.symbol).Nodup

theorem Names.isSome_eq {assets : List AssetRecord} {symbol : Option String} {assetId : Option UUID}
    (names : Names assets symbol assetId) : assetId.isSome = symbol.isSome := by
  cases symbol <;> cases assetId <;> first | rfl | exact names.elim

theorem Names.mono {assets more : List AssetRecord} {symbol : Option String} {assetId : Option UUID}
    (names : Names assets symbol assetId) (grown : assets ⊆ more) : Names more symbol assetId := by
  cases symbol <;> cases assetId <;> first | exact names | exact grown names

/-- The symbol of an asset is found again under its id. -/
theorem Names.symbolOf {tables : Tables} {symbol : Option String} {assetId : Option UUID}
    (distinct : DistinctAssets tables.assets) (names : Names tables.assets symbol assetId) :
    symbolOf tables assetId = .ok symbol := by
  cases symbol with
  | none =>
    cases assetId with
    | none => rfl
    | some assetId => exact names.elim
  | some symbol =>
    cases assetId with
    | none => exact names.elim
    | some assetId =>
      have found : (tables.assets.find? fun asset => asset.id = assetId) = some ⟨assetId, symbol⟩ :=
        UniqueRows.find?_of_nodup distinct.ids names fun _ => decide_eq_true_iff
      rw [PostgresTransactionRepository.symbolOf, found]

theorem Names.not_dangling {assets : List AssetRecord} {symbol : Option String} {assetId : Option UUID}
    (names : Names assets symbol assetId) :
    ¬ assetId.any fun id => assets.all fun asset => asset.id ≠ id := by
  cases symbol <;> cases assetId with
  | none => simp
  | some id =>
    first
    | exact names.elim
    | exact fun dangling => absurd rfl (of_decide_eq_true (List.all_eq_true.mp dangling _ names))

/-- What the get-or-create of an asset leaves behind. -/
structure AssetStep (tables next : Tables) (symbol : Option String) (assetId : Option UUID) : Prop where
  portfolios : next.portfolios = tables.portfolios
  transactions : next.transactions = tables.transactions
  grown : tables.assets ⊆ next.assets
  distinct : DistinctAssets tables.assets → DistinctAssets next.assets
  names : Names next.assets symbol assetId
  text : ∀ s ∈ symbol, '\x00' ∉ s.toList

variable {tables next : Tables} {newId : UUID} {symbol : Option String}

theorem DistinctAssets.concat {assets : List AssetRecord} (distinct : DistinctAssets assets) {asset : AssetRecord}
    (newId : ∀ other ∈ assets, other.id ≠ asset.id) (newSymbol : ∀ other ∈ assets, other.symbol ≠ asset.symbol) :
    DistinctAssets (assets ++ [asset]) := by
  constructor
  · rw [List.map_append, List.map_singleton, ← List.concat_eq_append]
    exact distinct.ids.concat (by simpa using newId)
  · rw [List.map_append, List.map_singleton, ← List.concat_eq_append]
    exact distinct.symbols.concat (by simpa using newSymbol)

theorem PostgresTransactionRepository.assetId_eq_ok {assetId : Option UUID} (fits : ∀ s ∈ symbol, s.length ≤ 32)
    (run : PostgresTransactionRepository.assetId tables newId symbol = .ok (assetId, next)) :
    AssetStep tables next symbol assetId := by
  cases symbol with
  | none =>
    cases run
    exact ⟨rfl, rfl, List.Subset.refl _, id, trivial, by simp⟩
  | some symbol =>
    have text : '\x00' ∉ symbol.toList := by
      intro nul
      simp only [PostgresTransactionRepository.assetId, Tables.insertAsset, Sql.varchar_of_le (fits symbol rfl),
        Sql.text_of_mem nul] at run
      cases run
    have plain : ∀ s ∈ some symbol, '\x00' ∉ s.toList := by
      rintro _ ⟨⟩
      exact text
    simp only [PostgresTransactionRepository.assetId, Tables.insertAsset, Sql.varchar_of_le (fits symbol rfl),
      Sql.text_of_notMem text, columnValue, Checked.ok_bind] at run
    split at run
    · next known =>
      simp only [pure_bind] at run
      split at run
      · cases run
      · next existing found =>
        cases run
        have named : existing.symbol = symbol := of_decide_eq_true (List.find?_some found :)
        exact ⟨rfl, rfl, List.Subset.refl _, id, named ▸ List.mem_of_find?_eq_some found, plain⟩
    · next unknown =>
      split at run
      · cases run
      · next unused =>
        cases run
        simp only [Bool.not_eq_true, List.any_eq_false, decide_eq_true_eq] at unknown unused
        exact ⟨rfl, rfl, List.subset_append_left _ _, fun distinct => distinct.concat unused unknown,
          List.mem_append_right _ List.mem_cons_self, plain⟩

/-- The get-or-create of an asset fails only on an id that is taken, or on a text that the server does not take. -/
theorem PostgresTransactionRepository.assetId_raises (fits : ∀ s ∈ symbol, s.length ≤ 32) :
    OnlyRaises (fun e => (e = .uniqueViolation "pk_assets" ∧ ∃ asset ∈ tables.assets, asset.id = newId) ∨
        (e = .dataError "symbol" ∧ ∃ s ∈ symbol, '\x00' ∈ s.toList))
      (PostgresTransactionRepository.assetId tables newId symbol) := by
  cases symbol with
  | none => exact .ok _
  | some symbol =>
    by_cases nul : '\x00' ∈ symbol.toList
    · simp only [PostgresTransactionRepository.assetId, Tables.insertAsset, Sql.varchar_of_le (fits symbol rfl),
        Sql.text_of_mem nul]
      exact .error (.inr ⟨rfl, symbol, rfl, nul⟩)
    simp only [PostgresTransactionRepository.assetId, Tables.insertAsset, Sql.varchar_of_le (fits symbol rfl),
      Sql.text_of_notMem nul, columnValue, Checked.ok_bind]
    split
    · next known =>
      simp only [pure_bind]
      split
      · next missing =>
        obtain ⟨asset, listed, named⟩ := List.any_eq_true.mp known
        exact absurd named (List.find?_eq_none.mp missing asset listed)
      · exact .ok _
    · split
      · next used =>
        obtain ⟨asset, listed, same⟩ := List.any_eq_true.mp used
        exact .error (.inl ⟨rfl, asset, listed, of_decide_eq_true same⟩)
      · exact .ok _

end Assets

section Rows

/-- What the server says to a transaction with a NUL in its texts. -/
inductive RefusedText (t : Transaction) : DatabaseError → Prop where
  | symbol : (∃ symbol ∈ t.symbol, '\x00' ∈ symbol.toList) → RefusedText t (.dataError "symbol")
  | externalId : '\x00' ∈ t.externalId.toList → RefusedText t (.dataError "external_id")

theorem RefusedText.not_plain {t : Transaction} {e : DatabaseError} (refused : RefusedText t e) : ¬ t.PlainText := by
  intro plain
  cases refused with
  | symbol nul =>
    obtain ⟨symbol, named, nul⟩ := nul
    exact plain.symbol symbol named nul
  | externalId nul => exact plain.externalId nul

/-- The other reasons for which a storable transaction is not added. -/
inductive Collision (tables : Tables) (draws : Draws) (t : Transaction) : DatabaseError → Prop where
  | assetId : (∃ asset ∈ tables.assets, asset.id = draws.assetId) →
      Collision tables draws t (.uniqueViolation "pk_assets")
  | id : (∃ row ∈ tables.transactions, row.id = t.id) → Collision tables draws t (.uniqueViolation "pk_transactions")
  | externalId : (∃ row ∈ tables.transactions, row.portfolioId = t.portfolioId ∧ row.externalId = t.externalId) →
      Collision tables draws t (.uniqueViolation "uq_transactions_portfolio_external")
  | portfolio : t.portfolioId ∉ tables.portfolios →
      Collision tables draws t (.foreignKeyViolation "fk_transactions_portfolio_id_portfolios")
  | clock : t.inUtc.createdAt = none → Collision tables draws t (.dataError "created_at")

/-- What a successful `add` leaves behind. -/
structure RowStep (tables next : Tables) (draws : Draws) (t : Transaction) (assetId : Option UUID) : Prop where
  portfolios : next.portfolios = tables.portfolios
  transactions : next.transactions = tables.transactions ++ [record t.inUtc assetId draws.now]
  grown : tables.assets ⊆ next.assets
  distinct : DistinctAssets tables.assets → DistinctAssets next.assets
  names : Names next.assets t.symbol assetId
  text : t.PlainText
  recorded : t.inUtc.createdAt.isSome
  newId : ∀ row ∈ tables.transactions, row.id ≠ t.id
  newExternalId : ∀ row ∈ tables.transactions, ¬ (row.portfolioId = t.portfolioId ∧ row.externalId = t.externalId)

variable {tables next : Tables} {draws : Draws} {t : Transaction}

theorem checks_find? (storable : t.Storable) {assetId : Option UUID} (own : assetId.isSome = t.symbol.isSome)
    (now : DateTime) : ((record t.inUtc assetId now).checks.find? fun check => ¬ check.2) = none :=
  List.find?_eq_none.mpr fun check member => by simpa using storable.checks own now check member

theorem PostgresTransactionRepository.add_eq_ok (storable : t.Storable) (run : add tables draws t = .ok next) :
    ∃ assetId, RowStep tables next draws t assetId := by
  obtain ⟨⟨assetId, withAsset⟩, got, run⟩ := Checked.bind_eq_ok.mp run
  have step := assetId_eq_ok storable.symbol got
  obtain ⟨row, stored, run⟩ := Checked.bind_eq_ok.mp run
  rw [storable.inColumns] at stored
  obtain ⟨text, stored⟩ := Checked.guard_eq_ok.mp stored
  split at stored
  · next recorded =>
    cases stored
    rw [checks_find? storable step.names.isSome_eq] at run
    simp only at run
    obtain ⟨newId, run⟩ := Checked.guard_eq_ok.mp run
    obtain ⟨newExternalId, run⟩ := Checked.guard_eq_ok.mp run
    obtain ⟨_, run⟩ := Checked.guard_eq_ok.mp run
    obtain ⟨_, run⟩ := Checked.guard_eq_ok.mp run
    cases run
    simp only [step.transactions, Bool.not_eq_true, List.any_eq_false, decide_eq_true_eq] at newId newExternalId
    exact ⟨assetId, step.portfolios, by rw [step.transactions], step.grown, step.distinct, step.names,
      ⟨text, step.text⟩, recorded, newId, newExternalId⟩
  · cases stored

theorem PostgresTransactionRepository.add_raises (storable : t.Storable) :
    OnlyRaises (fun e => Collision tables draws t e ∨ RefusedText t e) (add tables draws t) := by
  refine OnlyRaises.bind ?_ ?_
  · rintro e raised
    rcases assetId_raises storable.symbol e raised with ⟨rfl, taken⟩ | ⟨rfl, nul⟩
    · exact .inl (.assetId taken)
    · exact .inr (.symbol nul)
  · rintro ⟨assetId, withAsset⟩ got
    have step := assetId_eq_ok storable.symbol got
    refine OnlyRaises.bind ?_ ?_
    · rw [storable.inColumns]
      refine .guard_of (fun nul => .inr (.externalId nul)) fun _ => ?_
      split
      · exact .ok _
      · next unrecorded => exact .error (.inl (.clock (Option.not_isSome_iff_eq_none.mp unrecorded)))
    · intro row stored
      rw [storable.inColumns] at stored
      obtain ⟨_, stored⟩ := Checked.guard_eq_ok.mp stored
      split at stored
      · cases stored
        rw [checks_find? storable step.names.isSome_eq]
        simp only [step.transactions, step.portfolios]
        refine .guard_of (fun taken => ?_) fun _ => .guard_of (fun taken => ?_) fun _ =>
          .guard_of (fun dangling => absurd dangling step.names.not_dangling) fun _ =>
          .guard_of (fun missing => .inl (.portfolio missing)) fun _ => .ok _
        · obtain ⟨row, listed, same⟩ := List.any_eq_true.mp taken
          exact .inl (.id ⟨row, listed, of_decide_eq_true same⟩)
        · obtain ⟨row, listed, same⟩ := List.any_eq_true.mp taken
          exact .inl (.externalId ⟨row, listed, of_decide_eq_true same⟩)
      · cases stored

/-- Where nothing collides, a transaction is added exactly when its texts have no NUL. -/
theorem PostgresTransactionRepository.add_isOk_iff (storable : t.Storable)
    (free : ∀ raised, ¬ Collision tables draws t raised) : (∃ next, add tables draws t = .ok next) ↔ t.PlainText := by
  constructor
  · rintro ⟨next, run⟩
    obtain ⟨assetId, step⟩ := add_eq_ok storable run
    exact step.text
  · intro plain
    cases run : add tables draws t with
    | ok next => exact ⟨next, rfl⟩
    | error raised =>
      rcases add_raises storable raised run with collision | refused
      · exact absurd collision (free raised)
      · exact absurd plain refused.not_plain

end Rows

section Ledgers

/-- The row that a transaction was written to. -/
structure WrittenAs (assets : List AssetRecord) (t : Transaction) (row : TransactionRecord) : Prop where
  storable : t.Storable
  text : t.PlainText
  recorded : t.inUtc.createdAt.isSome
  row : ∃ assetId now, row = record t.inUtc assetId now ∧ Names assets t.symbol assetId

/-- The tables hold these transactions and no others, and no key is used twice. -/
structure Stores (tables : Tables) (added : List Transaction) : Prop where
  assets : DistinctAssets tables.assets
  ids : (tables.transactions.map TransactionRecord.id).Nodup
  externalIds : (tables.transactions.map fun row => (row.portfolioId, row.externalId)).Nodup
  written : List.Forall₂ (WrittenAs tables.assets) added tables.transactions

variable {tables next : Tables} {added : List Transaction} {t : Transaction} {row : TransactionRecord}

theorem WrittenAs.mono {assets more : List AssetRecord} (written : WrittenAs assets t row) (grown : assets ⊆ more) :
    WrittenAs more t row := by
  obtain ⟨assetId, now, same, names⟩ := written.row
  exact ⟨written.storable, written.text, written.recorded, assetId, now, same, names.mono grown⟩

theorem Stores.empty (portfolios : List UUID) : Stores ⟨portfolios, [], []⟩ [] :=
  ⟨⟨List.nodup_nil, List.nodup_nil⟩, List.nodup_nil, List.nodup_nil, .nil⟩

theorem Stores.add (stores : Stores tables added) {draws : Draws} (storable : t.Storable)
    (run : add tables draws t = .ok next) : Stores next (added ++ [t]) := by
  obtain ⟨assetId, step⟩ := add_eq_ok storable run
  refine ⟨step.distinct stores.assets, ?_, ?_, ?_⟩
  · rw [step.transactions, List.map_append, List.map_singleton, ← List.concat_eq_append]
    refine stores.ids.concat fun taken => ?_
    obtain ⟨row, listed, same⟩ := List.mem_map.mp taken
    exact step.newId row listed same
  · rw [step.transactions, List.map_append, List.map_singleton, ← List.concat_eq_append]
    refine stores.externalIds.concat fun taken => ?_
    obtain ⟨row, listed, same⟩ := List.mem_map.mp taken
    exact step.newExternalId row listed (Prod.mk.inj same)
  · rw [step.transactions]
    have last : WrittenAs next.assets t (record t.inUtc assetId draws.now) :=
      ⟨storable, step.text, step.recorded, assetId, draws.now, rfl, step.names⟩
    exact List.rel_append (stores.written.imp fun _ _ written => written.mono step.grown) (.cons last .nil)

theorem Transaction.inUtc_createdAt (recorded : t.inUtc.createdAt.isSome) :
    ∃ createdAt utc, t.createdAt = some createdAt ∧ t.inUtc.createdAt = some utc ∧ utc.isUtc ∧
      utc.instant = createdAt.instant := by
  obtain ⟨utc, converted⟩ := Option.isSome_iff_exists.mp recorded
  obtain ⟨createdAt, stored, shifted⟩ := Option.bind_eq_some_iff.mp converted
  exact ⟨createdAt, utc, stored, converted, DateTime.astimezoneUtc_eq_some.mp shifted⟩

theorem Transaction.inUtc_ledgerKey (recorded : t.inUtc.createdAt.isSome) : t.inUtc.ledgerKey = t.ledgerKey := by
  obtain ⟨createdAt, utc, stored, converted, _, same⟩ := Transaction.inUtc_createdAt recorded
  rw [Transaction.ledgerKey, Transaction.ledgerKey, stored, converted, Option.getD_some, Option.getD_some, same]
  rfl

theorem WrittenAs.orderKey {assets : List AssetRecord} (written : WrittenAs assets t row) :
    row.orderKey = t.ledgerKey := by
  obtain ⟨assetId, now, rfl, _⟩ := written.row
  obtain ⟨utc, converted⟩ := Option.isSome_iff_exists.mp written.recorded
  rw [← Transaction.inUtc_ledgerKey written.recorded, TransactionRecord.orderKey, Transaction.ledgerKey, converted,
    Option.getD_some, record, converted, Option.getD_some]

/-- A row is read as the transaction it was written for. -/
theorem WrittenAs.toDomain (distinct : DistinctAssets tables.assets) (written : WrittenAs tables.assets t row) :
    toDomain tables row = .ok t.inUtc := by
  obtain ⟨assetId, now, rfl, names⟩ := written.row
  obtain ⟨utc, converted⟩ := Option.isSome_iff_exists.mp written.recorded
  have typed : TransactionType.ofValue t.inUtc.transactionType.value = some t.transactionType :=
    t.transactionType.ofValue_value
  simp only [PostgresTransactionRepository.toDomain, record, names.symbolOf distinct, typed, converted,
    Option.getD_some, Checked.ok_bind]
  rw [← converted]
  rfl

/-- The transactions of a portfolio come back in the order of the ledger. -/
theorem Stores.listForPortfolio (stores : Stores tables added) (portfolioId : UUID) :
    listForPortfolio tables portfolioId =
      .ok ((ledgerSorted (added.filter fun t => t.portfolioId = portfolioId)).map Transaction.inUtc) := by
  have own : List.Forall₂ (WrittenAs tables.assets) (added.filter fun t => t.portfolioId = portfolioId)
      (tables.transactions.filter fun row => row.portfolioId = portfolioId) := by
    refine List.rel_filter (fun t row written => ?_) stores.written
    obtain ⟨assetId, now, rfl, _⟩ := written.row
    exact Iff.rfl
  have keys : ∀ pair ∈ (added.filter fun t => t.portfolioId = portfolioId).zip
      (tables.transactions.filter fun row => row.portfolioId = portfolioId), pair.1.ledgerKey = pair.2.orderKey :=
    fun pair member => ((List.forall₂_iff_zip.mp own).2 member).orderKey.symm
  have sorted : List.Forall₂ (WrittenAs tables.assets)
      (ledgerSorted (added.filter fun t => t.portfolioId = portfolioId))
      (StableSort.sortOn TransactionRecord.orderKey
        (tables.transactions.filter fun row => row.portfolioId = portfolioId)) :=
    StableSort.forall₂_sortOn own fun a left b right => by rw [keys a left, keys b right]
  exact Checked.mapM_of_forall₂ (sorted.imp fun _ _ written => written.toDomain stores.assets)

theorem Stores.getByExternalId (stores : Stores tables added) (member : t ∈ added) :
    getByExternalId tables t.portfolioId t.externalId = .ok (some t.inUtc) := by
  obtain ⟨row, listed, written⟩ := Checked.exists_of_forall₂ stores.written t member
  have read := written.toDomain stores.assets
  have text := Sql.text_of_notMem written.text.externalId
  obtain ⟨assetId, now, rfl, _⟩ := written.row
  have found : (tables.transactions.find? fun row => row.portfolioId = t.portfolioId ∧ row.externalId = t.externalId) =
      some (record t.inUtc assetId now) :=
    UniqueRows.find?_of_nodup stores.externalIds listed fun other => by
      rw [decide_eq_true_iff, Prod.mk.injEq]
      exact Iff.rfl
  rw [PostgresTransactionRepository.getByExternalId, text, columnValue, Checked.ok_bind, found]
  simp only [read]
  rfl

theorem Stores.checks (stores : Stores tables added) : ∀ row ∈ tables.transactions, ∀ check ∈ row.checks, check.2 := by
  refine Checked.forall_of_forall₂ stores.written (P := fun _ => True) (fun _ _ => trivial) fun t row written _ => ?_
  obtain ⟨assetId, now, rfl, names⟩ := written.row
  exact written.storable.checks names.isSome_eq now

/-- No two transactions of a ledger share a key, so one order is all there is. -/
theorem Stores.ledgerKeys (stores : Stores tables added) : (added.map Transaction.ledgerKey).Nodup := by
  have ids : added.map Transaction.id = tables.transactions.map TransactionRecord.id := by
    have same := stores.written.imp fun t row written => (by
      obtain ⟨assetId, now, rfl, _⟩ := written.row
      rfl : t.id = row.id)
    exact List.forall₂_eq_eq_eq ▸ (List.forall₂_map_left_iff.mpr (List.forall₂_map_right_iff.mpr same))
  have distinct : (added.map Transaction.id).Nodup := ids ▸ stores.ids
  refine List.Nodup.of_map (fun key : LedgerKey => (ofLex (ofLex key).2).2) ?_
  rw [List.map_map]
  exact distinct

theorem Transaction.Storable.same_inUtc (storable : t.Storable) (transactionId : UUID) (createdAt : DateTime) :
    sameTransactionPayload t.inUtc (t.restamp transactionId createdAt) := by
  have number {column : Sql.Numeric} {value : Option Decimal} (holds : ∀ q ∈ value, column.Holds q ∧ 0 < q.value) :
      optionNumEq value value := by
    cases value with
    | none => rfl
    | some q => exact (Decimal.numEq_iff_value (holds q rfl).1.isFinite (holds q rfl).1.isFinite).mpr rfl
  have fees : t.fees.numEq t.fees :=
    (Decimal.numEq_iff_value storable.fees.1.isFinite storable.fees.1.isFinite).mpr rfl
  have time : sameTime t.occurredAt t.occurredAt := decide_eq_true ⟨rfl, rfl⟩
  exact decide_eq_true ⟨rfl, rfl, rfl, time, rfl, number storable.quantity, number storable.unitPrice,
    number storable.cashAmount, fees⟩

end Ledgers
end LedgerLens
