import LedgerLens.BuildTransaction
import LedgerLens.ValidTransactions
import LedgerLens.LedgerOrder

namespace LedgerLens
variable [UnicodeDatabase]

/-- What `_build_transaction` puts into a transaction. -/
structure BuiltFrom (portfolioId : UUID) (newTransaction : NewTransaction) (transactionId : UUID)
    (createdAt : DateTime) (t : Transaction) : Prop where
  portfolioId_eq : t.portfolioId = portfolioId
  externalId_eq : t.externalId = Text.strip newTransaction.externalId
  transactionType_eq : t.transactionType = newTransaction.transactionType
  id_eq : t.id = transactionId
  createdAt_eq : t.createdAt = some createdAt
  symbol_eq : t.symbol = newTransaction.symbol.map fun symbol => Text.upper (Text.strip symbol)
  occurredAt_of_aware : newTransaction.occurredAt.isAware →
    t.occurredAt.isUtc ∧ t.occurredAt.instant = newTransaction.occurredAt.instant
  occurredAt_of_naive : ¬ newTransaction.occurredAt.isAware → t.occurredAt = newTransaction.occurredAt
  quantity : quantizeExact newTransaction.quantity quantityQuantum "quantity" = .ok t.quantity
  unitPrice : quantizeExact newTransaction.unitPrice moneyQuantum "unit_price" = .ok t.unitPrice
  cashAmount : quantizeExact newTransaction.cashAmount moneyQuantum "cash_amount" = .ok t.cashAmount
  fees : ∃ fees, quantizeExact (some newTransaction.fees) moneyQuantum "fees" = .ok fees ∧
    t.fees = orElseFalsy fees (.finite false 0 (-8))

theorem BuiltFrom.of_eq_ok {portfolioId transactionId : UUID} {newTransaction : NewTransaction}
    {createdAt : DateTime} {t : Transaction}
    (built : buildTransaction portfolioId newTransaction transactionId createdAt = .ok t) :
    BuiltFrom portfolioId newTransaction transactionId createdAt t := by
  obtain ⟨occurredAt, shifted, built⟩ := Checked.bind_eq_ok.mp built
  obtain ⟨quantity, quantityOk, built⟩ := Checked.bind_eq_ok.mp built
  obtain ⟨unitPrice, unitPriceOk, built⟩ := Checked.bind_eq_ok.mp built
  obtain ⟨cashAmount, cashAmountOk, built⟩ := Checked.bind_eq_ok.mp built
  obtain ⟨fees, feesOk, built⟩ := Checked.bind_eq_ok.mp built
  cases Checked.pure_eq_ok.mp built
  refine ⟨rfl, rfl, rfl, rfl, rfl, rfl, fun aware => ?_, fun naive => ?_, quantityOk, unitPriceOk, cashAmountOk,
    fees, feesOk, rfl⟩
  · rw [if_pos aware] at shifted
    exact astimezoneUtc_eq_ok.mp shifted
  · rw [if_neg naive] at shifted
    exact (Checked.pure_eq_ok.mp shifted).symm

/-- A request whose time converts and whose numbers quantize becomes a transaction. -/
theorem buildTransaction_of_parts {newTransaction : NewTransaction} {occurredAt : DateTime}
    {quantity unitPrice cashAmount fees : Option Decimal} (aware : newTransaction.occurredAt.isAware)
    (shifted : astimezoneUtc newTransaction.occurredAt = .ok occurredAt)
    (quantityOk : quantizeExact newTransaction.quantity quantityQuantum "quantity" = .ok quantity)
    (unitPriceOk : quantizeExact newTransaction.unitPrice moneyQuantum "unit_price" = .ok unitPrice)
    (cashAmountOk : quantizeExact newTransaction.cashAmount moneyQuantum "cash_amount" = .ok cashAmount)
    (feesOk : quantizeExact (some newTransaction.fees) moneyQuantum "fees" = .ok fees)
    (portfolioId transactionId : UUID) (createdAt : DateTime) :
    buildTransaction portfolioId newTransaction transactionId createdAt = .ok {
      id := transactionId
      portfolioId := portfolioId
      externalId := Text.strip newTransaction.externalId
      transactionType := newTransaction.transactionType
      occurredAt := occurredAt
      createdAt := some createdAt
      symbol := newTransaction.symbol.map fun symbol => Text.upper (Text.strip symbol)
      quantity := quantity
      unitPrice := unitPrice
      cashAmount := cashAmount
      fees := orElseFalsy fees (.finite false 0 (-8)) } := by
  simp only [buildTransaction, aware, if_true, shifted, quantityOk, unitPriceOk, cashAmountOk, feesOk,
    Checked.ok_bind]
  rfl

/-- A transaction under another id and time of recording. -/
def Transaction.restamp (t : Transaction) (transactionId : UUID) (createdAt : DateTime) : Transaction :=
  { t with id := transactionId, createdAt := some createdAt }

/-- The id and the clock only reach the two fields they are for. -/
theorem buildTransaction_restamp (portfolioId : UUID) (newTransaction : NewTransaction)
    (id otherId : UUID) (now otherNow : DateTime) :
    buildTransaction portfolioId newTransaction otherId otherNow =
      (fun t => t.restamp otherId otherNow) <$> buildTransaction portfolioId newTransaction id now := by
  simp only [buildTransaction, map_bind, map_pure]
  rfl

/-- A transaction the service made from a request. -/
def Transaction.Built (t : Transaction) : Prop :=
  ∃ newTransaction, ∃ fresh : Fresh,
    buildTransaction t.portfolioId newTransaction fresh.id fresh.now = .ok t

theorem Transaction.Built.occurredAt_isUtc {t : Transaction} (built : t.Built) (valid : t.Valid) :
    t.occurredAt.isUtc := by
  obtain ⟨newTransaction, fresh, built⟩ := built
  have from_request := BuiltFrom.of_eq_ok built
  by_cases aware : newTransaction.occurredAt.isAware
  · exact (from_request.occurredAt_of_aware aware).1
  · have naive := from_request.occurredAt_of_naive aware
    exact absurd (naive ▸ valid.occurredAt) aware

theorem Transaction.Built.symbol_upper {t : Transaction} (built : t.Built) :
    ∀ symbol ∈ t.symbol, Text.upper symbol = symbol := by
  obtain ⟨newTransaction, fresh, built⟩ := built
  rw [(BuiltFrom.of_eq_ok built).symbol_eq]
  intro symbol member
  obtain ⟨requested, _, rfl⟩ := Option.map_eq_some_iff.mp member
  exact Text.upper_upper _

end LedgerLens
