import LedgerLens.ValidTransactions

namespace LedgerLens

/-- The ledger key without the range check of the conversion to UTC. -/
def Transaction.ledgerKey (t : Transaction) : LedgerKey :=
  toLex (t.occurredAt.instant, toLex ((t.createdAt.getD t.occurredAt).instant, t.id))

/-- The UTC calendar day a transaction takes effect on. -/
def Transaction.utcDate (t : Transaction) : Date := t.occurredAt.utcDate

theorem astimezoneUtc_eq_ok {time utc : DateTime} :
    astimezoneUtc time = .ok utc ↔ utc.isUtc ∧ utc.instant = time.instant := by
  rw [← DateTime.astimezoneUtc_eq_some, astimezoneUtc]
  cases time.astimezoneUtc <;> simp

theorem astimezoneUtc_of_isUtc {time : DateTime} (utc : time.isUtc) : astimezoneUtc time = .ok time :=
  astimezoneUtc_eq_ok.mpr ⟨utc, rfl⟩

theorem astimezoneUtc_onlyRaises {P : Error → Prop} (overflow : P .overflowError) (time : DateTime) :
    Checked.OnlyRaises P (astimezoneUtc time) := by
  unfold astimezoneUtc
  split
  · exact .ok _
  · exact .error overflow

theorem ledgerOrder_eq_ok {t : Transaction} {key : LedgerKey} :
    ledgerOrder t = .ok key ↔ t.occurredAt.astimezoneUtc.isSome ∧ key = t.ledgerKey := by
  have shifted : t.occurredAt.astimezoneUtc.isSome ↔ ∃ utc, astimezoneUtc t.occurredAt = .ok utc := by
    rw [astimezoneUtc]
    cases t.occurredAt.astimezoneUtc <;> simp
  rw [shifted]
  cases recorded : t.createdAt with
  | some createdAt =>
    simp only [ledgerOrder, recorded, Checked.bind_eq_ok, Checked.pure_eq_ok, exists_eq_left', Transaction.ledgerKey,
      Option.getD_some]
    constructor
    · rintro ⟨utc, converted, rfl⟩
      exact ⟨⟨utc, converted⟩, by rw [(astimezoneUtc_eq_ok.mp converted).2]⟩
    · rintro ⟨⟨utc, converted⟩, rfl⟩
      exact ⟨utc, converted, by rw [(astimezoneUtc_eq_ok.mp converted).2]⟩
  | none =>
    simp only [ledgerOrder, recorded, Checked.bind_eq_ok, Checked.pure_eq_ok, Transaction.ledgerKey,
      Option.getD_none]
    constructor
    · rintro ⟨created, first, utc, converted, rfl⟩
      exact ⟨⟨utc, converted⟩, by rw [(astimezoneUtc_eq_ok.mp converted).2, (astimezoneUtc_eq_ok.mp first).2]⟩
    · rintro ⟨⟨utc, converted⟩, rfl⟩
      exact ⟨utc, converted, utc, converted, by rw [(astimezoneUtc_eq_ok.mp converted).2]⟩

/-- The ledger in its replay order. -/
def ledgerSorted (transactions : List Transaction) : List Transaction :=
  StableSort.sortOn Transaction.ledgerKey transactions

theorem sortOnM_ledgerOrder_eq_ok {transactions ordered : List Transaction} :
    Checked.sortOnM ledgerOrder transactions = .ok ordered ↔
      (∀ t ∈ transactions, t.occurredAt.astimezoneUtc.isSome) ∧ ordered = ledgerSorted transactions := by
  rw [Checked.sortOnM_eq_ok fun t key computed => (ledgerOrder_eq_ok.mp computed).2]
  simp only [ledgerOrder_eq_ok, and_true]
  rfl

theorem sortOnM_ledgerOrder_of_isUtc {transactions : List Transaction} (utc : ∀ t ∈ transactions, t.occurredAt.isUtc) :
    Checked.sortOnM ledgerOrder transactions = .ok (ledgerSorted transactions) := by
  refine sortOnM_ledgerOrder_eq_ok.mpr ⟨fun t member => ?_, rfl⟩
  rw [DateTime.astimezoneUtc_of_isUtc (utc t member)]
  rfl

theorem Transaction.ledgerKey_le {a b : Transaction} (order : a.ledgerKey ≤ b.ledgerKey) :
    a.occurredAt.instant ≤ b.occurredAt.instant := by
  rcases Prod.Lex.le_iff.mp order with before | ⟨same, _⟩
  · exact before.le
  · exact same.le

/-- Ledger order never goes back to an earlier UTC day. -/
theorem Transaction.utcDate_mono {a b : Transaction} (order : a.ledgerKey ≤ b.ledgerKey) :
    a.utcDate ≤ b.utcDate :=
  DateTime.utcDate_mono (ledgerKey_le order)

/-- Cutting a sorted ledger by date keeps a prefix of it. -/
theorem ledgerSorted_takeWhile (transactions : List Transaction) {p : Date → Prop} [DecidablePred p]
    (downward : ∀ a b, a ≤ b → p b → p a) :
    (ledgerSorted transactions).takeWhile (fun t => p t.utcDate) =
      ledgerSorted (transactions.filter fun t => p t.utcDate) := by
  have cut := StableSort.filter_eq_takeWhile (p := fun t : Transaction => p t.utcDate)
    (StableSort.sortOn_sorted Transaction.ledgerKey transactions)
  rw [ledgerSorted, ← cut, StableSort.filter_sortOn, ledgerSorted]
  intro a _ b _ order before
  exact decide_eq_true (downward _ _ (Transaction.utcDate_mono order) (of_decide_eq_true before))

theorem ledgerSorted_cut (transactions : List Transaction) (day : Date) :
    (ledgerSorted transactions).takeWhile (fun t => t.utcDate ≤ day) =
      ledgerSorted (transactions.filter fun t => t.utcDate ≤ day) :=
  ledgerSorted_takeWhile (p := fun date => date ≤ day) transactions fun _ _ order before => order.trans before

end LedgerLens
