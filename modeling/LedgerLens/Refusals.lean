import LedgerLens.SoundLedger

namespace LedgerLens
open Decimal (Context)
open Checked (OnlyRaises)
variable {F : Type}

/-- The exceptions an import row may fail with. -/
inductive Error.IsRefusal : Error → Prop
  | invalidTransaction (message : String) : IsRefusal (.invalidTransaction message)
  | conflict (portfolioId : UUID) (externalId : String) :
    IsRefusal (.transactionIdempotencyConflict portfolioId externalId)

/-- `astimezone(UTC)` is either not asked for or goes through. -/
def Convertible (time : DateTime) : Prop := time.isAware → time.astimezoneUtc.isSome

instance (time : DateTime) : Decidable (Convertible time) := inferInstanceAs (Decidable (_ → _))

theorem quantizeExact_refuses (value : Option Decimal) (quantum : Decimal) (fieldName : String) :
    OnlyRaises Error.IsRefusal (quantizeExact value quantum fieldName) := by
  unfold quantizeExact
  split
  · exact .ok _
  · split
    · exact .ok _
    · split
      · exact .error (.invalidTransaction _)
      · exact .guard (.invalidTransaction _) fun _ => .ok _

theorem requirePositiveFinite_onlyRaises {P : Error → Prop} (refused : ∀ message, P (.invalidTransaction message))
    (value : Option Decimal) (fieldName : String) : OnlyRaises P (requirePositiveFinite value fieldName) := by
  cases value with
  | none => exact .error (refused _)
  | some value => exact .guard (refused _) fun _ => .ok _

theorem changePosition_refuses {t : Transaction} [UnicodeDatabase] (valid : t.Valid) (ctx : Context)
    (positions : Dict String ℚ) : OnlyRaises Error.IsRefusal (changePosition ctx .invalidTransaction positions t) := by
  unfold changePosition
  by_cases trade : t.transactionType.isTrade
  · obtain ⟨symbol, quantity, unitPrice, payload⟩ := valid.trade trade
    rw [payload.symbol_eq, payload.quantity_eq]
    split
    · exact .ok _
    · simp only
      split
      · exact .ok _
      · exact .guard (.invalidTransaction _) fun _ => .ok _
  · rw [if_pos]
    · exact .ok _
    · constructor <;> intro kind <;> simp [kind, TransactionType.isTrade] at trade

variable [UnicodeDatabase]

theorem validateTransaction_onlyRaises {P : Error → Prop} (refused : ∀ message, P (.invalidTransaction message))
    (t : Transaction) : OnlyRaises P (validateTransaction t) := by
  refine .guard (refused _) fun _ => .guard (refused _) fun _ =>
    .guard (refused _) fun _ => .bind (.guard (refused _) fun _ => .ok _) fun _ _ => ?_
  have trade : OnlyRaises P (validateTrade t) := by
    unfold validateTrade
    split
    · exact .error (refused _)
    · refine .guard (refused _) fun _ => .guard (refused _) fun _ =>
        .bind (requirePositiveFinite_onlyRaises refused _ _) fun _ _ =>
          .bind (requirePositiveFinite_onlyRaises refused _ _) fun _ _ => .guard (refused _) fun _ => .ok _
  have transfer : OnlyRaises P (validateTransfer t) :=
    .guard (refused _) fun _ => requirePositiveFinite_onlyRaises refused _ _
  cases t.transactionType with
  | buy | sell => exact trade
  | deposit | withdrawal => exact transfer

theorem validateTransaction_refuses (t : Transaction) : OnlyRaises Error.IsRefusal (validateTransaction t) :=
  validateTransaction_onlyRaises .invalidTransaction t

theorem derivePositions_refuses (ctx : Context) {transactions : List Transaction}
    (convertible : ∀ t ∈ transactions, t.occurredAt.astimezoneUtc.isSome) :
    OnlyRaises Error.IsRefusal (derivePositions ctx transactions) := by
  refine .bind (.forM fun t _ => validateTransaction_refuses t) fun _ checked => ?_
  have sorted := sortOnM_ledgerOrder_eq_ok.mpr ⟨convertible, rfl⟩
  rw [sorted, Checked.ok_bind]
  refine .bind (.foldlM (fun positions t member => ?_) _) fun _ _ => .ok _
  have listed := StableSort.mem_sortOn.mp member
  exact changePosition_refuses (validateTransaction_eq_ok.mp (Checked.forM_eq_ok.mp checked t listed)) ctx positions

theorem buildTransaction_refuses {portfolioId transactionId : UUID} {newTransaction : NewTransaction}
    {createdAt : DateTime} (convertible : Convertible newTransaction.occurredAt) :
    OnlyRaises Error.IsRefusal (buildTransaction portfolioId newTransaction transactionId createdAt) := by
  refine .bind ?_ fun _ _ => .bind (quantizeExact_refuses _ _ _) fun _ _ =>
    .bind (quantizeExact_refuses _ _ _) fun _ _ => .bind (quantizeExact_refuses _ _ _) fun _ _ =>
    .bind (quantizeExact_refuses _ _ _) fun _ _ => .ok _
  split
  · next aware =>
    obtain ⟨utc, converted⟩ := Option.isSome_iff_exists.mp (convertible aware)
    simp only [astimezoneUtc, converted]
    exact .ok _
  · exact .ok _

/-- A time that does not fit into UTC is the one thing that gets past the refusals. -/
theorem buildTransaction_overflows {portfolioId transactionId : UUID} {newTransaction : NewTransaction}
    {createdAt : DateTime} (overflows : ¬ Convertible newTransaction.occurredAt) :
    buildTransaction portfolioId newTransaction transactionId createdAt = .error .overflowError := by
  simp only [Convertible, not_forall, Bool.not_eq_true, Option.isSome_eq_false_iff, Option.isNone_iff_eq_none]
    at overflows
  obtain ⟨aware, outside⟩ := overflows
  simp only [buildTransaction, aware, if_true, astimezoneUtc, outside]
  rfl

end LedgerLens
