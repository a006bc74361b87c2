import LedgerLens.LatestSnapshot
import LedgerLens.Refusals
import LedgerLens.Library.Parallel

namespace LedgerLens
open Decimal (Context)
open Checked (Parallel OnlyRaises)

/-- Two exceptions of one class; each class is a constructor. -/
def Error.SameClass (e e' : Error) : Prop := e.ctorIdx = e'.ctorIdx

theorem Error.SameClass.refl (e : Error) : e.SameClass e := rfl

/-- Equal results, or exceptions of one class. -/
def SameOutcome {α : Type} (x y : Except Error α) : Prop := Parallel Error.SameClass Eq x y

theorem SameOutcome.refl {α : Type} (x : Except Error α) : SameOutcome x x := Parallel.refl Error.SameClass.refl x

/-- A transaction is invalid, and a valid one cannot be converted to UTC. -/
def MixedFaults [UnicodeDatabase] (transactions : List Transaction) : Prop :=
  (∃ t ∈ transactions, ¬ t.Valid) ∧ ∃ t ∈ transactions, t.Valid ∧ t.occurredAt.astimezoneUtc = none

def Error.IsInvalidTransaction (e : Error) : Prop := ∃ message, e = .invalidTransaction message

theorem sortOnM_ledgerOrder_overflows (transactions : List Transaction) :
    OnlyRaises (· = .overflowError) (Checked.sortOnM ledgerOrder transactions) := by
  refine .bind (.mapM fun t _ => ?_) fun _ _ => .ok _
  have overflows := astimezoneUtc_onlyRaises (P := (· = .overflowError)) rfl
  unfold ledgerOrder
  split
  · exact .bind (.ok _) fun _ _ => (overflows _).bind fun _ _ => .ok _
  · exact (overflows _).bind fun _ _ => (overflows _).bind fun _ _ => .ok _

section Ledgers
variable {transactions transactions' : List Transaction} (distinct : (transactions.map Transaction.id).Nodup)
  (permuted : transactions.Perm transactions')
include distinct permuted

/-- Transactions with ids of their own have a ledger order of their own. -/
theorem ledgerSorted_congr : ledgerSorted transactions = ledgerSorted transactions' := by
  refine StableSort.sortOn_congr permuted (.of_map (fun key : LedgerKey => (ofLex (ofLex key).2).2) ?_)
  rw [List.map_map]
  exact distinct

theorem sortOnM_ledgerOrder_alike :
    SameOutcome (Checked.sortOnM ledgerOrder transactions) (Checked.sortOnM ledgerOrder transactions') := by
  refine .of_isOk ?_ (sortOnM_ledgerOrder_overflows _) (sortOnM_ledgerOrder_overflows _) ?_
    fun ordered ordered' run run' => ?_
  · simp only [Checked.isOk_iff, sortOnM_ledgerOrder_eq_ok, exists_and_left, exists_eq, and_true, permuted.mem_iff]
  · rintro e e' rfl rfl
    rfl
  · rw [(sortOnM_ledgerOrder_eq_ok.mp run).2, (sortOnM_ledgerOrder_eq_ok.mp run').2]
    exact ledgerSorted_congr distinct permuted

variable [UnicodeDatabase]

theorem derivePositions_alike (ctx : Context) :
    SameOutcome (derivePositions ctx transactions) (derivePositions ctx transactions') := by
  have checked : SameOutcome (transactions.forM validateTransaction) (transactions'.forM validateTransaction) := by
    have raises : ∀ transactions : List Transaction,
        OnlyRaises Error.IsInvalidTransaction (transactions.forM validateTransaction) := fun _ =>
      .forM fun t _ => validateTransaction_onlyRaises (fun message => ⟨message, rfl⟩) t
    refine .of_isOk ?_ (raises _) (raises _) ?_ fun _ _ _ _ => rfl
    · have total : ∀ x : Except Error PUnit, x.isOk ↔ x = .ok ⟨⟩ := fun x => by
        rw [Checked.isOk_iff]
        exact ⟨fun ⟨_, run⟩ => run, fun run => ⟨_, run⟩⟩
      rw [total, total, Checked.forM_eq_ok, Checked.forM_eq_ok]
      simp only [permuted.mem_iff]
    · rintro e e' ⟨_, rfl⟩ ⟨_, rfl⟩
      rfl
  refine checked.bind fun _ _ _ => (sortOnM_ledgerOrder_alike distinct permuted).bind fun ordered _ same => ?_
  cases same
  exact SameOutcome.refl _

/-- Where the faults of a ledger are all of one kind, so are the exceptions. -/
theorem orderedTransactions_alike (faults : ¬ MixedFaults transactions) (endDate : Date) :
    SameOutcome (orderedTransactions transactions endDate) (orderedTransactions transactions' endDate) := by
  obtain ⟨P, sameClass, raises⟩ : ∃ P : Error → Prop, (∀ e e', P e → P e' → e.SameClass e') ∧
      ∀ t ∈ transactions, OnlyRaises P (validateTransaction t) ∧ (t.Valid → OnlyRaises P (transactionDate t)) := by
    by_cases invalid : ∃ t ∈ transactions, ¬ t.Valid
    · refine ⟨Error.IsInvalidTransaction, ?_, fun t member =>
        ⟨validateTransaction_onlyRaises (fun message => ⟨message, rfl⟩) t, fun valid => ?_⟩⟩
      · rintro e e' ⟨_, rfl⟩ ⟨_, rfl⟩
        rfl
      · have convertible : t.occurredAt.astimezoneUtc.isSome := by
          rw [← Option.ne_none_iff_isSome]
          exact fun overflows => faults ⟨invalid, t, member, valid, overflows⟩
        rw [transactionDate_eq_ok.mpr ⟨convertible, rfl⟩]
        exact .ok _
    · have dates := transactionDate_onlyRaises (P := (· = .overflowError)) rfl
      refine ⟨(· = .overflowError), ?_, fun t member => ⟨?_, fun _ => dates t⟩⟩
      · rintro e e' rfl rfl
        rfl
      · have valid : t.Valid := by_contra fun bad => invalid ⟨t, member, bad⟩
        rw [validateTransaction_eq_ok.mpr valid]
        exact .ok _
  have left := orderedTransactions_onlyRaises raises endDate
  have right := orderedTransactions_onlyRaises (fun t member => raises t (permuted.mem_iff.mpr member)) endDate
  refine .of_isOk ?_ left right sameClass ?_
  · simp only [Checked.isOk_iff, orderedTransactions_eq_ok, exists_and_left, exists_eq, and_true, permuted.mem_iff]
  · intro kept kept' run run'
    rw [(orderedTransactions_eq_ok.mp run).2, (orderedTransactions_eq_ok.mp run').2]
    exact ledgerSorted_congr (distinct.sublist (List.filter_sublist.map _)) (permuted.filter _)

theorem requiredPriceSymbols_alike (ctx : Context) {startDate endDate : Date}
    (faults : startDate ≤ endDate → ¬ MixedFaults transactions) :
    SameOutcome (requiredPriceSymbols ctx transactions startDate endDate)
      (requiredPriceSymbols ctx transactions' startDate endDate) := by
  by_cases range : endDate < startDate
  · unfold requiredPriceSymbols validateDateRange
    rw [if_pos range]
    exact .refl _
  · refine Parallel.bind (SameOutcome.refl _) fun _ _ _ => ?_
    have ordered := orderedTransactions_alike distinct permuted (faults (not_lt.mp range)) endDate
    refine ordered.bind fun _ _ same => ?_
    cases same
    exact SameOutcome.refl _

end Ledgers

section Prices

/-- Two tables with the same price on each date. -/
def SamePrices (table table' : Dict Date ℚ) : Prop := ∀ day, table.get? day = table'.get? day

theorem observePrices_congr {prices prices' : Dict String (Dict Date ℚ)} (same : prices.Related SamePrices prices')
    (day : Date) (latest : Dict String ℚ) : observePrices prices day latest = observePrices prices' day latest := by
  unfold observePrices
  unfold Dict.Related at same
  generalize prices.entries = entries, prices'.entries = entries' at same ⊢
  induction same generalizing latest with
  | nil => rfl
  | @cons entry entry' rest rest' head tail ih =>
    rw [List.foldl_cons, List.foldl_cons, head.1, head.2 day]
    exact ih _

theorem valuationDates_congr {prices prices' : Dict String (Dict Date ℚ)} (same : prices.Related SamePrices prices') :
    sortedSet (prices.entries.flatMap fun entry => entry.2.keys) =
      sortedSet (prices'.entries.flatMap fun entry => entry.2.keys) := by
  refine sortedSet_congr fun day => ?_
  unfold Dict.Related at same
  generalize prices.entries = entries, prices'.entries = entries' at same ⊢
  induction same with
  | nil => rfl
  | @cons entry entry' rest rest' head tail ih =>
    have keys : day ∈ entry.2.keys ↔ day ∈ entry'.2.keys := by
      rw [← not_iff_not, ← Dict.get?_eq_none, ← Dict.get?_eq_none, head.2 day]
    rw [List.flatMap_cons, List.flatMap_cons, List.mem_append, List.mem_append, keys, ih]

theorem TableOf.get?_eq_some {bars : List PriceBar} {table : Dict Date ℚ} (priced : TableOf bars table) {day : Date}
    {price : ℚ} : table.get? day = some price ↔ ∃ bar ∈ bars, bar.date = day ∧ bar.price = price := by
  rw [priced.find, Option.map_eq_some_iff]
  constructor
  · rintro ⟨bar, found, own⟩
    exact ⟨bar, List.mem_of_find?_eq_some found, by simpa using List.find?_some found, own⟩
  · rintro ⟨bar, member, rfl, rfl⟩
    cases found : bars.find? fun other => other.date = bar.date with
    | none => exact absurd (decide_eq_true rfl) (List.find?_eq_none.mp found bar member)
    | some other =>
      have date : other.date = bar.date := by simpa using List.find?_some found
      cases List.inj_on_of_nodup_map priced.distinct (List.mem_of_find?_eq_some found) member date
      exact ⟨_, rfl, rfl⟩

theorem TableOf.samePrices {bars bars' : List PriceBar} {table table' : Dict Date ℚ} (priced : TableOf bars table)
    (priced' : TableOf bars' table') (permuted : bars.Perm bars') : SamePrices table table' := by
  intro day
  refine Option.ext fun price => ?_
  rw [priced.get?_eq_some, priced'.get?_eq_some]
  simp only [permuted.mem_iff]

variable [UnicodeDatabase] {symbol : String} {startDate endDate : Date}

/-- The bar is one of the symbol with a usable price. -/
structure PriceBar.Usable (symbol : String) (bar : PriceBar) : Prop where
  matches_symbol : Text.upper bar.symbol = symbol
  finite : bar.adjustedClose.isFinite
  positive : 0 < bar.price

/-- The bars of a symbol are taken if they are all usable and no two in the range are of one date. -/
theorem addPriceBar_foldlM_isOk {bars : List PriceBar} :
    (bars.foldlM (addPriceBar symbol startDate endDate) .empty).isOk ↔ (∀ bar ∈ bars, bar.Usable symbol) ∧
      ((bars.filter fun bar => startDate ≤ bar.date ∧ bar.date ≤ endDate).map PriceBar.date).Nodup := by
  constructor
  · intro returned
    obtain ⟨table, run⟩ := Checked.exists_of_isOk returned
    refine ⟨?_, (addPriceBar_foldlM_tableOf run).distinct⟩
    refine Checked.foldlM_prefix_invariant (fun seen _ => ∀ bar ∈ seen, bar.Usable symbol) (by simp) run ?_
    intro seen bar later table next _ usable step
    obtain ⟨own, step⟩ := Checked.guard_eq_ok.mp step
    obtain ⟨sound, step⟩ := Checked.guard_eq_ok.mp step
    simp only [not_or, not_le, not_not] at own sound
    exact List.forall_mem_append.mpr ⟨usable, List.forall_mem_singleton.mpr ⟨own, sound.1, sound.2⟩⟩
  · rintro ⟨usable, distinct⟩
    have raises : OnlyRaises (fun _ => False) (bars.foldlM (addPriceBar symbol startDate endDate) .empty) := by
      refine .foldlM_reaching (fun seen table =>
        seen.foldlM (addPriceBar symbol startDate endDate) .empty = .ok table) rfl ?_
      intro seen bar later table whole run
      refine ⟨?_, fun next step => Checked.foldlM_append_eq_ok.mpr ⟨table, run, Checked.foldlM_cons_eq_ok.mpr
        ⟨next, step, rfl⟩⟩⟩
      have own := usable bar (whole ▸ by simp)
      have sound : ¬ (¬ bar.adjustedClose.isFinite ∨ bar.adjustedClose.value ≤ 0) :=
        not_or.mpr ⟨not_not.mpr own.finite, not_le.mpr own.positive⟩
      rw [addPriceBar, if_neg (not_not.mpr own.matches_symbol), if_neg sound]
      split
      · exact .ok _
      · next inside =>
        rw [if_neg]
        · exact .ok _
        intro taken
        have key : bar.date ∈ table.keys := by
          by_contra fresh
          rw [Dict.get?_eq_none.mpr fresh] at taken
          cases taken
        obtain ⟨other, earlier, date⟩ := (addPriceBar_foldlM_tableOf run).mem_keys.mp key
        rw [whole, List.filter_append, List.map_append] at distinct
        refine (List.nodup_append.mp distinct).2.2 _ (List.mem_map_of_mem earlier) bar.date ?_ date
        exact List.mem_map_of_mem (List.mem_filter.mpr ⟨List.mem_cons_self, by simpa using inside⟩)
    cases run : bars.foldlM (addPriceBar symbol startDate endDate) .empty with
    | ok table => rfl
    | error e => exact (raises e run).elim

theorem symbolPrices_alike (symbol : String) (startDate endDate : Date) {bars bars' : List PriceBar}
    (permuted : bars.Perm bars') : Parallel Error.SameClass SamePrices
      (bars.foldlM (addPriceBar symbol startDate endDate) .empty)
      (bars'.foldlM (addPriceBar symbol startDate endDate) .empty) := by
  have raises : ∀ bars : List PriceBar, OnlyRaises (fun e => ∃ message, e = .invalidPriceSeries message)
      (bars.foldlM (addPriceBar symbol startDate endDate) .empty) := by
    refine fun bars => .foldlM (fun table bar _ => .guard ⟨_, rfl⟩ fun _ => .guard ⟨_, rfl⟩ fun _ => ?_) _
    split
    · exact .ok _
    · exact .guard ⟨_, rfl⟩ fun _ => .ok _
  refine .of_isOk ?_ (raises bars) (raises bars') ?_ fun table table' run run' => ?_
  · rw [addPriceBar_foldlM_isOk, addPriceBar_foldlM_isOk, ((permuted.filter _).map _).nodup_iff]
    simp only [permuted.mem_iff]
  · rintro e e' ⟨_, rfl⟩ ⟨_, rfl⟩
    rfl
  · exact (addPriceBar_foldlM_tableOf run).samePrices (addPriceBar_foldlM_tableOf run') (permuted.filter _)

variable {priceBarsBySymbol priceBarsBySymbol' : Dict String (List PriceBar)}
  (permuted : priceBarsBySymbol.Related List.Perm priceBarsBySymbol')
include permuted

theorem normalizedInput_perm :
    (normalizedInput priceBarsBySymbol).Related List.Perm (normalizedInput priceBarsBySymbol') := by
  have filled : ∀ normalized normalized' : Dict String (List PriceBar), normalized.Related List.Perm normalized' →
      (priceBarsBySymbol.entries.foldl (fun normalized entry => normalized.set (Text.upper entry.1) entry.2)
        normalized).Related List.Perm
      (priceBarsBySymbol'.entries.foldl (fun normalized entry => normalized.set (Text.upper entry.1) entry.2)
        normalized') := by
    unfold Dict.Related at permuted
    generalize priceBarsBySymbol.entries = entries, priceBarsBySymbol'.entries = entries' at permuted ⊢
    induction permuted with
    | nil => exact fun _ _ related => related
    | @cons entry entry' rest rest' head tail ih =>
      intro normalized normalized' related
      rw [List.foldl_cons, List.foldl_cons, ← head.1]
      exact ih _ _ (related.set _ head.2)
  exact filled .empty .empty Dict.related_empty

theorem validatedPrices_alike (symbols : List String) (startDate endDate : Date) :
    Parallel Error.SameClass (Dict.Related SamePrices)
      (validatedPrices symbols priceBarsBySymbol startDate endDate)
      (validatedPrices symbols priceBarsBySymbol' startDate endDate) := by
  refine .foldlM (fun prices prices' symbol related => ?_) Dict.related_empty
  have bars := (normalizedInput_perm permuted).getD symbol (a := []) (b := []) (.refl _)
  refine (symbolPrices_alike symbol startDate endDate bars).bind fun table table' same => ?_
  have empty : table.entries = [] ↔ table'.entries = [] := by
    rw [Dict.entries_eq_nil, Dict.entries_eq_nil]
    exact forall_congr' fun day => by rw [same day]
  by_cases barless : table.entries = []
  · rw [if_pos barless, if_pos (empty.mp barless)]
    exact .error (.refl _)
  · rw [if_neg barless, if_neg (mt empty.mpr barless)]
    exact .ok (related.set symbol same)

end Prices

section Order
variable [UnicodeDatabase] {F : Type} [FloatArithmetic F] {ctx : Context}
  {transactions transactions' : List Transaction} {startDate endDate : Date}
  {priceBarsBySymbol priceBarsBySymbol' : Dict String (List PriceBar)}

theorem buildPortfolioValuation_alike (distinct : (transactions.map Transaction.id).Nodup)
    (permuted : transactions.Perm transactions') (bars : priceBarsBySymbol.Related List.Perm priceBarsBySymbol')
    (faults : startDate ≤ endDate → ¬ MixedFaults transactions) :
    SameOutcome (buildPortfolioValuation (F := F) ctx transactions priceBarsBySymbol startDate endDate)
      (buildPortfolioValuation ctx transactions' priceBarsBySymbol' startDate endDate) := by
  by_cases range : endDate < startDate
  · unfold buildPortfolioValuation validateDateRange
    rw [if_pos range]
    exact .refl _
  refine Parallel.bind (SameOutcome.refl _) fun _ _ _ => ?_
  refine (requiredPriceSymbols_alike distinct permuted ctx faults).bind fun symbols _ same => ?_
  cases same
  split
  · exact .error (.refl _)
  refine (validatedPrices_alike bars symbols startDate endDate).bind fun prices prices' same => ?_
  have visits : visitDate ctx prices = visitDate ctx prices' := by
    funext state day
    rw [visitDate, visitDate, observePrices_congr same]
  rw [valuationDates_congr same, visits]
  simp only
  split
  · exact .error (.refl _)
  have ordered := orderedTransactions_alike distinct permuted (faults (not_lt.mp range)) endDate
  refine ordered.bind fun _ _ same => ?_
  cases same
  exact SameOutcome.refl _

omit [UnicodeDatabase] in
theorem validateDateRange_eq_ok (range : startDate ≤ endDate) : validateDateRange startDate endDate = .ok () :=
  Checked.guard_eq_ok.mpr ⟨not_lt.mpr range, rfl⟩

theorem requiredPriceSymbols_of_invalid (ctx : Context) (range : startDate ≤ endDate) {t : Transaction}
    (invalid : ¬ t.Valid) (rest : List Transaction) : ∃ message,
      requiredPriceSymbols ctx (t :: rest) startDate endDate = .error (.invalidTransaction message) := by
  cases checked : validateTransaction t with
  | ok => exact absurd (validateTransaction_eq_ok.mp checked) invalid
  | error e =>
    obtain ⟨message, rfl⟩ := validateTransaction_onlyRaises (P := Error.IsInvalidTransaction)
      (fun message => ⟨message, rfl⟩) t e checked
    refine ⟨message, ?_⟩
    rw [requiredPriceSymbols, validateDateRange_eq_ok range, orderedTransactions, includedTransactions, checked]
    rfl

theorem requiredPriceSymbols_of_overflow (range : startDate ≤ endDate) {t : Transaction} (valid : t.Valid)
    (overflows : t.occurredAt.astimezoneUtc = none) (rest : List Transaction) :
    requiredPriceSymbols ctx (t :: rest) startDate endDate = .error .overflowError := by
  rw [requiredPriceSymbols, validateDateRange_eq_ok range, orderedTransactions, includedTransactions,
    validateTransaction_eq_ok.mpr valid, transactionDate, astimezoneUtc, overflows]
  rfl

/-- Neither the order of the transactions nor that of the bars of a symbol matters, except that it decides which
exception a ledger gets that has an invalid transaction and a valid one that overflows in UTC. -/
theorem input_order_irrelevant_iff (distinct : (transactions.map Transaction.id).Nodup) :
    (∀ transactions' priceBarsBySymbol', transactions.Perm transactions' →
      priceBarsBySymbol.Related List.Perm priceBarsBySymbol' →
        SameOutcome (derivePositions ctx transactions) (derivePositions ctx transactions') ∧
        SameOutcome (requiredPriceSymbols ctx transactions startDate endDate)
          (requiredPriceSymbols ctx transactions' startDate endDate) ∧
        SameOutcome (buildPortfolioValuation (F := F) ctx transactions priceBarsBySymbol startDate endDate)
          (buildPortfolioValuation ctx transactions' priceBarsBySymbol' startDate endDate)) ↔
      endDate < startDate ∨ ¬ MixedFaults transactions := by
  constructor
  · intro irrelevant
    rw [← not_le, ← not_and_or]
    rintro ⟨range, ⟨u, memberU, invalid⟩, v, memberV, valid, overflows⟩
    have moved : ∀ t ∈ transactions, SameOutcome (requiredPriceSymbols ctx transactions startDate endDate)
        (requiredPriceSymbols ctx (t :: transactions.erase t) startDate endDate) := fun t member =>
      (irrelevant _ priceBarsBySymbol (List.perm_cons_erase member)
        (List.forall₂_same.mpr fun entry _ => ⟨rfl, .refl _⟩)).2.1
    obtain ⟨message, refused⟩ := requiredPriceSymbols_of_invalid ctx range invalid (transactions.erase u)
    have first := moved u memberU
    have second := moved v memberV
    rw [refused] at first
    rw [requiredPriceSymbols_of_overflow range valid overflows] at second
    generalize requiredPriceSymbols ctx transactions startDate endDate = outcome at first second
    cases first with
    | error refusedClass =>
      cases second with
      | error overflowClass => cases refusedClass.symm.trans overflowClass
  · intro condition transactions' priceBarsBySymbol' permuted bars
    have faults : startDate ≤ endDate → ¬ MixedFaults transactions := fun range =>
      condition.resolve_left (not_lt.mpr range)
    exact ⟨derivePositions_alike distinct permuted ctx, requiredPriceSymbols_alike distinct permuted ctx faults,
      buildPortfolioValuation_alike distinct permuted bars faults⟩

end Order

section Samples

attribute [local instance] Text.asciiDatabase FloatArithmetic.rational

theorem sample_input_order :
    SameOutcome (derivePositions .exact sampleLedger) (derivePositions .exact sampleLedger.reverse) ∧
    SameOutcome (requiredPriceSymbols .exact sampleLedger (sampleDay 0) (sampleDay 7))
      (requiredPriceSymbols .exact sampleLedger.reverse (sampleDay 0) (sampleDay 7)) ∧
    SameOutcome (buildPortfolioValuation (F := ℚ) .exact sampleLedger sampleBars (sampleDay 0) (sampleDay 7))
      (buildPortfolioValuation .exact sampleLedger.reverse
        (Dict.empty.set "A" [sampleBar "A" 3 13, sampleBar "A" 1 11, sampleBar "A" 0 10])
        (sampleDay 0) (sampleDay 7)) := by
  have sound : ¬ MixedFaults sampleLedger := by
    rintro ⟨_, t, member, _, overflows⟩
    have convertible : ∀ t ∈ sampleLedger, t.occurredAt.astimezoneUtc.isSome := by decide +kernel
    have contradiction := convertible t member
    rw [overflows] at contradiction
    cases contradiction
  have distinct : (sampleLedger.map Transaction.id).Nodup := by decide +kernel
  have bars : sampleBars.Related List.Perm
      (Dict.empty.set "A" [sampleBar "A" 3 13, sampleBar "A" 1 11, sampleBar "A" 0 10]) :=
    Dict.related_empty.set "A" (List.reverse_perm _).symm
  exact (input_order_irrelevant_iff distinct).mpr (.inr sound) _ _ (List.reverse_perm _).symm bars

/-- A trade without its external id, and one an hour before the first moment that UTC has. -/
def unnamedTrade : Transaction := { sampleTrade .buy "A" 1 2 10 with externalId := "" }

def earliestTrade : Transaction := { sampleTrade .buy "A" 2 2 10 with occurredAt := .earliest }

/-- Each of two faults is reported when it comes first. -/
theorem first_fault_decides :
    requiredPriceSymbols .exact [unnamedTrade, earliestTrade] (sampleDay 0) (sampleDay 7) =
      .error (.invalidTransaction "external_id must not be blank") ∧
    requiredPriceSymbols .exact [earliestTrade, unnamedTrade] (sampleDay 0) (sampleDay 7) = .error .overflowError ∧
    ([unnamedTrade, earliestTrade].map Transaction.id).Nodup ∧
    [unnamedTrade, earliestTrade].Perm [earliestTrade, unnamedTrade] ∧
    ¬ SameOutcome (requiredPriceSymbols .exact [unnamedTrade, earliestTrade] (sampleDay 0) (sampleDay 7))
      (requiredPriceSymbols .exact [earliestTrade, unnamedTrade] (sampleDay 0) (sampleDay 7)) := by
  have refused : requiredPriceSymbols .exact [unnamedTrade, earliestTrade] (sampleDay 0) (sampleDay 7) =
      .error (.invalidTransaction "external_id must not be blank") := by decide +kernel
  have overflows : requiredPriceSymbols .exact [earliestTrade, unnamedTrade] (sampleDay 0) (sampleDay 7) =
      .error .overflowError := by decide +kernel
  refine ⟨refused, overflows, by decide +kernel, .swap _ _ _, ?_⟩
  rw [refused, overflows]
  intro alike
  cases alike with
  | error class_eq => cases class_eq

end Samples
end LedgerLens
