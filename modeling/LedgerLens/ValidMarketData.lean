import LedgerLens.MarketDataRuns
import LedgerLens.ReplayAgreement
import LedgerLens.TwelveData

namespace LedgerLens
open Decimal (Context)
open Checked (OnlyRaises)

namespace CachedMarketDataProvider
variable {F : Type} [FloatDecimal F] [DigitDatabase] {cache : CachedMarketDataProvider}
  {circumstances : Circumstances} {store : CacheStore} {key symbol : String} {startDate endDate : Date}

theorem readCopy_sound {bars : List PriceBar}
    (read : readCopy F store key symbol startDate endDate = .ok (some bars)) :
    SoundBars symbol startDate endDate bars := by
  unfold readCopy at read
  split at read
  · cases read
  · split at read
    · cases read
    · split at read
      · next decoded =>
        cases read
        exact deserializePriceBars_sound decoded
      · cases read
      · cases read

theorem readStale_sound {bars : List PriceBar}
    (read : readStale F circumstances store key symbol startDate endDate = .ok (some bars)) :
    SoundBars symbol startDate endDate bars := by
  unfold readStale at read
  split at read
  · cases read
  · exact readCopy_sound read

variable {provider : String → Date → Date → Fetch}

/-- Past the fresh copy, what is returned comes from the provider or from the stale copy. -/
theorem fetchPriceBars_sound {result : MarketDataResult}
    (live : ∀ result, (provider symbol startDate endDate).outcome = .ok result →
      SoundBars symbol startDate endDate result.priceBars)
    (returned : (cache.fetchPriceBars F provider circumstances key symbol startDate endDate store).1.outcome =
      .ok result) : SoundBars symbol startDate endDate result.priceBars := by
  simp only [fetchPriceBars] at returned
  cases fetched : (provider symbol startDate endDate).outcome with
  | error e =>
    simp only [fetched] at returned
    split at returned
    · split at returned
      · cases returned
      · next stale =>
        cases returned
        exact readStale_sound stale
      · exact live result returned
    · exact live result returned
  | ok fresh =>
    simp only [fetched] at returned
    split at returned
    · exact live result returned
    · exact live result returned

/-- On every path a call returns a series of its query, if its provider does. -/
theorem getPriceBars_sound [UnicodeDatabase] {result : MarketDataResult}
    (live : ∀ result, (provider (Text.upper (Text.strip symbol)) startDate endDate).outcome = .ok result →
      SoundBars (Text.upper (Text.strip symbol)) startDate endDate result.priceBars)
    (returned : (cache.getPriceBars F provider circumstances symbol startDate endDate store).1.outcome = .ok result) :
    SoundBars (Text.upper (Text.strip symbol)) startDate endDate result.priceBars := by
  simp only [getPriceBars] at returned
  split at returned
  · cases returned
  · next cached =>
    cases returned
    split at cached
    · cases cached
    · exact readCopy_sound cached
  · exact fetchPriceBars_sound live returned

end CachedMarketDataProvider

section Symbols
variable [UnicodeDatabase] {ctx : Context} {startDate endDate : Date}

/-- A symbol as the ledger holds it. -/
def NormalizedSymbol (symbol : String) : Prop := Text.upper (Text.strip symbol) = symbol

theorem NormalizedSymbol.upper_eq {symbol : String} (normalized : NormalizedSymbol symbol) :
    Text.upper symbol = symbol := by
  calc Text.upper symbol
    _ = Text.upper (Text.upper (Text.strip symbol)) := by rw [normalized]
    _ = Text.upper (Text.strip symbol) := Text.upper_upper _
    _ = symbol := normalized

theorem Transaction.Valid.symbol_normalized {t : Transaction} (valid : t.Valid) :
    ∀ symbol ∈ t.symbol, NormalizedSymbol symbol := by
  intro symbol held
  by_cases trade : t.transactionType.isTrade
  · obtain ⟨traded, _, _, payload⟩ := valid.trade trade
    cases held.symm.trans payload.symbol_eq
    exact payload.symbol_upper.symm
  · obtain ⟨_, payload⟩ := valid.transfer trade
    cases held.symm.trans payload.symbol_eq

theorem applyPositionChange_normalized {positions next : Dict String ℚ} {t : Transaction} (valid : t.Valid)
    (held : ∀ symbol ∈ positions.keys, NormalizedSymbol symbol)
    (changed : applyPositionChange ctx positions t = .ok next) : ∀ symbol ∈ next.keys, NormalizedSymbol symbol := by
  have added {symbol : String} (traded : t.symbol = some symbol) (quantity : ℚ) :
      ∀ other ∈ (positions.set symbol quantity).keys, NormalizedSymbol other := by
    intro other listed
    rcases Dict.mem_keys_set.mp listed with rfl | earlier
    · exact valid.symbol_normalized _ traded
    · exact held other earlier
  unfold applyPositionChange changePosition at changed
  split at changed
  · cases changed
    exact held
  · split at changed
    · next symbol quantity traded _ =>
      simp only at changed
      split at changed
      · cases changed
        exact added traded _
      · obtain ⟨_, changed⟩ := Checked.guard_eq_ok.mp changed
        cases changed
        exact added traded _
    · cases changed

/-- The symbols that need prices are symbols of the ledger, each of them once. -/
theorem requiredPriceSymbols_normalized {transactions : List Transaction} {symbols : List String}
    (required : requiredPriceSymbols ctx transactions startDate endDate = .ok symbols) :
    (∀ symbol ∈ symbols, NormalizedSymbol symbol) ∧ symbols.Nodup := by
  obtain ⟨_, _, required⟩ := Checked.bind_eq_ok.mp required
  obtain ⟨ordered, sorted, required⟩ := Checked.bind_eq_ok.mp required
  obtain ⟨positions, opened, required⟩ := Checked.bind_eq_ok.mp required
  obtain ⟨dates, _, required⟩ := Checked.bind_eq_ok.mp required
  cases Checked.pure_eq_ok.mp required
  obtain ⟨checked, rfl⟩ := orderedTransactions_eq_ok.mp sorted
  have valid : ∀ t ∈ ledgerSorted (transactions.filter fun t => t.utcDate ≤ endDate), t.Valid := fun t member =>
    (checked t (List.mem_of_mem_filter (StableSort.mem_sortOn.mp member))).1
  have held : ∀ symbol ∈ positions.keys, NormalizedSymbol symbol := by
    refine Checked.foldlM_prefix_invariant
      (fun _ positions => ∀ symbol ∈ positions.keys, NormalizedSymbol symbol) (List.forall_mem_nil _) opened ?_
    intro seen t later positions next split kept step
    obtain ⟨date, _, step⟩ := Checked.bind_eq_ok.mp step
    split at step
    · cases Checked.pure_eq_ok.mp step
      exact kept
    · exact applyPositionChange_normalized (valid t (split ▸ List.mem_append_right _ List.mem_cons_self)) kept step
  refine ⟨fun symbol listed => ?_, (sortedSet_ascending _).imp ne_of_lt⟩
  rcases List.mem_append.mp (mem_sortedSet.mp listed) with active | traded
  · obtain ⟨entry, member, rfl⟩ := List.mem_map.mp active
    exact held entry.1 (List.mem_map_of_mem (List.mem_of_mem_filter member))
  · obtain ⟨dated, member, symbolEq⟩ := List.mem_filterMap.mp traded
    exact (valid dated.2 (List.of_mem_zip (List.mem_of_mem_filter member)).2).symbol_normalized symbol symbolEq

end Symbols

section Tables
variable [UnicodeDatabase] {startDate endDate : Date} {symbol : String} {bars : List PriceBar}
  {symbols : List String}

theorem addPriceBar_of_sound (sound : SoundBars symbol startDate endDate bars) (normalized : NormalizedSymbol symbol)
    {bar : PriceBar} (listed : bar ∈ bars) {table : Dict Date ℚ} (fresh : table.get? bar.date = none) :
    addPriceBar symbol startDate endDate table bar = .ok (table.set bar.date bar.price) := by
  have symbolOk : ¬ Text.upper bar.symbol ≠ symbol := by rw [sound.symbol_eq bar listed, normalized.upper_eq]; simp
  have priceOk : ¬ (¬ bar.adjustedClose.isFinite ∨ bar.adjustedClose.value ≤ 0) := by
    simp only [not_or, not_not, not_le]
    exact ⟨sound.isFinite bar listed, sound.positive bar listed⟩
  rw [addPriceBar, if_neg symbolOk, if_neg priceOk, if_neg (not_not.mpr (sound.inRange bar listed)),
    if_neg (by simp [fresh])]
  rfl

/-- The price loop takes every bar of a series. -/
theorem addPriceBars_returns (sound : SoundBars symbol startDate endDate bars) (normalized : NormalizedSymbol symbol) :
    ∃ table, bars.foldlM (addPriceBar symbol startDate endDate) .empty = .ok table ∧ table.entries ≠ [] := by
  have filled : ∀ seen later : List PriceBar, bars = seen ++ later → ∀ table, TableOf seen table →
      ∃ final, later.foldlM (addPriceBar symbol startDate endDate) table = .ok final ∧ TableOf bars final := by
    intro seen later
    induction later generalizing seen with
    | nil =>
      intro split table priced
      exact ⟨table, rfl, by rw [split, List.append_nil]; exact priced⟩
    | cons bar later ih =>
      intro split table priced
      have listed : bar ∈ bars := split ▸ List.mem_append_right _ List.mem_cons_self
      have distinct := sound.distinct
      rw [split, List.map_append, List.map_cons] at distinct
      have fresh : table.get? bar.date = none := by
        refine Dict.get?_eq_none.mpr fun present => ?_
        obtain ⟨earlier, member, same⟩ := priced.mem_keys.mp present
        exact (List.nodup_append.mp distinct).2.2 _ (List.mem_map_of_mem member) _ List.mem_cons_self same
      rw [List.foldlM_cons, addPriceBar_of_sound sound normalized listed fresh]
      exact ih (seen ++ [bar]) (by simp [split]) _ (priced.snoc (sound.positive bar listed) fresh)
  obtain ⟨table, run, priced⟩ := filled [] bars rfl .empty .nil
  refine ⟨table, run, fun empty => ?_⟩
  obtain ⟨bar, later, rfl⟩ := List.exists_cons_of_ne_nil sound.nonempty
  have key := priced.mem_keys.mpr ⟨bar, List.mem_cons_self, rfl⟩
  simp [Dict.keys, empty] at key

/-- Prices of which every required symbol has a series are validated. -/
theorem validatedPrices_returns {priceBarsBySymbol : Dict String (List PriceBar)}
    (normalized : ∀ symbol ∈ symbols, NormalizedSymbol symbol)
    (sound : ∀ symbol ∈ symbols, SoundBars symbol startDate endDate (barsOf priceBarsBySymbol symbol)) :
    ∃ prices, validatedPrices symbols priceBarsBySymbol startDate endDate = .ok prices := by
  unfold validatedPrices
  generalize (Dict.empty : Dict String (Dict Date ℚ)) = validated
  induction symbols generalizing validated with
  | nil => exact ⟨validated, rfl⟩
  | cons symbol symbols ih =>
    obtain ⟨own, normalized⟩ := List.forall_mem_cons.mp normalized
    obtain ⟨series, sound⟩ := List.forall_mem_cons.mp sound
    obtain ⟨table, run, nonempty⟩ := addPriceBars_returns series own
    obtain ⟨prices, rest⟩ := ih normalized sound (validated.set symbol table)
    refine ⟨prices, Checked.foldlM_cons_eq_ok.mpr ⟨validated.set symbol table, ?_, rest⟩⟩
    exact Checked.bind_eq_ok.mpr ⟨table, run, if_neg nonempty⟩

/-- The prices that an analysis makes of the results for its symbols. -/
def fetchedPrices (symbols : List String) (results : List MarketDataResult) : Dict String (List PriceBar) :=
  (symbols.zip results).foldl (fun bySymbol (symbol, result) => bySymbol.set symbol result.priceBars) .empty

/-- The series of a symbol under the prices of an analysis is that of its own result. -/
theorem barsOf_fetchedPrices {results : List MarketDataResult}
    (normalized : ∀ symbol ∈ symbols, NormalizedSymbol symbol)
    (distinct : symbols.Nodup) (fetched : symbols.length = results.length) {result : MarketDataResult}
    (member : (symbol, result) ∈ symbols.zip results) :
    barsOf (fetchedPrices symbols results) symbol = result.priceBars := by
  have found : (fetchedPrices symbols results).get? symbol = some result.priceBars := by
    have keys : ((symbols.zip results).map Prod.fst).Nodup := by rwa [List.map_fst_zip fetched.le]
    exact Dict.get?_foldl_set_of_mem Prod.fst (fun fetched : String × MarketDataResult => fetched.2.priceBars) keys
      member .empty
  have upper : ∀ entry ∈ (fetchedPrices symbols results).entries, Text.upper entry.1 = entry.1 := by
    intro entry listed
    by_cases required : entry.1 ∈ symbols
    · exact (normalized entry.1 required).upper_eq
    · have absent : ∀ other ∈ symbols.zip results, other.1 ≠ entry.1 := fun other zipped same =>
        required (same ▸ (List.of_mem_zip zipped).1)
      have unfetched : (fetchedPrices symbols results).get? entry.1 = none :=
        Dict.get?_foldl_set_of_absent Prod.fst (fun fetched : String × MarketDataResult => fetched.2.priceBars) absent
          .empty
      exact absurd (List.mem_map_of_mem listed) (Dict.get?_eq_none.mp unfetched)
  generalize fetchedPrices symbols results = prices at found upper ⊢
  have keys : (prices.entries.map fun entry => Text.upper entry.1).Nodup := by
    rw [List.map_congr_left upper]
    exact prices.nodup
  have listed := Dict.get?_eq_some.mp found
  have held : (normalizedInput prices).get? (Text.upper symbol) = some result.priceBars :=
    Dict.get?_foldl_set_of_mem (fun entry : String × List PriceBar => Text.upper entry.1) Prod.snd keys listed .empty
  rw [upper _ listed] at held
  rw [barsOf, Dict.getD, held]
  rfl

end Tables

/-- Neither of the exceptions that blame the price bars. -/
structure BlamesNoBars (e : Error) : Prop where
  series : ∀ message, e ≠ .invalidPriceSeries message
  range : ∀ symbol, e ≠ .invalidPortfolioValuation ("no price bars fall within the requested range for " ++ symbol)

theorem blamesNoBars_append {label : String} (long : 5 ≤ label.toByteArray.data.toList.length)
    (other : Text.leadingBytes 5 label ≠ Text.leadingBytes 5 "no price bars fall within the requested range for ")
    (rest : String) : BlamesNoBars (.invalidPortfolioValuation (label ++ rest)) where
  series _ same := nomatch same
  range symbol := refusal_ne long (by decide) other rest symbol

theorem blamesNoBars_errors : OfValuationErrors BlamesNoBars where
  keyError _ := ⟨fun _ => nofun, fun _ => nofun⟩
  divisionByZero := ⟨fun _ => nofun, fun _ => nofun⟩
  assertionError := ⟨fun _ => nofun, fun _ => nofun⟩
  refusal := by
    have others : ∀ label ∈ valuationRefusals, 5 ≤ label.toByteArray.data.toList.length ∧ Text.leadingBytes 5 label ≠
        Text.leadingBytes 5 "no price bars fall within the requested range for " := by decide +kernel
    exact fun label listed => blamesNoBars_append (others label listed).1 (others label listed).2

section Valuations
variable [UnicodeDatabase] {ctx : Context} {startDate endDate : Date}

/-- A valuation over a series for each required symbol does not end in a complaint about them. -/
theorem buildPortfolioValuation_blamesNoBars {F : Type} [FloatArithmetic F] {transactions : List Transaction}
    {priceBarsBySymbol : Dict String (List PriceBar)} {symbols : List String}
    (required : requiredPriceSymbols ctx transactions startDate endDate = .ok symbols)
    (sound : ∀ symbol ∈ symbols, SoundBars symbol startDate endDate (barsOf priceBarsBySymbol symbol)) :
    OnlyRaises BlamesNoBars
      (buildPortfolioValuation (F := F) ctx transactions priceBarsBySymbol startDate endDate) := by
  obtain ⟨normalized, _⟩ := requiredPriceSymbols_normalized required
  obtain ⟨prices, validated⟩ := validatedPrices_returns normalized sound
  refine buildPortfolioValuation_onlyRaises blamesNoBars_errors (fun _ => required ▸ .ok _) (fun other same => ?_) ?_
  · cases Except.ok.inj (required.symm.trans same)
    exact validated ▸ .ok _
  · intro _ prices ordered _ sorted
    obtain ⟨checked, whole⟩ := orderedTransactions_eq_ok.mp sorted
    refine .foldlM_reaching (fun _ state => state.remaining ⊆ ordered) (List.Subset.refl ordered)
      fun seen day later state _ left => ?_
    have listed : ∀ t ∈ state.remaining, t.Valid ∧ t.occurredAt.astimezoneUtc.isSome := by
      intro t member
      have included := left member
      rw [whole] at included
      exact checked t (List.mem_of_mem_filter (StableSort.mem_sortOn.mp included))
    have changes := applyPositionChange_onlyRaises blamesNoBars_errors.assertionError
      (blamesNoBars_append (by decide) (by decide +kernel)) ctx
    refine ⟨visitDate_onlyRaises blamesNoBars_errors prices
      (replayThrough_onlyRaises blamesNoBars_errors.replay changes day listed _ _),
      fun next step => ?_⟩
    obtain ⟨flow, replayed⟩ := visitDate_replayed step
    obtain ⟨_, remaining⟩ := replayThrough_positions (fun t member => (listed t member).2) replayed
    rw [remaining]
    exact fun t member => left ((List.dropWhile_sublist _).subset member)

section Providers
variable (F : Type) [FloatDecimal F] [DigitDatabase]

/-- The providers in service return a result for a symbol, whatever the bytes in Redis, whatever fails there
and whatever the vendor replies to each attempt. -/
def Returns (cache : CachedMarketDataProvider) (retries : RetryingMarketDataProvider) (startDate endDate : Date)
    (symbol : String) (result : MarketDataResult) : Prop :=
  ∃ (store : CacheStore) (circumstances : Circumstances) (replies : Nat → HttpReply F),
    (cache.getPriceBars F (retries.getPriceBars fun k => TwelveData.getPriceBars (replies k)) circumstances symbol
      startDate endDate store).1.outcome = .ok result

variable {F} {cache : CachedMarketDataProvider} {retries : RetryingMarketDataProvider}

/-- What the retries deliver is a series of the symbol that the adapter normalizes to. -/
theorem delivered_sound {replies : Nat → HttpReply F} {symbol : String} {result : MarketDataResult}
    (delivered :
      (retries.getPriceBars (fun k => TwelveData.getPriceBars (replies k)) symbol startDate endDate).outcome =
        .ok result) : SoundBars (Text.upper (Text.strip symbol)) startDate endDate result.priceBars := by
  obtain ⟨k, _, run⟩ := retries.getPriceBars_ends (fun k => TwelveData.getPriceBars (replies k)) symbol startDate
    endDate
  simp only [run, RetryingMarketDataProvider.asMarketDataTimeout_eq_ok] at delivered
  exact TwelveData.getPriceBars_sound delivered

theorem Returns.sound {symbol : String} (normalized : NormalizedSymbol symbol) {result : MarketDataResult}
    (returned : Returns F cache retries startDate endDate symbol result) :
    SoundBars symbol startDate endDate result.priceBars := by
  have same : Text.upper (Text.strip symbol) = symbol := normalized
  obtain ⟨store, circumstances, replies, returned⟩ := returned
  have series := CachedMarketDataProvider.getPriceBars_sound (fun live fetched => ?_) returned
  · rwa [same] at series
  -- The adapter normalizes what the cache has normalized.
  · rw [same] at fetched ⊢
    have adapted := delivered_sound fetched
    rwa [same] at adapted

end Providers

/-- When the providers return for every symbol that a ledger needs, each series is one of its symbol and
range, and the valuation over them blames no bars. -/
theorem provider_data_valid {F : Type} [FloatDecimal F] [FloatArithmetic F] [DigitDatabase]
    {cache : CachedMarketDataProvider} {retries : RetryingMarketDataProvider} {transactions : List Transaction}
    {symbols : List String} {results : List MarketDataResult}
    (required : requiredPriceSymbols ctx transactions startDate endDate = .ok symbols)
    (returned : List.Forall₂ (Returns F cache retries startDate endDate) symbols results) :
    List.Forall₂ (fun symbol result => SoundBars symbol startDate endDate result.priceBars) symbols results ∧
      ∀ e, buildPortfolioValuation (F := F) ctx transactions (fetchedPrices symbols results) startDate endDate =
        .error e → BlamesNoBars e := by
  obtain ⟨normalized, distinct⟩ := requiredPriceSymbols_normalized required
  have series : ∀ symbol result, (symbol, result) ∈ symbols.zip results →
      SoundBars symbol startDate endDate result.priceBars := fun symbol result zipped =>
    ((List.forall₂_iff_zip.mp returned).2 zipped).sound (normalized symbol (List.of_mem_zip zipped).1)
  refine ⟨List.forall₂_iff_zip.mpr ⟨returned.length_eq, fun {_ _} => series _ _⟩, ?_⟩
  refine buildPortfolioValuation_blamesNoBars required fun symbol listed => ?_
  obtain ⟨i, bound, rfl⟩ := List.getElem_of_mem listed
  have answered : i < results.length := returned.length_eq ▸ bound
  have zipped : (symbols[i], results[i]) ∈ symbols.zip results := by
    refine List.mem_iff_getElem.mpr ⟨i, ?_, List.getElem_zip⟩
    rw [List.length_zip]
    exact lt_min bound answered
  rw [barsOf_fetchedPrices normalized distinct returned.length_eq zipped]
  exact series _ _ zipped

end Valuations

section Samples

attribute [local instance] FloatDecimal.zero DigitDatabase.ascii Text.asciiDatabase FloatArithmetic.rational

/-- A reply with two sessions, the later one first. -/
def sampleReply : HttpReply ℚ := .response 200 (some (.object [
  (.text "meta", .object [(.text "exchange_timezone", .text "America/New_York")]),
  (.text "values", .array [
    .object [(.text "datetime", .text "2024-01-03"), (.text "close", .text "11")],
    .object [(.text "datetime", .text "2024-01-02"), (.text "close", .text "10.5")]]),
  (.text "status", .text "ok")]))

def sampleReplyBars : List PriceBar :=
  [⟨"A", sampleDay 0, .finite false 105 (-1)⟩, ⟨"A", sampleDay 1, .finite false 11 0⟩]

theorem sampleReply_returns :
    Returns ℚ sampleCache sampleRetries (sampleDay 0) (sampleDay 7) "A" { priceBars := sampleReplyBars } :=
  ⟨.empty, (sampleCall 0 succeedingAdapter).circumstances, fun _ => sampleReply, by decide +kernel⟩

theorem sample_provider_data : SoundBars "A" (sampleDay 0) (sampleDay 7) sampleReplyBars ∧
    OnlyRaises BlamesNoBars (buildPortfolioValuation (F := ℚ) .exact sampleLedger
      (fetchedPrices ["A"] [{ priceBars := sampleReplyBars }]) (sampleDay 0) (sampleDay 7)) := by
  have required : requiredPriceSymbols .exact sampleLedger (sampleDay 0) (sampleDay 7) = .ok ["A"] := by decide +kernel
  obtain ⟨series, raises⟩ := provider_data_valid required (.cons sampleReply_returns .nil)
  exact ⟨(List.forall₂_cons.mp series).1, raises⟩

end Samples
end LedgerLens
