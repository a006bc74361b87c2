import LedgerLens.CachedMarketData
import LedgerLens.ValuationFromScratch

namespace LedgerLens
open CachedMarketDataProvider

/-- What a series of bars is asked for by: a symbol and the days of a range. The symbol is a text that UTF-8
can encode, since a key of Redis has to be one. -/
@[ext]
structure SeriesQuery where
  symbol : String
  startDate : Date
  endDate : Date
  start_exists : startDate.Exists
  end_exists : endDate.Exists

namespace SeriesQuery

/-- A series that answers the query; its prices are numbers that a `Decimal` can hold. -/
structure Series (query : SeriesQuery) where
  bars : List PriceBar
  sound : SoundBars query.symbol query.startDate query.endDate bars
  prices_exist : ∀ bar ∈ bars, bar.adjustedClose.Exists

variable (F : Type) [FloatDecimal F]

/-- The text that is cached for the query. -/
def serialize (query : SeriesQuery) (bars : List PriceBar) : String :=
  serializePriceBars F bars query.symbol query.startDate query.endDate

/-- What a cached text is read as for the query. -/
def deserialize [DigitDatabase] (query : SeriesQuery) (rawPayload : String) : Except Error (List PriceBar) :=
  deserializePriceBars F rawPayload query.symbol query.startDate query.endDate

section RoundTrip
variable {F} [DigitDatabase] {query : SeriesQuery}

theorem deserialize_serialize (series : query.Series) :
    query.deserialize F (query.serialize F series.bars) = .ok series.bars :=
  LedgerLens.deserialize_serialize series.sound query.start_exists query.end_exists series.prices_exist

theorem deserialize_of_ne {other : SeriesQuery} (different : other ≠ query) (bars : List PriceBar) :
    other.deserialize F (query.serialize F bars) =
      .error (.valueError "cache payload metadata does not match the query") := by
  refine deserialize_serialize_other query.start_exists query.end_exists other.start_exists other.end_exists ?_
  rintro ⟨symbol, start, finish⟩
  exact different (SeriesQuery.ext symbol.symm start.symm finish.symm)

end RoundTrip
end SeriesQuery

section Keys
variable {cache : CachedMarketDataProvider} {symbol symbol' : String} {startDate endDate startDate' endDate' : Date}

theorem isoformat_colon (date : Date) : ':' ∉ date.isoformat.toList := fun colon =>
  absurd (Date.isoformat_chars colon) (by decide)

theorem key_toList (cache : CachedMarketDataProvider) (symbol : String) (startDate endDate : Date) :
    (cache.key symbol startDate endDate).toList =
      ((cache.namespace_ ++ ":v1:" ++ cache.providerName ++ ":1d:adjusted-close:").toList ++ symbol.toList ++
        ':' :: startDate.isoformat.toList) ++ ':' :: endDate.isoformat.toList := by
  have colon : ":".toList = [':'] := rfl
  simp only [key, String.toList_append, colon, List.append_assoc, List.cons_append, List.nil_append]

/-- A key names the symbol and both dates. -/
theorem key_inj (start : startDate.Exists) (finish : endDate.Exists) (start' : startDate'.Exists)
    (finish' : endDate'.Exists) (same : cache.key symbol startDate endDate = cache.key symbol' startDate' endDate') :
    symbol = symbol' ∧ startDate = startDate' ∧ endDate = endDate' := by
  have chars := congrArg String.toList same
  rw [key_toList, key_toList] at chars
  obtain ⟨front, ends⟩ := Text.split_last (isoformat_colon endDate) (isoformat_colon endDate') chars
  obtain ⟨names, starts⟩ := Text.split_last (isoformat_colon startDate) (isoformat_colon startDate') front
  exact ⟨String.toList_inj.mp (List.append_cancel_left names),
    Date.isoformat_injective start start' (String.toList_inj.mp starts),
    Date.isoformat_injective finish finish' (String.toList_inj.mp ends)⟩

theorem staleKey_inj {key key' : String} (same : staleKey key = staleKey key') : key = key' := by
  have chars := congrArg String.toList same
  simp only [staleKey, String.toList_append] at chars
  exact String.toList_inj.mp (List.append_cancel_right chars)

/-- No key of a fresh copy is the key of a stale one. -/
theorem staleKey_ne (key : String) : staleKey key ≠ cache.key symbol startDate endDate := by
  intro same
  have chars := congrArg String.toList same
  have suffix : (":stale" : String).toList = ':' :: "stale".toList := rfl
  rw [key_toList, staleKey, String.toList_append, suffix] at chars
  obtain ⟨_, ends⟩ := Text.split_last (by decide) (isoformat_colon endDate) chars
  have letter : 's' ∈ endDate.isoformat.toList := ends ▸ List.mem_cons_self
  exact absurd (Date.isoformat_chars letter) (by decide)

theorem SeriesQuery.eq_of_key {query other : SeriesQuery}
    (same : cache.key query.symbol query.startDate query.endDate =
      cache.key other.symbol other.startDate other.endDate) : query = other := by
  obtain ⟨symbol, start, finish⟩ :=
    key_inj query.start_exists query.end_exists other.start_exists other.end_exists same
  exact SeriesQuery.ext symbol start finish

end Keys

/-- A copy that the cache keeps for a query. -/
inductive CachedCopy where
  | fresh (query : SeriesQuery)
  | stale (query : SeriesQuery)

/-- The key of Redis that a copy is under. -/
def CachedCopy.keyIn (cache : CachedMarketDataProvider) : CachedCopy → String
  | fresh query => cache.key query.symbol query.startDate query.endDate
  | stale query => staleKey (cache.key query.symbol query.startDate query.endDate)

/-- A copy has its key to itself, whatever symbol it is of. -/
theorem CachedCopy.keyIn_injective (cache : CachedMarketDataProvider) :
    Function.Injective (CachedCopy.keyIn cache) := by
  rintro (query | query) (other | other) same
  · exact congrArg fresh (SeriesQuery.eq_of_key same)
  · exact absurd same.symm (staleKey_ne _)
  · exact absurd same (staleKey_ne _)
  · exact congrArg stale (SeriesQuery.eq_of_key (staleKey_inj same))

/-- A series is read back as it was for its own query and refused for every other; whatever text is
accepted, what is read answers the query; no two copies share a key. -/
theorem cached_series_exact (F : Type) [FloatDecimal F] [DigitDatabase] (cache : CachedMarketDataProvider) :
    (∀ (query : SeriesQuery) (series : query.Series),
      query.deserialize F (query.serialize F series.bars) = .ok series.bars ∧
      ∀ other : SeriesQuery, other ≠ query →
        ∃ message, other.deserialize F (query.serialize F series.bars) = .error (.valueError message)) ∧
    (∀ (query : SeriesQuery) (rawPayload : String) (bars : List PriceBar),
      query.deserialize F rawPayload = .ok bars → SoundBars query.symbol query.startDate query.endDate bars) ∧
    Function.Injective (CachedCopy.keyIn cache) := by
  refine ⟨fun query series => ⟨SeriesQuery.deserialize_serialize series, fun other different => ?_⟩, ?_, ?_⟩
  · exact ⟨_, SeriesQuery.deserialize_of_ne different series.bars⟩
  · intro query rawPayload bars read
    exact deserializePriceBars_sound read
  · exact CachedCopy.keyIn_injective cache

section Samples

attribute [local instance] FloatDecimal.zero DigitDatabase.ascii

theorem sampleTtl_pos : (0 : Int) < 86400 := by decide

def sampleCache : CachedMarketDataProvider where
  providerName := "twelvedata"
  namespace_ := "market-data"
  mutableTtlSeconds := 300
  historicalTtlSeconds := 86400
  staleTtlSeconds := 604800
  providerName_ne := by decide
  namespace_ne := by decide
  mutableTtl_pos := by decide
  historicalTtl_pos := sampleTtl_pos
  staleTtl_pos := by decide

theorem sampleWeek_start : (sampleDay 0).Exists := by unfold Date.Exists; decide
theorem sampleWeek_end : (sampleDay 6).Exists := by unfold Date.Exists; decide

/-- A week of one symbol. -/
def sampleQuery (symbol : String) : SeriesQuery where
  symbol := symbol
  startDate := sampleDay 0
  endDate := sampleDay 6
  start_exists := sampleWeek_start
  end_exists := sampleWeek_end

/-- Two bars of a symbol that reads like the end of a key; the trailing zero of the second price is kept. -/
def pricedSeries : (sampleQuery "A:stale").Series where
  bars := [sampleBar "A:stale" 1 11, { sampleBar "A:stale" 3 0 with adjustedClose := .finite false 1250 (-2) }]
  sound := .of_ascending (by decide) (by decide) (by decide) (by decide +kernel) (by decide) (by decide)
  prices_exist := List.forall_mem_cons.mpr
    ⟨⟨by decide, by decide⟩, List.forall_mem_singleton.mpr ⟨by decide, by decide⟩⟩

theorem sample_cached_series :
    (sampleQuery "A:stale").deserialize ℚ ((sampleQuery "A:stale").serialize ℚ pricedSeries.bars) =
      .ok pricedSeries.bars ∧
    (∃ message, (sampleQuery "A").deserialize ℚ ((sampleQuery "A:stale").serialize ℚ pricedSeries.bars) =
      .error (.valueError message)) ∧
    SoundBars "A:stale" (sampleDay 0) (sampleDay 6) pricedSeries.bars ∧
    (CachedCopy.fresh (sampleQuery "A:stale")).keyIn sampleCache ≠
      (CachedCopy.stale (sampleQuery "A")).keyIn sampleCache := by
  obtain ⟨roundTrip, accepted, injective⟩ := cached_series_exact ℚ sampleCache
  have different : sampleQuery "A" ≠ sampleQuery "A:stale" := fun same =>
    absurd (congrArg SeriesQuery.symbol same) (by decide)
  obtain ⟨own, refused⟩ := roundTrip (sampleQuery "A:stale") pricedSeries
  exact ⟨own, refused _ different, accepted _ _ _ own, fun same => nomatch injective same⟩

end Samples
end LedgerLens
