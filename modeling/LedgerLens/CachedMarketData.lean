import LedgerLens.Library.Redis
import LedgerLens.MarketDataPayloads
import LedgerLens.MarketDataRetries

namespace LedgerLens

/-- What Redis holds; the client decodes what it reads. -/
abbrev CacheStore := Redis.Store ByteArray

/-- How a SET ends: one that fails with `RedisError` may have reached the server all the same. -/
inductive Write where
  | stored
  | failed (reached : Bool)
  deriving DecidableEq

def Write.reaches : Write → Bool
  | stored => true
  | failed reached => reached

/-- The circumstances of one call: when its commands arrive at Redis, which of them fail, and the date on
the clock. -/
structure Circumstances where
  readAt : ℚ
  readFails : Bool
  today : Date
  storedAt : ℚ
  write : Write
  staleStoredAt : ℚ
  staleWrite : Write
  staleReadAt : ℚ
  staleReadFails : Bool
  deriving DecidableEq

/-- A `CachedMarketDataProvider`, whose `__init__` refuses other values; the names are the normalized
ones. -/
structure CachedMarketDataProvider where
  providerName : String
  namespace_ : String
  mutableTtlSeconds : Int
  historicalTtlSeconds : Int
  staleTtlSeconds : Int
  providerName_ne : providerName ≠ ""
  namespace_ne : namespace_ ≠ ""
  mutableTtl_pos : 0 < mutableTtlSeconds
  historicalTtl_pos : 0 < historicalTtlSeconds
  staleTtl_pos : 0 < staleTtlSeconds

namespace CachedMarketDataProvider

/-- `_key` -/
def key (cache : CachedMarketDataProvider) (symbol : String) (startDate endDate : Date) : String :=
  cache.namespace_ ++ ":v1:" ++ cache.providerName ++ ":1d:adjusted-close:" ++ symbol ++ ":" ++
    startDate.isoformat ++ ":" ++ endDate.isoformat

/-- `_stale_key` -/
def staleKey (key : String) : String := key ++ ":stale"

/-- The lifetime of a fresh copy. -/
def freshTtl (cache : CachedMarketDataProvider) (today endDate : Date) : Int :=
  if today ≤ endDate then cache.mutableTtlSeconds else cache.historicalTtlSeconds

section Reading
variable (F : Type) [FloatDecimal F] [DigitDatabase]

/-- A copy under a key of Redis: `none` when there is none or it is corrupt. -/
def readCopy (store : CacheStore) (key symbol : String) (startDate endDate : Date) :
    Except Error (Option (List PriceBar)) :=
  match Redis.get store key with
  | none => .ok none
  | some bytes =>
    match String.fromUTF8? bytes with
    | none => .error .unicodeDecodeError
    | some text =>
      match deserializePriceBars F text symbol startDate endDate with
      | .ok bars => .ok (some bars)
      | .error (.valueError _) => .ok none
      | .error e => .error e

/-- `_read_stale` -/
def readStale (circumstances : Circumstances) (store : CacheStore) (key symbol : String) (startDate endDate : Date) :
    Except Error (Option (List PriceBar)) :=
  if circumstances.readFails ∨ circumstances.staleReadFails then .ok none
  else readCopy F (Redis.advance circumstances.staleReadAt store) (staleKey key) symbol startDate endDate

end Reading

/-- The two SETs; the second is not sent when the first fails. -/
def storeCopies (cache : CachedMarketDataProvider) (circumstances : Circumstances) (key payload : String)
    (endDate : Date) (store : CacheStore) : CacheStore :=
  let ttl := cache.freshTtl circumstances.today endDate
  let fresh := if circumstances.write.reaches then
    Redis.setEx circumstances.storedAt store key payload.toUTF8 ttl else store
  if circumstances.write = .stored ∧ circumstances.staleWrite.reaches then
    Redis.setEx circumstances.staleStoredAt fresh (staleKey key) payload.toUTF8 cache.staleTtlSeconds
  else fresh

variable (F : Type) [FloatDecimal F] [DigitDatabase] [UnicodeDatabase]

/-- `get_price_bars` once no fresh copy is found. -/
def fetchPriceBars (cache : CachedMarketDataProvider) (provider : String → Date → Date → Fetch)
    (circumstances : Circumstances) (key symbol : String) (startDate endDate : Date) (store : CacheStore) :
    Fetch × CacheStore :=
  let fetch := provider symbol startDate endDate
  match fetch.outcome with
  | .error e =>
    if e.isRetryable then
      match readStale F circumstances store key symbol startDate endDate with
      | .error e' => ({ fetch with outcome := .error e' }, store)
      | .ok (some bars) => ({ fetch with outcome := .ok { priceBars := bars, stale := true } }, store)
      | .ok none => (fetch, store)
    else (fetch, store)
  | .ok result =>
    if circumstances.readFails then (fetch, store)
    else
      let payload := serializePriceBars F result.priceBars symbol startDate endDate
      (fetch, cache.storeCopies circumstances key payload endDate store)

def getPriceBars (cache : CachedMarketDataProvider) (provider : String → Date → Date → Fetch)
    (circumstances : Circumstances) (symbol : String) (startDate endDate : Date) (store : CacheStore) :
    Fetch × CacheStore :=
  let normalizedSymbol := Text.upper (Text.strip symbol)
  let key := cache.key normalizedSymbol startDate endDate
  let store := Redis.advance circumstances.readAt store
  let cached := if circumstances.readFails then .ok none else readCopy F store key normalizedSymbol startDate endDate
  match cached with
  | .error e => (⟨.error e, 0⟩, store)
  | .ok (some bars) => (⟨.ok { priceBars := bars }, 0⟩, store)
  | .ok none => cache.fetchPriceBars F provider circumstances key normalizedSymbol startDate endDate store

end CachedMarketDataProvider
end LedgerLens
