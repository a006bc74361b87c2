import LedgerLens.CachedSeries

namespace LedgerLens
open CachedMarketDataProvider
open RetryingMarketDataProvider (FailsRetryably Ends asMarketDataTimeout)

/-- A call of `get_price_bars` with what it meets: the circumstances at Redis and the answers of the
adapter. -/
structure MarketDataCall where
  symbol : String
  startDate : Date
  endDate : Date
  start_exists : startDate.Exists
  end_exists : endDate.Exists
  circumstances : Circumstances
  adapter : Adapter

namespace MarketDataCall
variable [UnicodeDatabase]

def normalizedSymbol (call : MarketDataCall) : String := Text.upper (Text.strip call.symbol)

/-- What the adapter answers to attempt number `k`. -/
def request (call : MarketDataCall) (k : Nat) : Except Error MarketDataResult :=
  call.adapter k call.normalizedSymbol call.startDate call.endDate

def SameQuery (call other : MarketDataCall) : Prop :=
  call.normalizedSymbol = other.normalizedSymbol ∧ call.startDate = other.startDate ∧ call.endDate = other.endDate

/-- The bars are those of an adapter success in this call, at the last attempt made. -/
def Succeeds (call : MarketDataCall) (fetch : Fetch) (bars : List PriceBar) : Prop :=
  ∃ k, fetch.attempts = k + 1 ∧ call.request k = .ok { priceBars := bars }

/-- When the adapter succeeds, it returns a series of the query. -/
def AdapterSound (call : MarketDataCall) : Prop :=
  ∀ k result, call.request k = .ok result →
    result.stale = false ∧ SoundBars call.normalizedSymbol call.startDate call.endDate result.priceBars ∧
      ∀ bar ∈ result.priceBars, bar.adjustedClose.Exists

end MarketDataCall

section Copies
variable {F : Type} [FloatDecimal F] [UnicodeDatabase] {cache : CachedMarketDataProvider}
  {history : List (MarketDataCall × Fetch)} {store : CacheStore}

/-- When the fresh copy of a success disappears. -/
def MarketDataCall.freshUntil (cache : CachedMarketDataProvider) (call : MarketDataCall) : ℚ :=
  call.circumstances.storedAt + (cache.freshTtl call.circumstances.today call.endDate : Int)

/-- When the stale copy of a success disappears. -/
def MarketDataCall.staleUntil (cache : CachedMarketDataProvider) (call : MarketDataCall) : ℚ :=
  call.circumstances.staleStoredAt + (cache.staleTtlSeconds : Int)

/-- The entry of a key is the copy of an adapter success for one query, of the one kind or the other. -/
def CopyOf (F : Type) [FloatDecimal F] (cache : CachedMarketDataProvider) (call : MarketDataCall) (bars : List PriceBar)
    (key : String) (entry : Redis.Entry ByteArray) : Prop :=
  let query := cache.key call.normalizedSymbol call.startDate call.endDate
  entry.value = (serializePriceBars F bars call.normalizedSymbol call.startDate call.endDate).toUTF8 ∧
    (key = query ∧ entry.expiry = some (call.freshUntil cache) ∨
      key = staleKey query ∧ entry.expiry = some (call.staleUntil cache))

/-- Every entry comes from an adapter success of the calls so far. -/
def Stocked (F : Type) [FloatDecimal F] (cache : CachedMarketDataProvider) (history : List (MarketDataCall × Fetch))
    (store : CacheStore) : Prop :=
  ∀ key entry, store key = some entry →
    ∃ past ∈ history, ∃ bars, past.1.Succeeds past.2 bars ∧ CopyOf F cache past.1 bars key entry

theorem Stocked.advance (stocked : Stocked F cache history store) (now : ℚ) :
    Stocked F cache history (Redis.advance now store) :=
  fun key entry present => stocked key entry (Redis.advance_eq_some.mp present).1

theorem Stocked.snoc (stocked : Stocked F cache history store) (answered : MarketDataCall × Fetch) :
    Stocked F cache (history ++ [answered]) store := by
  intro key entry present
  obtain ⟨past, member, copy⟩ := stocked key entry present
  exact ⟨past, List.mem_append_left _ member, copy⟩

/-- The copy of a sound series is read back as that series. -/
theorem CopyOf.read [DigitDatabase] {past call : MarketDataCall} {fetch : Fetch} {bars : List PriceBar} {key : String}
    {entry : Redis.Entry ByteArray} (copy : CopyOf F cache past bars key entry) (sound : past.AdapterSound)
    (succeeds : past.Succeeds fetch bars) (same : past.SameQuery call) (present : store key = some entry) :
    readCopy F store key call.normalizedSymbol call.startDate call.endDate = .ok (some bars) := by
  obtain ⟨value, _⟩ := copy
  obtain ⟨k, _, success⟩ := succeeds
  obtain ⟨_, series, prices⟩ := sound k _ success
  have read := deserialize_serialize (F := F) series past.start_exists past.end_exists prices
  obtain ⟨symbol, start, finish⟩ := same
  have found : Redis.get store key = some entry.value := by rw [Redis.get, present]; rfl
  have decoded (text : String) : String.fromUTF8? text.toUTF8 = some text := by
    rw [String.fromUTF8?]
    exact dif_pos text.isValidUTF8
  rw [symbol, start, finish] at read
  rw [symbol, start, finish] at value
  simp only [readCopy, found, value, decoded, read]

/-- A copy that is found comes from a success for the same query, and its lifetime is not over. -/
theorem Stocked.read [DigitDatabase] (stocked : Stocked F cache history store)
    (sound : ∀ past ∈ history, past.1.AdapterSound) {call : MarketDataCall} {key : String} {expiry : MarketDataCall → ℚ}
    (origin : ∀ past bars entry, CopyOf F cache past bars key entry →
      past.SameQuery call ∧ entry.expiry = some (expiry past)) (now : ℚ) :
    ∃ found, readCopy F (Redis.advance now store) key call.normalizedSymbol call.startDate call.endDate = .ok found ∧
      ∀ bars ∈ found, ∃ past ∈ history,
        past.1.SameQuery call ∧ past.1.Succeeds past.2 bars ∧ now < expiry past.1 := by
  cases present : Redis.advance now store key with
  | none => exact ⟨none, by simp only [readCopy, Redis.get, present, Option.map_none], by simp⟩
  | some entry =>
    obtain ⟨held, alive⟩ := Redis.advance_eq_some.mp present
    obtain ⟨past, member, bars, succeeds, copy⟩ := stocked _ _ held
    obtain ⟨same, ends⟩ := origin past.1 bars entry copy
    refine ⟨some bars, copy.read (sound past member) succeeds same present, ?_⟩
    rintro _ ⟨⟩
    exact ⟨past, member, same, succeeds, alive _ ends⟩

theorem CopyOf.fresh (call : MarketDataCall) {past : MarketDataCall} {bars : List PriceBar}
    {entry : Redis.Entry ByteArray}
    (copy : CopyOf F cache past bars (cache.key call.normalizedSymbol call.startDate call.endDate) entry) :
    past.SameQuery call ∧ entry.expiry = some (past.freshUntil cache) := by
  rcases copy.2 with ⟨own, expiry⟩ | ⟨other, _⟩
  · exact ⟨key_inj past.start_exists past.end_exists call.start_exists call.end_exists own.symm, expiry⟩
  · exact absurd other.symm (staleKey_ne _)

theorem CopyOf.stale (call : MarketDataCall) {past : MarketDataCall} {bars : List PriceBar}
    {entry : Redis.Entry ByteArray}
    (copy : CopyOf F cache past bars (staleKey (cache.key call.normalizedSymbol call.startDate call.endDate)) entry) :
    past.SameQuery call ∧ entry.expiry = some (past.staleUntil cache) := by
  rcases copy.2 with ⟨other, _⟩ | ⟨own, expiry⟩
  · exact absurd other (staleKey_ne _)
  · exact ⟨key_inj past.start_exists past.end_exists call.start_exists call.end_exists (staleKey_inj own.symm), expiry⟩

/-- A SET keeps the store stocked when it writes the copy of a success. -/
theorem Stocked.setEx (stocked : Stocked F cache history store) {past : MarketDataCall × Fetch}
    (member : past ∈ history) {bars : List PriceBar} (succeeds : past.1.Succeeds past.2 bars)
    {now : ℚ} {key : String} {value : ByteArray} {seconds : Int}
    (copy : CopyOf F cache past.1 bars key ⟨value, some (now + seconds)⟩) :
    Stocked F cache history (Redis.setEx now store key value seconds) := by
  intro other entry present
  by_cases same : other = key
  · subst same
    rw [Redis.setEx_same] at present
    cases present
    exact ⟨past, member, bars, succeeds, copy⟩
  · rw [Redis.setEx_other same] at present
    exact stocked other entry present

theorem Stocked.storeCopies (stocked : Stocked F cache history store) {call : MarketDataCall} {answer : Fetch}
    (member : (call, answer) ∈ history) {bars : List PriceBar} (succeeds : call.Succeeds answer bars) :
    Stocked F cache history (cache.storeCopies call.circumstances
      (cache.key call.normalizedSymbol call.startDate call.endDate)
      (serializePriceBars F bars call.normalizedSymbol call.startDate call.endDate) call.endDate store) := by
  generalize key : cache.key call.normalizedSymbol call.startDate call.endDate = name
  generalize text : serializePriceBars F bars call.normalizedSymbol call.startDate call.endDate = payload
  have freshCopy : CopyOf F cache call bars name ⟨payload.toUTF8,
      some (call.circumstances.storedAt + cache.freshTtl call.circumstances.today call.endDate)⟩ :=
    ⟨by rw [text], .inl ⟨key.symm, rfl⟩⟩
  have staleCopy : CopyOf F cache call bars (staleKey name)
      ⟨payload.toUTF8, some (call.circumstances.staleStoredAt + cache.staleTtlSeconds)⟩ :=
    ⟨by rw [text], .inr ⟨by rw [key], rfl⟩⟩
  have fresh : Stocked F cache history (if call.circumstances.write.reaches then
      Redis.setEx call.circumstances.storedAt store name payload.toUTF8
        (cache.freshTtl call.circumstances.today call.endDate) else store) := by
    split
    · exact stocked.setEx member succeeds freshCopy
    · exact stocked
  unfold CachedMarketDataProvider.storeCopies
  simp only
  split
  · exact fresh.setEx member succeeds staleCopy
  · exact fresh

end Copies

section Answers
variable [UnicodeDatabase] (cache : CachedMarketDataProvider) (retries : RetryingMarketDataProvider)

/-- What the retries of a call come to, if they are asked. -/
def MarketDataCall.provider (call : MarketDataCall) : Fetch :=
  retries.getPriceBars call.adapter call.normalizedSymbol call.startDate call.endDate

/-- What an answer may be after the calls so far. -/
structure SafeAnswer (history : List (MarketDataCall × Fetch)) (call : MarketDataCall) (answer : Fetch) : Prop where
  fresh : ∀ bars, answer.outcome = .ok { priceBars := bars } → call.Succeeds answer bars ∨
    ∃ past ∈ history, past.1.SameQuery call ∧ past.1.Succeeds past.2 bars ∧
      call.circumstances.readAt < past.1.freshUntil cache
  stale : ∀ bars, answer.outcome = .ok { priceBars := bars, stale := true } →
    (answer.attempts = retries.maxAttempts ∧ FailsRetryably call.request retries.maxAttempts ∨
        ∃ k, answer.attempts = k + 1 ∧ FailsRetryably call.request k ∧ call.request k = .error .timeoutError) ∧
      ∃ past ∈ history, past.1.SameQuery call ∧ past.1.Succeeds past.2 bars ∧
        call.circumstances.staleReadAt < past.1.staleUntil cache
  refused : ∀ k e, 0 < answer.attempts → k < retries.maxAttempts → FailsRetryably call.request k →
    call.request k = .error e → ¬ e.isRetryable → answer.attempts = k + 1 ∧
      (e ≠ .timeoutError ∧ answer.outcome = .error e ∨ e = .timeoutError ∧
        (answer.outcome = .error .marketDataTimeout ∨
          ∃ bars, answer.outcome = .ok { priceBars := bars, stale := true }))
  raised : ∀ e, answer.outcome = .error e → (call.provider retries).outcome = .error e
  returned : ∀ result, 0 < answer.attempts → (call.provider retries).outcome = .ok result → answer.outcome = .ok result
  bypassed : call.circumstances.readFails → answer = call.provider retries

variable {cache retries} {history : List (MarketDataCall × Fetch)} {call : MarketDataCall}

theorem MarketDataCall.provider_ends (call : MarketDataCall) (retries : RetryingMarketDataProvider) :
    ∃ k, Ends call.request retries.maxAttempts k ∧
      call.provider retries = ⟨asMarketDataTimeout (call.request k), k + 1⟩ :=
  retries.getPriceBars_ends call.adapter call.normalizedSymbol call.startDate call.endDate

/-- A fresh copy is a safe answer. -/
theorem SafeAnswer.hit {bars : List PriceBar} (read : ¬ call.circumstances.readFails)
    (origin : ∃ past ∈ history, past.1.SameQuery call ∧ past.1.Succeeds past.2 bars ∧
      call.circumstances.readAt < past.1.freshUntil cache) :
    SafeAnswer cache retries history call ⟨.ok { priceBars := bars }, 0⟩ where
  fresh found returned := by
    cases returned
    exact .inr origin
  stale _ returned := by cases returned
  refused _ _ asked := absurd asked (lt_irrefl 0)
  raised _ failed := by cases failed
  returned _ asked := absurd asked (lt_irrefl 0)
  bypassed failed := absurd failed read

theorem MarketDataCall.succeeds_of_ok (sound : call.AdapterSound) {k : Nat} {result : MarketDataResult}
    (success : call.request k = .ok result) : result = { priceBars := result.priceBars } := by
  rw [← (sound k result success).1]

/-- What the provider says is a safe answer. -/
theorem SafeAnswer.passed (sound : call.AdapterSound) :
    SafeAnswer cache retries history call (call.provider retries) := by
  obtain ⟨k, ends, run⟩ := call.provider_ends retries
  exact {
    fresh := by
      intro bars returned
      rw [run] at returned ⊢
      exact .inl ⟨k, rfl, RetryingMarketDataProvider.asMarketDataTimeout_eq_ok.mp returned⟩
    stale := by
      intro bars returned
      rw [run] at returned
      have success := RetryingMarketDataProvider.asMarketDataTimeout_eq_ok.mp returned
      exact absurd (sound k _ success).1 (by simp)
    refused := by
      intro l e _ within before failed final
      have same := ends.unique within before fun e' failed' => by
        rw [failed] at failed'
        cases failed'
        exact final
      subst same
      rw [run, failed]
      refine ⟨rfl, ?_⟩
      by_cases timeout : e = .timeoutError
      · exact .inr ⟨timeout, .inl (by rw [timeout]; rfl)⟩
      · exact .inl ⟨timeout, RetryingMarketDataProvider.asMarketDataTimeout_error timeout⟩
    raised := fun e failed => failed
    returned := fun result _ returned => returned
    bypassed := fun _ => rfl }

/-- A stale copy is a safe answer where the provider fails retryably. -/
theorem SafeAnswer.masked {e : Error} {bars : List PriceBar} (read : ¬ call.circumstances.readFails)
    (failed : (call.provider retries).outcome = .error e) (retryable : e.isRetryable)
    (origin : ∃ past ∈ history, past.1.SameQuery call ∧ past.1.Succeeds past.2 bars ∧
      call.circumstances.staleReadAt < past.1.staleUntil cache) :
    SafeAnswer cache retries history call
      { call.provider retries with outcome := .ok { priceBars := bars, stale := true } } := by
  obtain ⟨k, ends, run⟩ := call.provider_ends retries
  rw [run] at failed ⊢
  have cause : (∃ e, call.request k = .error e ∧ e.isRetryable) ∨ call.request k = .error .timeoutError := by
    cases answer : call.request k with
    | ok result =>
      rw [answer] at failed
      cases failed
    | error e' =>
      by_cases timeout : e' = .timeoutError
      · exact .inr (timeout ▸ rfl)
      · rw [answer, RetryingMarketDataProvider.asMarketDataTimeout_error timeout] at failed
        cases failed
        exact .inl ⟨e, rfl, retryable⟩
  exact {
    fresh := by
      intro found returned
      cases returned
    stale := by
      intro found returned
      cases returned
      refine ⟨?_, origin⟩
      rcases cause with ⟨e, failed, retryable⟩ | timeout
      · exact .inl (ends.exhausted failed retryable)
      · exact .inr ⟨k, rfl, ends.before, timeout⟩
    refused := by
      intro l e' _ within before failed' final
      have same := ends.unique within before fun e failed => by
        rw [failed'] at failed
        cases failed
        exact final
      subst same
      refine ⟨rfl, .inr ⟨?_, .inr ⟨bars, rfl⟩⟩⟩
      rcases cause with ⟨e, failed, retryable⟩ | timeout
      · rw [failed'] at failed
        cases failed
        exact absurd retryable final
      · rw [failed'] at timeout
        exact Except.error.inj timeout
    raised := by
      intro e failed
      cases failed
    returned := by
      intro result _ returned
      rw [run] at returned
      rw [returned] at failed
      cases failed
    bypassed := fun failed => absurd failed read }

end Answers

section Runs
variable (F : Type) [FloatDecimal F] [DigitDatabase] [UnicodeDatabase]
variable (cache : CachedMarketDataProvider) (retries : RetryingMarketDataProvider)

def serveMarketData (call : MarketDataCall) (store : CacheStore) : Fetch × CacheStore :=
  cache.getPriceBars F (retries.getPriceBars call.adapter) call.circumstances call.symbol call.startDate call.endDate
    store

/-- The calls one after the other, each with its answer. -/
def marketDataAnswers : CacheStore → List MarketDataCall → List (MarketDataCall × Fetch)
  | _, [] => []
  | store, call :: rest =>
    let (answer, next) := serveMarketData F cache retries call store
    (call, answer) :: marketDataAnswers next rest

variable {F cache} {history : List (MarketDataCall × Fetch)} {store : CacheStore} {call : MarketDataCall}

/-- A call that finds no fresh copy answers safely, and what it stores comes from it. -/
theorem fetchPriceBars_safe (stocked : Stocked F cache history store) (past : ∀ past ∈ history, past.1.AdapterSound)
    (sound : call.AdapterSound) :
    let served := cache.fetchPriceBars F (retries.getPriceBars call.adapter) call.circumstances
      (cache.key call.normalizedSymbol call.startDate call.endDate) call.normalizedSymbol call.startDate call.endDate
      store
    SafeAnswer cache retries history call served.1 ∧ Stocked F cache (history ++ [(call, served.1)]) served.2 := by
  have passed : SafeAnswer cache retries history call (call.provider retries) := .passed sound
  unfold fetchPriceBars
  simp only
  split
  · next e failed =>
    split
    · next retryable =>
      by_cases bypass : call.circumstances.readFails ∨ call.circumstances.staleReadFails
      · have bypassed : readStale F call.circumstances store
            (cache.key call.normalizedSymbol call.startDate call.endDate) call.normalizedSymbol call.startDate
            call.endDate = .ok none := if_pos bypass
        simp only [bypassed]
        exact ⟨passed, stocked.snoc _⟩
      · obtain ⟨found, read, origin⟩ := stocked.read past (fun _ _ _ => CopyOf.stale call)
          call.circumstances.staleReadAt
        have same : readStale F call.circumstances store (cache.key call.normalizedSymbol call.startDate call.endDate)
            call.normalizedSymbol call.startDate call.endDate = .ok found := (if_neg bypass).trans read
        simp only [same]
        cases found with
        | none => exact ⟨passed, stocked.snoc _⟩
        | some bars =>
          exact ⟨.masked (fun fails => bypass (.inl fails)) failed retryable (origin bars rfl), stocked.snoc _⟩
    · exact ⟨passed, stocked.snoc _⟩
  · next result returned =>
    split
    · exact ⟨passed, stocked.snoc _⟩
    · obtain ⟨k, _, run⟩ := call.provider_ends retries
      have success : call.request k = .ok result := by
        refine RetryingMarketDataProvider.asMarketDataTimeout_eq_ok.mp ?_
        rw [← returned]
        exact (congrArg Fetch.outcome run).symm
      have succeeds : call.Succeeds (call.provider retries) result.priceBars :=
        ⟨k, by rw [run], by rw [success, ← MarketDataCall.succeeds_of_ok sound success]⟩
      exact ⟨passed, (stocked.snoc _).storeCopies (List.mem_append_right _ List.mem_cons_self) succeeds⟩

/-- A call by what it finds under the key of the fresh copy. -/
theorem serveMarketData_eq (found : Option (List PriceBar))
    (cached : (if call.circumstances.readFails then .ok none
      else readCopy F (Redis.advance call.circumstances.readAt store)
        (cache.key call.normalizedSymbol call.startDate call.endDate) call.normalizedSymbol call.startDate
        call.endDate) = .ok found) :
    serveMarketData F cache retries call store = match found with
      | some bars => (⟨.ok { priceBars := bars }, 0⟩, Redis.advance call.circumstances.readAt store)
      | none => cache.fetchPriceBars F (retries.getPriceBars call.adapter) call.circumstances
          (cache.key call.normalizedSymbol call.startDate call.endDate) call.normalizedSymbol call.startDate
          call.endDate (Redis.advance call.circumstances.readAt store) := by
  unfold MarketDataCall.normalizedSymbol at cached ⊢
  simp only [serveMarketData, getPriceBars, cached]
  cases found <;> rfl

/-- Without a fresh copy, a failure that can be retried is answered with the stale one. -/
theorem serveMarketData_stale {bars : List PriceBar} {e : Error} (read : call.circumstances.readFails = false)
    (staleRead : call.circumstances.staleReadFails = false)
    (absent : Redis.advance call.circumstances.readAt store
      (cache.key call.normalizedSymbol call.startDate call.endDate) = none)
    (failed : (call.provider retries).outcome = .error e) (retryable : e.isRetryable)
    (stale : readCopy F (Redis.advance call.circumstances.staleReadAt (Redis.advance call.circumstances.readAt store))
      (staleKey (cache.key call.normalizedSymbol call.startDate call.endDate)) call.normalizedSymbol call.startDate
      call.endDate = .ok (some bars)) :
    (serveMarketData F cache retries call store).1 =
      { call.provider retries with outcome := .ok { priceBars := bars, stale := true } } := by
  have missed : readCopy F (Redis.advance call.circumstances.readAt store)
      (cache.key call.normalizedSymbol call.startDate call.endDate) call.normalizedSymbol call.startDate
      call.endDate = .ok none := by
    rw [readCopy, Redis.get, absent]
    rfl
  rw [serveMarketData_eq retries none ((if_neg (by simp [read])).trans missed)]
  unfold MarketDataCall.provider at failed ⊢
  simp only [fetchPriceBars, failed, retryable, if_true, readStale, read, staleRead, stale, Bool.false_eq_true,
    or_self, if_false]

/-- One call answers safely, and what it leaves in Redis comes from the calls so far. -/
theorem serveMarketData_safe (stocked : Stocked F cache history store) (past : ∀ past ∈ history, past.1.AdapterSound)
    (sound : call.AdapterSound) :
    let served := serveMarketData F cache retries call store
    SafeAnswer cache retries history call served.1 ∧ Stocked F cache (history ++ [(call, served.1)]) served.2 := by
  have aged := stocked.advance call.circumstances.readAt
  have fetched := fetchPriceBars_safe retries aged past sound
  by_cases fails : call.circumstances.readFails
  · rw [serveMarketData_eq retries none (if_pos fails)]
    exact fetched
  · obtain ⟨found, read, origin⟩ := stocked.read past (fun _ _ _ => CopyOf.fresh call)
      call.circumstances.readAt
    rw [serveMarketData_eq retries found ((if_neg fails).trans read)]
    cases found with
    | none => exact fetched
    | some bars => exact ⟨.hit fails (origin bars rfl), aged.snoc _⟩

theorem marketDataAnswers_cons (calls : List MarketDataCall) :
    marketDataAnswers F cache retries store (call :: calls) =
      (call, (serveMarketData F cache retries call store).1) ::
        marketDataAnswers F cache retries (serveMarketData F cache retries call store).2 calls := rfl

/-- In every run of calls, each of them answers safely. -/
theorem marketDataAnswers_safe (stocked : Stocked F cache history store) (past : ∀ past ∈ history, past.1.AdapterSound)
    {calls : List MarketDataCall} (sound : ∀ call ∈ calls, call.AdapterSound)
    {seen rest : List (MarketDataCall × Fetch)} {answer : Fetch}
    (run : marketDataAnswers F cache retries store calls = seen ++ (call, answer) :: rest) :
    SafeAnswer cache retries (history ++ seen) call answer := by
  induction calls generalizing store history seen with
  | nil => exact absurd run (by simp [marketDataAnswers])
  | cons next calls ih =>
    obtain ⟨own, others⟩ := List.forall_mem_cons.mp sound
    obtain ⟨safe, stocked⟩ := serveMarketData_safe retries stocked past own
    rw [marketDataAnswers_cons] at run
    cases seen with
    | nil =>
      obtain ⟨head, _⟩ := List.cons_eq_cons.mp run
      cases head
      rw [List.append_nil]
      exact safe
    | cons first seen =>
      obtain ⟨head, tail⟩ := List.cons_eq_cons.mp run
      have earlier := ih stocked (List.forall_mem_append.mpr ⟨past, List.forall_mem_singleton.mpr own⟩) others tail
      rw [List.append_assoc, List.singleton_append] at earlier
      rw [← head]
      exact earlier

end Runs

/-- In every run over an empty Redis, every answer is safe after the calls before it. -/
theorem market_data_safety (F : Type) [FloatDecimal F] [DigitDatabase] [UnicodeDatabase]
    (cache : CachedMarketDataProvider) (retries : RetryingMarketDataProvider) {calls : List MarketDataCall}
    (sound : ∀ call ∈ calls, call.AdapterSound) {seen rest : List (MarketDataCall × Fetch)} {call : MarketDataCall}
    {answer : Fetch} (run : marketDataAnswers F cache retries .empty calls = seen ++ (call, answer) :: rest) :
    SafeAnswer cache retries seen call answer := by
  have empty : Stocked F cache [] .empty := fun _ _ present => nomatch present
  exact marketDataAnswers_safe retries empty (List.forall_mem_nil _) sound run

section Samples

attribute [local instance] FloatDecimal.zero DigitDatabase.ascii Text.asciiDatabase

def sampleRetries : RetryingMarketDataProvider where
  maxAttempts := 3
  maxAttempts_pos := by decide

/-- A call for a week of one symbol at a time; nothing fails at Redis. -/
def sampleCall (now : ℚ) (adapter : Adapter) : MarketDataCall where
  symbol := " a "
  startDate := sampleDay 0
  endDate := sampleDay 6
  start_exists := sampleWeek_start
  end_exists := sampleWeek_end
  circumstances := {
    readAt := now
    readFails := false
    today := sampleDay 6
    storedAt := now
    write := .stored
    staleStoredAt := now
    staleWrite := .stored
    staleReadAt := now
    staleReadFails := false }
  adapter := adapter

/-- An adapter that succeeds at once, and one that lets a `TimeoutError` through. -/
def succeedingAdapter : Adapter := fun _ _ _ _ => .ok { priceBars := [sampleBar "A" 1 11] }
def timingOutAdapter : Adapter := fun _ _ _ _ => .error .timeoutError

def sampleMarketDataCalls : List MarketDataCall := [sampleCall 0 succeedingAdapter, sampleCall 1000 timingOutAdapter]

theorem sampleCall_symbol (now : ℚ) (adapter : Adapter) : (sampleCall now adapter).normalizedSymbol = "A" := by
  change Text.upper (Text.strip " a ") = "A"
  decide

theorem sampleSeries_sound : SoundBars "A" (sampleDay 0) (sampleDay 6) [sampleBar "A" 1 11] where
  symbol_eq := by decide
  inRange := by decide
  isFinite := by decide
  positive := by decide +kernel
  distinct := by decide
  nonempty := by decide
  ascending := by decide

theorem sampleCalls_sound : ∀ call ∈ sampleMarketDataCalls, call.AdapterSound := by
  refine List.forall_mem_cons.mpr ⟨?_, List.forall_mem_singleton.mpr ?_⟩
  · rintro k _ ⟨⟩
    refine ⟨rfl, ?_, List.forall_mem_singleton.mpr ?_⟩
    · rw [sampleCall_symbol]
      exact sampleSeries_sound
    · exact ⟨by decide, by decide⟩
  · rintro k _ ⟨⟩

/-- Redis once the first call has stored both copies. -/
def sampleStore : CacheStore :=
  (serveMarketData ℚ sampleCache sampleRetries (sampleCall 0 succeedingAdapter) .empty).2

def sampleKey : String := sampleCache.key "A" (sampleDay 0) (sampleDay 6)

theorem sampleStore_eq : sampleStore = sampleCache.storeCopies (sampleCall 0 succeedingAdapter).circumstances sampleKey
    (serializePriceBars ℚ [sampleBar "A" 1 11] "A" (sampleDay 0) (sampleDay 6)) (sampleDay 6)
    (Redis.advance 0 .empty) := by
  rw [sampleKey, ← sampleCall_symbol 0 succeedingAdapter]
  rfl

/-- After a thousand seconds the fresh copy is gone and the stale one is not. -/
theorem sampleStore_later :
    Redis.advance 1000 sampleStore sampleKey = none ∧
      ∃ entry, Redis.advance 1000 sampleStore (staleKey sampleKey) = some entry ∧
        CopyOf ℚ sampleCache (sampleCall 0 succeedingAdapter) [sampleBar "A" 1 11] (staleKey sampleKey) entry := by
  have other : sampleKey ≠ staleKey sampleKey := (staleKey_ne sampleKey).symm
  have start : (sampleCall 0 succeedingAdapter).startDate = sampleDay 0 := rfl
  have finish : (sampleCall 0 succeedingAdapter).endDate = sampleDay 6 := rfl
  have written (key : String) := congrFun sampleStore_eq key
  generalize payload : serializePriceBars ℚ [sampleBar "A" 1 11] "A" (sampleDay 0) (sampleDay 6) = text at written
  have stored (key : String) : sampleStore key =
      Redis.setEx 0 (Redis.setEx 0 (Redis.advance 0 .empty) sampleKey text.toUTF8 300) (staleKey sampleKey) text.toUTF8
        604800 key := written key
  constructor
  · have gone : ¬ (1000 : ℚ) < 0 + (300 : Int) := by norm_num
    rw [Redis.advance, stored, Redis.setEx_other other, Redis.setEx_same]
    exact if_neg (by simpa using gone)
  · refine ⟨⟨text.toUTF8, some (0 + (604800 : Int))⟩,
      Redis.advance_eq_some.mpr ⟨by rw [stored, Redis.setEx_same], ?_⟩, ?_⟩
    · rintro _ ⟨⟩
      norm_num
    · simp only [CopyOf, sampleCall_symbol, start, finish, payload]
      exact ⟨trivial, .inr ⟨rfl, rfl⟩⟩

theorem sampleStore_answers :
    (serveMarketData ℚ sampleCache sampleRetries (sampleCall 1000 timingOutAdapter) sampleStore).1 =
      ⟨.ok { priceBars := [sampleBar "A" 1 11], stale := true }, 1⟩ := by
  obtain ⟨absent, entry, present, copy⟩ := sampleStore_later
  have succeeds : (sampleCall 0 succeedingAdapter).Succeeds ⟨.ok { priceBars := [sampleBar "A" 1 11] }, 1⟩
      [sampleBar "A" 1 11] := ⟨0, rfl, rfl⟩
  have aged : Redis.advance 1000 (Redis.advance 1000 sampleStore) (staleKey sampleKey) = some entry :=
    Redis.advance_eq_some.mpr ⟨present, (Redis.advance_eq_some.mp present).2⟩
  have same : (sampleCall 0 succeedingAdapter).SameQuery (sampleCall 1000 timingOutAdapter) := ⟨rfl, rfl, rfl⟩
  have stale := copy.read (sampleCalls_sound _ List.mem_cons_self) succeeds same aged
  have provider : (sampleCall 1000 timingOutAdapter).provider sampleRetries = ⟨.error .marketDataTimeout, 1⟩ := rfl
  have key : sampleCache.key (sampleCall 1000 timingOutAdapter).normalizedSymbol
      (sampleCall 1000 timingOutAdapter).startDate (sampleCall 1000 timingOutAdapter).endDate = sampleKey := by
    rw [sampleCall_symbol]
    rfl
  rw [← key] at absent stale
  rw [serveMarketData_stale sampleRetries rfl rfl absent (congrArg Fetch.outcome provider) rfl stale, provider]

theorem sampleMarketData_answers : marketDataAnswers ℚ sampleCache sampleRetries .empty sampleMarketDataCalls = [
    (sampleCall 0 succeedingAdapter, ⟨.ok { priceBars := [sampleBar "A" 1 11] }, 1⟩),
    (sampleCall 1000 timingOutAdapter, ⟨.ok { priceBars := [sampleBar "A" 1 11], stale := true }, 1⟩)] := by
  have first : (serveMarketData ℚ sampleCache sampleRetries (sampleCall 0 succeedingAdapter) .empty).1 =
      ⟨.ok { priceBars := [sampleBar "A" 1 11] }, 1⟩ := rfl
  have second := sampleStore_answers
  unfold sampleStore at second
  rw [sampleMarketDataCalls, marketDataAnswers_cons, marketDataAnswers_cons, first, second, marketDataAnswers]

/-- The first attempt of the second call fails with a `TimeoutError`, which is no retryable error; the call
returns the stale copy after that one attempt of three. -/
theorem timeout_masked :
    (∀ call ∈ sampleMarketDataCalls, call.AdapterSound) ∧
      (sampleCall 1000 timingOutAdapter).request 0 = .error .timeoutError ∧ Error.timeoutError.isRetryable = false ∧
      sampleRetries.maxAttempts = 3 ∧
      marketDataAnswers ℚ sampleCache sampleRetries .empty sampleMarketDataCalls = [
        (sampleCall 0 succeedingAdapter, ⟨.ok { priceBars := [sampleBar "A" 1 11] }, 1⟩),
        (sampleCall 1000 timingOutAdapter, ⟨.ok { priceBars := [sampleBar "A" 1 11], stale := true }, 1⟩)] :=
  ⟨sampleCalls_sound, rfl, rfl, rfl, sampleMarketData_answers⟩

theorem sample_market_data : SafeAnswer sampleCache sampleRetries
    [(sampleCall 0 succeedingAdapter, ⟨.ok { priceBars := [sampleBar "A" 1 11] }, 1⟩)]
    (sampleCall 1000 timingOutAdapter) ⟨.ok { priceBars := [sampleBar "A" 1 11], stale := true }, 1⟩ :=
  market_data_safety ℚ sampleCache sampleRetries sampleCalls_sound sampleMarketData_answers

end Samples
end LedgerLens
