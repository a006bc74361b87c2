import LedgerLens.MarketDataRuns

namespace LedgerLens
open CachedMarketDataProvider

/-- Where a call of `get_price_bars` stands between two of its awaits. -/
inductive MarketDataProgress where
  | reading
  | asking
  | storing (fetch : Fetch) (bars : List PriceBar)
  | storingStale (fetch : Fetch) (bars : List PriceBar)
  | readingStale (fetch : Fetch)
  | answered (answer : Fetch)

namespace MarketDataProgress

/-- How many turns a call needs at most. -/
def awaits : MarketDataProgress → ℕ
  | .reading => 4
  | .asking => 3
  | .storing .. => 2
  | .storingStale .. | .readingStale .. => 1
  | .answered .. => 0

theorem answered_of_awaits {progress : MarketDataProgress} (finished : progress.awaits = 0) :
    ∃ answer, progress = .answered answer := by
  cases progress with
  | answered answer => exact ⟨answer, rfl⟩
  | _ => cases finished

end MarketDataProgress

namespace MarketDataCall
variable [UnicodeDatabase]

/-- The key of the fresh copy. -/
def query (call : MarketDataCall) (cache : CachedMarketDataProvider) : String :=
  cache.key call.normalizedSymbol call.startDate call.endDate

/-- Whether the next command of a call is a SET that reaches the server. -/
def sends (call : MarketDataCall) : MarketDataProgress → Bool
  | .storing .. => call.circumstances.write.reaches
  | .storingStale .. => call.circumstances.staleWrite.reaches
  | _ => false

/-- The copies sent so far once a call has taken its next step. -/
def sentAfter (call : MarketDataCall) (retries : RetryingMarketDataProvider) (progress : MarketDataProgress)
    (sent : List (MarketDataCall × Fetch)) : List (MarketDataCall × Fetch) :=
  if call.sends progress then sent ++ [(call, call.provider retries)] else sent

variable (F : Type) [FloatDecimal F] [DigitDatabase]
variable (cache : CachedMarketDataProvider) (retries : RetryingMarketDataProvider)

/-- What the GET of the fresh copy gives. -/
def cached (call : MarketDataCall) (store : CacheStore) : Except Error (Option (List PriceBar)) :=
  if call.circumstances.readFails then .ok none
  else readCopy F (Redis.advance call.circumstances.readAt store) (call.query cache) call.normalizedSymbol
    call.startDate call.endDate

/-- A call up to its next await, on what Redis holds by then. -/
def step (call : MarketDataCall) : MarketDataProgress × CacheStore → MarketDataProgress × CacheStore
  | (.reading, store) =>
    match call.cached F cache store with
    | .error e => (.answered ⟨.error e, 0⟩, Redis.advance call.circumstances.readAt store)
    | .ok (some bars) => (.answered ⟨.ok { priceBars := bars }, 0⟩, Redis.advance call.circumstances.readAt store)
    | .ok none => (.asking, Redis.advance call.circumstances.readAt store)
  | (.asking, store) =>
    let fetch := call.provider retries
    match fetch.outcome with
    | .error e => if e.isRetryable then (.readingStale fetch, store) else (.answered fetch, store)
    | .ok result =>
      if call.circumstances.readFails then (.answered fetch, store) else (.storing fetch result.priceBars, store)
  | (.storing fetch bars, store) =>
    let payload := serializePriceBars F bars call.normalizedSymbol call.startDate call.endDate
    let ttl := cache.freshTtl call.circumstances.today call.endDate
    let fresh := if call.circumstances.write.reaches then
      Redis.setEx call.circumstances.storedAt store (call.query cache) payload.toUTF8 ttl else store
    if call.circumstances.write = .stored then (.storingStale fetch bars, fresh) else (.answered fetch, fresh)
  | (.storingStale fetch bars, store) =>
    let payload := serializePriceBars F bars call.normalizedSymbol call.startDate call.endDate
    (.answered fetch, if call.circumstances.staleWrite.reaches then
      Redis.setEx call.circumstances.staleStoredAt store (staleKey (call.query cache)) payload.toUTF8
        cache.staleTtlSeconds else store)
  | (.readingStale fetch, store) =>
    match readStale F call.circumstances store (call.query cache) call.normalizedSymbol call.startDate
        call.endDate with
    | .error e => (.answered { fetch with outcome := .error e }, store)
    | .ok (some bars) => (.answered { fetch with outcome := .ok { priceBars := bars, stale := true } }, store)
    | .ok none => (.answered fetch, store)
  | (.answered answer, store) => (.answered answer, store)

end MarketDataCall

/-- Calls in flight over one Redis. The copies that have reached it are kept with the call that sent each. -/
structure MarketDataWorld (ι : Type) where
  progress : ι → MarketDataProgress
  store : CacheStore
  sent : List (MarketDataCall × Fetch)

namespace MarketDataWorld
variable {ι : Type}

/-- Nothing is cached and no call has begun. -/
def initial : MarketDataWorld ι := ⟨fun _ => .reading, .empty, []⟩

variable [DecidableEq ι] [UnicodeDatabase] (F : Type) [FloatDecimal F] [DigitDatabase]
variable (cache : CachedMarketDataProvider) (retries : RetryingMarketDataProvider) (calls : ι → MarketDataCall)

/-- The event loop resumes one of the calls. -/
def resume (world : MarketDataWorld ι) (client : ι) : MarketDataWorld ι :=
  let next := (calls client).step F cache retries (world.progress client, world.store)
  { progress := Function.update world.progress client next.1
    store := next.2
    sent := (calls client).sentAfter retries (world.progress client) world.sent }

/-- The calls resumed in the order that the schedule lists. -/
def run (world : MarketDataWorld ι) (schedule : List ι) : MarketDataWorld ι :=
  schedule.foldl (resume F cache retries calls) world

end MarketDataWorld

section Solo
variable [UnicodeDatabase] {F : Type} [FloatDecimal F] [DigitDatabase]
variable {cache : CachedMarketDataProvider} {retries : RetryingMarketDataProvider} (call : MarketDataCall)

theorem MarketDataCall.step_answered (answer : Fetch) (store : CacheStore) (n : ℕ) :
    (call.step F cache retries)^[n] (.answered answer, store) = (.answered answer, store) :=
  Function.iterate_fixed rfl n

/-- The two SETs. -/
theorem MarketDataCall.step_store (fetch : Fetch) (bars : List PriceBar) (store : CacheStore) :
    (call.step F cache retries)^[2] (.storing fetch bars, store) = (.answered fetch,
      cache.storeCopies call.circumstances (call.query cache)
        (serializePriceBars F bars call.normalizedSymbol call.startDate call.endDate) call.endDate store) := by
  change call.step F cache retries (call.step F cache retries (.storing fetch bars, store)) = _
  unfold storeCopies
  by_cases stored : call.circumstances.write = .stored
  · simp only [step, stored, if_true, true_and]
  · simp only [step, stored, if_false, false_and]

/-- From the question to the provider on, a call has at most three awaits left. -/
theorem MarketDataCall.step_fetch (store : CacheStore) :
    let served := cache.fetchPriceBars F (retries.getPriceBars call.adapter) call.circumstances (call.query cache)
      call.normalizedSymbol call.startDate call.endDate store
    (call.step F cache retries)^[3] (.asking, store) = (.answered served.1, served.2) := by
  have asked : retries.getPriceBars call.adapter call.normalizedSymbol call.startDate call.endDate =
    call.provider retries := rfl
  change (call.step F cache retries)^[2] (call.step F cache retries (.asking, store)) = _
  unfold fetchPriceBars
  rw [step, asked]
  cases outcome : (call.provider retries).outcome with
  | error e =>
    by_cases retryable : e.isRetryable
    · simp only [if_pos retryable, outcome]
      rw [Function.iterate_succ_apply, step]
      cases readStale F call.circumstances store (call.query cache) call.normalizedSymbol call.startDate
        call.endDate with
      | error e' => exact call.step_answered _ _ 1
      | ok found => cases found <;> exact call.step_answered _ _ 1
    · simp only [if_neg retryable, step_answered, outcome]
  | ok result =>
    by_cases fails : call.circumstances.readFails
    · simp only [if_pos fails, step_answered, outcome]
    · simp only [if_neg fails, step_store, outcome]

/-- Four turns in a row are a call without interruption. -/
theorem MarketDataCall.step_serve (store : CacheStore) :
    let served := serveMarketData F cache retries call store
    (call.step F cache retries)^[4] (.reading, store) = (.answered served.1, served.2) := by
  change (call.step F cache retries)^[3] (call.step F cache retries (.reading, store)) = _
  cases found : call.cached F cache store with
  | error e =>
    have failed : serveMarketData F cache retries call store =
        (⟨.error e, 0⟩, Redis.advance call.circumstances.readAt store) := by
      unfold cached query normalizedSymbol at found
      simp only [serveMarketData, getPriceBars, found]
    rw [step, found, failed]
    exact call.step_answered ..
  | ok bars =>
    rw [step, found, serveMarketData_eq retries bars found]
    cases bars with
    | none => exact call.step_fetch _
    | some bars => exact call.step_answered ..

end Solo

section Safety
variable [UnicodeDatabase] {F : Type} [FloatDecimal F]
variable {cache : CachedMarketDataProvider} {retries : RetryingMarketDataProvider}
variable {history later : List (MarketDataCall × Fetch)} {call : MarketDataCall} {store : CacheStore}

theorem SafeAnswer.mono {answer : Fetch} (safe : SafeAnswer cache retries history call answer)
    (more : history ⊆ later) : SafeAnswer cache retries later call answer where
  fresh bars returned := (safe.fresh bars returned).imp_right fun ⟨past, member, origin⟩ => ⟨past, more member, origin⟩
  stale bars returned := by
    obtain ⟨cause, past, member, origin⟩ := safe.stale bars returned
    exact ⟨cause, past, more member, origin⟩
  refused := safe.refused
  raised := safe.raised
  returned := safe.returned
  bypassed := safe.bypassed

/-- What is known of a call where it stands. -/
def MarketDataProgress.Safe (cache : CachedMarketDataProvider) (retries : RetryingMarketDataProvider)
    (history : List (MarketDataCall × Fetch)) (call : MarketDataCall) : MarketDataProgress → Prop
  | .reading | .asking => True
  | .storing fetch bars | .storingStale fetch bars => fetch = call.provider retries ∧ call.Succeeds fetch bars
  | .readingStale fetch =>
    fetch = call.provider retries ∧ ∃ e, (call.provider retries).outcome = .error e ∧ e.isRetryable
  | .answered answer => SafeAnswer cache retries history call answer

theorem MarketDataProgress.Safe.mono {progress : MarketDataProgress} (safe : progress.Safe cache retries history call)
    (more : history ⊆ later) : progress.Safe cache retries later call := by
  cases progress with
  | reading => trivial
  | asking => trivial
  | storing fetch bars => exact safe
  | storingStale fetch bars => exact safe
  | readingStale fetch => exact safe
  | answered answer => exact SafeAnswer.mono safe more

/-- What the provider returned is an adapter success. -/
theorem MarketDataCall.provider_succeeds (sound : call.AdapterSound) {result : MarketDataResult}
    (returned : (call.provider retries).outcome = .ok result) :
    call.Succeeds (call.provider retries) result.priceBars := by
  obtain ⟨k, _, run⟩ := call.provider_ends retries
  have success : call.request k = .ok result := by
    refine RetryingMarketDataProvider.asMarketDataTimeout_eq_ok.mp ?_
    rw [← returned]
    exact (congrArg Fetch.outcome run).symm
  exact ⟨k, by rw [run], by rw [success, ← MarketDataCall.succeeds_of_ok sound success]⟩

theorem MarketDataCall.subset_sentAfter (progress : MarketDataProgress) :
    history ⊆ call.sentAfter retries progress history := by
  unfold sentAfter
  split
  · exact List.subset_append_left ..
  · exact List.Subset.refl _

/-- A SET that writes a copy of the success in hand, or does not reach the server. -/
theorem Stocked.send (stocked : Stocked F cache history store) (progress : MarketDataProgress) {bars : List PriceBar}
    (succeeds : call.Succeeds (call.provider retries) bars) {now : ℚ} {key : String} {value : ByteArray} {seconds : Int}
    (copy : CopyOf F cache call bars key ⟨value, some (now + seconds)⟩) :
    Stocked F cache (call.sentAfter retries progress history)
      (if call.sends progress then Redis.setEx now store key value seconds else store) := by
  unfold MarketDataCall.sentAfter
  split
  · exact (stocked.snoc _).setEx (List.mem_append_right _ List.mem_cons_self) succeeds copy
  · exact stocked

theorem MarketDataCall.freshCopy (F : Type) [FloatDecimal F] (cache : CachedMarketDataProvider) (call : MarketDataCall)
    (bars : List PriceBar) : CopyOf F cache call bars (call.query cache)
      ⟨(serializePriceBars F bars call.normalizedSymbol call.startDate call.endDate).toUTF8,
        some (call.circumstances.storedAt + cache.freshTtl call.circumstances.today call.endDate)⟩ :=
  ⟨rfl, .inl ⟨rfl, rfl⟩⟩

theorem MarketDataCall.staleCopy (F : Type) [FloatDecimal F] (cache : CachedMarketDataProvider) (call : MarketDataCall)
    (bars : List PriceBar) : CopyOf F cache call bars (staleKey (call.query cache))
      ⟨(serializePriceBars F bars call.normalizedSymbol call.startDate call.endDate).toUTF8,
        some (call.circumstances.staleStoredAt + cache.staleTtlSeconds)⟩ :=
  ⟨rfl, .inr ⟨rfl, rfl⟩⟩

variable [DigitDatabase]

theorem MarketDataCall.step_reading (stocked : Stocked F cache history store)
    (past : ∀ past ∈ history, past.1.AdapterSound) :
    let next := call.step F cache retries (.reading, store)
    next.1.Safe cache retries history call ∧ Stocked F cache history next.2 := by
  have aged := stocked.advance call.circumstances.readAt
  by_cases fails : call.circumstances.readFails
  · have bypassed : call.cached F cache store = .ok none := if_pos fails
    simp only [step, bypassed]
    exact ⟨trivial, aged⟩
  · obtain ⟨found, read, origin⟩ := stocked.read past (fun _ _ _ => CopyOf.fresh call) call.circumstances.readAt
    have same : call.cached F cache store = .ok found := (if_neg fails).trans read
    simp only [step, same]
    cases found with
    | none => exact ⟨trivial, aged⟩
    | some bars => exact ⟨.hit fails (origin bars rfl), aged⟩

theorem MarketDataCall.step_asking (stocked : Stocked F cache history store) (sound : call.AdapterSound) :
    let next := call.step F cache retries (.asking, store)
    next.1.Safe cache retries history call ∧ Stocked F cache history next.2 := by
  have passed : SafeAnswer cache retries history call (call.provider retries) := .passed sound
  unfold step
  cases outcome : (call.provider retries).outcome with
  | error e =>
    simp only [outcome]
    split
    · next retryable => exact ⟨⟨rfl, e, outcome, retryable⟩, stocked⟩
    · exact ⟨passed, stocked⟩
  | ok result =>
    simp only [outcome]
    split
    · exact ⟨passed, stocked⟩
    · exact ⟨⟨rfl, call.provider_succeeds sound outcome⟩, stocked⟩

theorem MarketDataCall.step_readingStale (stocked : Stocked F cache history store)
    (past : ∀ past ∈ history, past.1.AdapterSound) (sound : call.AdapterSound) {e : Error}
    (failed : (call.provider retries).outcome = .error e) (retryable : e.isRetryable) :
    let next := call.step F cache retries (.readingStale (call.provider retries), store)
    next.1.Safe cache retries history call ∧ Stocked F cache history next.2 := by
  have passed : SafeAnswer cache retries history call (call.provider retries) := .passed sound
  by_cases bypass : call.circumstances.readFails ∨ call.circumstances.staleReadFails
  · have bypassed : readStale F call.circumstances store (call.query cache) call.normalizedSymbol call.startDate
        call.endDate = .ok none := if_pos bypass
    simp only [step, bypassed]
    exact ⟨passed, stocked⟩
  · obtain ⟨found, read, origin⟩ := stocked.read past (fun _ _ _ => CopyOf.stale call) call.circumstances.staleReadAt
    have same : readStale F call.circumstances store (call.query cache) call.normalizedSymbol call.startDate
        call.endDate = .ok found := (if_neg bypass).trans read
    simp only [step, same]
    cases found with
    | none => exact ⟨passed, stocked⟩
    | some bars => exact ⟨.masked (fun fails => bypass (.inl fails)) failed retryable (origin bars rfl), stocked⟩

/-- A step keeps what is known of a call, and what it leaves in Redis comes from the copies sent so far. -/
theorem MarketDataCall.step_safe (stocked : Stocked F cache history store)
    (past : ∀ past ∈ history, past.1.AdapterSound) (sound : call.AdapterSound) {progress : MarketDataProgress}
    (safe : progress.Safe cache retries history call) :
    let next := call.step F cache retries (progress, store)
    let sent := call.sentAfter retries progress history
    next.1.Safe cache retries sent call ∧ Stocked F cache sent next.2 := by
  cases progress with
  | reading => exact call.step_reading stocked past
  | asking => exact call.step_asking stocked sound
  | storing fetch bars =>
    obtain ⟨rfl, succeeds⟩ := safe
    have copy := stocked.send (.storing (call.provider retries) bars) succeeds
      (call.freshCopy F cache bars)
    by_cases stored : call.circumstances.write = .stored
    · simp only [step, if_pos stored]
      exact ⟨⟨rfl, succeeds⟩, copy⟩
    · simp only [step, if_neg stored]
      exact ⟨.passed sound, copy⟩
  | storingStale fetch bars =>
    obtain ⟨rfl, succeeds⟩ := safe
    exact ⟨.passed sound, stocked.send (.storingStale (call.provider retries) bars) succeeds
      (call.staleCopy F cache bars)⟩
  | readingStale fetch =>
    obtain ⟨rfl, e, failed, retryable⟩ := safe
    exact call.step_readingStale stocked past sound failed retryable
  | answered answer => exact ⟨safe, stocked⟩

end Safety

section Worlds
variable {ι : Type} [DecidableEq ι] [UnicodeDatabase] (F : Type) [FloatDecimal F] [DigitDatabase]
variable (cache : CachedMarketDataProvider) (retries : RetryingMarketDataProvider) (calls : ι → MarketDataCall)

namespace MarketDataWorld

/-- Every copy in Redis is that of an adapter success that one of the calls sent, and every call that has
answered did so safely. -/
structure Safe (world : MarketDataWorld ι) : Prop where
  stocked : Stocked F cache world.sent world.store
  origin : ∀ past ∈ world.sent, ∃ client, past = (calls client, (calls client).provider retries)
  progress : ∀ client, (world.progress client).Safe cache retries world.sent (calls client)

variable {F cache retries calls} {world : MarketDataWorld ι}

omit [DecidableEq ι] [DigitDatabase] in
theorem Safe.initial : (initial : MarketDataWorld ι).Safe F cache retries calls where
  stocked _ _ present := nomatch present
  origin _ member := nomatch member
  progress _ := trivial

theorem Safe.resume (safe : world.Safe F cache retries calls) (sound : ∀ client, (calls client).AdapterSound)
    (client : ι) : (world.resume F cache retries calls client).Safe F cache retries calls := by
  have past : ∀ past ∈ world.sent, past.1.AdapterSound := by
    intro past member
    obtain ⟨sender, rfl⟩ := safe.origin past member
    exact sound sender
  obtain ⟨known, stocked⟩ := (calls client).step_safe safe.stocked past (sound client) (safe.progress client)
  refine ⟨stocked, ?_, fun other => ?_⟩
  · intro past member
    simp only [MarketDataWorld.resume, MarketDataCall.sentAfter] at member
    split at member
    · rcases List.mem_append.mp member with earlier | own
      · exact safe.origin past earlier
      · exact ⟨client, List.mem_singleton.mp own⟩
    · exact safe.origin past member
  · by_cases own : other = client
    · subst own
      simp only [MarketDataWorld.resume, Function.update_self]
      exact known
    · simp only [MarketDataWorld.resume, Function.update_of_ne own]
      exact (safe.progress other).mono (MarketDataCall.subset_sentAfter _)

theorem Safe.run (safe : world.Safe F cache retries calls) (sound : ∀ client, (calls client).AdapterSound)
    (schedule : List ι) : (world.run F cache retries calls schedule).Safe F cache retries calls := by
  induction schedule generalizing world with
  | nil => exact safe
  | cons client rest ih => exact ih (safe.resume sound client)

/-- The copies sent come from calls that the schedule has resumed. -/
theorem run_sent (schedule : List ι) {past : MarketDataCall × Fetch}
    (member : past ∈ (world.run F cache retries calls schedule).sent) :
    past ∈ world.sent ∨ ∃ client ∈ schedule, past = (calls client, (calls client).provider retries) := by
  induction schedule generalizing world with
  | nil => exact .inl member
  | cons client rest ih =>
    rcases ih member with before | ⟨sender, later, origin⟩
    · simp only [MarketDataWorld.resume, MarketDataCall.sentAfter] at before
      split at before
      · rcases List.mem_append.mp before with earlier | own
        · exact .inl earlier
        · exact .inr ⟨client, List.mem_cons_self, List.mem_singleton.mp own⟩
      · exact .inl before
    · exact .inr ⟨sender, List.mem_cons_of_mem _ later, origin⟩

theorem run_cons (client : ι) (rest : List ι) :
    world.run F cache retries calls (client :: rest) =
      (world.resume F cache retries calls client).run F cache retries calls rest := rfl

theorem run_append (first rest : List ι) :
    world.run F cache retries calls (first ++ rest) =
      (world.run F cache retries calls first).run F cache retries calls rest :=
  List.foldl_append

/-- A call whose turn it is not stays where it stands. -/
theorem run_progress_other {client : ι} {schedule : List ι} (absent : client ∉ schedule) :
    (world.run F cache retries calls schedule).progress client = world.progress client := by
  induction schedule generalizing world with
  | nil => rfl
  | cons next rest ih =>
    obtain ⟨other, later⟩ := not_or.mp (mt List.mem_cons.mpr absent)
    rw [run_cons, ih later]
    exact Function.update_of_ne other ..

/-- Turns of one call in a row. -/
theorem run_replicate (world : MarketDataWorld ι) (client : ι) (n : ℕ) :
    let next := ((calls client).step F cache retries)^[n] (world.progress client, world.store)
    (world.run F cache retries calls (List.replicate n client)).progress client = next.1 ∧
      (world.run F cache retries calls (List.replicate n client)).store = next.2 := by
  induction n generalizing world with
  | zero => exact ⟨rfl, rfl⟩
  | succ n ih =>
    have turn : ((world.resume F cache retries calls client).progress client,
        (world.resume F cache retries calls client).store) =
        (calls client).step F cache retries (world.progress client, world.store) :=
      Prod.ext (Function.update_self ..) rfl
    have rest := ih (world.resume F cache retries calls client)
    rw [turn] at rest
    exact rest

/-- A schedule that lets each call finish before the next one begins. -/
def serially (clients : List ι) : List ι := clients.flatMap (List.replicate 4)

/-- Under a serial schedule the calls answer as in a run of calls one after the other. -/
theorem run_serially {clients : List ι} (distinct : clients.Nodup)
    (begun : ∀ client ∈ clients, world.progress client = .reading) :
    clients.map (fun client => (calls client, (world.run F cache retries calls (serially clients)).progress client)) =
      (marketDataAnswers F cache retries world.store (clients.map calls)).map (Prod.map id .answered) := by
  induction clients generalizing world with
  | nil => rfl
  | cons client rest ih =>
    obtain ⟨fresh, distinct⟩ := List.nodup_cons.mp distinct
    obtain ⟨start, others⟩ := List.forall_mem_cons.mp begun
    have served : ((calls client).step F cache retries)^[4] (world.progress client, world.store) = _ :=
      start ▸ (calls client).step_serve world.store
    generalize turn : world.run F cache retries calls (List.replicate 4 client) = next
    have answered := (run_replicate world client 4).1.trans (congrArg Prod.fst served)
    have stored := (run_replicate world client 4).2.trans (congrArg Prod.snd served)
    rw [turn] at answered stored
    have waiting : ∀ other ∈ rest, next.progress other = .reading := by
      intro other member
      have absent : other ∉ List.replicate 4 client := fun same =>
        fresh (List.eq_of_mem_replicate same ▸ member)
      rw [← others other member, ← turn]
      exact run_progress_other absent
    have done : client ∉ serially rest := by
      intro member
      obtain ⟨other, later, same⟩ := List.mem_flatMap.mp member
      exact fresh (List.eq_of_mem_replicate same ▸ later)
    have split : world.run F cache retries calls (serially (client :: rest)) =
        next.run F cache retries calls (serially rest) := by
      rw [serially, List.flatMap_cons, run_append, turn, serially]
    rw [List.map_cons, List.map_cons, marketDataAnswers_cons, List.map_cons, split, run_progress_other done, answered,
      ih distinct waiting, stored]
    rfl

omit [DecidableEq ι] in
theorem step_awaits (call : MarketDataCall) (progress : MarketDataProgress) (store : CacheStore) :
    (call.step F cache retries (progress, store)).1.awaits ≤ progress.awaits - 1 := by
  cases progress with
  | reading =>
    simp only [MarketDataCall.step]
    rcases call.cached F cache store with e | _ | bars <;> simp [MarketDataProgress.awaits]
  | asking =>
    simp only [MarketDataCall.step]
    split <;> split <;> simp [MarketDataProgress.awaits]
  | storing fetch bars =>
    simp only [MarketDataCall.step]
    split <;> simp [MarketDataProgress.awaits]
  | storingStale fetch bars => exact Nat.zero_le _
  | readingStale fetch =>
    simp only [MarketDataCall.step]
    split <;> exact Nat.zero_le _
  | answered answer => exact Nat.zero_le _

/-- Each turn brings a call nearer to its answer, whatever the others do in between. -/
theorem run_awaits (world : MarketDataWorld ι) (client : ι) (schedule : List ι) :
    ((world.run F cache retries calls schedule).progress client).awaits ≤
      (world.progress client).awaits - schedule.count client := by
  induction schedule generalizing world with
  | nil => exact le_rfl
  | cons next rest ih =>
    have later := ih (world.resume F cache retries calls next)
    rw [run_cons]
    by_cases own : next = client
    · subst own
      have turn : ((calls next).step F cache retries (world.progress next, world.store)).1.awaits ≤ _ :=
        step_awaits (calls next) (world.progress next) world.store
      rw [List.count_cons_self]
      simp only [resume, Function.update_self] at later ⊢
      omega
    · rw [List.count_cons_of_ne own]
      simp only [resume, Function.update_of_ne (Ne.symm own)] at later ⊢
      exact later

end MarketDataWorld

variable {calls}

/-- However the calls are interleaved over an empty Redis, every answer is safe after the copies sent by then,
these come from adapter answers of calls that were resumed, and a call that has had four turns has answered. -/
theorem interleaved_market_data_safety (sound : ∀ client, (calls client).AdapterSound) (schedule : List ι) :
    let world := MarketDataWorld.initial.run F cache retries calls schedule
    (∀ client answer, world.progress client = .answered answer →
        SafeAnswer cache retries world.sent (calls client) answer) ∧
      (∀ past ∈ world.sent, ∃ client ∈ schedule, past = (calls client, (calls client).provider retries)) ∧
      ∀ client, 4 ≤ schedule.count client → ∃ answer, world.progress client = .answered answer := by
  have safe : (MarketDataWorld.initial.run F cache retries calls schedule).Safe F cache retries calls :=
    MarketDataWorld.Safe.initial.run sound schedule
  refine ⟨fun client answer answered => ?_, fun past member => ?_, fun client turns => ?_⟩
  · have known := safe.progress client
    rw [answered] at known
    exact known
  · exact (MarketDataWorld.run_sent schedule member).resolve_left List.not_mem_nil
  · have left : ((MarketDataWorld.initial.run F cache retries calls schedule).progress client).awaits ≤
        4 - schedule.count client := MarketDataWorld.run_awaits .initial client schedule
    rw [Nat.sub_eq_zero_of_le turns] at left
    exact MarketDataProgress.answered_of_awaits (Nat.le_zero.mp left)

end Worlds

section Samples

attribute [local instance] FloatDecimal.zero DigitDatabase.ascii Text.asciiDatabase

/-- A call at once and one a thousand seconds later, for the same series. -/
def sampleMarketDataClients : Fin 2 → MarketDataCall
  | 0 => sampleCall 0 succeedingAdapter
  | 1 => sampleCall 1000 timingOutAdapter

/-- Both calls look for a copy before the first one stores its own. -/
def sampleInterleaving : List (Fin 2) := [0, 1, 0, 1, 0, 0, 1, 1]

theorem sample_interleaving :
    let world := MarketDataWorld.initial.run ℚ sampleCache sampleRetries sampleMarketDataClients sampleInterleaving
    ∃ answer, world.progress 1 = .answered answer ∧
      SafeAnswer sampleCache sampleRetries world.sent (sampleCall 1000 timingOutAdapter) answer := by
  have sound : ∀ client, (sampleMarketDataClients client).AdapterSound := Fin.forall_fin_two.mpr
    ⟨sampleCalls_sound _ List.mem_cons_self, sampleCalls_sound _ (List.mem_cons_of_mem _ List.mem_cons_self)⟩
  obtain ⟨safe, _, answers⟩ := interleaved_market_data_safety ℚ sampleCache sampleRetries sound sampleInterleaving
  obtain ⟨answer, answered⟩ := answers 1 (by decide)
  exact ⟨answer, answered, safe 1 answer answered⟩

end Samples
end LedgerLens
