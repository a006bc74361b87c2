import LedgerLens.AnalyticsService

namespace LedgerLens

/-- The subclasses of `MarketDataRetryableError`. -/
def Error.isRetryable : Error → Bool
  | .marketDataRateLimit | .marketDataUnavailable | .marketDataTimeout => true
  | _ => false

/-- What asking a provider came to, and how often its adapter was asked. -/
structure Fetch where
  outcome : Except Error MarketDataResult
  attempts : Nat
  deriving DecidableEq

/-- What the adapter does with each attempt of one call. -/
abbrev Adapter := Nat → MarketData

/-- A `RetryingMarketDataProvider`, whose `__init__` refuses to make no attempt. -/
structure RetryingMarketDataProvider where
  maxAttempts : Nat
  maxAttempts_pos : 1 ≤ maxAttempts

namespace RetryingMarketDataProvider

/-- The loop of `_attempt` with so many attempts made and so many left. -/
def attemptFrom (request : Nat → Except Error MarketDataResult) (made : Nat) : Nat → Fetch
  | 0 => ⟨.error .assertionError, made⟩
  | left + 1 =>
    match request made with
    | .ok result => ⟨.ok result, made + 1⟩
    | .error e => if e.isRetryable ∧ left ≠ 0 then attemptFrom request (made + 1) left else ⟨.error e, made + 1⟩

/-- `except TimeoutError`, which takes one that the adapter lets through for the deadline. -/
def asMarketDataTimeout : Except Error MarketDataResult → Except Error MarketDataResult
  | .error .timeoutError => .error .marketDataTimeout
  | outcome => outcome

/-- `get_price_bars` where the deadline is not reached. -/
def getPriceBars (retries : RetryingMarketDataProvider) (adapter : Adapter) (symbol : String)
    (startDate endDate : Date) : Fetch :=
  let fetch := attemptFrom (fun k => adapter k symbol startDate endDate) 0 retries.maxAttempts
  { fetch with outcome := asMarketDataTimeout fetch.outcome }

/-- The first `n` attempts fail in a way that another one may mend. -/
def FailsRetryably (request : Nat → Except Error MarketDataResult) (n : Nat) : Prop :=
  ∀ k < n, ∃ e, request k = .error e ∧ e.isRetryable

/-- Attempt number `k` is the last one made: those before it failed retryably, and it did not or was the
last one allowed. -/
structure Ends (request : Nat → Except Error MarketDataResult) (allowed k : Nat) : Prop where
  within : k < allowed
  before : FailsRetryably request k
  last : k + 1 = allowed ∨ ∀ e, request k = .error e → ¬ e.isRetryable

theorem attemptFrom_ends {request : Nat → Except Error MarketDataResult} {made left : Nat}
    (before : FailsRetryably request made) (positive : 0 < left) :
    ∃ k, Ends request (made + left) k ∧ attemptFrom request made left = ⟨request k, k + 1⟩ := by
  induction left generalizing made with
  | zero => exact absurd positive (lt_irrefl 0)
  | succ left ih =>
    unfold attemptFrom
    cases answer : request made with
    | ok result =>
      refine ⟨made, ⟨by omega, before, .inr fun e failed => ?_⟩, by rw [answer]⟩
      rw [answer] at failed
      cases failed
    | error e =>
      by_cases again : e.isRetryable ∧ left ≠ 0
      · have failed : FailsRetryably request (made + 1) := by
          intro k earlier
          rcases Nat.lt_succ_iff_lt_or_eq.mp earlier with sooner | rfl
          · exact before k sooner
          · exact ⟨e, answer, again.1⟩
        obtain ⟨k, ends, run⟩ := ih failed (Nat.pos_of_ne_zero again.2)
        refine ⟨k, ?_, ?_⟩
        · rwa [Nat.add_right_comm] at ends
        · simp only [if_pos again, run]
      · refine ⟨made, ⟨by omega, before, ?_⟩, ?_⟩
        · rcases not_and_or.mp again with final | exhausted
          · refine .inr fun e' failed => ?_
            rw [answer] at failed
            cases failed
            exact final
          · exact .inl (by omega)
        · simp only [if_neg again, answer]

theorem getPriceBars_ends (retries : RetryingMarketDataProvider) (adapter : Adapter) (symbol : String)
    (startDate endDate : Date) :
    ∃ k, Ends (fun k => adapter k symbol startDate endDate) retries.maxAttempts k ∧
      retries.getPriceBars adapter symbol startDate endDate =
        ⟨asMarketDataTimeout (adapter k symbol startDate endDate), k + 1⟩ := by
  have atFirst : FailsRetryably (fun k => adapter k symbol startDate endDate) 0 :=
    fun k below => absurd below (by omega)
  obtain ⟨k, ends, run⟩ := attemptFrom_ends atFirst retries.maxAttempts_pos
  rw [Nat.zero_add] at ends
  exact ⟨k, ends, by rw [getPriceBars, run]⟩

theorem asMarketDataTimeout_eq_ok {outcome : Except Error MarketDataResult} {result : MarketDataResult} :
    asMarketDataTimeout outcome = .ok result ↔ outcome = .ok result := by
  unfold asMarketDataTimeout
  split <;> simp

theorem asMarketDataTimeout_error {e : Error} (other : e ≠ .timeoutError) :
    asMarketDataTimeout (.error e) = .error e := by
  unfold asMarketDataTimeout
  split
  · next same => exact absurd (Except.error.inj same) other
  · rfl

/-- A retryable failure that ends the attempts is the last one of those allowed. -/
theorem Ends.exhausted {request : Nat → Except Error MarketDataResult} {allowed k : Nat} (ends : Ends request allowed k)
    {e : Error} (failed : request k = .error e) (retryable : e.isRetryable) :
    k + 1 = allowed ∧ FailsRetryably request allowed := by
  have final : k + 1 = allowed := ends.last.resolve_right fun stopped => stopped e failed retryable
  refine ⟨final, fun l earlier => ?_⟩
  rcases Nat.lt_succ_iff_lt_or_eq.mp (final ▸ earlier : l < k + 1) with sooner | rfl
  · exact ends.before l sooner
  · exact ⟨e, failed, retryable⟩

/-- There is only one last attempt. -/
theorem Ends.unique {request : Nat → Except Error MarketDataResult} {allowed k l : Nat} (ends : Ends request allowed k)
    (within : l < allowed) (before : FailsRetryably request l) (last : ∀ e, request l = .error e → ¬ e.isRetryable) :
    k = l := by
  rcases lt_trichotomy k l with earlier | same | later
  · obtain ⟨e, failed, retryable⟩ := before k earlier
    rcases ends.last with final | stopped
    · omega
    · exact absurd retryable (stopped e failed)
  · exact same
  · obtain ⟨e, failed, retryable⟩ := ends.before l later
    exact absurd retryable (last e failed)

end RetryingMarketDataProvider
end LedgerLens
