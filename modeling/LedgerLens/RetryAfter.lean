import LedgerLens.RateLimit

namespace LedgerLens
open RateLimiter (bucket expiresIn)

/-- The end of the calendar window that an instant falls into. -/
def RateLimitRule.windowEnd (rule : RateLimitRule) (now : ℚ) : ℚ := ((bucket rule now : ℚ) + 1) * rule.windowSeconds

theorem RateLimitRule.lt_windowEnd (rule : RateLimitRule) (now : ℚ) : now < rule.windowEnd now :=
  (RateLimiter.bucket_eq_iff.mp rfl).2

/-- A counter that is set disappears as long after the end of its window as the clock is past a full second. -/
theorem RateLimitRule.expiry_eq (rule : RateLimitRule) (now : ℚ) :
    now + expiresIn rule now = rule.windowEnd now + Int.fract now := by
  have whole : ((((bucket rule now + 1) * rule.windowSeconds : Int)) : ℚ) = rule.windowEnd now := by
    push_cast
    rfl
  have ceiling : ⌈(((bucket rule now + 1) * rule.windowSeconds : Int) : ℚ) - now⌉ =
      (bucket rule now + 1) * rule.windowSeconds - ⌊now⌋ := by
    rw [sub_eq_add_neg, Int.ceil_intCast_add, Int.ceil_neg, ← sub_eq_add_neg]
  have ahead : ⌊now⌋ < (bucket rule now + 1) * rule.windowSeconds := by
    rw [Int.floor_lt, whole]
    exact rule.lt_windowEnd now
  have longer : 1 ≤ (bucket rule now + 1) * rule.windowSeconds - ⌊now⌋ := by omega
  have seconds : expiresIn rule now = (bucket rule now + 1) * rule.windowSeconds - ⌊now⌋ := by
    rw [expiresIn]
    simp only [ceiling]
    exact max_eq_right longer
  rw [seconds, Int.cast_sub, whole, Int.fract]
  ring

/-- Waiting for the advertised delay leads past the end of a window exactly when less than a second of it is
left, or the delay was rounded from a clock at most half a second further past a full second. -/
theorem windowEnd_le_iff {windowEnd : Int} {now first : ℚ} :
    (windowEnd : ℚ) ≤ now + (max 1 ⌊(windowEnd : ℚ) + Int.fract first - now + 1 / 2⌋ : Int) ↔
      (windowEnd : ℚ) - now ≤ 1 ∨ Int.fract now ≤ Int.fract first + 1 / 2 := by
  have ceiling : ⌈(windowEnd : ℚ) - now⌉ = windowEnd - ⌊now⌋ := by
    rw [sub_eq_add_neg, Int.ceil_intCast_add, Int.ceil_neg, ← sub_eq_add_neg]
  have rounded : (windowEnd : ℚ) - now ≤ (⌊(windowEnd : ℚ) + Int.fract first - now + 1 / 2⌋ : Int) ↔
      Int.fract now ≤ Int.fract first + 1 / 2 := by
    have past : Int.fract now = now - ⌊now⌋ := rfl
    rw [← Int.ceil_le, Int.le_floor, ceiling, Int.cast_sub]
    constructor <;> intro bound <;> linarith
  rw [← rounded, ← sub_le_iff_le_add', Int.cast_max, le_max_iff, Int.cast_one]

/-- The expiry of the counters of windows that are not over: it is set by the first call of the window. -/
def Timed (limiter : RateLimiter) (rules : RateLimitRule → Prop) (done : List RateCall) (now : ℚ)
    (store : Redis.Store Int) : Prop :=
  ∀ rule, rules rule → ∀ identifier (k : Int), now < ((k : ℚ) + 1) * rule.windowSeconds →
    ∀ first, done.find? (RateCall.Concerns rule identifier k) = some first →
      (store (limiter.key rule k identifier)).bind Redis.Entry.expiry =
        some (((k : ℚ) + 1) * rule.windowSeconds + Int.fract first.now)

theorem timed_nil (limiter : RateLimiter) (rules : RateLimitRule → Prop) (now : ℚ) :
    Timed limiter rules [] now .empty := fun _ _ _ _ _ _ found => nomatch found

theorem Timed.advance {limiter : RateLimiter} {rules : RateLimitRule → Prop} {done : List RateCall} {now later : ℚ}
    {store : Redis.Store Int} (timed : Timed limiter rules done now store) (order : now ≤ later) :
    Timed limiter rules done later (Redis.advance later store) := by
  intro rule own identifier k inside first found
  have expiry := timed rule own identifier k (order.trans_lt inside) first found
  obtain ⟨entry, present, ends⟩ := Option.bind_eq_some_iff.mp expiry
  have kept : Redis.advance later store (limiter.key rule k identifier) = some entry := by
    refine Redis.advance_eq_some.mpr ⟨present, fun instant same => ?_⟩
    cases ends.symm.trans same
    linarith [Int.fract_nonneg first.now]
  rw [kept]
  exact ends

/-- The script sets the expiry of a new counter and leaves that of another one alone. -/
theorem fixedWindowScript_expiry {count : Nat} {windowEnd now : ℚ} {store : Redis.Store Int} {key : String}
    {expiresIn : Int} (counter : CounterAt count windowEnd (store key)) :
    ((fixedWindowScript now key expiresIn store).2 key).bind Redis.Entry.expiry =
      if count = 0 then some (now + expiresIn) else (store key).bind Redis.Entry.expiry := by
  rcases counter with ⟨rfl, absent⟩ | ⟨positive, expiry, present, _⟩
  · simp [fixedWindowScript, Redis.incr, Redis.get, absent, Redis.expire]
  · have later : ¬ (count : Int) + 1 = 1 := by omega
    simp [fixedWindowScript, Redis.incr, Redis.get, present, later, Nat.pos_iff_ne_zero.mp positive]

theorem ttl_of_expiry {now expiry : ℚ} {store : Redis.Store Int} {key : String}
    (ends : (store key).bind Redis.Entry.expiry = some expiry) : Redis.ttl now store key = ⌊expiry - now + 1 / 2⌋ := by
  obtain ⟨⟨value, _⟩, present, same⟩ := Option.bind_eq_some_iff.mp ends
  cases same
  rw [Redis.ttl, present]

theorem find?_eq_none_iff_filter {α : Type} {p : α → Bool} {xs : List α} :
    xs.find? p = none ↔ (xs.filter p).length = 0 := by
  rw [List.length_eq_zero_iff, List.filter_eq_nil_iff, List.find?_eq_none]

section Runs
variable {limiter : RateLimiter} (injective : Function.Injective limiter.hmac) {rules : RateLimitRule → Prop}
  (distinct : ∀ a b, rules a → rules b → a.scope = b.scope → a = b)
include injective distinct

theorem Timed.step {done : List RateCall} {now : ℚ} {store : Redis.Store Int}
    (counted : Counted limiter rules done now store) (timed : Timed limiter rules done now store) {call : RateCall}
    (listed : rules call.rule) (later : now ≤ call.now) :
    Timed limiter rules (done ++ [call]) call.now (limiter.enforce call.now call.rule call.identifier store).2 := by
  intro rule own identifier k ahead first found
  have aged := (counted rule own identifier k (later.trans_lt ahead)).advance ahead
  have kept := (timed.advance later) rule own identifier k ahead first
  rw [List.find?_append, Option.or_eq_some_iff] at found
  by_cases own_counter : call.Concerns rule identifier k
  · obtain ⟨rfl, rfl, rfl⟩ := RateCall.concerns_iff.mp own_counter
    simp only [RateLimiter.enforce]
    rw [fixedWindowScript_expiry aged]
    rcases found with earlier | ⟨noneEarlier, single⟩
    · have counts :
          (done.filter (RateCall.Concerns call.rule call.identifier (bucket call.rule call.now))).length ≠ 0 :=
        fun empty => by simp [find?_eq_none_iff_filter.mpr empty] at earlier
      rw [if_neg counts]
      exact kept earlier
    · rw [if_pos (find?_eq_none_iff_filter.mp noneEarlier), call.rule.expiry_eq]
      rw [List.find?_cons_of_pos (by simpa using own_counter)] at single
      cases single
      rfl
  · have earlier : done.find? (RateCall.Concerns rule identifier k) = some first := by
      refine found.resolve_right fun single => ?_
      simp [own_counter] at single
    have different : limiter.key rule k identifier ≠
        limiter.key call.rule (bucket call.rule call.now) call.identifier := by
      intro same
      obtain ⟨scope, window, person⟩ := RateLimiter.key_inj injective same
      cases distinct _ _ own listed scope
      exact own_counter (RateCall.concerns_iff.mpr ⟨rfl, person.symm, window.symm⟩)
    obtain ⟨_, inside⟩ := RateLimiter.bucket_eq_iff.mp (rfl : bucket call.rule call.now = _)
    obtain ⟨_, _, others⟩ := fixedWindowScript_counts
      ((counted call.rule listed call.identifier _ (later.trans_lt inside)).advance inside)
      (RateLimiter.windowEnd_le call.rule call.now)
    simp only [RateLimiter.enforce]
    rw [others _ different]
    exact kept earlier

/-- What is known of the store when some of the calls have been answered. -/
structure Answered (limiter : RateLimiter) (rules : RateLimitRule → Prop) (done : List RateCall)
    (rest : List (RateCall × Except RateLimitExceeded Unit)) (now : ℚ) (store : Redis.Store Int) : Prop where
  counted : Counted limiter rules done now store
  timed : Timed limiter rules done now store
  run : limiter.answers store (rest.map Prod.fst) = rest
  listed : ∀ call ∈ rest.map Prod.fst, rules call.rule
  ordered : (rest.map Prod.fst).Pairwise fun a b => a.now ≤ b.now
  later : ∀ call ∈ rest.map Prod.fst, now ≤ call.now
  past : ∀ call ∈ done, call.now ≤ now

/-- One call is answered as the counter says, and the rest is still to be answered. -/
theorem Answered.step {done : List RateCall} {call : RateCall} {answer : Except RateLimitExceeded Unit}
    {rest : List (RateCall × Except RateLimitExceeded Unit)} {now : ℚ} {store : Redis.Store Int}
    (answered : Answered limiter rules done ((call, answer) :: rest) now store) :
    answer = (limiter.enforce call.now call.rule call.identifier store).1 ∧
      Answered limiter rules (done ++ [call]) rest call.now
        (limiter.enforce call.now call.rule call.identifier store).2 := by
  obtain ⟨counted, timed, run, listed, ordered, later, past⟩ := answered
  simp only [List.map_cons, RateLimiter.answers, List.cons.injEq, Prod.mk.injEq, true_and] at run
  rw [List.map_cons] at listed ordered later
  obtain ⟨own, listed⟩ := List.forall_mem_cons.mp listed
  obtain ⟨first, ordered⟩ := List.pairwise_cons.mp ordered
  have order := later call List.mem_cons_self
  refine ⟨run.1.symm, (counted.step injective distinct own order).2, timed.step injective distinct counted own order,
    run.2, listed, ordered, first, List.forall_mem_append.mpr ⟨fun other member => (past other member).trans order, ?_⟩⟩
  exact List.forall_mem_singleton.mpr le_rfl

/-- The state in which the calls after some of a run are answered. -/
theorem Answered.reach {seen rest : List (RateCall × Except RateLimitExceeded Unit)} {done : List RateCall} {now : ℚ}
    {store : Redis.Store Int} (answered : Answered limiter rules done (seen ++ rest) now store) :
    ∃ later next, Answered limiter rules (done ++ seen.map Prod.fst) rest later next := by
  induction seen generalizing done now store with
  | nil => exact ⟨now, store, by simpa using answered⟩
  | cons first seen ih =>
    obtain ⟨_, answered⟩ := answered.step injective distinct
    obtain ⟨later, next, reached⟩ := ih answered
    exact ⟨later, next, by simpa using reached⟩

/-- A call is rejected with the time that the counter of its window has left, to the nearest second. -/
theorem Answered.rejected {done : List RateCall} {call : RateCall} {seconds : Int}
    {rest : List (RateCall × Except RateLimitExceeded Unit)} {now : ℚ} {store : Redis.Store Int}
    (answered : Answered limiter rules done ((call, .error ⟨seconds⟩) :: rest) now store) :
    call.rule.limit ≤ (done.filter (RateCall.Concerns call.rule call.identifier (bucket call.rule call.now))).length ∧
      ∃ first, done.find? (RateCall.Concerns call.rule call.identifier (bucket call.rule call.now)) = some first ∧
        seconds = max 1 ⌊call.rule.windowEnd call.now + Int.fract first.now - call.now + 1 / 2⌋ := by
  have own := answered.listed call List.mem_cons_self
  have order := answered.later call List.mem_cons_self
  obtain ⟨refused, next⟩ := answered.step injective distinct
  have decided := (answered.counted.step injective distinct own order).1
  rw [← refused] at decided
  have reached : call.rule.limit ≤
      (done.filter (RateCall.Concerns call.rule call.identifier (bucket call.rule call.now))).length :=
    not_lt.mp (of_decide_eq_false decided.symm)
  refine ⟨reached, ?_⟩
  cases found : done.find? (RateCall.Concerns call.rule call.identifier (bucket call.rule call.now)) with
  | none =>
    rw [find?_eq_none_iff_filter.mp found] at reached
    exact absurd (call.rule.limit_pos.trans reached) (by decide)
  | some first =>
    have both : (done ++ [call]).find? (RateCall.Concerns call.rule call.identifier (bucket call.rule call.now)) =
        some first := by rw [List.find?_append, found, Option.some_or]
    have expiry := next.timed call.rule own call.identifier _ (call.rule.lt_windowEnd call.now) first both
    simp only [RateLimiter.enforce, RateLimiter.admission] at refused
    split at refused
    · cases refused
      exact ⟨first, rfl, congrArg (max 1) (ttl_of_expiry expiry)⟩
    · cases refused

/-- After some calls, one is let through exactly when its window is another than that of a rejected call before
it, if no call for its rule and identifier came in between. -/
theorem Answered.retried {earlier between : List RateCall} {rejected retry : RateCall}
    {answer : Except RateLimitExceeded Unit} {rest : List (RateCall × Except RateLimitExceeded Unit)} {now : ℚ}
    {store : Redis.Store Int}
    (answered : Answered limiter rules (earlier ++ [rejected] ++ between) ((retry, answer) :: rest) now store)
    (past : ∀ call ∈ earlier, call.now ≤ rejected.now)
    (exhausted : rejected.rule.limit ≤
      (earlier.filter (RateCall.Concerns rejected.rule rejected.identifier (bucket rejected.rule rejected.now))).length)
    (rule : retry.rule = rejected.rule) (identifier : retry.identifier = rejected.identifier)
    (order : rejected.now ≤ retry.now)
    (alone : ∀ other ∈ between, ¬ (other.rule = rejected.rule ∧ other.identifier = rejected.identifier)) :
    answer.isOk ↔ rejected.rule.windowEnd rejected.now ≤ retry.now := by
  have own := answered.listed retry List.mem_cons_self
  have later := answered.later retry List.mem_cons_self
  obtain ⟨same, _⟩ := answered.step injective distinct
  have decided := (answered.counted.step injective distinct own later).1
  rw [← same, rule, identifier] at decided
  rw [decided, decide_eq_true_iff]
  obtain ⟨begun, _⟩ := RateLimiter.bucket_eq_iff.mp (rfl : bucket rejected.rule rejected.now = _)
  constructor
  · intro free
    by_contra inside
    -- Still in the window of the rejected call, whose counter is exhausted.
    have window : bucket rejected.rule retry.now = bucket rejected.rule rejected.now :=
      RateLimiter.bucket_eq_iff.mpr ⟨begun.trans order, not_le.mp inside⟩
    rw [window, List.filter_append, List.filter_append, List.length_append, List.length_append] at free
    push_cast at free
    omega
  · intro past_end
    obtain ⟨_, ahead⟩ := RateLimiter.bucket_eq_iff.mp (rfl : bucket rejected.rule retry.now = _)
    have windows : bucket rejected.rule rejected.now + 1 ≤ bucket rejected.rule retry.now := by
      have scaled := lt_of_mul_lt_mul_right (past_end.trans_lt ahead) rejected.rule.window_pos.le
      have counts : bucket rejected.rule rejected.now + 1 < bucket rejected.rule retry.now + 1 := by
        exact_mod_cast scaled
      omega
    have ends : rejected.rule.windowEnd rejected.now ≤
        (bucket rejected.rule retry.now : ℚ) * rejected.rule.windowSeconds :=
      mul_le_mul_of_nonneg_right (by exact_mod_cast windows) rejected.rule.window_pos.le
    have noCalls : ((earlier ++ [rejected] ++ between).filter
        (RateCall.Concerns rejected.rule rejected.identifier (bucket rejected.rule retry.now))) = [] := by
      refine List.filter_eq_nil_iff.mpr fun call member concerns => ?_
      obtain ⟨ownRule, ownIdentifier, starts, _⟩ := of_decide_eq_true concerns
      rcases List.mem_append.mp member with before | amid
      · have early : call.now ≤ rejected.now := by
          rcases List.mem_append.mp before with first | last
          · exact past call first
          · rw [List.mem_singleton.mp last]
        linarith [rejected.rule.lt_windowEnd rejected.now]
      · exact alone call amid ⟨ownRule, ownIdentifier⟩
    rw [noCalls]
    exact_mod_cast zero_lt_one.trans_le rejected.rule.limit_pos

end Runs

/-- A call that comes when the advertised delay is over, with no other call for its rule and identifier since, is
let through exactly when the rejected one came within the last second of its window, or at most half a second
further past a full second than the first call of the window did. -/
theorem retry_after_iff {limiter : RateLimiter} (injective : Function.Injective limiter.hmac) {calls : List RateCall}
    (ordered : calls.Pairwise fun a b => a.now ≤ b.now)
    (distinct : ∀ a ∈ calls, ∀ b ∈ calls, a.rule.scope = b.rule.scope → a.rule = b.rule)
    {seen between rest : List (RateCall × Except RateLimitExceeded Unit)} {rejected retry : RateCall} {seconds : Int}
    {answer : Except RateLimitExceeded Unit}
    (run : limiter.answers .empty calls =
      seen ++ (rejected, .error ⟨seconds⟩) :: (between ++ (retry, answer) :: rest))
    (same : retry.rule = rejected.rule ∧ retry.identifier = rejected.identifier)
    (waited : retry.now = rejected.now + seconds)
    (alone : ∀ other ∈ between, ¬ (other.1.rule = rejected.rule ∧ other.1.identifier = rejected.identifier)) :
    ∃ first, (seen.map Prod.fst).find?
        (RateCall.Concerns rejected.rule rejected.identifier (bucket rejected.rule rejected.now)) = some first ∧
      (answer.isOk ↔ rejected.rule.windowEnd rejected.now - rejected.now ≤ 1 ∨
        Int.fract rejected.now ≤ Int.fract first.now + 1 / 2) := by
  have rulesDistinct : ∀ a b, (∃ call ∈ calls, call.rule = a) → (∃ call ∈ calls, call.rule = b) →
      a.scope = b.scope → a = b := by
    rintro _ _ ⟨left, member, rfl⟩ ⟨right, member', rfl⟩ scope
    exact distinct left member right member' scope
  obtain ⟨now, start⟩ : ∃ now, ∀ call ∈ calls, now ≤ call.now := by
    cases calls with
    | nil => exact ⟨0, by simp⟩
    | cons call rest => exact ⟨call.now, List.forall_mem_cons.mpr ⟨le_rfl, (List.pairwise_cons.mp ordered).1⟩⟩
  have whole := answers_calls limiter .empty calls
  have begun : Answered limiter (fun rule => ∃ call ∈ calls, call.rule = rule) []
      (seen ++ (rejected, .error ⟨seconds⟩) :: (between ++ (retry, answer) :: rest)) now .empty := by
    rw [← run]
    refine ⟨counted_nil limiter _ now, timed_nil limiter _ now, by rw [whole], ?_, ?_, ?_, List.forall_mem_nil _⟩
    · rw [whole]
      exact fun call member => ⟨call, member, rfl⟩
    · rwa [whole]
    · rwa [whole]
  obtain ⟨_, _, reached⟩ := begun.reach injective rulesDistinct
  obtain ⟨exhausted, first, found, delay⟩ := reached.rejected injective rulesDistinct
  obtain ⟨_, onward⟩ := reached.step injective rulesDistinct
  obtain ⟨_, _, arrived⟩ := onward.reach injective rulesDistinct
  have positive : (1 : ℚ) ≤ seconds := by
    rw [delay]
    exact_mod_cast le_max_left _ _
  have past := (List.forall_mem_append.mp onward.past).1
  have quiet : ∀ other ∈ between.map Prod.fst,
      ¬ (other.rule = rejected.rule ∧ other.identifier = rejected.identifier) :=
    List.forall_mem_map.mpr alone
  have retried := arrived.retried injective rulesDistinct past exhausted same.1 same.2 (by linarith) quiet
  refine ⟨first, by simpa using found, retried.trans ?_⟩
  have windowEnd : rejected.rule.windowEnd rejected.now =
      (((bucket rejected.rule rejected.now + 1) * rejected.rule.windowSeconds : Int) : ℚ) := by
    rw [RateLimitRule.windowEnd]
    push_cast
    rfl
  rw [waited, delay, windowEnd]
  exact windowEnd_le_iff

section Samples

deriving instance DecidableEq for RateCall

/-- One request a minute. -/
def strictRule : RateLimitRule where
  scope := "analytics_user"
  limit := 1
  windowSeconds := 60
  scope_ne := by decide
  limit_pos := by decide
  windowSeconds_pos := sampleRule.windowSeconds_pos

def strictCall (now : ℚ) : RateCall := ⟨now, strictRule, "client"⟩

/-- The delay is rounded down, and the call that has waited for it is still in the window. -/
theorem retry_after_too_short :
    sampleLimiter.answers .empty [strictCall 0, strictCall (288 / 5), strictCall (288 / 5 + 2)] =
      [(strictCall 0, .ok ()), (strictCall (288 / 5), .error ⟨2⟩), (strictCall (288 / 5 + 2), .error ⟨1⟩)] := by
  decide +kernel

theorem sample_retry_after :
    ∃ first, [strictCall 0].find? (RateCall.Concerns strictRule "client" (bucket strictRule 57)) = some first ∧
      ((Except.ok () : Except RateLimitExceeded Unit).isOk ↔
        strictRule.windowEnd 57 - 57 ≤ 1 ∨ Int.fract (57 : ℚ) ≤ Int.fract first.now + 1 / 2) := by
  have run : sampleLimiter.answers .empty [strictCall 0, strictCall 57, strictCall (57 + 3)] =
      [(strictCall 0, .ok ())] ++ (strictCall 57, .error ⟨3⟩) :: ([] ++ (strictCall (57 + 3), .ok ()) :: []) := by
    decide +kernel
  exact retry_after_iff sampleLimiter_injective (by decide +kernel) (by decide) run ⟨rfl, rfl⟩ rfl
    (List.forall_mem_nil _)

end Samples

end LedgerLens
