import LedgerLens.Library.Hex
import LedgerLens.Library.Redis
import LedgerLens.Library.Text
import Mathlib.Tactic.Linarith

namespace LedgerLens

/-- `RateLimitRule`, whose `__post_init__` refuses any other values. -/
structure RateLimitRule where
  scope : String
  limit : Int
  windowSeconds : Int
  scope_ne : scope ≠ ""
  limit_pos : 1 ≤ limit
  windowSeconds_pos : 1 ≤ windowSeconds
  deriving DecidableEq

/-- `RateLimitExceededError` -/
structure RateLimitExceeded where
  retryAfterSeconds : Int
  deriving DecidableEq

/-- The parameters of a `RedisFixedWindowRateLimiter`; `hmac` is the SHA-256 HMAC under its key. -/
structure RateLimiter where
  namespace_ : String
  hmac : String → List UInt8

/-- `_FIXED_WINDOW_SCRIPT` -/
def fixedWindowScript (now : ℚ) (key : String) (expiresIn : Int) (store : Redis.Store Int) :
    (Int × Int) × Redis.Store Int :=
  let (current, store) := Redis.incr store key
  let store := if current = 1 then Redis.expire now store key expiresIn else store
  ((current, Redis.ttl now store key), store)

namespace RateLimiter

def bucket (rule : RateLimitRule) (now : ℚ) : Int := ⌊now / rule.windowSeconds⌋

def expiresIn (rule : RateLimitRule) (now : ℚ) : Int :=
  let windowEnd := (bucket rule now + 1) * rule.windowSeconds
  max 1 ⌈(windowEnd : ℚ) - now⌉

def key (limiter : RateLimiter) (rule : RateLimitRule) (bucket : Int) (identifier : String) : String :=
  limiter.namespace_ ++ ":v1:" ++ rule.scope ++ ":" ++ toString bucket ++ ":" ++
    Hex.hexdigest (limiter.hmac identifier)

/-- What follows the answer of the script; without one the request is let through. -/
def admission (rule : RateLimitRule) : Option (Int × Int) → Except RateLimitExceeded Unit
  | none => .ok ()
  | some (count, ttl) => if rule.limit < count then .error ⟨max 1 ttl⟩ else .ok ()

/-- `enforce`, with Redis available. -/
def enforce (limiter : RateLimiter) (now : ℚ) (rule : RateLimitRule) (identifier : String)
    (store : Redis.Store Int) : Except RateLimitExceeded Unit × Redis.Store Int :=
  let (reply, store) := fixedWindowScript now (limiter.key rule (bucket rule now) identifier) (expiresIn rule now)
    (Redis.advance now store)
  (admission rule (some reply), store)

end RateLimiter

/-- A call of `enforce` with the time it finds on the clock. -/
structure RateCall where
  now : ℚ
  rule : RateLimitRule
  identifier : String

/-- The calls one after the other, each with its answer. -/
def RateLimiter.answers (limiter : RateLimiter) :
    Redis.Store Int → List RateCall → List (RateCall × Except RateLimitExceeded Unit)
  | _, [] => []
  | store, call :: rest =>
    let (answer, next) := limiter.enforce call.now call.rule call.identifier store
    (call, answer) :: limiter.answers next rest

/-- The call is for the rule and the identifier, in the calendar window number `k`. -/
def RateCall.Concerns (rule : RateLimitRule) (identifier : String) (k : Int) (call : RateCall) : Prop :=
  call.rule = rule ∧ call.identifier = identifier ∧
    (k : ℚ) * rule.windowSeconds ≤ call.now ∧ call.now < (k + 1) * rule.windowSeconds

instance (rule : RateLimitRule) (identifier : String) (k : Int) :
    DecidablePred (RateCall.Concerns rule identifier k) :=
  fun _ => inferInstanceAs (Decidable (_ ∧ _))

theorem RateLimitRule.window_pos (rule : RateLimitRule) : (0 : ℚ) < rule.windowSeconds := by
  exact_mod_cast rule.windowSeconds_pos

theorem RateLimiter.bucket_eq_iff {rule : RateLimitRule} {now : ℚ} {k : Int} :
    bucket rule now = k ↔ (k : ℚ) * rule.windowSeconds ≤ now ∧ now < (k + 1) * rule.windowSeconds := by
  rw [bucket, Int.floor_eq_iff, le_div_iff₀ rule.window_pos, div_lt_iff₀ rule.window_pos]

theorem RateCall.concerns_iff {rule : RateLimitRule} {identifier : String} {k : Int} {call : RateCall} :
    call.Concerns rule identifier k ↔
      call.rule = rule ∧ call.identifier = identifier ∧ RateLimiter.bucket rule call.now = k := by
  rw [Concerns, RateLimiter.bucket_eq_iff]

/-- A counter set at any time of a window lasts to its end. -/
theorem RateLimiter.windowEnd_le (rule : RateLimitRule) (now : ℚ) :
    ((bucket rule now : ℚ) + 1) * rule.windowSeconds ≤ now + expiresIn rule now := by
  have ceiling := Int.le_ceil ((((bucket rule now + 1) * rule.windowSeconds : Int) : ℚ) - now)
  have longer : ((⌈(((bucket rule now + 1) * rule.windowSeconds : Int) : ℚ) - now⌉ : Int) : ℚ) ≤
      expiresIn rule now := by
    exact_mod_cast le_max_right _ _
  push_cast at ceiling longer
  linarith

/-- The key names the scope, the window and the identifier. -/
theorem RateLimiter.key_inj {limiter : RateLimiter} (injective : Function.Injective limiter.hmac)
    {rule rule' : RateLimitRule} {bucket bucket' : Int} {identifier identifier' : String}
    (same : limiter.key rule bucket identifier = limiter.key rule' bucket' identifier') :
    rule.scope = rule'.scope ∧ bucket = bucket' ∧ identifier = identifier' := by
  have bucket_chars (n : Int) : ':' ∉ (toString n).toList := fun colon =>
    absurd (Text.toString_int_chars colon) (by decide)
  have parts (rule : RateLimitRule) (bucket : Int) (identifier : String) :
      (limiter.key rule bucket identifier).toList =
        (limiter.namespace_.toList ++ ":v1:".toList ++ rule.scope.toList ++ ':' :: (toString bucket).toList) ++
          ':' :: (Hex.hexdigest (limiter.hmac identifier)).toList := by
    simp only [key, String.toList_append, List.append_assoc]
    rfl
  have chars := congrArg String.toList same
  rw [parts, parts] at chars
  -- The digest and the window number hold no colon, so they are what follows the last two.
  obtain ⟨front, digests⟩ := Text.split_last (Hex.colon_not_mem_hexdigest _) (Hex.colon_not_mem_hexdigest _) chars
  obtain ⟨names, buckets⟩ := Text.split_last (bucket_chars _) (bucket_chars _) front
  refine ⟨String.toList_inj.mp (List.append_cancel_left names), ?_, ?_⟩
  · exact Text.toString_int_injective (String.toList_inj.mp buckets)
  · exact injective (Hex.hexdigest_injective (String.toList_inj.mp digests))

/-- The entry of a counter that so many calls have raised, in a window that ends then. -/
def CounterAt (count : Nat) (windowEnd : ℚ) (entry : Option (Redis.Entry Int)) : Prop :=
  (count = 0 ∧ entry = none) ∨ (0 < count ∧ ∃ expiry, entry = some ⟨count, some expiry⟩ ∧ windowEnd ≤ expiry)

/-- A counter does not disappear within its window. -/
theorem CounterAt.advance {count : Nat} {windowEnd now : ℚ} {store : Redis.Store Int} {key : String}
    (counter : CounterAt count windowEnd (store key)) (inside : now < windowEnd) :
    CounterAt count windowEnd (Redis.advance now store key) := by
  rcases counter with ⟨zero, absent⟩ | ⟨positive, expiry, present, late⟩
  · exact .inl ⟨zero, Redis.advance_eq_none absent⟩
  · refine .inr ⟨positive, expiry, Redis.advance_eq_some.mpr ⟨present, ?_⟩, late⟩
    rintro _ ⟨⟩
    exact inside.trans_le late

/-- The script raises its counter by one and leaves the other keys alone. -/
theorem fixedWindowScript_counts {count : Nat} {windowEnd now : ℚ} {store : Redis.Store Int} {key : String}
    {expiresIn : Int} (counter : CounterAt count windowEnd (store key)) (lasts : windowEnd ≤ now + expiresIn) :
    (fixedWindowScript now key expiresIn store).1.1 = count + 1 ∧
      CounterAt (count + 1) windowEnd ((fixedWindowScript now key expiresIn store).2 key) ∧
      ∀ other ≠ key, (fixedWindowScript now key expiresIn store).2 other = store other := by
  have others : ∀ other ≠ key, (fixedWindowScript now key expiresIn store).2 other = store other := by
    intro other different
    unfold fixedWindowScript
    simp only
    split
    · rw [Redis.expire_other different, Redis.incr_other different]
    · exact Redis.incr_other different store
  rcases counter with ⟨rfl, absent⟩ | ⟨positive, expiry, present, late⟩
  · refine ⟨by simp [fixedWindowScript, Redis.incr, Redis.get, absent],
      .inr ⟨by simp, now + expiresIn, ?_, lasts⟩, others⟩
    simp [fixedWindowScript, Redis.incr, Redis.get, absent, Redis.expire]
  · have later : ¬ (count : Int) + 1 = 1 := by omega
    refine ⟨by simp [fixedWindowScript, Redis.incr, Redis.get, present], .inr ⟨by simp, expiry, ?_, late⟩, others⟩
    simp [fixedWindowScript, Redis.incr, Redis.get, present, later]

/-- After some calls, the last of them at `now`, every counter of a window that is not over stands at the
number of calls in it. -/
def Counted (limiter : RateLimiter) (rules : RateLimitRule → Prop) (done : List RateCall) (now : ℚ)
    (store : Redis.Store Int) : Prop :=
  ∀ rule, rules rule → ∀ identifier (k : Int), now < ((k : ℚ) + 1) * rule.windowSeconds →
    CounterAt (done.filter (RateCall.Concerns rule identifier k)).length (((k : ℚ) + 1) * rule.windowSeconds)
      (store (limiter.key rule k identifier))

section Admission
variable {limiter : RateLimiter} (injective : Function.Injective limiter.hmac) {rules : RateLimitRule → Prop}
  (distinct : ∀ a b, rules a → rules b → a.scope = b.scope → a = b)
include injective distinct

theorem Counted.step {done : List RateCall} {now : ℚ} {store : Redis.Store Int}
    (counted : Counted limiter rules done now store) {call : RateCall} (listed : rules call.rule)
    (later : now ≤ call.now) :
    (limiter.enforce call.now call.rule call.identifier store).1.isOk =
        decide (((done.filter (RateCall.Concerns call.rule call.identifier
          (RateLimiter.bucket call.rule call.now))).length : Int) < call.rule.limit) ∧
      Counted limiter rules (done ++ [call]) call.now (limiter.enforce call.now call.rule call.identifier store).2 := by
  have aged : Counted limiter rules done call.now (Redis.advance call.now store) := fun rule own identifier k inside =>
    (counted rule own identifier k (later.trans_lt inside)).advance inside
  obtain ⟨_, inside⟩ := RateLimiter.bucket_eq_iff.mp (rfl : RateLimiter.bucket call.rule call.now = _)
  obtain ⟨count, raised, others⟩ := fixedWindowScript_counts (aged call.rule listed call.identifier _ inside)
    (RateLimiter.windowEnd_le call.rule call.now)
  refine ⟨?_, fun rule own identifier k ahead => ?_⟩
  · simp only [RateLimiter.enforce, RateLimiter.admission, count]
    split
    · next exceeded => exact (decide_eq_false (not_lt.mpr (Int.lt_add_one_iff.mp exceeded))).symm
    · next within => exact (decide_eq_true (Int.lt_iff_add_one_le.mpr (not_lt.mp within))).symm
  · rw [List.filter_append, List.length_append]
    by_cases own_counter : call.Concerns rule identifier k
    · obtain ⟨rfl, rfl, rfl⟩ := RateCall.concerns_iff.mp own_counter
      rw [List.filter_cons_of_pos (by simpa using own_counter)]
      exact raised
    · rw [List.filter_cons_of_neg (by simpa using own_counter)]
      have different : limiter.key rule k identifier ≠
          limiter.key call.rule (RateLimiter.bucket call.rule call.now) call.identifier := by
        intro same
        obtain ⟨scope, window, person⟩ := RateLimiter.key_inj injective same
        cases distinct _ _ own listed scope
        exact own_counter (RateCall.concerns_iff.mpr ⟨rfl, person.symm, window.symm⟩)
      simp only [RateLimiter.enforce]
      rw [others _ different]
      exact aged rule own identifier k ahead

/-- The calls still to come are answered as their number in their window allows. -/
theorem answers_admitted {store : Redis.Store Int} {done rest : List RateCall} {now : ℚ}
    (counted : Counted limiter rules done now store) (listed : ∀ call ∈ rest, rules call.rule)
    (ordered : rest.Pairwise fun a b => a.now ≤ b.now) (later : ∀ call ∈ rest, now ≤ call.now) (rule : RateLimitRule)
    (identifier : String) (k : Int) :
    ((limiter.answers store rest).filter fun answered => answered.1.Concerns rule identifier k).map
        (fun answered => answered.2.isOk) =
      (List.range' (done.filter (RateCall.Concerns rule identifier k)).length
        (rest.filter (RateCall.Concerns rule identifier k)).length).map
          fun i : Nat => decide ((i : Int) < rule.limit) := by
  induction rest generalizing store done now with
  | nil => rfl
  | cons call rest ih =>
    obtain ⟨own, listed⟩ := List.forall_mem_cons.mp listed
    obtain ⟨first, ordered⟩ := List.pairwise_cons.mp ordered
    obtain ⟨answer, counted⟩ := counted.step injective distinct own (later call List.mem_cons_self)
    have tail := ih counted listed ordered first
    rw [List.filter_append, List.length_append] at tail
    rw [RateLimiter.answers]
    by_cases concerns : call.Concerns rule identifier k
    · obtain ⟨rfl, rfl, rfl⟩ := RateCall.concerns_iff.mp concerns
      rw [List.filter_cons_of_pos (by simpa using concerns)] at tail
      rw [List.filter_cons_of_pos (by simpa using concerns), List.filter_cons_of_pos (by simpa using concerns),
        List.length_cons, List.range'_succ, List.map_cons, List.map_cons]
      exact List.cons_eq_cons.mpr ⟨answer, tail⟩
    · rw [List.filter_cons_of_neg (by simpa using concerns)] at tail
      rw [List.filter_cons_of_neg (by simpa using concerns), List.filter_cons_of_neg (by simpa using concerns)]
      exact tail

end Admission

theorem counted_nil (limiter : RateLimiter) (rules : RateLimitRule → Prop) (now : ℚ) :
    Counted limiter rules [] now .empty := fun _ _ _ _ _ => .inl ⟨rfl, rfl⟩

theorem answers_calls (limiter : RateLimiter) (store : Redis.Store Int) (calls : List RateCall) :
    (limiter.answers store calls).map Prod.fst = calls := by
  induction calls generalizing store with
  | nil => rfl
  | cons call rest ih => exact congrArg _ (ih _)

/-- The numbers below a limit come first. -/
theorem range'_lt_limit (count : Nat) {limit : Int} (nonneg : 0 ≤ limit) :
    (List.range' 0 count).map (fun i : Nat => decide ((i : Int) < limit)) =
      List.replicate (min limit.toNat count) true ++ List.replicate (count - limit.toNat) false := by
  refine List.ext_getElem (by simp; omega) fun i left right => ?_
  simp only [List.length_map, List.length_range'] at left
  rw [List.getElem_map, List.getElem_range', List.getElem_append]
  simp only [List.length_replicate, List.getElem_replicate]
  split <;> simp <;> omega

/-- In every calendar window and for every rule and identifier, exactly the first calls up to the limit
are let through. -/
theorem fixed_window_admission {limiter : RateLimiter} (injective : Function.Injective limiter.hmac)
    {calls : List RateCall} (ordered : calls.Pairwise fun a b => a.now ≤ b.now)
    (distinct : ∀ a ∈ calls, ∀ b ∈ calls, a.rule.scope = b.rule.scope → a.rule = b.rule)
    (rule : RateLimitRule) (identifier : String) (k : Int) :
    let answered := (limiter.answers .empty calls).filter fun answered => answered.1.Concerns rule identifier k
    answered.map Prod.fst = calls.filter (RateCall.Concerns rule identifier k) ∧
      answered.map (fun answered => answered.2.isOk) =
        List.replicate (min rule.limit.toNat answered.length) true ++
          List.replicate (answered.length - rule.limit.toNat) false := by
  have own :
      ((limiter.answers .empty calls).filter fun answered => answered.1.Concerns rule identifier k).map Prod.fst =
      calls.filter (RateCall.Concerns rule identifier k) := by
    rw [← answers_calls limiter .empty calls, List.filter_map, answers_calls]
    rfl
  refine ⟨own, ?_⟩
  rw [← range'_lt_limit _ (zero_le_one.trans rule.limit_pos)]
  have rulesDistinct : ∀ a b, (∃ call ∈ calls, call.rule = a) → (∃ call ∈ calls, call.rule = b) →
      a.scope = b.scope → a = b := by
    rintro _ _ ⟨left, member, rfl⟩ ⟨right, member', rfl⟩ scope
    exact distinct left member right member' scope
  have length := congrArg List.length own
  rw [List.length_map] at length
  rw [length]
  cases calls with
  | nil => rfl
  | cons call rest =>
    obtain ⟨first, _⟩ := List.pairwise_cons.mp ordered
    refine answers_admitted injective rulesDistinct (counted_nil limiter _ call.now)
      (fun other member => ⟨other, member, rfl⟩)
      ordered ?_ rule identifier k
    exact List.forall_mem_cons.mpr ⟨le_rfl, first⟩

section Samples

/-- Six requests of one client in a window of sixty seconds for five, the last a moment before its end,
and one in the next. -/
def sampleRule : RateLimitRule where
  scope := "login_email"
  limit := 5
  windowSeconds := 60
  scope_ne := by decide
  limit_pos := by decide
  windowSeconds_pos := by decide

def sampleCalls : List RateCall :=
  [3, 4, 5, 6, 7, 119 / 2, 60].map fun now => ⟨now, sampleRule, "client"⟩

/-- The identifier's own bytes in place of its digest. -/
def sampleLimiter : RateLimiter where
  namespace_ := "rate-limit"
  hmac identifier := identifier.toByteArray.data.toList

theorem sampleLimiter_injective : Function.Injective sampleLimiter.hmac := by
  intro left right same
  exact String.toByteArray_inj.mp (ByteArray.ext (Array.toList_inj.mp same))

theorem sample_admission :
    ((sampleLimiter.answers .empty sampleCalls).filter fun answered => answered.1.Concerns sampleRule "client" 0).map
      (fun answered => answered.2.isOk) = [true, true, true, true, true, false] := by
  have ordered : sampleCalls.Pairwise fun a b => a.now ≤ b.now := by decide +kernel
  have one : ∀ call ∈ sampleCalls, call.rule = sampleRule := by simp [sampleCalls]
  obtain ⟨own, admitted⟩ := fixed_window_admission sampleLimiter_injective ordered
    (fun a left b right _ => (one a left).trans (one b right).symm) sampleRule "client" 0
  have length := congrArg List.length own
  have six : (sampleCalls.filter (RateCall.Concerns sampleRule "client" 0)).length = 6 := by decide +kernel
  rw [List.length_map, six] at length
  rw [admitted, length]
  rfl

end Samples

end LedgerLens
