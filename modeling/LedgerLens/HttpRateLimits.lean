import LedgerLens.HttpRefusals
import Mathlib.Data.List.Count

namespace LedgerLens
open RateLimiter (bucket)

/-- Checks one after the other, up to the first limit that is exceeded. -/
def RateLimiter.enforceAll (limiter : RateLimiter) (now : ℚ) :
    List (RateLimitRule × String) → Redis.Store Int → Except RateLimitExceeded Unit × Redis.Store Int
  | [], counters => (.ok (), counters)
  | (rule, identifier) :: rest, counters =>
    match limiter.enforce now rule identifier counters with
    | (.error exceeded, after) => (.error exceeded, after)
    | (.ok _, after) => limiter.enforceAll now rest after

theorem RateLimiter.enforceAll_error {limiter : RateLimiter} {now : ℚ} {rule : RateLimitRule} {identifier : String}
    {counters after : Redis.Store Int} {exceeded : RateLimitExceeded}
    (answer : limiter.enforce now rule identifier counters = (.error exceeded, after))
    (rest : List (RateLimitRule × String)) :
    limiter.enforceAll now ((rule, identifier) :: rest) counters = (.error exceeded, after) := by
  simp only [enforceAll, answer]

theorem RateLimiter.enforceAll_ok {limiter : RateLimiter} {now : ℚ} {rule : RateLimitRule} {identifier : String}
    {counters after : Redis.Store Int} {let_ : Unit}
    (answer : limiter.enforce now rule identifier counters = (.ok let_, after))
    (rest : List (RateLimitRule × String)) :
    limiter.enforceAll now ((rule, identifier) :: rest) counters = limiter.enforceAll now rest after := by
  simp only [enforceAll, answer]

theorem Counted.mono {limiter : RateLimiter} {rules : RateLimitRule → Prop} {done : List RateCall} {now later : ℚ}
    {counters : Redis.Store Int} (counted : Counted limiter rules done now counters) (order : now ≤ later) :
    Counted limiter rules done later counters :=
  fun rule own identifier k ahead => counted rule own identifier k (order.trans_lt ahead)

section Checks
variable {limiter : RateLimiter} (injective : Function.Injective limiter.hmac) {rules : RateLimitRule → Prop}
  (distinct : ∀ a b, rules a → rules b → a.scope = b.scope → a = b)
include injective distinct

/-- What is counted by checks, and what their outcome says about the counters before. -/
theorem Counted.enforceAll {limits : List (RateLimitRule × String)} (nodup : limits.Nodup)
    (listed : ∀ limit ∈ limits, rules limit.1) {done : List RateCall} {now : ℚ} {counters : Redis.Store Int}
    (counted : Counted limiter rules done now counters) :
    ∃ made : List (RateLimitRule × String), made.Sublist limits ∧
      Counted limiter rules (done ++ made.map fun limit => ⟨now, limit.1, limit.2⟩) now
        (limiter.enforceAll now limits counters).2 ∧
      ((limiter.enforceAll now limits counters).1 = .ok () → made = limits ∧ ∀ limit ∈ limits,
        ((done.filter (RateCall.Concerns limit.1 limit.2 (bucket limit.1 now))).length : Int) < limit.1.limit) ∧
      ((limiter.enforceAll now limits counters).1 ≠ .ok () → ∃ limit ∈ limits,
        limit.1.limit ≤ (done.filter (RateCall.Concerns limit.1 limit.2 (bucket limit.1 now))).length) := by
  induction limits generalizing done counters with
  | nil =>
    refine ⟨[], .refl _, ?_, fun _ => ⟨rfl, List.forall_mem_nil _⟩, absurd rfl⟩
    rw [List.map_nil, List.append_nil]
    exact counted
  | cons limit rest ih =>
    obtain ⟨rule, identifier⟩ := limit
    obtain ⟨fresh, nodup⟩ := List.nodup_cons.mp nodup
    obtain ⟨own, listed⟩ := List.forall_mem_cons.mp listed
    let call : RateCall := ⟨now, rule, identifier⟩
    obtain ⟨answer, raised⟩ := counted.step injective distinct (show rules call.rule from own)
      (show now ≤ call.now from le_rfl)
    have other (limit : RateLimitRule × String) (member : limit ∈ rest) :
        (done ++ [call]).filter (RateCall.Concerns limit.1 limit.2 (bucket limit.1 now)) =
          done.filter (RateCall.Concerns limit.1 limit.2 (bucket limit.1 now)) := by
      have foreign : ¬ call.Concerns limit.1 limit.2 (bucket limit.1 now) := by
        rintro ⟨rfl, rfl, _⟩
        exact fresh member
      rw [List.filter_append, List.filter_cons_of_neg (by simpa using foreign), List.filter_nil, List.append_nil]
    rcases outcome : limiter.enforce now rule identifier counters with ⟨exceeded | _, after⟩
    · rw [RateLimiter.enforceAll_error outcome]
      have reached : rule.limit ≤ (done.filter (RateCall.Concerns rule identifier (bucket rule now))).length := by
        rw [outcome] at answer
        exact not_lt.mp (of_decide_eq_false answer.symm)
      rw [outcome] at raised
      refine ⟨[(rule, identifier)], (List.nil_sublist rest).cons_cons _, raised, fun ok => ?_, fun _ => ?_⟩
      · cases ok
      · exact ⟨(rule, identifier), List.mem_cons_self, reached⟩
    · rw [RateLimiter.enforceAll_ok outcome]
      have free : ((done.filter (RateCall.Concerns rule identifier (bucket rule now))).length : Int) < rule.limit := by
        rw [outcome] at answer
        exact of_decide_eq_true answer.symm
      rw [outcome] at raised
      obtain ⟨made, order, counted, passed, stopped⟩ := ih nodup listed raised
      refine ⟨(rule, identifier) :: made, order.cons_cons _, ?_, fun ok => ?_, fun failed => ?_⟩
      · rwa [List.map_cons, ← List.singleton_append, ← List.append_assoc]
      · obtain ⟨rfl, below⟩ := passed ok
        refine ⟨rfl, List.forall_mem_cons.mpr ⟨free, fun limit member => ?_⟩⟩
        rw [← other limit member]
        exact below limit member
      · obtain ⟨limit, member, reached⟩ := stopped failed
        rw [other limit member] at reached
        exact ⟨limit, List.mem_cons_of_mem _ member, reached⟩

end Checks

/-- Every rule of the policies. -/
def RateLimitPolicies.rules (policies : RateLimitPolicies) : List RateLimitRule :=
  [policies.registrationIp, policies.loginIp, policies.loginEmail, policies.analyticsUser, policies.insightsUser,
    policies.authenticatedUser]

/-- The limits of the settings, which are positive. -/
structure RateLimitSettings where
  registrationIpLimit : {n : Int // 1 ≤ n}
  registrationWindowSeconds : {n : Int // 1 ≤ n}
  loginIpLimit : {n : Int // 1 ≤ n}
  loginEmailLimit : {n : Int // 1 ≤ n}
  loginWindowSeconds : {n : Int // 1 ≤ n}
  analyticsUserLimit : {n : Int // 1 ≤ n}
  insightsUserLimit : {n : Int // 1 ≤ n}
  authenticatedUserLimit : {n : Int // 1 ≤ n}
  authenticatedWindowSeconds : {n : Int // 1 ≤ n}

/-- The policies that the program is started with. -/
def RateLimitSettings.policies (settings : RateLimitSettings) : RateLimitPolicies :=
  let rule (scope : String) (named : scope ≠ "") (limit windowSeconds : {n : Int // 1 ≤ n}) : RateLimitRule :=
    ⟨scope, limit, windowSeconds, named, limit.2, windowSeconds.2⟩
  let named := RateLimitPolicies.default
  { registrationIp := rule "registration_ip" named.registrationIp.scope_ne settings.registrationIpLimit
      settings.registrationWindowSeconds
    loginIp := rule "login_ip" named.loginIp.scope_ne settings.loginIpLimit settings.loginWindowSeconds
    loginEmail := rule "login_email" named.loginEmail.scope_ne settings.loginEmailLimit settings.loginWindowSeconds
    analyticsUser := rule "analytics_user" named.analyticsUser.scope_ne settings.analyticsUserLimit
      settings.authenticatedWindowSeconds
    insightsUser := rule "insights_user" named.insightsUser.scope_ne settings.insightsUserLimit
      settings.authenticatedWindowSeconds
    authenticatedUser := rule "authenticated_user" named.authenticatedUser.scope_ne settings.authenticatedUserLimit
      settings.authenticatedWindowSeconds }

/-- Whatever the settings, no two policies share their counters. -/
theorem RateLimitSettings.scopes_nodup (settings : RateLimitSettings) :
    (settings.policies.rules.map RateLimitRule.scope).Nodup := by
  have scopes : settings.policies.rules.map RateLimitRule.scope =
      RateLimitPolicies.default.rules.map RateLimitRule.scope := rfl
  rw [scopes]
  decide

theorem RateLimitPolicies.userRule_mem (policies : RateLimitPolicies) (limit : UserLimit) :
    policies.userRule limit ∈ policies.rules := by
  cases limit <;> simp [userRule, rules]

namespace HttpApi
variable {σ F : Type} (api : HttpApi σ)

/-- The limits that a request counts against. -/
def limits (request : HttpRequest F σ) (users : UserTable) : List (RateLimitRule × String) :=
  match request.route with
  | .register client (some _) _ _ => [(api.policies.registrationIp, "ip:" ++ api.clientIpIdentifier client)]
  | .login client (some payload) =>
    [(api.policies.loginIp, "ip:" ++ api.clientIpIdentifier client),
      (api.policies.loginEmail, "email:" ++ payload.email)]
  | .user authorization content =>
    match content.limit, api.currentUser request.now authorization users with
    | some limit, some user => [(api.policies.userRule limit, "user:" ++ user.id.str)]
    | _, _ => []
  | _ => []

/-- A request with the limits that it counts against and its response. -/
structure MeteredExchange (F σ : Type) where
  request : HttpRequest F σ
  limits : List (RateLimitRule × String)
  response : HttpResponse F

end HttpApi

/-- The response of the handler for exceeded limits. -/
def HttpResponse.rateLimited {F : Type} : HttpResponse F → Bool
  | .failure (.rateLimitExceeded _) => true
  | _ => false

namespace HttpApi
variable {σ F : Type} {api : HttpApi σ} {limiter : RateLimiter}

/-- A handler that has counted against some limits, and is refused exactly if one of them is exceeded. -/
def Meters (limiter : RateLimiter) (now : ℚ) (limits : List (RateLimitRule × String)) (counters : Redis.Store Int)
    (outcome : (HttpResponse F × List (OutsideCall F)) × HttpWorld F) : Prop :=
  outcome.2.counters = (limiter.enforceAll now limits counters).2 ∧
    (outcome.1.1.rateLimited = false ↔ (limiter.enforceAll now limits counters).1 = .ok ())

theorem Meters.nil {now : ℚ} {counters : Redis.Store Int}
    {outcome : (HttpResponse F × List (OutsideCall F)) × HttpWorld F} (same : outcome.2.counters = counters)
    (free : outcome.1.1.rateLimited = false) : Meters limiter now [] counters outcome :=
  ⟨same, iff_of_true free rfl⟩

theorem Meters.limited (wired : api.rateLimiter = some limiter) {now : ℚ} {rule : RateLimitRule} {identifier : String}
    {rest : List (RateLimitRule × String)} (world : HttpWorld F)
    {handler : HttpWorld F → (HttpResponse F × List (OutsideCall F)) × HttpWorld F}
    (within : ∀ counters, Meters limiter now rest counters (handler { world with counters := counters })) :
    Meters limiter now ((rule, identifier) :: rest) world.counters
      (api.limited now .stored rule identifier world handler) := by
  unfold HttpApi.limited HttpApi.enforce
  rw [wired]
  rcases answer : limiter.enforce now rule identifier world.counters with ⟨exceeded | _, after⟩
  · simp only [answer, Meters, RateLimiter.enforceAll_error answer, Except.mapError]
    refine ⟨trivial, iff_of_false (fun free => ?_) fun ok => ?_⟩
    · cases free
    · cases ok
  · simp only [answer, Meters, RateLimiter.enforceAll_ok answer, Except.mapError]
    exact within after

variable [UnicodeDatabase] [FloatArithmetic F]

theorem dispatch_meters (content : UserContent F) (account : User) (world : HttpWorld F) (now : ℚ) :
    Meters limiter now [] world.counters (api.dispatch content account world) := by
  cases content with
  | unreadable => exact .nil rfl rfl
  | invalid limit => exact .nil rfl rfl
  | valid call =>
    refine .nil rfl ?_
    simp only [dispatch, callService]
    rcases respond_cases call ((serve api.ctx api.wiring ⟨account.id, call⟩).run { store := world.store }).1 with
      ⟨status, response, answer⟩ | ⟨raised, answer⟩
    · rw [answer]
      rfl
    · rw [answer]
      rfl

/-- While the script can be run, a request is answered 429 exactly if one of its limits is exceeded. -/
theorem handle_meters (wired : api.rateLimiter = some limiter) {request : HttpRequest F σ}
    (available : request.scripts = fun _ => .stored) (world : HttpWorld F) :
    Meters limiter request.now (api.limits request world.users) world.counters (api.handle request world) := by
  unfold handle limits
  cases request.route with
  | health => exact .nil rfl rfl
  | register client payload salt userId =>
    cases payload with
    | none => exact .nil rfl rfl
    | some payload =>
      simp only [register, available]
      refine .limited wired world fun counters => ?_
      split <;> exact .nil rfl rfl
  | login client payload =>
    cases payload with
    | none => exact .nil rfl rfl
    | some payload =>
      simp only [login, available]
      refine .limited wired world fun counters => .limited wired { world with counters := counters } fun counters' => ?_
      split <;> exact .nil rfl rfl
  | user authorization content =>
    simp only [handleUser, available]
    cases content.limit with
    | none => exact .nil rfl rfl
    | some limit =>
      cases api.currentUser request.now authorization world.users with
      | none => exact .nil rfl rfl
      | some user =>
        exact .limited wired world fun counters => dispatch_meters content user { world with counters := counters } _

/-- What has been served since the start, with the limits it counted against, and the world after it. -/
inductive Metered (api : HttpApi σ) (initial : HttpWorld F) : List (MeteredExchange F σ) → HttpWorld F → Prop
  | start : Metered api initial [] initial
  | next {seen world} : Metered api initial seen world → (request : HttpRequest F σ) →
      Metered api initial (seen ++ [⟨request, api.limits request world.users, (api.handle request world).1.1⟩])
        (api.handle request world).2

/-- What requests that come one after the other count against, how they are answered, and the world after them. -/
def meteredExchanges (api : HttpApi σ) : List (HttpRequest F σ) → HttpWorld F →
    List (MeteredExchange F σ) × HttpWorld F
  | [], world => ([], world)
  | request :: rest, world =>
    let ((response, _), after) := api.handle request world
    let (later, final) := meteredExchanges api rest after
    (⟨request, api.limits request world.users, response⟩ :: later, final)

theorem Metered.exchanges {initial world : HttpWorld F} {seen : List (MeteredExchange F σ)}
    (metered : Metered api initial seen world) (requests : List (HttpRequest F σ)) :
    Metered api initial (seen ++ (api.meteredExchanges requests world).1) (api.meteredExchanges requests world).2 := by
  induction requests generalizing seen world with
  | nil =>
    rw [meteredExchanges, List.append_nil]
    exact metered
  | cons request rest ih =>
    have onwards := ih (metered.next request)
    rwa [List.append_assoc] at onwards

theorem meteredExchanges_requests (requests : List (HttpRequest F σ)) (world : HttpWorld F) :
    (api.meteredExchanges requests world).1.map MeteredExchange.request = requests := by
  induction requests generalizing world with
  | nil => rfl
  | cons request rest ih => exact congrArg (List.cons request) (ih _)

omit [UnicodeDatabase] [FloatArithmetic F]

/-- It counts against a limit, in the calendar window number `k`. -/
def MeteredExchange.Concerns (rule : RateLimitRule) (identifier : String) (k : Int) (exchange : MeteredExchange F σ) :
    Prop :=
  (rule, identifier) ∈ exchange.limits ∧ bucket rule exchange.request.now = k

instance (rule : RateLimitRule) (identifier : String) (k : Int) :
    DecidablePred (MeteredExchange.Concerns (F := F) (σ := σ) rule identifier k) :=
  fun _ => inferInstanceAs (Decidable (_ ∧ _))

/-- And it was not answered 429. -/
def MeteredExchange.Granted (rule : RateLimitRule) (identifier : String) (k : Int) (exchange : MeteredExchange F σ) :
    Prop :=
  exchange.Concerns rule identifier k ∧ exchange.response.rateLimited = false

instance (rule : RateLimitRule) (identifier : String) (k : Int) :
    DecidablePred (MeteredExchange.Granted (F := F) (σ := σ) rule identifier k) :=
  fun _ => inferInstanceAs (Decidable (_ ∧ _))

/-- It counts against a limit, was not answered 429, and came in the interval of the length of a window that starts
then. -/
def MeteredExchange.GrantedFrom (rule : RateLimitRule) (identifier : String) (start : ℚ)
    (exchange : MeteredExchange F σ) : Prop :=
  (rule, identifier) ∈ exchange.limits ∧ exchange.response.rateLimited = false ∧
    start ≤ exchange.request.now ∧ exchange.request.now < start + rule.windowSeconds

instance (rule : RateLimitRule) (identifier : String) (start : ℚ) :
    DecidablePred (MeteredExchange.GrantedFrom (F := F) (σ := σ) rule identifier start) :=
  fun _ => inferInstanceAs (Decidable (_ ∧ _))

theorem limits_listed (request : HttpRequest F σ) (users : UserTable) :
    ∀ limit ∈ api.limits request users, limit.1 ∈ api.policies.rules := by
  unfold limits
  split
  · simp [RateLimitPolicies.rules]
  · simp [RateLimitPolicies.rules]
  · split
    · simp [RateLimitPolicies.userRule_mem]
    · exact List.forall_mem_nil _
  · exact List.forall_mem_nil _

theorem limits_nodup (request : HttpRequest F σ) (users : UserTable) : (api.limits request users).Nodup := by
  unfold limits
  split
  · exact List.nodup_singleton _
  · next client payload _ =>
    refine List.nodup_cons.mpr ⟨fun member => ?_, List.nodup_singleton _⟩
    have same := congrArg (fun limit => limit.2.toList.head?) (List.mem_singleton.mp member)
    simp [String.toList_append] at same
  · split
    · exact List.nodup_singleton _
    · exact List.nodup_nil
  · exact List.nodup_nil

/-- The calls that are made for limits, in a window. -/
theorem filter_calls (now : ℚ) (limits : List (RateLimitRule × String)) (rule : RateLimitRule) (identifier : String)
    (k : Int) :
    ((limits.map fun limit => (⟨now, limit.1, limit.2⟩ : RateCall)).filter
        (RateCall.Concerns rule identifier k)).length =
      if bucket rule now = k then limits.count (rule, identifier) else 0 := by
  rw [← List.countP_eq_length_filter, List.countP_map]
  split
  · next window =>
    rw [List.count_eq_countP]
    refine List.countP_congr fun limit _ => ?_
    simp only [Function.comp_apply, decide_eq_true_eq, RateCall.concerns_iff, beq_iff_eq, Prod.ext_iff]
    constructor
    · rintro ⟨sameRule, sameIdentifier, _⟩
      exact ⟨sameRule, sameIdentifier⟩
    · rintro ⟨rfl, rfl⟩
      exact ⟨rfl, rfl, window⟩
  · next elsewhere =>
    refine List.countP_eq_zero.mpr fun limit _ concerns => elsewhere ?_
    simp only [Function.comp_apply, decide_eq_true_eq, RateCall.concerns_iff] at concerns
    obtain ⟨rfl, rfl, window⟩ := concerns
    exact window

/-- What is known of the counters after some exchanges, of which `done` are the calls that were made. -/
structure Metering (limiter : RateLimiter) (rules : RateLimitRule → Prop) (seen : List (MeteredExchange F σ))
    (counters : Redis.Store Int) (done : List RateCall) : Prop where
  counted : ∀ now, (∀ exchange ∈ seen, exchange.request.now ≤ now) → Counted limiter rules done now counters
  granted : ∀ rule identifier k, (seen.countP fun exchange => exchange.Granted rule identifier k) ≤
    (done.filter (RateCall.Concerns rule identifier k)).length
  concerned : ∀ rule identifier k, (done.filter (RateCall.Concerns rule identifier k)).length ≤
    seen.countP fun exchange => exchange.Concerns rule identifier k
  bounded : ∀ rule identifier k, ((seen.countP fun exchange => exchange.Granted rule identifier k : Nat) : Int) ≤
    rule.limit
  refused : ∀ before exchange after, seen = before ++ exchange :: after → exchange.response.rateLimited →
    ∃ limit ∈ exchange.limits, limit.1.limit ≤
      before.countP fun other => other.Concerns limit.1 limit.2 (bucket limit.1 exchange.request.now)

theorem Metering.nil (limiter : RateLimiter) (rules : RateLimitRule → Prop) :
    Metering (F := F) (σ := σ) limiter rules [] .empty [] where
  counted now _ := counted_nil limiter rules now
  granted _ _ _ := le_rfl
  concerned _ _ _ := le_rfl
  bounded rule _ _ := zero_le_one.trans rule.limit_pos
  refused before exchange after split := by cases before <;> cases split

section Runs
variable (injective : Function.Injective limiter.hmac) {rules : RateLimitRule → Prop}
  (distinct : ∀ a b, rules a → rules b → a.scope = b.scope → a = b)
include injective distinct

theorem Metering.next {seen : List (MeteredExchange F σ)} {counters : Redis.Store Int} {done : List RateCall}
    (metering : Metering limiter rules seen counters done) {request : HttpRequest F σ}
    {limits : List (RateLimitRule × String)} (listed : ∀ limit ∈ limits, rules limit.1) (nodup : limits.Nodup)
    (ordered : ∀ exchange ∈ seen, exchange.request.now ≤ request.now)
    {outcome : (HttpResponse F × List (OutsideCall F)) × HttpWorld F}
    (meters : Meters limiter request.now limits counters outcome) :
    ∃ done, Metering limiter rules (seen ++ [⟨request, limits, outcome.1.1⟩]) outcome.2.counters done := by
  obtain ⟨after, answer⟩ := meters
  obtain ⟨made, order, counted, passed, stopped⟩ :=
    (metering.counted request.now ordered).enforceAll injective distinct nodup listed
  rw [← after] at counted
  refine ⟨done ++ made.map fun limit => ⟨request.now, limit.1, limit.2⟩, ?_, ?_, ?_, ?_, ?_⟩
  · intro now later
    exact counted.mono (later _ (List.mem_append_right _ (List.mem_singleton.mpr rfl)))
  · intro rule identifier k
    rw [List.countP_append, List.filter_append, List.length_append, filter_calls, List.countP_singleton]
    refine Nat.add_le_add (metering.granted rule identifier k) ?_
    split
    · next grant =>
      obtain ⟨⟨member, window⟩, free⟩ := of_decide_eq_true grant
      obtain ⟨rfl, _⟩ := passed (answer.mp free)
      rw [if_pos window]
      exact List.count_pos_iff.mpr member
    · exact Nat.zero_le _
  · intro rule identifier k
    rw [List.countP_append, List.filter_append, List.length_append, filter_calls, List.countP_singleton]
    refine Nat.add_le_add (metering.concerned rule identifier k) ?_
    split
    · next window =>
      by_cases member : (rule, identifier) ∈ limits
      · rw [if_pos (decide_eq_true (p := MeteredExchange.Concerns rule identifier k _) ⟨member, window⟩)]
        exact List.nodup_iff_count_le_one.mp (nodup.sublist order) _
      · rw [List.count_eq_zero_of_not_mem fun called => member (order.subset called)]
        exact Nat.zero_le _
    · exact Nat.zero_le _
  · intro rule identifier k
    rw [List.countP_append, List.countP_singleton]
    split
    · next grant =>
      obtain ⟨⟨member, rfl⟩, free⟩ := of_decide_eq_true grant
      have below : ((done.filter (RateCall.Concerns rule identifier (bucket rule request.now))).length : Int) <
          rule.limit := (passed (answer.mp free)).2 _ member
      have earlier := metering.granted rule identifier (bucket rule request.now)
      push_cast
      omega
    · exact metering.bounded rule identifier k
  · intro before exchange rest split refused
    rcases List.eq_nil_or_concat rest with rfl | ⟨earlier, last, rfl⟩
    · obtain ⟨rfl, last⟩ := List.append_inj' split rfl
      cases List.singleton_inj.mp last
      have failed : (limiter.enforceAll request.now limits counters).1 ≠ .ok () := by
        intro ok
        rw [answer.mpr ok] at refused
        cases refused
      obtain ⟨limit, member, reached⟩ := stopped failed
      refine ⟨limit, member, reached.trans ?_⟩
      exact_mod_cast metering.concerned limit.1 limit.2 (bucket limit.1 request.now)
    · rw [List.concat_eq_append, ← List.cons_append, ← List.append_assoc] at split
      exact metering.refused before exchange earlier (List.append_inj' split rfl).1 refused

variable [UnicodeDatabase] [FloatArithmetic F]

theorem Metered.metering (wired : api.rateLimiter = some limiter)
    (listed : ∀ rule ∈ api.policies.rules, rules rule) {initial world : HttpWorld F} (empty : initial.counters = .empty)
    {seen : List (MeteredExchange F σ)} (metered : Metered api initial seen world)
    (ordered : seen.Pairwise fun a b => a.request.now ≤ b.request.now)
    (available : ∀ exchange ∈ seen, exchange.request.scripts = fun _ => .stored) :
    ∃ done, Metering limiter rules seen world.counters done := by
  induction metered with
  | start =>
    rw [empty]
    exact ⟨[], .nil limiter rules⟩
  | @next seen world _ request ih =>
    obtain ⟨earlier, _, last⟩ := List.pairwise_append.mp ordered
    obtain ⟨before, own⟩ := List.forall_mem_append.mp available
    obtain ⟨done, metering⟩ := ih earlier before
    exact metering.next injective distinct
      (fun limit member => listed _ (limits_listed request world.users limit member)) (limits_nodup request world.users)
      (fun exchange member => last exchange member _ (List.mem_singleton.mpr rfl))
      (handle_meters wired (own _ (List.mem_singleton.mpr rfl)) world)

end Runs

omit [UnicodeDatabase] [FloatArithmetic F] in
/-- An interval as long as a window touches two calendar windows at most. -/
theorem MeteredExchange.GrantedFrom.granted {rule : RateLimitRule} {identifier : String} {start : ℚ}
    {exchange : MeteredExchange F σ} (grant : exchange.GrantedFrom rule identifier start) :
    exchange.Granted rule identifier (bucket rule start) ∨
      exchange.Granted rule identifier (bucket rule start + 1) := by
  obtain ⟨member, free, late, early⟩ := grant
  obtain ⟨begins, ends⟩ := RateLimiter.bucket_eq_iff.mp (rfl : bucket rule start = _)
  by_cases first : exchange.request.now < ((bucket rule start : ℚ) + 1) * rule.windowSeconds
  · exact .inl ⟨⟨member, RateLimiter.bucket_eq_iff.mpr ⟨begins.trans late, first⟩⟩, free⟩
  · refine .inr ⟨⟨member, RateLimiter.bucket_eq_iff.mpr ⟨?_, ?_⟩⟩, free⟩
    · push_cast
      exact not_lt.mp first
    · push_cast
      linarith

omit [UnicodeDatabase] [FloatArithmetic F] in
theorem countP_grantedFrom (seen : List (MeteredExchange F σ)) (rule : RateLimitRule) (identifier : String)
    (start : ℚ) :
    (seen.countP fun exchange => exchange.GrantedFrom rule identifier start) ≤
      (seen.countP fun exchange => exchange.Granted rule identifier (bucket rule start)) +
        seen.countP fun exchange => exchange.Granted rule identifier (bucket rule start + 1) := by
  induction seen with
  | nil => exact Nat.zero_le _
  | cons exchange rest ih =>
    simp only [List.countP_cons, decide_eq_true_eq]
    by_cases grant : exchange.GrantedFrom rule identifier start
    · rw [if_pos grant]
      rcases grant.granted with first | second
      · rw [if_pos first]
        omega
      · rw [if_pos second]
        omega
    · rw [if_neg grant]
      omega

end HttpApi

section Limits
variable [UnicodeDatabase] {σ F : Type} [FloatArithmetic F] {api : HttpApi σ} {limiter : RateLimiter}

open HttpApi in
/-- In a run in the order of time with Redis at hand, a limit lets no more requests through in a calendar window than it
says, and twice as many in any interval of that length; and a request is answered 429 only after as many requests
against one of its own limits in the same window. -/
theorem http_rate_limits (wired : api.rateLimiter = some limiter) (injective : Function.Injective limiter.hmac)
    (scopes : (api.policies.rules.map RateLimitRule.scope).Nodup) {initial world : HttpWorld F}
    (empty : initial.counters = .empty) {seen : List (MeteredExchange F σ)} (metered : Metered api initial seen world)
    (ordered : seen.Pairwise fun a b => a.request.now ≤ b.request.now)
    (available : ∀ exchange ∈ seen, exchange.request.scripts = fun _ => .stored) :
    (∀ rule identifier, (∀ k, ((seen.countP fun exchange => exchange.Granted rule identifier k : Nat) : Int) ≤
        rule.limit) ∧
      ∀ start, ((seen.countP fun exchange => exchange.GrantedFrom rule identifier start : Nat) : Int) ≤
        2 * rule.limit) ∧
    ∀ before exchange after, seen = before ++ exchange :: after → exchange.response.rateLimited →
      ∃ limit ∈ exchange.limits, limit.1.limit ≤
        before.countP fun other => other.Concerns limit.1 limit.2 (bucket limit.1 exchange.request.now) := by
  have distinct : ∀ a b, a ∈ api.policies.rules → b ∈ api.policies.rules → a.scope = b.scope → a = b :=
    fun a b left right same => List.inj_on_of_nodup_map scopes left right same
  obtain ⟨done, metering⟩ := metered.metering injective distinct wired (fun _ own => own) empty ordered available
  refine ⟨fun rule identifier => ⟨metering.bounded rule identifier, fun start => ?_⟩, metering.refused⟩
  have first := metering.bounded rule identifier (bucket rule start)
  have second := metering.bounded rule identifier (bucket rule start + 1)
  have both := countP_grantedFrom seen rule identifier start
  omega

end Limits

section Samples

attribute [local instance] Text.asciiDatabase FloatArithmetic.rational

def atLeastOne (n : Int) : {n : Int // 1 ≤ n} := ⟨max 1 n, Int.le_max_left 1 n⟩

/-- Two logins for an email in ten minutes. -/
def strictSettings : RateLimitSettings where
  registrationIpLimit := atLeastOne 5
  registrationWindowSeconds := atLeastOne 600
  loginIpLimit := atLeastOne 10
  loginEmailLimit := atLeastOne 2
  loginWindowSeconds := atLeastOne 600
  analyticsUserLimit := atLeastOne 20
  insightsUserLimit := atLeastOne 10
  authenticatedUserLimit := atLeastOne 120
  authenticatedWindowSeconds := atLeastOne 60

def strictApi : HttpApi Unit := { sampleApi with policies := strictSettings.policies }

def guess (now : ℚ) (host password : String) : HttpRequest ℚ Unit :=
  ⟨now, fun _ => .stored, .login ⟨some host, none⟩ (some ⟨"alice@example.com", password⟩)⟩

/-- Guesses from changing addresses, the third of them right, and one in the next window. -/
def guesses : List (HttpRequest ℚ Unit) :=
  [guess 0 "192.0.2.1" "letmein", guess 1 "192.0.2.2" "password", guess 2 "192.0.2.3" "correct horse",
    guess 600 "192.0.2.4" "correct horse"]

def guessed : List (HttpApi.MeteredExchange ℚ Unit) := (strictApi.meteredExchanges guesses sampleHttpWorld).1

/-- The third guess is not looked at, and two had been before it. -/
theorem sample_rate_limits :
    guessed.map (fun exchange => exchange.response.statusCode) = [401, 401, 429, 200] ∧
    ((guessed.countP fun exchange =>
      exchange.GrantedFrom strictApi.policies.loginEmail "email:alice@example.com" 0 : Nat) : Int) ≤ 4 ∧
    ∃ exchange : HttpApi.MeteredExchange ℚ Unit, guessed[2]? = some exchange ∧ ∃ limit ∈ exchange.limits,
      limit.1.limit ≤ (guessed.take 2).countP fun other =>
        other.Concerns limit.1 limit.2 (bucket limit.1 exchange.request.now) := by
  have injective : Function.Injective sampleLimiter.hmac := sampleLimiter_injective
  have requests : guessed.map HttpApi.MeteredExchange.request = guesses := HttpApi.meteredExchanges_requests _ _
  have ordered : guessed.Pairwise fun a b => a.request.now ≤ b.request.now := by
    have times : guesses.Pairwise fun a b => a.now ≤ b.now := by
      simp only [guesses, guess, List.pairwise_cons]
      norm_num
    rw [← requests, List.pairwise_map] at times
    exact times
  have available : ∀ exchange ∈ guessed, exchange.request.scripts = fun _ => .stored := by
    have scripts : ∀ request ∈ guesses, request.scripts = fun _ => .stored := by simp [guesses, guess]
    intro exchange member
    exact scripts _ (requests ▸ List.mem_map_of_mem member)
  have metered : HttpApi.Metered strictApi sampleHttpWorld guessed _ := HttpApi.Metered.start.exchanges guesses
  obtain ⟨bounded, refused⟩ :=
    http_rate_limits rfl injective strictSettings.scopes_nodup rfl metered ordered available
  have codes : guessed.map (fun exchange => exchange.response.statusCode) = [401, 401, 429, 200] := by
    decide +kernel
  have answers : guessed.map (fun exchange => exchange.response.rateLimited) = [false, false, true, false] := by
    decide +kernel
  have long : 2 < guessed.length := by
    rw [← List.length_map, codes]
    decide
  have limited : guessed[2].response.rateLimited := by
    have third : (guessed.map fun exchange => exchange.response.rateLimited)[2]? = some true := by rw [answers]; rfl
    rw [List.getElem?_map, List.getElem?_eq_getElem long] at third
    exact Option.some.inj third
  have split : guessed = guessed.take 2 ++ guessed[2] :: guessed.drop 3 := by
    rw [← List.drop_eq_getElem_cons long, List.take_append_drop]
  exact ⟨codes, (bounded _ _).2 0, guessed[2], List.getElem?_eq_getElem long, refused _ _ _ split limited⟩

end Samples
end LedgerLens
