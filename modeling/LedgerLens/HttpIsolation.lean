import LedgerLens.HttpApi
import LedgerLens.ImportReports
import LedgerLens.OwnerIsolation

namespace LedgerLens

section Counters
variable {now : ℚ} {key : String} {expiresIn : Int} {store other : Redis.Store Int}

theorem fixedWindowScript_other {elsewhere : String} (different : elsewhere ≠ key) :
    (fixedWindowScript now key expiresIn store).2 elsewhere = store elsewhere := by
  simp only [fixedWindowScript]
  split
  · rw [Redis.expire_other different, Redis.incr_other different]
  · exact Redis.incr_other different store

/-- The script reads and writes its own key only. -/
theorem fixedWindowScript_congr (now : ℚ) (expiresIn : Int) (same : store key = other key) :
    (fixedWindowScript now key expiresIn store).1 = (fixedWindowScript now key expiresIn other).1 ∧
      (fixedWindowScript now key expiresIn store).2 key = (fixedWindowScript now key expiresIn other).2 key := by
  have current : (Redis.incr store key).1 = (Redis.incr other key).1 := by simp only [Redis.incr, Redis.get, same]
  have entry : (Redis.incr store key).2 key = (Redis.incr other key).2 key := by
    simp only [Redis.incr, Redis.get, same, Function.update_self]
  have expired : (Redis.expire now (Redis.incr store key).2 key expiresIn) key =
      (Redis.expire now (Redis.incr other key).2 key expiresIn) key := by
    simp only [Redis.expire, entry]
    cases found : (Redis.incr other key).2 key with
    | none => exact entry
    | some counter => simp only [Function.update_self]
  simp only [fixedWindowScript, current]
  split
  · exact ⟨by simp only [Redis.ttl, expired], expired⟩
  · exact ⟨by simp only [Redis.ttl, entry], entry⟩

end Counters

/-- From an instant on, two stores hold the same under a key. -/
def SameFrom (now : ℚ) (key : String) (store other : Redis.Store Int) : Prop :=
  ∀ later, now ≤ later → Redis.advance later store key = Redis.advance later other key

namespace RateLimiter
variable {limiter : RateLimiter} {now : ℚ} {rule : RateLimitRule} {identifier key : String}
  {store other : Redis.Store Int}

/-- A call leaves the counters alone that are not its own. -/
theorem enforce_other (store : Redis.Store Int) (different : key ≠ limiter.key rule (bucket rule now) identifier) :
    SameFrom now key (limiter.enforce now rule identifier store).2 store := by
  intro later order
  have untouched : (limiter.enforce now rule identifier store).2 key = Redis.advance now store key :=
    fixedWindowScript_other different
  rw [Redis.advance_congr untouched, Redis.advance_advance order]

/-- A call is answered from its own counter. -/
theorem enforce_congr (same : SameFrom now (limiter.key rule (bucket rule now) identifier) store other) :
    (limiter.enforce now rule identifier store).1 = (limiter.enforce now rule identifier other).1 ∧
      SameFrom now (limiter.key rule (bucket rule now) identifier) (limiter.enforce now rule identifier store).2
        (limiter.enforce now rule identifier other).2 := by
  obtain ⟨reply, entry⟩ := fixedWindowScript_congr now (expiresIn rule now) (same now le_rfl)
  refine ⟨?_, fun later _ => Redis.advance_congr entry later⟩
  simp only [enforce, reply]

end RateLimiter

namespace HttpApi
variable {σ F : Type} (api : HttpApi σ)

/-- The user that a header speaks for. -/
def principal (now : ℚ) (authorization : Option (String × String)) : Option UUID :=
  match authorization with
  | none => none
  | some (scheme, credentials) =>
    if api.lower scheme ≠ "bearer" then none else api.accessTokenService.verify now credentials

/-- The user that a request speaks for. -/
def requestPrincipal (request : HttpRequest F σ) : Option UUID :=
  match request.route with
  | .user authorization _ => api.principal request.now authorization
  | _ => none

theorem currentUser_eq (now : ℚ) (authorization : Option (String × String)) (users : UserTable) :
    api.currentUser now authorization users = (api.principal now authorization).bind users.get := by
  unfold currentUser principal AuthenticationService.authenticate
  cases authorization with
  | none => rfl
  | some header =>
    dsimp only
    split
    · rfl
    · rfl

section Limits
variable {api} {now : ℚ} {write : Write} {rule : RateLimitRule} {identifier : String} {counters : Redis.Store Int}

/-- What is limited fails on its own, or goes on; nothing but the counters has changed by then. -/
theorem limited_cases (api : HttpApi σ) (now : ℚ) (write : Write) (rule : RateLimitRule) (identifier : String)
    (world : HttpWorld F) (handler : HttpWorld F → (HttpResponse F × List (OutsideCall F)) × HttpWorld F) :
    let enforced := api.enforce now write rule identifier world.counters
    (∃ raised, enforced.1 = .error raised ∧ api.limited now write rule identifier world handler =
        ((.failure raised, []), { world with counters := enforced.2 })) ∨
      enforced.1 = .ok () ∧ api.limited now write rule identifier world handler =
        handler { world with counters := enforced.2 } := by
  unfold limited
  rcases api.enforce now write rule identifier world.counters with ⟨raised | _, after⟩
  · exact .inl ⟨raised, rfl, rfl⟩
  · exact .inr ⟨rfl, rfl⟩

/-- Keys that the limiter, if there is one, does not use for a rule and an identifier. -/
theorem enforce_other {key : String}
    (different : ∀ limiter ∈ api.rateLimiter, key ≠ limiter.key rule (RateLimiter.bucket rule now) identifier) :
    SameFrom now key (api.enforce now write rule identifier counters).2 counters := by
  unfold enforce
  cases wired : api.rateLimiter with
  | none => exact fun _ _ => rfl
  | some limiter =>
    have untouched : SameFrom now key (limiter.enforce now rule identifier counters).2 counters :=
      RateLimiter.enforce_other counters (different limiter wired)
    cases write with
    | stored => exact untouched
    | failed reached =>
      cases reached with
      | true => exact untouched
      | false => exact fun _ _ => rfl

end Limits

/-- The counters of a user. -/
def Counts (user : UUID) (key : String) : Prop :=
  ∃ limiter ∈ api.rateLimiter, ∃ rule bucket, key = limiter.key rule bucket ("user:" ++ user.str)

/-- Two worlds that a user cannot tell apart from an instant on. -/
structure Alike (user : UUID) (now : ℚ) (world other : HttpWorld F) : Prop where
  account : world.users.get user = other.users.get user
  view : world.store.viewOf user = other.store.viewOf user
  counters : ∀ key, api.Counts user key → SameFrom now key world.counters other.counters

section Alike
variable {api} {user : UUID} {now later : ℚ} {world other third : HttpWorld F} {rule : RateLimitRule}

theorem Alike.refl (user : UUID) (now : ℚ) (world : HttpWorld F) : Alike api user now world world :=
  ⟨rfl, rfl, fun _ _ _ _ => rfl⟩

theorem Alike.trans (first : Alike api user now world other) (second : Alike api user now other third) :
    Alike api user now world third :=
  ⟨first.account.trans second.account, first.view.trans second.view, fun key own later order =>
    (first.counters key own later order).trans (second.counters key own later order)⟩

theorem Alike.mono (alike : Alike api user now world other) (order : now ≤ later) : Alike api user later world other :=
  ⟨alike.account, alike.view, fun key own latest after => alike.counters key own latest (order.trans after)⟩

/-- A limit with another identifier has nothing to do with the user. -/
theorem limited_alike {write : Write} {identifier : String}
    (foreign : ∀ limiter ∈ api.rateLimiter, ∀ rule' bucket bucket',
      limiter.key rule' bucket ("user:" ++ user.str) ≠ limiter.key rule bucket' identifier)
    {handler : HttpWorld F → (HttpResponse F × List (OutsideCall F)) × HttpWorld F}
    (within : ∀ world, Alike api user now (handler world).2 world) (world : HttpWorld F) :
    Alike api user now (api.limited now write rule identifier world handler).2 world := by
  have counted : Alike api user now
      { world with counters := (api.enforce now write rule identifier world.counters).2 } world := by
    refine ⟨rfl, rfl, ?_⟩
    rintro key ⟨limiter, wired, rule', bucket, rfl⟩
    refine enforce_other fun limiter' wired' => ?_
    cases Option.some.inj (wired.symm.trans wired')
    exact foreign limiter wired rule' bucket _
  rcases limited_cases api now write rule identifier world handler with ⟨raised, _, ends⟩ | ⟨_, goes⟩
  · rw [ends]
    exact counted
  · rw [goes]
    exact (within _).trans counted

/-- The limit of a user is the same in worlds that are alike for the user. -/
theorem enforce_alike (alike : Alike api user now world other) (write : Write) (rule : RateLimitRule) :
    let enforced := api.enforce now write rule ("user:" ++ user.str) world.counters
    let enforced' := api.enforce now write rule ("user:" ++ user.str) other.counters
    enforced.1 = enforced'.1 ∧
      Alike api user now { world with counters := enforced.2 } { other with counters := enforced'.2 } := by
  unfold enforce
  cases wired : api.rateLimiter with
  | none => exact ⟨rfl, alike⟩
  | some limiter =>
    have own (rule : RateLimitRule) (bucket : Int) :
        api.Counts user (limiter.key rule bucket ("user:" ++ user.str)) := ⟨limiter, wired, rule, bucket, rfl⟩
    obtain ⟨answer, counter⟩ := RateLimiter.enforce_congr
      (alike.counters _ (own rule (RateLimiter.bucket rule now)))
    have counted : Alike api user now
        { world with counters := (limiter.enforce now rule ("user:" ++ user.str) world.counters).2 }
        { other with counters := (limiter.enforce now rule ("user:" ++ user.str) other.counters).2 } := by
      refine ⟨alike.account, alike.view, fun key mine => ?_⟩
      by_cases same : key = limiter.key rule (RateLimiter.bucket rule now) ("user:" ++ user.str)
      · rw [same]
        exact counter
      · intro later order
        have left := RateLimiter.enforce_other world.counters same later order
        have right := RateLimiter.enforce_other other.counters same later order
        exact left.trans ((alike.counters key mine later order).trans right.symm)
    cases write with
    | stored =>
      exact ⟨congrArg (Except.mapError fun exceeded => HttpError.rateLimitExceeded exceeded.retryAfterSeconds) answer,
        counted⟩
    | failed reached =>
      cases reached with
      | true => exact ⟨rfl, counted⟩
      | false => exact ⟨rfl, alike⟩

/-- A handler under the limit of a user, in worlds that are alike for the user. -/
theorem limited_consistent (alike : Alike api user now world other) (write : Write) (rule : RateLimitRule)
    {handler : HttpWorld F → (HttpResponse F × List (OutsideCall F)) × HttpWorld F}
    (within : ∀ counters counters', Alike api user now { world with counters := counters }
      { other with counters := counters' } →
        (handler { world with counters := counters }).1 = (handler { other with counters := counters' }).1 ∧
          Alike api user now (handler { world with counters := counters }).2
            (handler { other with counters := counters' }).2) :
    (api.limited now write rule ("user:" ++ user.str) world handler).1 =
        (api.limited now write rule ("user:" ++ user.str) other handler).1 ∧
      Alike api user now (api.limited now write rule ("user:" ++ user.str) world handler).2
        (api.limited now write rule ("user:" ++ user.str) other handler).2 := by
  obtain ⟨answer, counted⟩ := enforce_alike alike write rule
  unfold limited
  generalize api.enforce now write rule ("user:" ++ user.str) world.counters = left at answer counted ⊢
  generalize api.enforce now write rule ("user:" ++ user.str) other.counters = right at answer counted ⊢
  rcases left with ⟨raised | _, after⟩ <;> rcases right with ⟨raised' | _, after'⟩
  · cases Except.error.inj answer
    exact ⟨rfl, counted⟩
  · cases answer
  · cases answer
  · exact within after after' counted

end Alike

/-- The account that a request would create. -/
def newUserId (request : HttpRequest F σ) : Option UUID :=
  match request.route with
  | .register _ _ _ userId => some userId
  | _ => none

/-- The portfolio that a request would create. -/
def newPortfolioId (request : HttpRequest F σ) : Option UUID :=
  match request.route with
  | .user _ (.valid call) => call.newPortfolioId
  | _ => none

section Others
variable {api} {user : UUID} {now : ℚ} {world : HttpWorld F} {request : HttpRequest F σ}

theorem ip_ne_user (address text : String) : "user:" ++ text ≠ "ip:" ++ address := by
  intro same
  have first := congrArg (fun s => s.toList.head?) same
  simp [String.toList_append] at first

theorem email_ne_user (address text : String) : "user:" ++ text ≠ "email:" ++ address := by
  intro same
  have first := congrArg (fun s => s.toList.head?) same
  simp [String.toList_append] at first

variable (injective : ∀ limiter ∈ api.rateLimiter, Function.Injective limiter.hmac)
include injective

theorem key_ne {identifier identifier' : String} (different : identifier' ≠ identifier) {rule : RateLimitRule} :
    ∀ limiter ∈ api.rateLimiter, ∀ rule' bucket bucket',
      limiter.key rule' bucket identifier' ≠ limiter.key rule bucket' identifier :=
  fun limiter wired _ _ _ same => different (RateLimiter.key_inj (injective limiter wired) same).2.2

/-- A registration of somebody else. -/
theorem register_alike {client : HttpClient} {payload : Option Credentials} {salt : σ} {userId : UUID}
    (other : userId ≠ user) (world : HttpWorld F) :
    Alike api user request.now (api.register request client payload salt userId world).2 world := by
  unfold register
  cases payload with
  | none => exact .refl ..
  | some payload =>
    refine limited_alike (key_ne injective (ip_ne_user _ _)) (fun world => ?_) world
    have account := AuthenticationService.register_get api.lower api.passwordHash
      ⟨payload.email, payload.password, salt, userId⟩ world.users other.symm
    split
    · next raised users outcome =>
      rw [outcome] at account
      exact ⟨account, rfl, fun _ _ _ _ => rfl⟩
    · next registered users outcome =>
      rw [outcome] at account
      exact ⟨account, rfl, fun _ _ _ _ => rfl⟩

theorem login_alike {client : HttpClient} {payload : Option Credentials} (world : HttpWorld F) :
    Alike api user request.now (api.login request client payload world).2 world := by
  unfold login
  cases payload with
  | none => exact .refl ..
  | some payload =>
    refine limited_alike (key_ne injective (ip_ne_user _ _)) (fun world => ?_) world
    refine limited_alike (key_ne injective (email_ne_user _ _)) (fun world => ?_) world
    split <;> exact .refl ..

end Others

section Users
variable {api} {user : UUID} {now : ℚ} {world other : HttpWorld F} [UnicodeDatabase] [FloatArithmetic F]

/-- A service called for somebody else. -/
theorem callService_alike {account : User} (foreign : account.id ≠ user) (call : Request F) (world : HttpWorld F) :
    Alike api user now (api.callService account call world).2 world := by
  have view : (answer api.ctx api.wiring ⟨account.id, call⟩ world.store).2.viewOf user = world.store.viewOf user :=
    answer_respects api.ctx api.wiring foreign world.store
  exact ⟨rfl, view, fun _ _ _ _ => rfl⟩

/-- A service called for the user gives one answer in worlds that the user cannot tell apart. -/
theorem callService_consistent {account : User} (alike : Alike api account.id now world other) {call : Request F}
    (left : DrawsUnused ⟨account.id, call⟩ world.store) (right : DrawsUnused ⟨account.id, call⟩ other.store) :
    (api.callService account call world).1 = (api.callService account call other).1 ∧
      Alike api account.id now (api.callService account call world).2 (api.callService account call other).2 := by
  obtain ⟨answers, views⟩ : (answer api.ctx api.wiring ⟨account.id, call⟩ world.store).1 =
      (answer api.ctx api.wiring ⟨account.id, call⟩ other.store).1 ∧ _ :=
    answer_consistent api.ctx api.wiring alike.view left right
  obtain ⟨results, outside⟩ := Prod.mk.inj answers
  exact ⟨Prod.ext (congrArg call.respond results) outside, alike.account, views, alike.counters⟩

theorem dispatch_alike {account : User} (foreign : account.id ≠ user) (content : UserContent F)
    (world : HttpWorld F) : Alike api user now (api.dispatch content account world).2 world := by
  cases content with
  | unreadable => exact .refl ..
  | invalid limit => exact .refl ..
  | valid call => exact callService_alike foreign call world

/-- The portfolio that a call among the contents would create is not there yet. -/
def DrawsUnused (content : UserContent F) (account : User) (store : Store F) : Prop :=
  ∀ call, content = .valid call → LedgerLens.DrawsUnused ⟨account.id, call⟩ store

theorem dispatch_consistent {account : User} (alike : Alike api account.id now world other) {content : UserContent F}
    (left : DrawsUnused content account world.store) (right : DrawsUnused content account other.store) :
    (api.dispatch content account world).1 = (api.dispatch content account other).1 ∧
      Alike api account.id now (api.dispatch content account world).2 (api.dispatch content account other).2 := by
  cases content with
  | unreadable => exact ⟨rfl, alike⟩
  | invalid limit => exact ⟨rfl, alike⟩
  | valid call => exact callService_consistent alike (left call rfl) (right call rfl)

/-- A route for users leaves everybody else alone. -/
theorem handleUser_alike (injective : ∀ limiter ∈ api.rateLimiter, Function.Injective limiter.hmac)
    {request : HttpRequest F σ} {authorization : Option (String × String)} {content : UserContent F}
    (foreign : api.principal request.now authorization ≠ some user) (fits : user.Fits)
    (accounts : ∀ id account, world.users.get id = some account → id.Fits) :
    Alike api user request.now (api.handleUser request authorization content world).2 world := by
  unfold handleUser
  rw [currentUser_eq]
  cases content.limit with
  | none => exact .refl ..
  | some limit =>
    cases speaker : api.principal request.now authorization with
    | none => exact .refl ..
    | some id =>
      cases found : world.users.get id with
      | none =>
        simp only [Option.bind_some, found]
        exact .refl ..
      | some account =>
        have own : account.id = id := world.users.keyed id account found
        have other : account.id ≠ user := fun same => foreign (speaker.trans (congrArg some (own.symm.trans same)))
        have different : "user:" ++ user.str ≠ "user:" ++ account.id.str := by
          intro same
          have texts : user.str = account.id.str := by
            have chars := congrArg String.toList same
            rw [String.toList_append, String.toList_append] at chars
            exact String.toList_inj.mp (List.append_cancel_left chars)
          exact other (UUID.str_inj fits (own ▸ accounts id account found) texts).symm
        simp only [Option.bind_some, found]
        exact limited_alike (key_ne injective different) (dispatch_alike other content) world

/-- A route for users gives the user one answer in worlds that the user cannot tell apart. -/
theorem handleUser_consistent {request : HttpRequest F σ} {authorization : Option (String × String)}
    {content : UserContent F} (own : api.principal request.now authorization = some user)
    (alike : Alike api user request.now world other)
    (left : ∀ account : User, account.id = user → DrawsUnused content account world.store)
    (right : ∀ account : User, account.id = user → DrawsUnused content account other.store) :
    (api.handleUser request authorization content world).1 = (api.handleUser request authorization content other).1 ∧
      Alike api user request.now (api.handleUser request authorization content world).2
        (api.handleUser request authorization content other).2 := by
  unfold handleUser
  rw [currentUser_eq, currentUser_eq, own]
  cases content.limit with
  | none => exact ⟨rfl, alike⟩
  | some limit =>
    simp only [Option.bind_some]
    rw [← alike.account]
    cases found : world.users.get user with
    | none => exact ⟨rfl, alike⟩
    | some account =>
      have same : account.id = user := world.users.keyed user account found
      subst same
      exact limited_consistent alike (request.scripts 0) (api.policies.userRule limit) fun counters counters' counted =>
        dispatch_consistent counted (left account rfl) (right account rfl)

/-- What holds of the world whatever the counters say holds on, when every registration and every call of a service
that a request can come to keeps it. -/
theorem handle_keeps {P : HttpWorld F → Prop} {request : HttpRequest F σ}
    (counted : ∀ world counters, P world → P { world with counters := counters })
    (registered : ∀ call : Registration σ, newUserId request = some call.userId → ∀ world, P world →
      P { world with users := (AuthenticationService.register api.lower api.passwordHash call world.users).2 })
    (served : ∀ (account : User) (call : Request F) (authorization : Option (String × String)),
      request.route = .user authorization (.valid call) → ∀ world, P world →
        P { world with store := (answer api.ctx api.wiring ⟨account.id, call⟩ world.store).2 })
    (holds : P world) : P (api.handle request world).2 := by
  have within (write : Write) (rule : RateLimitRule) (identifier : String) (world : HttpWorld F)
      (handler : HttpWorld F → (HttpResponse F × List (OutsideCall F)) × HttpWorld F)
      (kept : ∀ world, P world → P (handler world).2) (holds : P world) :
      P (api.limited request.now write rule identifier world handler).2 := by
    rcases limited_cases api request.now write rule identifier world handler with ⟨raised, _, ends⟩ | ⟨_, goes⟩
    · rw [ends]
      exact counted _ _ holds
    · rw [goes]
      exact kept _ (counted _ _ holds)
  unfold handle
  cases route : request.route with
  | health => exact holds
  | register client payload salt userId =>
    simp only [register]
    cases payload with
    | none => exact holds
    | some payload =>
      refine within _ _ _ _ _ (fun world holds => ?_) holds
      have kept := registered ⟨payload.email, payload.password, salt, userId⟩ (by rw [newUserId, route]) world holds
      split
      · next raised users outcome =>
        rw [outcome] at kept
        exact kept
      · next account users outcome =>
        rw [outcome] at kept
        exact kept
  | login client payload =>
    simp only [login]
    cases payload with
    | none => exact holds
    | some payload =>
      refine within _ _ _ _ _ (fun world holds => ?_) holds
      refine within _ _ _ _ _ (fun world holds => ?_) holds
      split <;> exact holds
  | user authorization content =>
    simp only [handleUser]
    split
    · exact holds
    · split
      · exact holds
      · next account _ =>
        refine within _ _ _ _ _ (fun world holds => ?_) holds
        cases content with
        | unreadable => exact holds
        | invalid limit => exact holds
        | valid call => exact served account call authorization route world holds

end Users

section Runs
variable [UnicodeDatabase] [FloatArithmetic F]

/-- The application as a machine; a request is observed with the outside calls made for it. -/
def application : Machine (Option UUID) (HttpWorld F) (HttpRequest F σ) (HttpResponse F × List (OutsideCall F)) where
  owner := api.requestPrincipal
  step := api.handle

/-- Requests in the order of time; ids of 128 bits, and those drawn are new. -/
structure Admissible (user : UUID) (requests : List (HttpRequest F σ)) (world : HttpWorld F) : Prop where
  ordered : requests.Pairwise fun a b => a.now ≤ b.now
  distinct : (requests.filterMap newPortfolioId).Nodup
  unused : ∀ request ∈ requests, ∀ id ∈ newPortfolioId request, world.store.Unused id
  accounts : ∀ id account, world.users.get id = some account → id.Fits
  newAccounts : ∀ request ∈ requests, ∀ id ∈ newUserId request, id ≠ user ∧ id.Fits

variable {api} {user : UUID} {request : HttpRequest F σ} {rest : List (HttpRequest F σ)} {world other : HttpWorld F}

theorem Admissible.tail (admissible : Admissible user (request :: rest) world) :
    Admissible user rest (api.handle request world).2 where
  ordered := (List.pairwise_cons.mp admissible.ordered).2
  distinct := admissible.distinct.sublist ((List.sublist_cons_self request rest).filterMap _)
  unused := by
    intro later member id drawn
    refine handle_keeps (P := fun world => world.store.Unused id) (fun _ _ unused => unused)
      (fun _ _ _ unused => unused) (fun account call authorization route world unused => ?_)
      (admissible.unused later (List.mem_cons_of_mem _ member) id drawn)
    refine answer_unused api.ctx api.wiring unused fun same => ?_
    have first : newPortfolioId request = some id := by rw [newPortfolioId, route]; exact same
    have distinct := admissible.distinct
    rw [List.filterMap_cons, first] at distinct
    exact (List.nodup_cons.mp distinct).1 (List.mem_filterMap.mpr ⟨later, member, drawn⟩)
  accounts := by
    refine handle_keeps (P := fun world => ∀ id account, world.users.get id = some account → id.Fits)
      (fun _ _ fits => fits) (fun call new world fits id account found => ?_) (fun _ _ _ _ _ fits => fits)
      admissible.accounts
    by_cases own : id = call.userId
    · rw [own]
      exact (admissible.newAccounts request List.mem_cons_self _ new).2
    · simp only [AuthenticationService.register_get api.lower api.passwordHash call world.users own] at found
      exact fits id account found
  newAccounts := fun later member => admissible.newAccounts later (List.mem_cons_of_mem _ member)

/-- Requests that do not speak for the user leave the user's things alone. -/
theorem handle_alike (injective : ∀ limiter ∈ api.rateLimiter, Function.Injective limiter.hmac) (fits : user.Fits)
    (admissible : Admissible user (request :: rest) world) (foreign : api.requestPrincipal request ≠ some user) :
    Alike api user request.now (api.handle request world).2 world := by
  unfold handle
  cases route : request.route with
  | health => exact .refl ..
  | register client payload salt userId =>
    have new : newUserId request = some userId := by rw [newUserId, route]
    exact register_alike injective (admissible.newAccounts request List.mem_cons_self userId new).1 world
  | login client payload => exact login_alike injective world
  | user authorization content =>
    rw [requestPrincipal, route] at foreign
    exact handleUser_alike injective foreign fits admissible.accounts

/-- A request that speaks for the user gets one answer in worlds that the user cannot tell apart. -/
theorem handle_consistent {rest' : List (HttpRequest F σ)} (own : api.requestPrincipal request = some user)
    (left : Admissible user (request :: rest) world) (right : Admissible user (request :: rest') other)
    (alike : Alike api user request.now world other) :
    (api.handle request world).1 = (api.handle request other).1 ∧
      Alike api user request.now (api.handle request world).2 (api.handle request other).2 := by
  unfold handle
  cases route : request.route with
  | user authorization content =>
    rw [requestPrincipal, route] at own
    have drawn {requests : List (HttpRequest F σ)} {world : HttpWorld F}
        (admissible : Admissible user (request :: requests) world) (account : User) (_ : account.id = user) :
        DrawsUnused content account world.store := by
      rintro call rfl id drawn
      refine admissible.unused request List.mem_cons_self id ?_
      rw [newPortfolioId, route]
      exact drawn
    exact handleUser_consistent own alike (drawn left) (drawn right)
  | _ =>
    rw [requestPrincipal, route] at own
    cases own

/-- Two runs that a user cannot tell apart so far, the second with the user's own requests ahead only. -/
def Indistinct (api : HttpApi σ) (user : UUID) (requests : List (HttpRequest F σ)) (world other : HttpWorld F) : Prop :=
  Admissible user requests world ∧ Admissible user ((application api).own (some user) requests) other ∧
    ∃ since, (∀ request ∈ requests, since ≤ request.now) ∧ Alike api user since world other

theorem purge_application (injective : ∀ limiter ∈ api.rateLimiter, Function.Injective limiter.hmac)
    (fits : user.Fits) :
    Machine.Purge (application (F := F) api) (some user) (Indistinct api user) where
  other := by
    rintro request rest world other foreign ⟨left, right, since, from_, alike⟩
    have dropped : (application (F := F) api).own (some user) (request :: rest) =
        (application api).own (some user) rest := by
      rw [Machine.own, List.filter_cons_of_neg (by simpa using foreign), Machine.own]
    rw [dropped] at right
    refine ⟨left.tail, right, request.now, (List.pairwise_cons.mp left.ordered).1, ?_⟩
    exact (handle_alike injective fits left foreign).trans (alike.mono (from_ request List.mem_cons_self))
  own := by
    rintro request rest world other own ⟨left, right, since, from_, alike⟩
    have kept : (application (F := F) api).own (some user) (request :: rest) =
        request :: (application api).own (some user) rest := by
      rw [Machine.own, List.filter_cons_of_pos (by simpa using own), Machine.own]
    rw [kept] at right
    obtain ⟨answer, next⟩ := handle_consistent own left right (alike.mono (from_ request List.mem_cons_self))
    exact ⟨answer, left.tail, right.tail, request.now, (List.pairwise_cons.mp left.ordered).1, next⟩

end Runs
end HttpApi

/-- What a user is answered, and what is asked of the outside for it, does not depend on the requests of anybody
else, registrations and logins included: the run without them is answered the same. -/
theorem http_isolation {σ F : Type} [UnicodeDatabase] [FloatArithmetic F] {api : HttpApi σ}
    (injective : ∀ limiter ∈ api.rateLimiter, Function.Injective limiter.hmac) {user : UUID} (fits : user.Fits)
    {requests : List (HttpRequest F σ)} {world other : HttpWorld F}
    (left : HttpApi.Admissible user requests world)
    (right : HttpApi.Admissible user (api.application.own (some user) requests) other) {since : ℚ}
    (ahead : ∀ request ∈ requests, since ≤ request.now) (alike : HttpApi.Alike api user since world other) :
    api.application.observations (some user) requests world =
      api.application.observations (some user) (api.application.own (some user) requests) other :=
  (HttpApi.purge_application injective fits).observations_own ⟨left, right, since, ahead, alike⟩

section Samples

attribute [local instance] Text.asciiDatabase FloatArithmetic.rational

def loweredAscii (text : String) : String := String.ofList (text.toList.map Char.toLower)

/-- Passwords are kept as they are. -/
def plainPasswords : PasswordHash Unit where
  hash password _ := password
  verify password hash := some (password = hash)

/-- A token is the name of its user. -/
def namedTokens : AccessTokenService where
  expiresInSeconds := 1800
  issue _ userId := if userId = ⟨1⟩ then "alice" else "bob"
  verify _ token := if token = "alice" then some ⟨1⟩ else if token = "bob" then some ⟨2⟩ else none

def sampleApi : HttpApi Unit where
  ctx := .exact
  wiring := depositWiring
  lower := loweredAscii
  passwordHash := plainPasswords
  accessTokenService := namedTokens
  rateLimiter := some sampleLimiter
  policies := .default
  trustProxyHeaders := false
  ipAddress := some

def sampleAccounts : UserTable :=
  let alice : Registration Unit := ⟨"alice@example.com", "correct horse", (), ⟨1⟩⟩
  let bob : Registration Unit := ⟨"bob@example.com", "battery staple", (), ⟨2⟩⟩
  (AuthenticationService.register loweredAscii plainPasswords bob
    (AuthenticationService.register loweredAscii plainPasswords alice .empty).2).2

def sampleHttpWorld : HttpWorld ℚ := ⟨sampleAccounts, {}, .empty⟩

def bearing (now : ℚ) (token : String) (call : Request ℚ) : HttpRequest ℚ Unit :=
  ⟨now, fun _ => .stored, .user (some ("bearer", token)) (.valid call)⟩

/-- Two users at work, and a registration in between. -/
def sampleHttpRequests : List (HttpRequest ℚ Unit) :=
  [bearing 0 "alice" (.createPortfolio "Growth" "USD" ⟨7⟩),
    bearing 1 "bob" (.createPortfolio "Income" "EUR" ⟨8⟩),
    ⟨2, fun _ => .stored, .register ⟨none, none⟩ (some ⟨"carol@example.com", "tr0ub4dor and 3"⟩) () ⟨3⟩⟩,
    bearing 3 "alice" (.listPortfolios 20 0)]

theorem sampleHttp_admissible {requests : List (HttpRequest ℚ Unit)} (part : requests.Sublist sampleHttpRequests) :
    HttpApi.Admissible ⟨1⟩ requests sampleHttpWorld where
  ordered := by
    have whole : sampleHttpRequests.Pairwise fun a b => a.now ≤ b.now := by
      simp only [sampleHttpRequests, bearing, List.pairwise_cons]
      norm_num
    exact whole.sublist part
  distinct := by
    have whole : (sampleHttpRequests.filterMap HttpApi.newPortfolioId).Nodup := by decide
    exact whole.sublist (part.filterMap _)
  unused _ _ _ _ :=
    ⟨rfl, fun _ member => absurd member List.not_mem_nil, fun _ member => absurd member List.not_mem_nil⟩
  accounts := by
    have whole : sampleAccounts.users.entries.all fun entry => entry.1.Fits := by decide +kernel
    intro id account found
    simpa using List.all_eq_true.mp whole _ (Dict.get?_eq_some.mp found)
  newAccounts := by
    have whole : (sampleHttpRequests.filterMap HttpApi.newUserId).all fun id => id ≠ ⟨1⟩ ∧ id.Fits := by decide
    intro request member id drawn
    simpa using List.all_eq_true.mp whole id (List.mem_filterMap.mpr ⟨request, part.subset member, drawn⟩)

theorem sample_http_isolation :
    sampleApi.application.observations (some ⟨1⟩) sampleHttpRequests sampleHttpWorld =
      sampleApi.application.observations (some ⟨1⟩)
        [bearing 0 "alice" (.createPortfolio "Growth" "USD" ⟨7⟩), bearing 3 "alice" (.listPortfolios 20 0)]
        sampleHttpWorld := by
  have injective : ∀ limiter ∈ sampleApi.rateLimiter, Function.Injective limiter.hmac := by
    rintro _ ⟨⟩
    exact sampleLimiter_injective
  have speakers : sampleHttpRequests.map sampleApi.requestPrincipal = [some ⟨1⟩, some ⟨2⟩, none, some ⟨1⟩] := by
    decide +kernel
  have ahead : ∀ request ∈ sampleHttpRequests, (0 : ℚ) ≤ request.now := by
    simp only [sampleHttpRequests, bearing, List.forall_mem_cons]
    norm_num
  have isolated := http_isolation injective (by decide) (sampleHttp_admissible (List.Sublist.refl _))
    (sampleHttp_admissible List.filter_sublist) ahead (.refl ..)
  simp only [sampleHttpRequests, List.map_cons, List.map_nil, List.cons.injEq] at speakers
  obtain ⟨first, second, third, fourth, _⟩ := speakers
  rw [isolated]
  simp [Machine.own, HttpApi.application, sampleHttpRequests, first, second, third, fourth]

end Samples
end LedgerLens
