import LedgerLens.Authentication
import LedgerLens.CachedMarketData
import LedgerLens.RateLimit
import LedgerLens.Requests

namespace LedgerLens
open Decimal (Context)

/-- `RateLimitPolicies` -/
structure RateLimitPolicies where
  registrationIp : RateLimitRule
  loginIp : RateLimitRule
  loginEmail : RateLimitRule
  analyticsUser : RateLimitRule
  insightsUser : RateLimitRule
  authenticatedUser : RateLimitRule

/-- `RateLimitRule(...)`, where `__post_init__` does not raise. -/
def RateLimitRule.ofValues (scope : String) (limit windowSeconds : Int) : Option RateLimitRule :=
  if valid : scope ≠ "" ∧ 1 ≤ limit ∧ 1 ≤ windowSeconds then
    some ⟨scope, limit, windowSeconds, valid.1, valid.2.1, valid.2.2⟩
  else none

/-- The policies that are in force unless others are configured. -/
def RateLimitPolicies.default : RateLimitPolicies where
  registrationIp := (RateLimitRule.ofValues "registration_ip" 5 600).get (by decide)
  loginIp := (RateLimitRule.ofValues "login_ip" 10 600).get (by decide)
  loginEmail := (RateLimitRule.ofValues "login_email" 5 600).get (by decide)
  analyticsUser := (RateLimitRule.ofValues "analytics_user" 20 60).get (by decide)
  insightsUser := (RateLimitRule.ofValues "insights_user" 10 60).get (by decide)
  authenticatedUser := (RateLimitRule.ofValues "authenticated_user" 120 60).get (by decide)

/-- What the application is wired with. The last one is `ip_address(...).compressed`, which is nothing for a text
that is no address. -/
structure HttpApi (σ : Type) where
  ctx : Context
  wiring : Wiring
  lower : String → String
  passwordHash : PasswordHash σ
  accessTokenService : AccessTokenService
  rateLimiter : Option RateLimiter
  policies : RateLimitPolicies
  trustProxyHeaders : Bool
  ipAddress : String → Option String

/-- What the application keeps. -/
structure HttpWorld (F : Type) where
  users : UserTable
  store : Store F
  counters : Redis.Store Int

/-- The client of a connection, with its `x-forwarded-for` header. -/
structure HttpClient where
  host : Option String
  forwardedFor : Option String

/-- The routes for a user, by the limits they share. -/
inductive UserLimit where
  | standard
  | analytics
  | insights
  deriving DecidableEq

def RateLimitPolicies.userRule (policies : RateLimitPolicies) : UserLimit → RateLimitRule
  | .standard => policies.authenticatedUser
  | .analytics => policies.analyticsUser
  | .insights => policies.insightsUser

/-- The dependency of the route that a request is for. -/
def Request.userLimit {F : Type} : Request F → UserLimit
  | .createPortfolio .. | .getPortfolio _ | .listPortfolios .. | .createTransaction .. | .listTransactions _
  | .previewImport .. | .commitImport .. => .standard
  | .analyze .. => .analytics
  | .generateInsight .. | .listSnapshots .. => .insights

/-- What can be made of a request to a route for users: its body is no JSON, its values do not pass validation,
or it is a call of a service. -/
inductive UserContent (F : Type) where
  | unreadable
  | invalid (limit : UserLimit)
  | valid (request : Request F)

/-- The limit that a request counts against, if its body can be read. -/
def UserContent.limit {F : Type} : UserContent F → Option UserLimit
  | .unreadable => none
  | .invalid limit => some limit
  | .valid request => some request.userLimit

/-- Email and password of a payload. -/
structure Credentials where
  email : String
  password : String

/-- A request by its route. A payload that does not pass validation is `none`; the `Authorization` header is there
by scheme and credentials. -/
inductive HttpRoute (F σ : Type) where
  | health
  | register (client : HttpClient) (payload : Option Credentials) (salt : σ) (userId : UUID)
  | login (client : HttpClient) (payload : Option Credentials)
  | user (authorization : Option (String × String)) (content : UserContent F)

/-- A request with the time it is handled at and the way that the calls of the rate-limit script end. -/
structure HttpRequest (F σ : Type) where
  now : ℚ
  scripts : Nat → Write
  route : HttpRoute F σ

/-- What a handler raises. -/
inductive HttpError where
  | application (raised : Error)
  | authentication
  | emailAlreadyRegistered (email : String)
  | rateLimitExceeded (retryAfterSeconds : Int)
  | requestValidation
  deriving DecidableEq

/-- The body of a response that is no error. -/
inductive HttpBody (F : Type) where
  | health
  | user (id : UUID) (email : String)
  | accessToken (token : AccessToken)
  | service (response : Response F)
  deriving DecidableEq

inductive HttpResponse (F : Type) where
  | success (statusCode : Nat) (body : HttpBody F)
  | failure (raised : HttpError)
  deriving DecidableEq

/-- The status, the code and the headers of an error response; its message is the text of the error. -/
structure ErrorResponse where
  statusCode : Nat
  code : String
  headers : List (String × String) := []
  deriving DecidableEq

/-- The exception handlers; what none of them takes is an internal error. -/
def HttpError.response : HttpError → ErrorResponse
  | .authentication => ⟨401, "authentication_failed", [("WWW-Authenticate", "Bearer")]⟩
  | .emailAlreadyRegistered _ => ⟨409, "email_already_registered", []⟩
  | .rateLimitExceeded retryAfterSeconds => ⟨429, "rate_limited", [("Retry-After", toString retryAfterSeconds)]⟩
  | .requestValidation => ⟨422, "validation_error", []⟩
  | .application raised =>
    match raised with
    | .portfolioNotFound _ => ⟨404, "portfolio_not_found", []⟩
    | .portfolioAlreadyExists _ => ⟨409, "portfolio_conflict", []⟩
    | .marketDataNotFound _ => ⟨422, "market_data_not_found", []⟩
    | .marketDataInvalidResponse _ => ⟨502, "market_data_invalid_response", []⟩
    | .marketDataRateLimit => ⟨503, "market_data_rate_limited", []⟩
    | .marketDataUnavailable => ⟨503, "market_data_unavailable", []⟩
    | .marketDataTimeout => ⟨504, "market_data_timeout", []⟩
    | .portfolioAnalyticsUnavailable _ => ⟨422, "analytics_unavailable", []⟩
    | .transactionIdempotencyConflict _ _ => ⟨409, "transaction_idempotency_conflict", []⟩
    | .transactionImportFormat _ => ⟨422, "csv_import_invalid", []⟩
    | .invalidTransaction _ => ⟨422, "invalid_transaction", []⟩
    | .invalidPriceSeries _ => ⟨422, "invalid_price_series", []⟩
    | _ => ⟨500, "internal_error", []⟩

def HttpResponse.statusCode {F : Type} : HttpResponse F → Nat
  | success statusCode _ => statusCode
  | failure raised => raised.response.statusCode

/-- The status of a route that has gone through. -/
def Response.statusCode {F : Type} : Response F → Nat
  | .portfolio _ | .portfolios _ | .ledger _ | .preview _ | .commit _ | .analytics _ | .insight _ | .snapshots _ => 200
  | .creation result => if result.created then 201 else 200

/-- The response to a call of a service. -/
def Request.respond {F : Type} (request : Request F) : Except Error (Response F) → HttpResponse F
  | .ok response =>
    match request with
    | .createPortfolio .. => .success 201 (.service response)
    | _ => .success response.statusCode (.service response)
  | .error raised => .failure (.application raised)

namespace HttpApi
variable {σ : Type} (api : HttpApi σ)

/-- `client_ip_identifier` -/
def clientIpIdentifier (client : HttpClient) : String :=
  let directHost := client.host.getD "unknown"
  let candidate := match client.forwardedFor with
    | some forwardedFor =>
      if api.trustProxyHeaders ∧ forwardedFor ≠ "" then
        Text.strip (String.ofList (forwardedFor.toList.takeWhile (· ≠ ',')))
      else directHost
    | none => directHost
  ((api.ipAddress candidate).or (api.ipAddress directHost)).getD "unknown"

/-- `enforce`, where there is a limiter. A script call that fails lets the request through. -/
def enforce (now : ℚ) (write : Write) (rule : RateLimitRule) (identifier : String) (counters : Redis.Store Int) :
    Except HttpError Unit × Redis.Store Int :=
  match api.rateLimiter with
  | none => (.ok (), counters)
  | some limiter =>
    let (answer, after) := limiter.enforce now rule identifier counters
    match write with
    | .stored => (answer.mapError fun exceeded => .rateLimitExceeded exceeded.retryAfterSeconds, after)
    | .failed reached => (.ok (), if reached then after else counters)

/-- `current_user` -/
def currentUser (now : ℚ) (authorization : Option (String × String)) (users : UserTable) : Option User :=
  match authorization with
  | none => none
  | some (scheme, credentials) =>
    if api.lower scheme ≠ "bearer" then none
    else AuthenticationService.authenticate api.accessTokenService now credentials users

variable {F : Type}

/-- A handler that is let through only while the limit of the rule is not exceeded. -/
def limited (now : ℚ) (write : Write) (rule : RateLimitRule) (identifier : String) (world : HttpWorld F)
    (handler : HttpWorld F → (HttpResponse F × List (OutsideCall F)) × HttpWorld F) :
    (HttpResponse F × List (OutsideCall F)) × HttpWorld F :=
  match api.enforce now write rule identifier world.counters with
  | (.error raised, counters) => ((.failure raised, []), { world with counters := counters })
  | (.ok _, counters) => handler { world with counters := counters }

def register (request : HttpRequest F σ) (client : HttpClient) (payload : Option Credentials) (salt : σ)
    (userId : UUID) (world : HttpWorld F) : (HttpResponse F × List (OutsideCall F)) × HttpWorld F :=
  match payload with
  | none => ((.failure .requestValidation, []), world)
  | some payload =>
    api.limited request.now (request.scripts 0) api.policies.registrationIp ("ip:" ++ api.clientIpIdentifier client)
      world fun world =>
        match AuthenticationService.register api.lower api.passwordHash
            ⟨payload.email, payload.password, salt, userId⟩ world.users with
        | (.error raised, users) =>
          ((.failure (.emailAlreadyRegistered raised.email), []), { world with users := users })
        | (.ok user, users) => ((.success 201 (.user user.id user.email), []), { world with users := users })

def login (request : HttpRequest F σ) (client : HttpClient) (payload : Option Credentials) (world : HttpWorld F) :
    (HttpResponse F × List (OutsideCall F)) × HttpWorld F :=
  match payload with
  | none => ((.failure .requestValidation, []), world)
  | some payload =>
    api.limited request.now (request.scripts 0) api.policies.loginIp ("ip:" ++ api.clientIpIdentifier client)
      world fun world =>
        api.limited request.now (request.scripts 1) api.policies.loginEmail ("email:" ++ payload.email) world
          fun world =>
            match AuthenticationService.login api.lower api.passwordHash api.accessTokenService request.now
                payload.email payload.password world.users with
            | none => ((.failure .authentication, []), world)
            | some token => ((.success 200 (.accessToken token), []), world)

variable [UnicodeDatabase] [FloatArithmetic F]

/-- A service is called for the user. -/
def callService (user : User) (request : Request F) (world : HttpWorld F) :
    (HttpResponse F × List (OutsideCall F)) × HttpWorld F :=
  let (result, after) := (serve api.ctx api.wiring ⟨user.id, request⟩).run { store := world.store }
  ((request.respond result, after.calls), { world with store := after.store })

/-- The validation and the call. -/
def dispatch (content : UserContent F) (user : User) (world : HttpWorld F) :
    (HttpResponse F × List (OutsideCall F)) × HttpWorld F :=
  match content with
  | .valid request => api.callService user request world
  | _ => ((.failure .requestValidation, []), world)

/-- A route for users: when the body has been read come the dependencies of the route, then the validation. -/
def handleUser (request : HttpRequest F σ) (authorization : Option (String × String)) (content : UserContent F)
    (world : HttpWorld F) : (HttpResponse F × List (OutsideCall F)) × HttpWorld F :=
  match content.limit with
  | none => ((.failure .requestValidation, []), world)
  | some limit =>
    match api.currentUser request.now authorization world.users with
    | none => ((.failure .authentication, []), world)
    | some user =>
      api.limited request.now (request.scripts 0) (api.policies.userRule limit) ("user:" ++ user.id.str) world
        (api.dispatch content user)

/-- The response to a request, with the outside calls made for it, and the world afterwards. -/
def handle (request : HttpRequest F σ) (world : HttpWorld F) :
    (HttpResponse F × List (OutsideCall F)) × HttpWorld F :=
  match request.route with
  | .health => ((.success 200 .health, []), world)
  | .register client payload salt userId => api.register request client payload salt userId world
  | .login client payload => api.login request client payload world
  | .user authorization content => api.handleUser request authorization content world

end HttpApi
end LedgerLens
