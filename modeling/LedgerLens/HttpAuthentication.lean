import LedgerLens.AccessTokens
import LedgerLens.HttpRefusals
import Mathlib.Logic.Equiv.List

namespace LedgerLens
namespace HttpApi
variable {σ F : Type} (api : HttpApi σ)

/-- Requests with their responses. -/
abbrev Exchanges (F σ : Type) := List (HttpRequest F σ × HttpResponse F)

/-- What has been served since the start, and the world after it. -/
inductive Served [UnicodeDatabase] [FloatArithmetic F] (initial : HttpWorld F) :
    Exchanges F σ → HttpWorld F → Prop
  | start : Served initial [] initial
  | next {seen world} : Served initial seen world → (request : HttpRequest F σ) →
      Served initial (seen ++ [(request, (api.handle request world).1.1)]) (api.handle request world).2

/-- The exchanges with requests that come one after the other, and the world after them. -/
def exchanges [UnicodeDatabase] [FloatArithmetic F] : List (HttpRequest F σ) → HttpWorld F → Exchanges F σ × HttpWorld F
  | [], world => ([], world)
  | request :: rest, world =>
    let ((response, _), after) := api.handle request world
    let (later, final) := exchanges rest after
    ((request, response) :: later, final)

variable {api} in
theorem Served.exchanges [UnicodeDatabase] [FloatArithmetic F] {initial world : HttpWorld F} {seen : Exchanges F σ}
    (served : Served api initial seen world) (requests : List (HttpRequest F σ)) :
    Served api initial (seen ++ (api.exchanges requests world).1) (api.exchanges requests world).2 := by
  induction requests generalizing seen world with
  | nil =>
    rw [HttpApi.exchanges, List.append_nil]
    exact served
  | cons request rest ih =>
    have onwards := ih (served.next request)
    rwa [List.append_assoc] at onwards

/-- The exchange that has registered an account with a password. -/
structure Registers (account : User) (password : String) (exchange : HttpRequest F σ × HttpResponse F) : Prop where
  request : ∃ client email salt,
    exchange.1.route = .register client (some ⟨email, password⟩) salt account.id ∧
      account = Registration.user api.lower api.passwordHash.hash ⟨email, password, salt, account.id⟩
  response : exchange.2 = .success 201 (.user account.id account.email)

/-- The exchange that has given out a token for an account and a password. -/
structure LogsIn (account : User) (password token : String) (exchange : HttpRequest F σ × HttpResponse F) : Prop where
  request : ∃ client email, exchange.1.route = .login client (some ⟨email, password⟩) ∧
    api.lower (Text.strip email) = account.email
  response : exchange.2 = .success 200 (.accessToken ⟨token, api.accessTokenService.expiresInSeconds⟩)
  issued : token = api.accessTokenService.issue exchange.1.now account.id

/-- Somebody has logged in to the account at a time, with the password it had been registered with, and has got the
token. -/
def Session (seen : Exchanges F σ) (account : User) (token : String) (since : ℚ) : Prop :=
  ∃ password registration login, [registration, login].Sublist seen ∧ api.Registers account password registration ∧
    api.LogsIn account password token login ∧ login.1.now = since

/-- A token that is accepted was given out in an exchange. -/
def Unforged (seen : Exchanges F σ) (now : ℚ) (token : String) : Prop :=
  ∀ userId, api.accessTokenService.verify now token = some userId →
    ∃ exchange ∈ seen, ∃ status expiresInSeconds,
      exchange.2 = .success status (.accessToken ⟨token, expiresInSeconds⟩)

/-- What a request does to the accounts, and what it gives out of them. -/
inductive OnAccounts (request : HttpRequest F σ) (users : UserTable) : HttpResponse F → UserTable → Prop
  | registered {client payload salt userId account after} :
      request.route = .register client (some payload) salt userId →
      AuthenticationService.register api.lower api.passwordHash ⟨payload.email, payload.password, salt, userId⟩
        users = (.ok account, after) →
      OnAccounts request users (.success 201 (.user account.id account.email)) after
  | loggedIn {client payload token} :
      request.route = .login client (some payload) →
      AuthenticationService.login api.lower api.passwordHash api.accessTokenService request.now payload.email
        payload.password users = some token →
      OnAccounts request users (.success 200 (.accessToken token)) users
  | other {response} : (∀ status id email, response ≠ .success status (.user id email)) →
      (∀ status token, response ≠ .success status (.accessToken token)) →
      OnAccounts request users response users

section Requests
variable {api} {request : HttpRequest F σ}

theorem OnAccounts.failure (users : UserTable) (raised : HttpError) :
    OnAccounts api request users (.failure raised) users := by
  refine .other ?_ ?_
  · rintro _ _ _ ⟨⟩
  · rintro _ _ ⟨⟩

/-- A limit does not touch the accounts. -/
theorem OnAccounts.limited (world : HttpWorld F) {write : Write} {rule : RateLimitRule} {identifier : String}
    {handler : HttpWorld F → (HttpResponse F × List (OutsideCall F)) × HttpWorld F}
    (within : ∀ counters, OnAccounts api request world.users (handler { world with counters := counters }).1.1
      (handler { world with counters := counters }).2.users) :
    OnAccounts api request world.users (api.limited request.now write rule identifier world handler).1.1
      (api.limited request.now write rule identifier world handler).2.users := by
  rcases limited_cases api request.now write rule identifier world handler with ⟨raised, _, ends⟩ | ⟨_, goes⟩
  · rw [ends]
    exact .failure ..
  · rw [goes]
    exact within _

theorem register_onAccounts {client : HttpClient} {payload : Option Credentials} {salt : σ} {userId : UUID}
    (route : request.route = .register client payload salt userId) (world : HttpWorld F) :
    OnAccounts api request world.users (api.register request client payload salt userId world).1.1
      (api.register request client payload salt userId world).2.users := by
  unfold register
  cases payload with
  | none => exact .failure ..
  | some payload =>
    refine .limited world fun counters => ?_
    split
    · next raised users outcome =>
      rw [AuthenticationService.register_failed outcome]
      exact .failure ..
    · next account users outcome => exact .registered route outcome

theorem login_onAccounts {client : HttpClient} {payload : Option Credentials}
    (route : request.route = .login client payload) (world : HttpWorld F) :
    OnAccounts api request world.users (api.login request client payload world).1.1
      (api.login request client payload world).2.users := by
  unfold login
  cases payload with
  | none => exact .failure ..
  | some payload =>
    refine .limited world fun counters => .limited { world with counters := counters } fun _ => ?_
    split
    · exact .failure ..
    · next token outcome => exact .loggedIn route outcome

variable [UnicodeDatabase] [FloatArithmetic F]

theorem dispatch_onAccounts (content : UserContent F) (account : User) (world : HttpWorld F) :
    OnAccounts api request world.users (api.dispatch content account world).1.1
      (api.dispatch content account world).2.users := by
  cases content with
  | unreadable => exact .failure ..
  | invalid limit => exact .failure ..
  | valid call =>
    simp only [dispatch, callService]
    rcases respond_cases call ((serve api.ctx api.wiring ⟨account.id, call⟩).run { store := world.store }).1 with
      ⟨status, response, answer⟩ | ⟨raised, answer⟩
    · rw [answer]
      refine .other ?_ ?_
      · rintro _ _ _ ⟨⟩
      · rintro _ _ ⟨⟩
    · rw [answer]
      exact .failure ..

theorem handle_onAccounts (request : HttpRequest F σ) (world : HttpWorld F) :
    OnAccounts api request world.users (api.handle request world).1.1 (api.handle request world).2.users := by
  unfold handle
  cases route : request.route with
  | health =>
    refine .other ?_ ?_
    · rintro _ _ _ ⟨⟩
    · rintro _ _ ⟨⟩
  | register client payload salt userId => exact register_onAccounts route world
  | login client payload => exact login_onAccounts route world
  | user authorization content =>
    simp only [handleUser]
    split
    · exact .failure ..
    · split
      · exact .failure ..
      · exact .limited world fun counters => dispatch_onAccounts content _ { world with counters := counters }

end Requests

section Runs
variable {api} {seen : Exchanges F σ} {users after : UserTable}

/-- The accounts are those that have been registered, and every token given out belongs to a session. -/
structure Traced (api : HttpApi σ) (seen : Exchanges F σ) (users : UserTable) : Prop where
  accounts : ∀ id account, users.get id = some account →
    ∃ password, ∃ registration ∈ seen, api.Registers account password registration
  registered : ∀ account password, ∀ registration ∈ seen, api.Registers account password registration →
    users.get account.id = some account
  sessions : ∀ exchange ∈ seen, ∀ status token, exchange.2 = .success status (.accessToken token) →
    ∃ account, users.get account.id = some account ∧ api.Session seen account token.value exchange.1.now

theorem Session.append {account : User} {token : String} {since : ℚ} (session : api.Session seen account token since)
    (more : Exchanges F σ) : api.Session (seen ++ more) account token since := by
  obtain ⟨password, registration, login, order, rest⟩ := session
  exact ⟨password, registration, login, order.trans (List.sublist_append_left ..), rest⟩

theorem Traced.empty (initial : users = .empty) : Traced (F := F) api [] users := by
  subst initial
  refine ⟨?_, ?_, ?_⟩
  · rintro _ _ ⟨⟩
  · rintro _ _ _ ⟨⟩
  · rintro _ ⟨⟩

/-- The one who logs in knows the password that the account was registered with. -/
theorem Traced.session (traced : Traced api seen users) (passwords : api.passwordHash.Documented)
    {request : HttpRequest F σ} {client : HttpClient} {payload : Credentials} {token : AccessToken}
    (route : request.route = .login client (some payload))
    (loggedIn : AuthenticationService.login api.lower api.passwordHash api.accessTokenService request.now payload.email
      payload.password users = some token) :
    ∃ account, users.get account.id = some account ∧
      api.Session (seen ++ [(request, .success 200 (.accessToken token))]) account token.value request.now := by
  obtain ⟨account, found, verified, rfl⟩ := AuthenticationService.login_eq_some loggedIn
  obtain ⟨stored, email⟩ := UserTable.getByEmail_eq_some found
  obtain ⟨password, registration, member, registers⟩ := traced.accounts _ _ stored
  obtain ⟨_, _, salt, _, made⟩ := registers.request
  have hashed : account.passwordHash = api.passwordHash.hash password salt := by rw [made, Registration.user]
  have same : payload.password = password := by
    rw [Argon2PasswordHasher.verify, hashed, passwords, Option.getD_some] at verified
    exact of_decide_eq_true verified
  refine ⟨account, stored, password, registration, (request, _), ?_, registers, ⟨?_, rfl, rfl⟩, rfl⟩
  · exact (List.singleton_sublist.mpr member).append (List.Sublist.refl _)
  · exact ⟨client, payload.email, by rw [route, ← same], email.symm⟩

theorem mem_concat {exchange last : HttpRequest F σ × HttpResponse F} (member : exchange ∈ seen ++ [last]) :
    exchange ∈ seen ∨ exchange = last := by
  rwa [List.mem_append, List.mem_singleton] at member

/-- A request that registers nobody. -/
theorem Traced.keep (traced : Traced api seen users) {request : HttpRequest F σ} {response : HttpResponse F}
    (noUser : ∀ status id email, response ≠ .success status (.user id email))
    (given : ∀ status token, response = .success status (.accessToken token) →
      ∃ account, users.get account.id = some account ∧
        api.Session (seen ++ [(request, response)]) account token.value request.now) :
    Traced api (seen ++ [(request, response)]) users := by
  refine ⟨?_, ?_, ?_⟩
  · intro id account found
    obtain ⟨password, registration, member, registers⟩ := traced.accounts id account found
    exact ⟨password, registration, List.mem_append_left _ member, registers⟩
  · intro account password registration member registers
    rcases mem_concat member with old | rfl
    · exact traced.registered account password registration old registers
    · exact absurd registers.response (noUser _ _ _)
  · intro exchange member status token gives
    rcases mem_concat member with old | rfl
    · obtain ⟨account, stored, session⟩ := traced.sessions exchange old status token gives
      exact ⟨account, stored, session.append _⟩
    · exact given status token gives

theorem Traced.next (traced : Traced api seen users) (passwords : api.passwordHash.Documented)
    {request : HttpRequest F σ} {response : HttpResponse F} (step : OnAccounts api request users response after)
    (drawn : ∀ exchange ∈ seen, ∀ id, newUserId exchange.1 = some id → newUserId request ≠ some id) :
    Traced api (seen ++ [(request, response)]) after := by
  cases step with
  | registered route outcome =>
    next client payload salt userId account =>
    obtain ⟨made, added⟩ := AuthenticationService.register_ok outcome
    have own : account.id = userId := by rw [made, Registration.user]
    have registers : api.Registers account payload.password
        (request, HttpResponse.success (F := F) 201 (.user account.id account.email)) :=
      ⟨⟨client, payload.email, salt, by rw [route, own], by rw [own]; exact made⟩, rfl⟩
    have kept {other : User} (different : other.id ≠ userId) (stored : users.get other.id = some other) :
        after.get other.id = some other := by
      rw [UserTable.get_of_add added (own ▸ different)]
      exact stored
    have foreign {password : String} {other : User} {registration : HttpRequest F σ × HttpResponse F}
        (member : registration ∈ seen) (registers : api.Registers other password registration) :
        other.id ≠ userId := by
      obtain ⟨_, _, _, route', _⟩ := registers.request
      intro same
      exact drawn registration member other.id (by rw [newUserId, route']) (by rw [newUserId, route, same])
    refine ⟨?_, ?_, ?_⟩
    · intro id other found
      by_cases same : id = account.id
      · subst same
        cases Option.some.inj (found.symm.trans (UserTable.get_self_of_add added))
        exact ⟨_, _, List.mem_append_right _ (List.mem_singleton.mpr rfl), registers⟩
      · rw [UserTable.get_of_add added same] at found
        obtain ⟨password, registration, member, registers⟩ := traced.accounts id other found
        exact ⟨password, registration, List.mem_append_left _ member, registers⟩
    · intro other password registration member registers'
      rcases mem_concat member with old | rfl
      · exact kept (foreign old registers') (traced.registered other password registration old registers')
      · obtain ⟨_, email, salt', route', made'⟩ := registers'.request
        cases route.symm.trans route'
        rw [made'.trans made.symm]
        exact UserTable.get_self_of_add added
    · intro exchange member status token given
      rcases mem_concat member with old | rfl
      · obtain ⟨other, stored, session⟩ := traced.sessions exchange old status token given
        obtain ⟨password, registration, member, registers⟩ := traced.accounts _ _ stored
        exact ⟨other, kept (foreign member registers) stored, session.append _⟩
      · cases given
  | loggedIn route outcome =>
    refine traced.keep ?_ ?_
    · rintro _ _ _ ⟨⟩
    · rintro _ token ⟨⟩
      exact traced.session passwords route outcome
  | other noUser noToken => exact traced.keep noUser fun status token given => absurd given (noToken status token)

variable [UnicodeDatabase] [FloatArithmetic F]

theorem Served.traced {initial world : HttpWorld F} (served : Served api initial seen world)
    (empty : initial.users = .empty) (passwords : api.passwordHash.Documented)
    (drawn : (seen.filterMap fun exchange => newUserId exchange.1).Nodup) : Traced api seen world.users := by
  induction served with
  | start => exact .empty empty
  | @next seen world _ request ih =>
    rw [List.filterMap_append, List.nodup_append] at drawn
    obtain ⟨earlier, _, apart⟩ := drawn
    refine (ih earlier).next passwords (handle_onAccounts request world) fun exchange member id own mine => ?_
    exact apart id (List.mem_filterMap.mpr ⟨exchange, member, own⟩) id
      (List.mem_filterMap.mpr ⟨_, List.mem_singleton.mpr rfl, mine⟩) rfl

theorem dispatch_authenticated (content : UserContent F) (account : User) (world : HttpWorld F) :
    (api.dispatch content account world).1.1 ≠ .failure .authentication := by
  cases content with
  | unreadable => rintro ⟨⟩
  | invalid limit => rintro ⟨⟩
  | valid call =>
    intro failed
    rcases respond_cases call ((serve api.ctx api.wiring ⟨account.id, call⟩).run { store := world.store }).1 with
      ⟨status, response, answer⟩ | ⟨raised, answer⟩
    · cases answer.symm.trans failed
    · cases answer.symm.trans failed

/-- A request to a route for users is answered 401 exactly when nobody is found for its header. -/
theorem handle_unauthenticated {request : HttpRequest F σ} {authorization : Option (String × String)}
    {content : UserContent F} (route : request.route = .user authorization content) (readable : content.limit ≠ none)
    (world : HttpWorld F) : (api.handle request world).1.1 = .failure .authentication ↔
      api.currentUser request.now authorization world.users = none := by
  obtain ⟨limit, counted⟩ := Option.ne_none_iff_exists'.mp readable
  unfold handle
  rw [route]
  simp only [handleUser, counted]
  cases api.currentUser request.now authorization world.users with
  | none => exact iff_of_true rfl rfl
  | some account =>
    refine iff_of_false (fun failed => ?_) (Option.some_ne_none account)
    simp only at failed
    rcases limited_cases api request.now (request.scripts 0) (api.policies.userRule limit) ("user:" ++ account.id.str)
      world (api.dispatch content account) with ⟨raised, limits, ends⟩ | ⟨_, goes⟩
    · rw [ends] at failed
      obtain ⟨seconds, rfl⟩ := enforce_error limits
      cases failed
    · rw [goes] at failed
      exact dispatch_authenticated content account _ failed

end Runs

/-- The header bears a token that somebody has got by a login to the account, and that has not expired. -/
def SpeaksFor (lifetime : Int) (seen : Exchanges F σ) (now : ℚ) (authorization : Option (String × String))
    (account : User) : Prop :=
  ∃ scheme token since, authorization = some (scheme, token) ∧ api.lower scheme = "bearer" ∧
    api.Session seen account token since ∧ (⌊since⌋ : ℚ) ≤ now ∧ now < ⌊since⌋ + lifetime

end HttpApi

section Access
variable [UnicodeDatabase] {σ F : Type} [FloatArithmetic F] {api : HttpApi σ} {service : JwtAccessTokenService}
  {jwt : JwtLibrary} {parse : String → Option UUID}

open HttpApi in
/-- In an application that has started without accounts, every token that is given out is given for the password that
an account was registered with; and a header that nobody has forged is taken for an account exactly while it bears
such a token for it. Requests for which there is no account, and no others, are answered 401. -/
theorem access_needs_login (wired : api.accessTokenService = service.tokens jwt parse) (documented : jwt.Documented)
    (reads : ∀ id : UUID, id.Fits → parse id.str = some id) (passwords : api.passwordHash.Documented)
    {initial world : HttpWorld F} (empty : initial.users = .empty) {seen : Exchanges F σ}
    (served : Served api initial seen world) (drawn : (seen.filterMap fun exchange => newUserId exchange.1).Nodup)
    (fits : ∀ exchange ∈ seen, ∀ id, newUserId exchange.1 = some id → id.Fits) :
    (∀ exchange ∈ seen, ∀ status token, exchange.2 = .success status (.accessToken token) →
      ∃ account, api.Session seen account token.value exchange.1.now) ∧
    ∀ (request : HttpRequest F σ) authorization content, request.route = .user authorization content →
      (∀ scheme token, authorization = some (scheme, token) → api.Unforged seen request.now token) →
        (∀ account, api.currentUser request.now authorization world.users = some account ↔
          api.SpeaksFor service.expiresInSeconds seen request.now authorization account) ∧
        (content.limit ≠ none → ((api.handle request world).1.1 = .failure .authentication ↔
          ∀ account, ¬ api.SpeaksFor service.expiresInSeconds seen request.now authorization account)) := by
  have traced := served.traced empty passwords drawn
  have known {account : User} {token : String} {since : ℚ} (session : api.Session seen account token since) :
      account.id.Fits ∧ world.users.get account.id = some account ∧ token = service.issue jwt since account.id := by
    obtain ⟨password, registration, login, order, registers, logsIn, rfl⟩ := session
    have member := order.subset (List.mem_cons_self ..)
    obtain ⟨_, _, _, route, _⟩ := registers.request
    refine ⟨fits registration member account.id (by rw [newUserId, route]),
      traced.registered account password registration member registers, ?_⟩
    rw [logsIn.issued, wired]
    rfl
  have alive {account : User} {token : String} {since now : ℚ} (session : api.Session seen account token since) :
      api.accessTokenService.verify now token =
        if (⌊since⌋ : ℚ) ≤ now ∧ now < ⌊since⌋ + service.expiresInSeconds then some account.id else none := by
    obtain ⟨small, _, rfl⟩ := known session
    rw [wired]
    exact JwtAccessTokenService.verify_issue documented reads small since now
  refine ⟨fun exchange member status token given => ?_, ?_⟩
  · obtain ⟨account, _, session⟩ := traced.sessions exchange member status token given
    exact ⟨account, session⟩
  · intro request authorization content route unforged
    have speaks (account : User) : api.currentUser request.now authorization world.users = some account ↔
        api.SpeaksFor service.expiresInSeconds seen request.now authorization account := by
      rw [currentUser_eq]
      constructor
      · intro found
        obtain ⟨id, speaker, stored⟩ := Option.bind_eq_some_iff.mp found
        rcases authorization with _ | ⟨scheme, token⟩
        · cases speaker
        · simp only [principal] at speaker
          split at speaker
          · cases speaker
          · next bearer =>
            obtain ⟨exchange, member, status, expires, given⟩ := unforged scheme token rfl id speaker
            obtain ⟨owner, _, session⟩ := traced.sessions exchange member status _ given
            obtain ⟨_, kept, _⟩ := known session
            rw [alive session] at speaker
            split at speaker
            · next living =>
              cases speaker
              cases stored.symm.trans kept
              exact ⟨scheme, token, _, rfl, not_ne_iff.mp bearer, session, living⟩
            · cases speaker
      · rintro ⟨scheme, token, since, rfl, bearer, session, living⟩
        obtain ⟨_, kept, _⟩ := known session
        rw [principal, if_neg (not_ne_iff.mpr bearer), alive session, if_pos living]
        exact kept
    refine ⟨speaks, fun readable => ?_⟩
    rw [handle_unauthenticated route readable, Option.eq_none_iff_forall_ne_some]
    exact forall_congr' fun account => not_congr (speaks account)

end Access

section Samples

attribute [local instance] Text.asciiDatabase FloatArithmetic.rational

local instance charNumbers : Encodable Char := .ofLeftInverse Char.toNat Char.ofNat Char.ofNat_toNat

local instance textNumbers : Encodable String :=
  .ofLeftInverse String.toList String.ofList fun _ => String.ofList_toList

def JwtClaims.fields (claims : JwtClaims) : String × Int × Int × String × String × String :=
  (claims.sub, claims.iat, claims.exp, claims.iss, claims.aud, claims.type)

def JwtClaims.ofFields : String × Int × Int × String × String × String → JwtClaims
  | (sub, iat, exp, iss, aud, type) => ⟨sub, iat, exp, iss, aud, type⟩

local instance claimsNumbers : Encodable JwtClaims :=
  .ofLeftInverse JwtClaims.fields JwtClaims.ofFields fun _ => rfl

/-- A token is a number for its claims and its key. -/
def sampleJwt : JwtLibrary where
  encode claims key := String.ofList (Hex.padded 0 (Encodable.encode (claims, key)))
  decode now token key audience issuer :=
    match (Encodable.decode (Hex.number token.toList) : Option (JwtClaims × String)) with
    | none => none
    | some (claims, signed) =>
      if signed = key ∧ claims.iat ≤ now ∧ now < claims.exp ∧ claims.aud = audience ∧ claims.iss = issuer then
        some claims
      else none

theorem sampleJwt_documented : sampleJwt.Documented := by
  intro now claims key audience issuer
  simp only [sampleJwt, String.toList_ofList, Hex.number_padded, Encodable.encodek, true_and]

def sampleTokens : JwtAccessTokenService := ⟨"a key of at least 32 characters!", 30, by decide, by decide⟩

/-- `UUID(...)` for the texts it writes. -/
def sampleParse (text : String) : Option UUID :=
  let digits := text.toList.filter fun c => c ≠ '-'
  if digits.length = 32 then some ⟨Hex.number digits⟩ else none

theorem sampleParse_str (id : UUID) (fits : id.Fits) : sampleParse id.str = some id := by
  rw [sampleParse, UUID.filter_str fits, if_pos (UUID.length_hex fits), UUID.hex, Hex.number_padded]

theorem plainPasswords_documented : plainPasswords.Documented := by
  intro password salt other
  rfl

def tokenApi : HttpApi Unit :=
  { sampleApi with rateLimiter := none, accessTokenService := sampleTokens.tokens sampleJwt sampleParse }

def aliceCredentials : Credentials := ⟨"alice@example.com", "correct horse"⟩

def aliceRegisters : HttpRequest ℚ Unit :=
  ⟨0, fun _ => .stored, .register ⟨none, none⟩ (some aliceCredentials) () ⟨1⟩⟩

def aliceLogsIn : HttpRequest ℚ Unit := ⟨1, fun _ => .stored, .login ⟨none, none⟩ (some aliceCredentials)⟩

def aliceAccount : User :=
  Registration.user loweredAscii plainPasswords.hash ⟨aliceCredentials.email, aliceCredentials.password, (), ⟨1⟩⟩

def aliceToken : String := sampleTokens.issue sampleJwt 1 ⟨1⟩

def emptyHttpWorld : HttpWorld ℚ := ⟨.empty, {}, .empty⟩

def aliceExchanges : HttpApi.Exchanges ℚ Unit :=
  [(aliceRegisters, .success 201 (.user ⟨1⟩ aliceAccount.email)),
    (aliceLogsIn, .success 200 (.accessToken ⟨aliceToken, 1800⟩))]

def aliceWorld : HttpWorld ℚ := (tokenApi.handle aliceLogsIn (tokenApi.handle aliceRegisters emptyHttpWorld).2).2

theorem alice_served : HttpApi.Served tokenApi emptyHttpWorld aliceExchanges aliceWorld :=
  .next (.next .start aliceRegisters) aliceLogsIn

theorem alice_session : tokenApi.Session aliceExchanges aliceAccount aliceToken 1 :=
  ⟨"correct horse", _, _, .refl _, ⟨⟨⟨none, none⟩, _, (), rfl, rfl⟩, rfl⟩,
    ⟨⟨⟨none, none⟩, _, rfl, rfl⟩, rfl, rfl⟩, rfl⟩

/-- Alice registers, logs in, and is let in with her token while it lasts. -/
theorem sample_access :
    tokenApi.currentUser 1800 (some ("Bearer", aliceToken)) aliceWorld.users = some aliceAccount ∧
      (tokenApi.handle (bearing 1801 aliceToken (.listPortfolios 20 0)) aliceWorld).1.1 =
        .failure .authentication := by
  have unforged (now : ℚ) (scheme : String) : ∀ scheme' token, some (scheme, aliceToken) = some (scheme', token) →
      tokenApi.Unforged aliceExchanges now token := by
    rintro _ _ ⟨⟩
    exact fun _ _ => ⟨_, List.mem_cons_of_mem _ (List.mem_singleton.mpr rfl), 200, 1800, rfl⟩
  have wired : tokenApi.accessTokenService = sampleTokens.tokens sampleJwt sampleParse := rfl
  have access := (access_needs_login wired sampleJwt_documented sampleParse_str plainPasswords_documented rfl
    alice_served (by decide) (by decide)).2
  constructor
  · refine ((access ⟨1800, fun _ => .stored, .user (some ("Bearer", aliceToken)) .unreadable⟩ _ _ rfl
      (unforged _ _)).1 _).mpr ⟨_, _, 1, rfl, by decide, alice_session, ?_, ?_⟩
    · norm_num
    · norm_num [JwtAccessTokenService.expiresInSeconds, sampleTokens]
  · refine ((access (bearing 1801 aliceToken (.listPortfolios 20 0)) _ _ rfl (unforged _ _)).2 (by decide)).mpr ?_
    rintro account ⟨_, _, since, ⟨⟩, _, session, _, living⟩
    obtain ⟨_, registration, login, order, _, _, rfl⟩ := session
    obtain ⟨_, last⟩ := List.cons_eq_cons.mp (order.eq_of_length rfl)
    cases last
    norm_num [bearing, aliceLogsIn, JwtAccessTokenService.expiresInSeconds, sampleTokens] at living

end Samples
end LedgerLens
