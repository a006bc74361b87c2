import LedgerLens.Authentication
import Mathlib.Data.Rat.Floor

namespace LedgerLens

/-- The claims of a token; times are in whole seconds. -/
structure JwtClaims where
  sub : String
  iat : Int
  exp : Int
  iss : String
  aud : String
  type : String

/-- A JWT library under one algorithm. `decode` is asked at a time, with a key, an audience and an issuer, and it
gives nothing for a token it refuses. -/
structure JwtLibrary where
  encode : JwtClaims → String → String
  decode : ℚ → String → String → String → String → Option JwtClaims

/-- A token is decoded with the key, the audience and the issuer that it was made for, from the time it was issued at
until it expires. -/
def JwtLibrary.Documented (jwt : JwtLibrary) : Prop :=
  ∀ now claims key audience issuer, jwt.decode now (jwt.encode claims key) key audience issuer =
    if claims.iat ≤ now ∧ now < claims.exp ∧ claims.aud = audience ∧ claims.iss = issuer then some claims else none

def jwtIssuer : String := "portfolio-analytics-api"

def jwtAudience : String := "portfolio-analytics-api"

/-- A `JwtAccessTokenService`, whose `__init__` refuses a short key and no lifetime. -/
structure JwtAccessTokenService where
  secretKey : String
  expireMinutes : Int
  secretKey_long : 32 ≤ secretKey.length
  expireMinutes_pos : 0 < expireMinutes

/-- A password is recognized by its hash under any salt, and no other password is. -/
def PasswordHash.Documented {σ : Type} (library : PasswordHash σ) : Prop :=
  ∀ password salt other, library.verify other (library.hash password salt) = some (decide (other = password))

namespace JwtAccessTokenService
variable (service : JwtAccessTokenService) (jwt : JwtLibrary)

def expiresInSeconds : Int := service.expireMinutes * 60

/-- `issue`; the library takes times in whole seconds. -/
def issue (issuedAt : ℚ) (userId : UUID) : String :=
  jwt.encode {
    sub := userId.str
    iat := ⌊issuedAt⌋
    exp := ⌊issuedAt + service.expiresInSeconds⌋
    iss := jwtIssuer
    aud := jwtAudience
    type := "access" } service.secretKey

/-- `verify`; `parse` is what `UUID(...)` makes of a text. -/
def verify (parse : String → Option UUID) (now : ℚ) (token : String) : Option UUID :=
  match jwt.decode now token service.secretKey jwtAudience jwtIssuer with
  | none => none
  | some payload => if payload.type ≠ "access" then none else parse payload.sub

/-- The service with its library. -/
def tokens (parse : String → Option UUID) : AccessTokenService where
  expiresInSeconds := service.expiresInSeconds
  issue := service.issue jwt
  verify := service.verify jwt parse

variable {service jwt} {parse : String → Option UUID}

/-- A token names its user for as long as it lives, and nobody before or after. -/
theorem verify_issue (documented : jwt.Documented) (reads : ∀ id : UUID, id.Fits → parse id.str = some id)
    {userId : UUID} (fits : userId.Fits) (issuedAt now : ℚ) :
    service.verify jwt parse now (service.issue jwt issuedAt userId) =
      if (⌊issuedAt⌋ : ℚ) ≤ now ∧ now < ⌊issuedAt⌋ + service.expiresInSeconds then some userId else none := by
  have until_ : ((⌊issuedAt + service.expiresInSeconds⌋ : Int) : ℚ) = ⌊issuedAt⌋ + service.expiresInSeconds := by
    rw [Int.floor_add_intCast]
    push_cast
    rfl
  unfold verify issue
  rw [documented, until_]
  by_cases alive : (⌊issuedAt⌋ : ℚ) ≤ now ∧ now < ⌊issuedAt⌋ + service.expiresInSeconds
  · simp only [alive.1, alive.2, and_self, if_true, ne_eq, not_true, if_false, reads userId fits]
  · have expired : ¬ ((⌊issuedAt⌋ : ℚ) ≤ now ∧ now < ⌊issuedAt⌋ + service.expiresInSeconds ∧
        jwtAudience = jwtAudience ∧ jwtIssuer = jwtIssuer) := fun living => alive ⟨living.1, living.2.1⟩
    rw [if_neg expired, if_neg alive]

end JwtAccessTokenService
end LedgerLens
