import LedgerLens.Registration
import LedgerLens.TransactionTables
import LedgerLens.Library.Hex

namespace LedgerLens

section Text

/-- The 32 digits of a UUID. -/
def UUID.hex (id : UUID) : List Char := Hex.padded 32 id.int

/-- A UUID of 128 bits. -/
def UUID.Fits (id : UUID) : Prop := id.int < 16 ^ 32

instance (id : UUID) : Decidable id.Fits := inferInstanceAs (Decidable (_ < _))

theorem UUID.length_hex {id : UUID} (fits : id.Fits) : id.hex.length = 32 := by
  have digits := (Nat.length_toDigits_le_iff (b := 16) (by decide) (by decide)).mpr fits
  rw [hex, Hex.padded, List.length_leftpad]
  exact max_eq_left digits

theorem UUID.toList_str (id : UUID) : id.str.toList =
    id.hex.take 8 ++ '-' :: ((id.hex.take 12).drop 8 ++ '-' :: ((id.hex.take 16).drop 12 ++
      '-' :: ((id.hex.take 20).drop 16 ++ '-' :: (id.hex.take 32).drop 20))) := by
  have dash : ("-" : String).toList = ['-'] := rfl
  simp only [UUID.str, String.toList_append, String.toList_ofList, dash, List.append_assoc, List.cons_append,
    List.nil_append, List.drop_zero]
  rfl

/-- Without its dashes the text is the digits again. -/
theorem UUID.filter_str {id : UUID} (fits : id.Fits) : (id.str.toList.filter fun c => c ≠ '-') = id.hex := by
  have digits (start stop : ℕ) : ((id.hex.take stop).drop start).filter (fun c => c ≠ '-') =
      (id.hex.take stop).drop start := by
    refine List.filter_eq_self.mpr fun c member => ?_
    have kept : c ∈ id.hex := ((List.drop_sublist _ _).trans (List.take_sublist _ _)).subset member
    have other : c ≠ '-' := fun same => Hex.dash_not_mem_padded 32 id.int (same ▸ kept)
    exact decide_eq_true other
  have join {start stop : ℕ} (order : start ≤ stop) :
      (id.hex.take stop).drop start ++ id.hex.drop stop = id.hex.drop start := by
    obtain ⟨size, rfl⟩ := Nat.exists_eq_add_of_le order
    rw [List.drop_take, Nat.add_sub_cancel_left, ← List.drop_drop, List.take_append_drop]
  have first := digits 0 8
  rw [List.drop_zero] at first
  simp only [toList_str, List.filter_append, first, digits, List.filter_cons_of_neg, ne_eq, not_true, decide_false,
    Bool.false_eq_true, not_false_eq_true]
  rw [List.take_of_length_le (length_hex fits).le, join (by decide), join (by decide), join (by decide),
    List.take_append_drop]

theorem UUID.str_inj {left right : UUID} (leftFits : left.Fits) (rightFits : right.Fits)
    (same : left.str = right.str) : left = right := by
  have digits : left.hex = right.hex := by rw [← filter_str leftFits, ← filter_str rightFits, same]
  rw [UUID.ext_iff, ← Hex.number_padded 32 left.int, ← Hex.number_padded 32 right.int]
  exact congrArg Hex.number digits

end Text

/-- A password library; `verify` knows no answer for a hash of a kind it does not know. -/
structure PasswordHash (σ : Type) where
  hash : String → σ → String
  verify : String → String → Option Bool

namespace Argon2PasswordHasher
variable {σ : Type} (library : PasswordHash σ)

def verify (password passwordHash : String) : Bool := (library.verify password passwordHash).getD false

end Argon2PasswordHasher

/-- `AccessTokenService`, by the clock of the moment; `verify` gives nothing where it raises
`InvalidAccessTokenError`. -/
structure AccessTokenService where
  expiresInSeconds : Int
  issue : ℚ → UUID → String
  verify : ℚ → String → Option UUID

structure AccessToken where
  value : String
  expiresInSeconds : Int
  deriving DecidableEq

/-- The users by their ids. -/
structure UserTable where
  users : Dict UUID User
  keyed : ∀ id user, users.get? id = some user → user.id = id

namespace UserTable

def empty : UserTable where
  users := .empty
  keyed _ _ found := nomatch found

def get (table : UserTable) (userId : UUID) : Option User := table.users.get? userId

def getByEmail (table : UserTable) (email : String) : Option User :=
  InMemoryUserRepository.getByEmail table.users email

theorem keyed_set (table : UserTable) (user : User) (id : UUID) (found : User)
    (stored : (table.users.set user.id user).get? id = some found) : found.id = id := by
  rw [Dict.get?_set] at stored
  split at stored
  · next same =>
    cases stored
    exact same
  · exact table.keyed id found stored

def add (table : UserTable) (user : User) : Except EmailAlreadyRegisteredError UserTable :=
  if (InMemoryUserRepository.users table.users).any fun existing => existing.email = user.email then .error ⟨user.email⟩
  else .ok ⟨table.users.set user.id user, table.keyed_set user⟩

theorem add_eq_ok {table next : UserTable} {user : User} (added : table.add user = .ok next) :
    next.users = table.users.set user.id user := by
  unfold add at added
  split at added
  · cases added
  · exact (congrArg users (Except.ok.inj added)).symm

theorem get_of_add {table next : UserTable} {user : User} (added : table.add user = .ok next) {id : UUID}
    (other : id ≠ user.id) : next.get id = table.get id := by
  rw [get, add_eq_ok added, Dict.get?_set, if_neg other.symm, get]

theorem get_self_of_add {table next : UserTable} {user : User} (added : table.add user = .ok next) :
    next.get user.id = some user := by
  rw [get, add_eq_ok added, Dict.get?_set, if_pos rfl]

theorem getByEmail_eq_some {table : UserTable} {email : String} {user : User}
    (found : table.getByEmail email = some user) : table.get user.id = some user ∧ user.email = email := by
  have member : user ∈ table.users.entries.map Prod.snd := List.mem_of_find?_eq_some found
  obtain ⟨⟨id, own⟩, entry, rfl⟩ := List.mem_map.mp member
  have stored := Dict.get?_eq_some.mpr entry
  have id_eq := table.keyed id own stored
  refine ⟨?_, by simpa using List.find?_some found⟩
  rw [get, id_eq]
  exact stored

end UserTable

namespace AuthenticationService
variable {σ : Type} (lower : String → String) (library : PasswordHash σ) (tokens : AccessTokenService)

/-- `register`, where nobody else gets a turn. -/
def register (call : Registration σ) (table : UserTable) : RegistrationOutcome × UserTable :=
  match table.getByEmail (call.normalizedEmail lower) with
  | some _ => (call.refusal lower, table)
  | none =>
    match table.add (call.user lower library.hash) with
    | .error raised => (.error raised, table)
    | .ok next => (.ok (call.user lower library.hash), next)

/-- `login`; nothing where it raises `InvalidCredentialsError`. -/
def login (now : ℚ) (email password : String) (table : UserTable) : Option AccessToken :=
  match table.getByEmail (lower (Text.strip email)) with
  | none => none
  | some user =>
    if Argon2PasswordHasher.verify library password user.passwordHash then
      some ⟨tokens.issue now user.id, tokens.expiresInSeconds⟩
    else none

/-- `authenticate`; nothing where it raises `InvalidAccessTokenError`. -/
def authenticate (now : ℚ) (token : String) (table : UserTable) : Option User :=
  (tokens.verify now token).bind table.get

/-- A registration in steps that nobody comes between. -/
theorem register_alone {ι : Type} [DecidableEq ι] (calls : ι → Registration σ) (call : ι) (table : UserTable) :
    let alone := InMemoryUserRepository.run lower library.hash calls (.start table.users) [.resume call, .resume call]
    let served := register lower library (calls call) table
    alone.phase call = .finished served.1 ∧ alone.store = served.2.users := by
  simp only [InMemoryUserRepository.run, List.foldl_cons, List.foldl_nil, InMemoryUserRepository.act]
  cases found : InMemoryUserRepository.getByEmail table.users ((calls call).normalizedEmail lower) with
  | some existing =>
    have looked : table.getByEmail ((calls call).normalizedEmail lower) = some existing := found
    simp [InMemoryUserRepository.register, RegistrationState.start, RegistrationState.move, register, found, looked]
  | none =>
    have looked : table.getByEmail ((calls call).normalizedEmail lower) = none := found
    cases used : (InMemoryUserRepository.users table.users).any fun existing =>
      existing.email = ((calls call).user lower library.hash).email with
    | true =>
      simp [InMemoryUserRepository.register, RegistrationState.start, RegistrationState.move, register, found, looked,
        InMemoryUserRepository.add, UserTable.add, used]
    | false =>
      simp [InMemoryUserRepository.register, RegistrationState.start, RegistrationState.move, register, found, looked,
        InMemoryUserRepository.add, UserTable.add, used]

theorem register_get (call : Registration σ) (table : UserTable) {id : UUID} (other : id ≠ call.userId) :
    (register lower library call table).2.get id = table.get id := by
  unfold register
  split
  · rfl
  · split
    · rfl
    · next added => exact UserTable.get_of_add added other

theorem register_failed {lower : String → String} {library : PasswordHash σ} {call : Registration σ}
    {table after : UserTable} {raised : EmailAlreadyRegisteredError}
    (failed : register lower library call table = (.error raised, after)) : after = table := by
  unfold register at failed
  split at failed
  · exact (congrArg Prod.snd failed).symm
  · split at failed
    · exact (congrArg Prod.snd failed).symm
    · cases failed

theorem register_ok {lower : String → String} {library : PasswordHash σ} {call : Registration σ}
    {table after : UserTable} {user : User} (registered : register lower library call table = (.ok user, after)) :
    user = call.user lower library.hash ∧ table.add user = .ok after := by
  unfold register at registered
  split at registered
  · cases registered
  · split at registered
    · cases registered
    · next added =>
      cases registered
      exact ⟨rfl, added⟩

theorem login_eq_some {lower : String → String} {library : PasswordHash σ} {tokens : AccessTokenService} {now : ℚ}
    {email password : String} {table : UserTable} {token : AccessToken}
    (loggedIn : login lower library tokens now email password table = some token) :
    ∃ user, table.getByEmail (lower (Text.strip email)) = some user ∧
      Argon2PasswordHasher.verify library password user.passwordHash ∧
      token = ⟨tokens.issue now user.id, tokens.expiresInSeconds⟩ := by
  unfold login at loggedIn
  split at loggedIn
  · cases loggedIn
  · next user found =>
    split at loggedIn
    · next verified => exact ⟨user, found, verified, (Option.some.inj loggedIn).symm⟩
    · cases loggedIn

end AuthenticationService
end LedgerLens
