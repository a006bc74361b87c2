import LedgerLens.Models
import LedgerLens.Library.Dict
import LedgerLens.Library.UniqueRows

namespace LedgerLens

/-- A call of `AuthenticationService.register`, with what it draws on its way: the salt of the hash and the id. -/
structure Registration (σ : Type) where
  email : String
  password : String
  salt : σ
  userId : UUID

structure EmailAlreadyRegisteredError where
  email : String

abbrev RegistrationOutcome := Except EmailAlreadyRegisteredError User

section Calls
variable {σ : Type} (lower : String → String) (hash : String → σ → String) (call : Registration σ)

def Registration.normalizedEmail : String := lower (Text.strip call.email)

def Registration.user : User := ⟨call.userId, call.normalizedEmail lower, hash call.password call.salt⟩

def Registration.refusal : RegistrationOutcome := .error ⟨call.normalizedEmail lower⟩

end Calls

/-- Where a call stands when another one gets its turn. -/
inductive RegistrationPhase where
  | called
  | hashing
  | flushed (user : User)
  | finished (outcome : RegistrationOutcome)
  | cancelled

structure RegistrationState (ι τ : Type) where
  store : τ
  phase : ι → RegistrationPhase

def RegistrationState.start {ι τ : Type} (store : τ) : RegistrationState ι τ := ⟨store, fun _ => .called⟩

/-- A call goes on to its next suspension, or is ended from outside. -/
inductive RegistrationAction (ι : Type) where
  | resume (call : ι)
  | cancel (call : ι)

section Adapters
variable {ι σ : Type} [DecidableEq ι] (lower : String → String) (hash : String → σ → String)
  (calls : ι → Registration σ)

def RegistrationState.move {τ : Type} (s : RegistrationState ι τ) (call : ι) (phase : RegistrationPhase) (store : τ) :
    RegistrationState ι τ :=
  ⟨store, Function.update s.phase call phase⟩

namespace InMemoryUserRepository

def users (store : Dict UUID User) : List User := store.entries.map Prod.snd

def add (store : Dict UUID User) (user : User) : Except EmailAlreadyRegisteredError (Dict UUID User) :=
  if (users store).any fun existing => existing.email = user.email then .error ⟨user.email⟩
  else .ok (store.set user.id user)

def getByEmail (store : Dict UUID User) (email : String) : Option User :=
  (users store).find? fun user => user.email = email

/-- `AuthenticationService.register` over the store in memory. It is suspended for the hash only. -/
def register (s : RegistrationState ι (Dict UUID User)) (call : ι) : RegistrationState ι (Dict UUID User) :=
  match s.phase call with
  | .called =>
    match getByEmail s.store ((calls call).normalizedEmail lower) with
    | some _ => s.move call (.finished ((calls call).refusal lower)) s.store
    | none => s.move call .hashing s.store
  | .hashing =>
    match add s.store ((calls call).user lower hash) with
    | .error raised => s.move call (.finished (.error raised)) s.store
    | .ok store => s.move call (.finished (.ok ((calls call).user lower hash))) store
  | _ => s

def act (s : RegistrationState ι (Dict UUID User)) : RegistrationAction ι → RegistrationState ι (Dict UUID User)
  | .resume call => register lower hash calls s call
  | .cancel call =>
    match s.phase call with
    | .called | .hashing => s.move call .cancelled s.store
    | _ => s

/-- The calls take turns in any order. -/
def run (s : RegistrationState ι (Dict UUID User)) (schedule : List (RegistrationAction ι)) :
    RegistrationState ι (Dict UUID User) :=
  schedule.foldl (act lower hash calls) s

end InMemoryUserRepository

namespace PostgresUserRepository

/-- The primary key and the unique column of `UserRecord`. -/
def conflicts (user other : User) : Bool := user.id = other.id ∨ user.email = other.email

def getByEmail (rows : List User) (email : String) : Option User := rows.find? fun user => user.email = email

/-- `AuthenticationService.register` over the database, from statement to statement. An exception leaves
the unit of work by way of a rollback. -/
def register (s : RegistrationState ι (UniqueRows.Table ι User)) (call : ι) :
    RegistrationState ι (UniqueRows.Table ι User) :=
  match s.phase call with
  | .called =>
    match getByEmail (s.store.visible call) ((calls call).normalizedEmail lower) with
    | some _ => s.move call (.finished ((calls call).refusal lower)) (s.store.rollback call)
    | none => s.move call .hashing s.store
  | .hashing =>
    match s.store.insert conflicts call ((calls call).user lower hash) with
    | .violates => s.move call (.finished ((calls call).refusal lower)) (s.store.rollback call)
    | .waits => s
    | .inserted table => s.move call (.flushed ((calls call).user lower hash)) table
  | .flushed user => s.move call (.finished (.ok user)) (s.store.commit call)
  | _ => s

def act (s : RegistrationState ι (UniqueRows.Table ι User)) :
    RegistrationAction ι → RegistrationState ι (UniqueRows.Table ι User)
  | .resume call => register lower hash calls s call
  | .cancel call =>
    match s.phase call with
    | .called | .hashing | .flushed _ => s.move call .cancelled (s.store.rollback call)
    | _ => s

def run (s : RegistrationState ι (UniqueRows.Table ι User)) (schedule : List (RegistrationAction ι)) :
    RegistrationState ι (UniqueRows.Table ι User) :=
  schedule.foldl (act lower hash calls) s

end PostgresUserRepository
end Adapters
end LedgerLens
