import Mathlib.Data.List.Nodup
import LedgerLens.Registration

namespace LedgerLens

section Accounts
variable {ι σ : Type} [DecidableEq ι] (lower : String → String) (hash : String → σ → String)
  (calls : ι → Registration σ)

/-- The users that are stored, and the answers that have been given. -/
structure AccountBook (ι : Type) where
  stored : List User
  outcome : ι → Option RegistrationOutcome

def AccountBook.answer (book : AccountBook ι) (call : ι) (outcome : RegistrationOutcome) (stored : List User) :
    AccountBook ι :=
  ⟨stored, Function.update book.outcome call (some outcome)⟩

/-- What may happen to an account book: a call without an answer stores its user when no stored one has its email,
or is refused when one has. -/
inductive AccountBook.Settles (book : AccountBook ι) : AccountBook ι → Prop
  | stays : Settles book book
  | registers {call} (pending : book.outcome call = none)
    (unused : ∀ user ∈ book.stored, user.email ≠ (calls call).normalizedEmail lower) :
    Settles book (book.answer call (.ok ((calls call).user lower hash)) (book.stored ++ [(calls call).user lower hash]))
  | refuses {call} (pending : book.outcome call = none)
    (used : ∃ user ∈ book.stored, user.email = (calls call).normalizedEmail lower) :
    Settles book (book.answer call ((calls call).refusal lower) book.stored)

/-- The ids that are drawn are new: none is drawn twice, and none belongs to a user already there. -/
structure FreshUserIds (initial : List User) : Prop where
  distinct : ∀ call other, (calls call).userId = (calls other).userId → call = other
  unused : ∀ call, ∀ user ∈ initial, user.id ≠ (calls call).userId

/-- Emails are stored once, by the calls that succeed; the others are refused because of a stored one. -/
structure SoundBook (initial : List User) (book : AccountBook ι) : Prop where
  emails : (book.stored.map User.email).Nodup
  own : ∀ call user, book.outcome call = some (.ok user) → user = (calls call).user lower hash
  stored : ∀ user, user ∈ book.stored ↔ user ∈ initial ∨ ∃ call, book.outcome call = some (.ok user)
  refused : ∀ call error, book.outcome call = some (.error error) →
    error.email = (calls call).normalizedEmail lower ∧
      ∃ user ∈ book.stored, user.email = (calls call).normalizedEmail lower

variable {lower hash calls} {initial : List User} {book next : AccountBook ι}

omit [DecidableEq ι] in
theorem SoundBook.start (emails : (initial.map User.email).Nodup) :
    SoundBook lower hash calls initial ⟨initial, fun _ => none⟩ where
  emails := emails
  own _ _ answered := nomatch answered
  stored user := by simp
  refused _ _ answered := nomatch answered

theorem SoundBook.settles (sound : SoundBook lower hash calls initial book)
    (settles : book.Settles lower hash calls next) : SoundBook lower hash calls initial next := by
  cases settles with
  | stays => exact sound
  | @registers call pending unused =>
    refine ⟨?_, fun other user answered => ?_, fun user => ?_, fun other error answered => ?_⟩
    · simp only [AccountBook.answer, List.map_append, List.map_singleton]
      refine List.nodup_append.mpr ⟨sound.emails, List.nodup_singleton _, fun email listed own single => ?_⟩
      obtain ⟨user, member, rfl⟩ := List.mem_map.mp listed
      cases List.mem_singleton.mp single
      exact unused user member
    · by_cases same : other = call
      · subst same
        simp only [AccountBook.answer, Function.update_self, Option.some.injEq, Except.ok.injEq] at answered
        exact answered.symm
      · simp only [AccountBook.answer, Function.update_of_ne same] at answered
        exact sound.own other user answered
    · simp only [AccountBook.answer, List.mem_append, List.mem_singleton, sound.stored]
      constructor
      · rintro ((old | ⟨other, answered⟩) | rfl)
        · exact .inl old
        · refine .inr ⟨other, ?_⟩
          have different : other ≠ call := by
            rintro rfl
            rw [pending] at answered
            cases answered
          rw [Function.update_of_ne different, answered]
        · exact .inr ⟨call, Function.update_self ..⟩
      · rintro (old | ⟨other, answered⟩)
        · exact .inl (.inl old)
        · by_cases same : other = call
          · subst same
            rw [Function.update_self, Option.some.injEq, Except.ok.injEq] at answered
            exact .inr answered.symm
          · rw [Function.update_of_ne same] at answered
            exact .inl (.inr ⟨other, answered⟩)
    · by_cases same : other = call
      · subst same
        simp [AccountBook.answer] at answered
      · simp only [AccountBook.answer, Function.update_of_ne same] at answered
        obtain ⟨email, user, member, own⟩ := sound.refused other error answered
        exact ⟨email, user, List.mem_append_left _ member, own⟩
  | @refuses call pending used =>
    have others : ∀ other user, (book.answer call ((calls call).refusal lower) book.stored).outcome other =
        some (.ok user) ↔ book.outcome other = some (.ok user) := by
      intro other user
      by_cases same : other = call
      · subst same
        simp [AccountBook.answer, Registration.refusal, pending]
      · simp [AccountBook.answer, same]
    refine ⟨sound.emails, fun other user answered => sound.own other user ((others other user).mp answered),
      fun user => ?_, fun other error answered => ?_⟩
    · simp only [others]
      exact sound.stored user
    · by_cases same : other = call
      · subst same
        simp only [AccountBook.answer, Function.update_self, Registration.refusal, Option.some.injEq,
          Except.error.injEq] at answered
        subst answered
        exact ⟨rfl, used⟩
      · simp only [AccountBook.answer, Function.update_of_ne same] at answered
        exact sound.refused other error answered

omit [DecidableEq ι] in
/-- Nobody else has the id that a call without an answer has drawn. -/
theorem SoundBook.id_unused (sound : SoundBook lower hash calls initial book) (fresh : FreshUserIds calls initial)
    {call : ι} (pending : book.outcome call = none) : ∀ user ∈ book.stored, user.id ≠ (calls call).userId := by
  intro user member same
  rcases (sound.stored user).mp member with old | ⟨other, answered⟩
  · exact fresh.unused call user old same
  · cases sound.own other user answered
    cases fresh.distinct other call same
    rw [pending] at answered
    cases answered

variable (lower hash calls) in
/-- For each email at most one call succeeds and the others are refused, the users stored are those of the calls that
succeeded, one for each email, and the hash stored is the one that the call has computed. -/
structure OneAccount (initial : List User) (book : AccountBook ι) : Prop where
  atMostOne : ∀ call other user user', book.outcome call = some (.ok user) → book.outcome other = some (.ok user') →
    (calls call).normalizedEmail lower = (calls other).normalizedEmail lower → call = other
  refused : ∀ call error, book.outcome call = some (.error error) →
    error = ⟨(calls call).normalizedEmail lower⟩ ∧ ∃ user ∈ book.stored, user.email = error.email
  stored : ∀ user, user ∈ book.stored ↔ user ∈ initial ∨ ∃ call, book.outcome call = some (.ok user)
  emails : (book.stored.map User.email).Nodup
  passwordHash : ∀ call user, book.outcome call = some (.ok user) →
    ∀ other ∈ book.stored, other.email = (calls call).normalizedEmail lower →
      other = ⟨(calls call).userId, (calls call).normalizedEmail lower, hash (calls call).password (calls call).salt⟩

omit [DecidableEq ι] in
theorem SoundBook.oneAccount (sound : SoundBook lower hash calls initial book) (fresh : FreshUserIds calls initial) :
    OneAccount lower hash calls initial book := by
  have only : ∀ call user, book.outcome call = some (.ok user) → ∀ other ∈ book.stored,
      other.email = (calls call).normalizedEmail lower → other = (calls call).user lower hash := by
    intro call user answered other member same
    cases sound.own call user answered
    exact List.inj_on_of_nodup_map sound.emails member ((sound.stored _).mpr (.inr ⟨call, answered⟩)) same
  refine ⟨fun call other user user' answered answered' same => ?_, fun call error answered => ?_, sound.stored,
    sound.emails, only⟩
  · cases sound.own other user' answered'
    have one := only call user answered _ ((sound.stored _).mpr (.inr ⟨other, answered'⟩)) same.symm
    exact (fresh.distinct other call (congrArg User.id one)).symm
  · obtain ⟨email, used⟩ := sound.refused call error answered
    exact ⟨congrArg EmailAlreadyRegisteredError.mk email, by rwa [email]⟩

end Accounts

/-- The answer of a call that has come to its end. -/
def RegistrationPhase.answer : RegistrationPhase → Option RegistrationOutcome
  | .finished outcome => some outcome
  | _ => none

def RegistrationState.book {ι τ : Type} (stored : τ → List User) (s : RegistrationState ι τ) : AccountBook ι :=
  ⟨stored s.store, fun call => (s.phase call).answer⟩

section Moves
variable {ι τ : Type} [DecidableEq ι] {s : RegistrationState ι τ} {stored : τ → List User} {call : ι} {store : τ}

theorem RegistrationState.phase_move (s : RegistrationState ι τ) (call : ι) (phase : RegistrationPhase) (store : τ)
    (other : ι) : (s.move call phase store).phase other = if other = call then phase else s.phase other := by
  by_cases same : other = call
  · subst same
    simp [move]
  · simp [move, same]

/-- The answers when one call has moved. -/
theorem RegistrationState.book_move (phase : RegistrationPhase) :
    (s.move call phase store).book stored =
      ⟨stored store, Function.update (s.book stored).outcome call phase.answer⟩ := by
  refine congrArg (AccountBook.mk _) (funext fun other => ?_)
  rw [phase_move]
  by_cases same : other = call
  · subst same
    simp
  · simp [same, book]

/-- A call that moves without an answer changes nothing, if nothing is stored. -/
theorem RegistrationState.book_move_of_pending (pending : (s.book stored).outcome call = none)
    {phase : RegistrationPhase} (silent : phase.answer = none) (unchanged : stored store = stored s.store) :
    (s.move call phase store).book stored = s.book stored := by
  rw [book_move, silent, unchanged, ← pending, Function.update_eq_self]
  rfl

end Moves

section Memory
open InMemoryUserRepository
variable {ι σ : Type} [DecidableEq ι] {lower : String → String} {hash : String → σ → String}
  {calls : ι → Registration σ} {initial : List User} {s : RegistrationState ι (Dict UUID User)}

/-- Every user is stored under its own id. -/
def KeyedById (store : Dict UUID User) : Prop := ∀ entry ∈ store.entries, entry.1 = entry.2.id

theorem getByEmail_eq_some {users : List User} {email : String} {user : User}
    (found : PostgresUserRepository.getByEmail users email = some user) : user ∈ users ∧ user.email = email :=
  ⟨List.mem_of_find?_eq_some found, by simpa using List.find?_some found⟩

theorem InMemoryUserRepository.add_eq_error {store : Dict UUID User} {user : User}
    {raised : EmailAlreadyRegisteredError} (refused : add store user = .error raised) :
    raised = ⟨user.email⟩ ∧ ∃ other ∈ users store, other.email = user.email := by
  unfold add at refused
  split at refused
  · next used =>
    obtain ⟨other, member, same⟩ := List.any_eq_true.mp used
    exact ⟨(Except.error.inj refused).symm, other, member, of_decide_eq_true same⟩
  · cases refused

theorem InMemoryUserRepository.add_eq_ok {store next : Dict UUID User} {user : User}
    (added : add store user = .ok next) :
    next = store.set user.id user ∧ ∀ other ∈ users store, other.email ≠ user.email := by
  unfold add at added
  split at added
  · cases added
  · next unused =>
    refine ⟨(Except.ok.inj added).symm, fun other member same => unused ?_⟩
    exact List.any_eq_true.mpr ⟨other, member, decide_eq_true same⟩

/-- A user with a new id goes to the end. -/
theorem KeyedById.set {store : Dict UUID User} (keyed : KeyedById store) {user : User}
    (unused : ∀ other ∈ users store, other.id ≠ user.id) :
    KeyedById (store.set user.id user) ∧ users (store.set user.id user) = users store ++ [user] := by
  have absent : user.id ∉ store.keys := by
    intro taken
    obtain ⟨other, member⟩ := Dict.mem_keys.mp taken
    exact unused other (List.mem_map_of_mem (f := Prod.snd) member) (keyed _ member).symm
  have appended := Dict.entries_set_of_fresh (a := user) absent
  refine ⟨fun entry listed => ?_, ?_⟩
  · rw [appended] at listed
    rcases List.mem_append.mp listed with old | new
    · exact keyed entry old
    · cases List.mem_singleton.mp new
      rfl
  · rw [users, appended, List.map_append]
    rfl

theorem InMemoryUserRepository.act_settles (fresh : FreshUserIds calls initial) (keyed : KeyedById s.store)
    (sound : SoundBook lower hash calls initial (s.book users)) (action : RegistrationAction ι) :
    KeyedById (act lower hash calls s action).store ∧
      (s.book users).Settles lower hash calls ((act lower hash calls s action).book users) := by
  cases action with
  | resume call =>
    simp only [act, register]
    split
    · next begun =>
      have pending : (s.book users).outcome call = none := congrArg RegistrationPhase.answer begun
      split
      · next user found =>
        refine ⟨keyed, ?_⟩
        rw [RegistrationState.book_move]
        exact .refuses pending ⟨user, getByEmail_eq_some found⟩
      · refine ⟨keyed, ?_⟩
        rw [RegistrationState.book_move_of_pending pending rfl rfl]
        exact .stays
    · next hashing =>
      have pending : (s.book users).outcome call = none := congrArg RegistrationPhase.answer hashing
      split
      · next raised refused =>
        obtain ⟨rfl, used⟩ := add_eq_error refused
        refine ⟨keyed, ?_⟩
        rw [RegistrationState.book_move]
        exact .refuses pending used
      · next store added =>
        obtain ⟨rfl, unused⟩ := add_eq_ok added
        have newId : ∀ user ∈ users s.store, user.id ≠ ((calls call).user lower hash).id :=
          sound.id_unused fresh pending
        obtain ⟨kept, appended⟩ := keyed.set newId
        refine ⟨kept, ?_⟩
        rw [RegistrationState.book_move, appended]
        exact .registers pending unused
    · exact ⟨keyed, .stays⟩
  | cancel call =>
    have silent : ∀ phase, s.phase call = phase → phase.answer = none →
        (s.move call .cancelled s.store).book users = s.book users := by
      rintro phase rfl pending
      exact RegistrationState.book_move_of_pending pending rfl rfl
    simp only [act]
    split
    · next begun =>
      rw [silent _ begun rfl]
      exact ⟨keyed, .stays⟩
    · next hashing =>
      rw [silent _ hashing rfl]
      exact ⟨keyed, .stays⟩
    · exact ⟨keyed, .stays⟩

theorem InMemoryUserRepository.run_sound (fresh : FreshUserIds calls initial) (keyed : KeyedById s.store)
    (sound : SoundBook lower hash calls initial (s.book users)) (schedule : List (RegistrationAction ι)) :
    SoundBook lower hash calls initial ((run lower hash calls s schedule).book users) := by
  induction schedule generalizing s with
  | nil => exact sound
  | cons action rest ih =>
    obtain ⟨kept, settles⟩ := act_settles fresh keyed sound action
    exact ih kept (sound.settles settles)

end Memory

section Database
open PostgresUserRepository
open UniqueRows (Table)
variable {ι σ : Type} [DecidableEq ι] {lower : String → String} {hash : String → σ → String}
  {calls : ι → Registration σ} {initial : List User} {s : RegistrationState ι (Table ι User)}

/-- The rows a call has inserted without a commit. -/
def RegistrationPhase.rows : RegistrationPhase → List User
  | .flushed user => [user]
  | _ => []

theorem conflicts_symm (user other : User) : conflicts user other = conflicts other user := by
  simp only [conflicts, eq_comm]

variable (lower hash calls) in
/-- The open transactions are those of the calls between flush and commit, each with the row of its call. -/
structure OpenRows (s : RegistrationState ι (Table ι User)) : Prop where
  sound : s.store.Sound conflicts
  own : ∀ call, s.store.own call = (s.phase call).rows
  flushed : ∀ call user, s.phase call = .flushed user → user = (calls call).user lower hash

theorem OpenRows.move (rows : OpenRows lower hash calls s) {call : ι} {phase : RegistrationPhase}
    {store : Table ι User} (sound : store.Sound conflicts)
    (own : ∀ other, store.own other = if other = call then phase.rows else s.store.own other)
    (flushed : ∀ user, phase = .flushed user → user = (calls call).user lower hash) :
    OpenRows lower hash calls (s.move call phase store) where
  sound := sound
  own other := by
    rw [RegistrationState.phase_move]
    refine (own other).trans ?_
    split
    · rfl
    · exact rows.own other
  flushed other user now := by
    rw [RegistrationState.phase_move] at now
    split at now
    · next same => exact same ▸ flushed user now
    · exact rows.flushed other user now

theorem OpenRows.own_of_phase (rows : OpenRows lower hash calls s) {call : ι} {phase : RegistrationPhase}
    (now : s.phase call = phase) : s.store.own call = phase.rows := now ▸ rows.own call

theorem visible_of_own_eq_nil {table : Table ι User} {call : ι} (rowless : table.own call = []) :
    table.visible call = table.committed := by
  rw [Table.visible, rowless, List.append_nil]

/-- The end of a transaction leaves none of its rows pending. -/
theorem OpenRows.rollback (rows : OpenRows lower hash calls s) (call : ι) {phase : RegistrationPhase}
    (ended : phase.rows = []) (unflushed : ∀ user, phase ≠ .flushed user) :
    OpenRows lower hash calls (s.move call phase (s.store.rollback call)) := by
  refine rows.move (rows.sound.rollback call) (fun other => ?_) fun user now => absurd now (unflushed user)
  rw [ended]
  exact Table.own_rollback other

/-- An insert that is refused meets the email of a committed row, if its id is its own. -/
theorem OpenRows.used (rows : OpenRows lower hash calls s) (fresh : FreshUserIds calls initial)
    (sound : SoundBook lower hash calls initial (s.book Table.committed)) {call : ι} (hashing : s.phase call = .hashing)
    (violates : s.store.insert conflicts call ((calls call).user lower hash) = .violates) :
    ∃ user ∈ s.store.committed, user.email = (calls call).normalizedEmail lower := by
  obtain ⟨user, seen, conflict⟩ := Table.insert_eq_violates violates
  rw [visible_of_own_eq_nil (rows.own_of_phase hashing)] at seen
  have pending : (s.book Table.committed).outcome call = none := congrArg RegistrationPhase.answer hashing
  rcases of_decide_eq_true conflict with sameId | sameEmail
  · exact absurd sameId.symm (sound.id_unused fresh pending user seen)
  · exact ⟨user, seen, sameEmail.symm⟩

/-- A row that is about to be committed has an email of its own. -/
theorem OpenRows.unused (rows : OpenRows lower hash calls s) {call : ι} {user : User}
    (flushed : s.phase call = .flushed user) :
    ∀ other ∈ s.store.committed, other.email ≠ (calls call).normalizedEmail lower := by
  intro other committed same
  have own : user ∈ s.store.own call := by
    rw [rows.own_of_phase flushed]
    exact List.mem_singleton_self user
  have listed : user ∈ s.store.pending.map Prod.snd := List.mem_map_of_mem (f := Prod.snd) (Table.mem_own.mp own)
  have apart := (List.pairwise_append.mp rows.sound).2.2 other committed user listed
  cases rows.flushed call user flushed
  simp only [conflicts, decide_eq_false_iff_not, not_or] at apart
  exact apart.2 same

theorem PostgresUserRepository.act_settles (fresh : FreshUserIds calls initial) (rows : OpenRows lower hash calls s)
    (sound : SoundBook lower hash calls initial (s.book Table.committed)) (action : RegistrationAction ι) :
    OpenRows lower hash calls (act lower hash calls s action) ∧
      (s.book Table.committed).Settles lower hash calls ((act lower hash calls s action).book Table.committed) := by
  cases action with
  | resume call =>
    simp only [act, register]
    split
    · next begun =>
      have pending : (s.book Table.committed).outcome call = none := congrArg RegistrationPhase.answer begun
      rw [visible_of_own_eq_nil (rows.own_of_phase begun)]
      split
      · next user found =>
        refine ⟨rows.rollback call rfl (fun _ now => by cases now), ?_⟩
        rw [RegistrationState.book_move]
        exact .refuses pending ⟨user, getByEmail_eq_some found⟩
      · refine ⟨rows.move rows.sound (fun other => ?_) (fun _ now => by cases now), ?_⟩
        · split
          · next same =>
            have rowless : s.store.own call = [] := rows.own_of_phase begun
            rw [same, rowless]
            rfl
          · rfl
        · rw [RegistrationState.book_move_of_pending pending rfl rfl]
          exact .stays
    · next hashing =>
      have pending : (s.book Table.committed).outcome call = none := congrArg RegistrationPhase.answer hashing
      split
      · next violates =>
        refine ⟨rows.rollback call rfl (fun _ now => by cases now), ?_⟩
        rw [RegistrationState.book_move]
        exact .refuses pending (rows.used fresh sound hashing violates)
      · exact ⟨rows, .stays⟩
      · next table inserted =>
        refine ⟨rows.move (rows.sound.insert conflicts_symm inserted) (fun other => ?_) fun user now => ?_, ?_⟩
        · have rowless : s.store.own call = [] := rows.own_of_phase hashing
          rw [Table.own_insert inserted, rowless, List.nil_append]
          rfl
        · cases now
          rfl
        · rw [RegistrationState.book_move_of_pending pending rfl]
          · exact .stays
          · rw [(Table.insert_eq_inserted inserted).1]
    · next user flushed =>
      have pending : (s.book Table.committed).outcome call = none := congrArg RegistrationPhase.answer flushed
      have kept : OpenRows lower hash calls (s.move call (.finished (.ok user)) (s.store.commit call)) :=
        rows.move (rows.sound.commit conflicts_symm call) (fun other => Table.own_commit other)
          fun _ now => by cases now
      refine ⟨kept, ?_⟩
      have committed : (s.store.commit call).committed = s.store.committed ++ [user] := by
        rw [Table.commit, rows.own_of_phase flushed]
        rfl
      have unused := rows.unused flushed
      rw [RegistrationState.book_move, committed]
      cases rows.flushed call user flushed
      exact .registers pending unused
    · exact ⟨rows, .stays⟩
  | cancel call =>
    have silent : ∀ phase, s.phase call = phase → phase.answer = none →
        (s.move call .cancelled (s.store.rollback call)).book Table.committed = s.book Table.committed := by
      rintro phase rfl pending
      exact RegistrationState.book_move_of_pending pending rfl rfl
    simp only [act]
    split
    · next begun =>
      rw [silent _ begun rfl]
      exact ⟨rows.rollback call rfl (fun _ now => by cases now), .stays⟩
    · next hashing =>
      rw [silent _ hashing rfl]
      exact ⟨rows.rollback call rfl (fun _ now => by cases now), .stays⟩
    · next user flushed =>
      rw [silent _ flushed rfl]
      exact ⟨rows.rollback call rfl (fun _ now => by cases now), .stays⟩
    · exact ⟨rows, .stays⟩

theorem PostgresUserRepository.run_sound (fresh : FreshUserIds calls initial) (rows : OpenRows lower hash calls s)
    (sound : SoundBook lower hash calls initial (s.book Table.committed)) (schedule : List (RegistrationAction ι)) :
    OpenRows lower hash calls (run lower hash calls s schedule) ∧
      SoundBook lower hash calls initial ((run lower hash calls s schedule).book Table.committed) := by
  induction schedule generalizing s with
  | nil => exact ⟨rows, sound⟩
  | cons action rest ih =>
    obtain ⟨kept, settles⟩ := act_settles fresh rows sound action
    exact ih kept (sound.settles settles)

end Database

section Progress
open UniqueRows (Table)
variable {ι σ : Type} [DecidableEq ι] {lower : String → String} {hash : String → σ → String}
  {calls : ι → Registration σ} {initial : List User}

/-- A call can come to its end from here. -/
def CanFinish {τ : Type} (act : RegistrationState ι τ → RegistrationAction ι → RegistrationState ι τ)
    (s : RegistrationState ι τ) (call : ι) : Prop :=
  ∃ (more : List (RegistrationAction ι)) (outcome : RegistrationOutcome),
    (more.foldl act s).phase call = .finished outcome

omit [DecidableEq ι] in
theorem CanFinish.of_next {τ : Type} {act : RegistrationState ι τ → RegistrationAction ι → RegistrationState ι τ}
    {s : RegistrationState ι τ} (action : RegistrationAction ι) {call : ι} (next : CanFinish act (act s action) call) :
    CanFinish act s call := by
  obtain ⟨more, outcome, finished⟩ := next
  exact ⟨action :: more, outcome, finished⟩

omit [DecidableEq ι] in
theorem CanFinish.now {τ : Type} {act : RegistrationState ι τ → RegistrationAction ι → RegistrationState ι τ}
    {s : RegistrationState ι τ} {call : ι} {outcome : RegistrationOutcome}
    (finished : s.phase call = .finished outcome) :
    CanFinish act s call := ⟨[], outcome, finished⟩

namespace InMemoryUserRepository

theorem finishes_hashing {s : RegistrationState ι (Dict UUID User)} {call : ι} (hashing : s.phase call = .hashing) :
    CanFinish (act lower hash calls) s call := by
  refine .of_next (.resume call) ?_
  simp only [act, register, hashing]
  split
  · exact .now (Function.update_self ..)
  · exact .now (Function.update_self ..)

theorem finishes_called {s : RegistrationState ι (Dict UUID User)} {call : ι} (begun : s.phase call = .called) :
    CanFinish (act lower hash calls) s call := by
  refine .of_next (.resume call) ?_
  simp only [act, register, begun]
  split
  · exact .now (Function.update_self ..)
  · exact finishes_hashing (Function.update_self ..)

end InMemoryUserRepository

namespace PostgresUserRepository
variable {s : RegistrationState ι (Table ι User)} {call : ι}

theorem finishes_flushed {user : User} (flushed : s.phase call = .flushed user) :
    CanFinish (act lower hash calls) s call := by
  refine .of_next (.resume call) ?_
  simp only [act, register, flushed]
  exact .now (Function.update_self ..)

/-- Once what an insert waits for is committed, it is refused. -/
theorem finishes_hashing (rows : OpenRows lower hash calls s) (hashing : s.phase call = .hashing) :
    CanFinish (act lower hash calls) s call := by
  cases insertion : s.store.insert conflicts call ((calls call).user lower hash) with
  | violates =>
    refine .of_next (.resume call) ?_
    simp only [act, register, hashing, insertion]
    exact .now (Function.update_self ..)
  | inserted table =>
    refine .of_next (.resume call) ?_
    simp only [act, register, hashing, insertion]
    exact finishes_flushed (Function.update_self ..)
  | waits =>
    obtain ⟨other, user, listed, conflict⟩ := Table.insert_eq_waits insertion
    have own := Table.mem_own.mpr listed
    rw [rows.own] at own
    cases open_ : s.phase other with
    | flushed row =>
      rw [open_] at own
      cases List.mem_singleton.mp own
      have different : call ≠ other := by
        rintro rfl
        rw [hashing] at open_
        cases open_
      have still : (s.move other (.finished (.ok user)) (s.store.commit other)).phase call = .hashing := by
        rw [RegistrationState.phase_move, if_neg different, hashing]
      have violates : (s.store.commit other).insert conflicts call ((calls call).user lower hash) = .violates :=
        Table.insert_of_visible (Table.visible_commit listed call) conflict
      refine .of_next (.resume other) (.of_next (.resume call) ?_)
      simp only [act, register, open_, still]
      simp only [RegistrationState.move, violates]
      exact .now (Function.update_self ..)
    | called | hashing | finished _ | cancelled =>
      rw [open_] at own
      cases own

theorem finishes_called (fresh : FreshUserIds calls initial) (rows : OpenRows lower hash calls s)
    (sound : SoundBook lower hash calls initial (s.book Table.committed)) (begun : s.phase call = .called) :
    CanFinish (act lower hash calls) s call := by
  refine .of_next (.resume call) ?_
  have kept := (act_settles fresh rows sound (.resume call)).1
  simp only [act, register, begun] at kept ⊢
  split at kept
  · exact .now (Function.update_self ..)
  · exact finishes_hashing kept (Function.update_self ..)

end PostgresUserRepository

section Moves
variable {τ : Type} {s : RegistrationState ι τ}

theorem RegistrationState.phase_of_move {call other : ι} {phase now : RegistrationPhase} {store : τ}
    (moved : (s.move other phase store).phase call = now) (different : phase ≠ now) : s.phase call = now := by
  rw [phase_move] at moved
  split at moved
  · exact absurd moved different
  · exact moved

theorem RegistrationState.cancelled_of_move {call other : ι} {store : τ}
    (moved : (s.move other .cancelled store).phase call = .cancelled) :
    s.phase call = .cancelled ∨ RegistrationAction.cancel other = .cancel call := by
  rw [phase_move] at moved
  split at moved
  · next same => exact .inr (same ▸ rfl)
  · exact .inl moved

omit [DecidableEq ι] in
/-- A phase that one kind of action alone brings about takes such an action. -/
theorem exists_of_run {act : RegistrationState ι τ → RegistrationAction ι → RegistrationState ι τ} {call : ι}
    {phase : RegistrationPhase} {P : RegistrationAction ι → Prop}
    (only : ∀ s action, (act s action).phase call = phase → s.phase call = phase ∨ P action)
    {schedule : List (RegistrationAction ι)} (before : s.phase call ≠ phase)
    (now : (schedule.foldl act s).phase call = phase) : ∃ action ∈ schedule, P action := by
  induction schedule generalizing s with
  | nil => exact absurd now before
  | cons action rest ih =>
    by_cases entered : (act s action).phase call = phase
    · exact ⟨action, List.mem_cons_self, (only s action entered).resolve_left before⟩
    · obtain ⟨later, member, holds⟩ := ih entered now
      exact ⟨later, List.mem_cons_of_mem _ member, holds⟩

end Moves

theorem InMemoryUserRepository.cancelled_act (s : RegistrationState ι (Dict UUID User))
    (action : RegistrationAction ι) (call : ι) (now : (act lower hash calls s action).phase call = .cancelled) :
    s.phase call = .cancelled ∨ action = .cancel call := by
  cases action with
  | resume other =>
    refine .inl ?_
    simp only [act, register] at now
    split at now
    · split at now
      · exact RegistrationState.phase_of_move now nofun
      · exact RegistrationState.phase_of_move now nofun
    · split at now
      · exact RegistrationState.phase_of_move now nofun
      · exact RegistrationState.phase_of_move now nofun
    · exact now
  | cancel other =>
    simp only [act] at now
    split at now
    · exact RegistrationState.cancelled_of_move now
    · exact RegistrationState.cancelled_of_move now
    · exact .inl now

/-- In memory no call stands between `add` and the end. -/
theorem InMemoryUserRepository.flushed_act {user : User} (s : RegistrationState ι (Dict UUID User))
    (action : RegistrationAction ι) (call : ι) (now : (act lower hash calls s action).phase call = .flushed user) :
    s.phase call = .flushed user := by
  cases action with
  | resume other =>
    simp only [act, register] at now
    split at now
    · split at now
      · exact RegistrationState.phase_of_move now nofun
      · exact RegistrationState.phase_of_move now nofun
    · split at now
      · exact RegistrationState.phase_of_move now nofun
      · exact RegistrationState.phase_of_move now nofun
    · exact now
  | cancel other =>
    simp only [act] at now
    split at now
    · exact RegistrationState.phase_of_move now nofun
    · exact RegistrationState.phase_of_move now nofun
    · exact now

theorem PostgresUserRepository.cancelled_act (s : RegistrationState ι (Table ι User))
    (action : RegistrationAction ι) (call : ι) (now : (act lower hash calls s action).phase call = .cancelled) :
    s.phase call = .cancelled ∨ action = .cancel call := by
  cases action with
  | resume other =>
    refine .inl ?_
    simp only [act, register] at now
    split at now
    · split at now
      · exact RegistrationState.phase_of_move now (fun same => by cases same)
      · exact RegistrationState.phase_of_move now (fun same => by cases same)
    · split at now
      · exact RegistrationState.phase_of_move now (fun same => by cases same)
      · exact now
      · exact RegistrationState.phase_of_move now (fun same => by cases same)
    · exact RegistrationState.phase_of_move now (fun same => by cases same)
    · exact now
  | cancel other =>
    simp only [act] at now
    split at now
    · exact RegistrationState.cancelled_of_move now
    · exact RegistrationState.cancelled_of_move now
    · exact RegistrationState.cancelled_of_move now
    · exact .inl now

end Progress

section Registers
open UniqueRows (Table)
variable {ι σ τ : Type} [DecidableEq ι] (lower : String → String) (hash : String → σ → String)
  (calls : ι → Registration σ)

/-- What holds of the calls whatever their turns: there is one account for each email, only a call that is ended
from outside ends without an answer, and any other can come to its end. -/
structure Registers (initial : List User) (stored : τ → List User)
    (run : List (RegistrationAction ι) → RegistrationState ι τ) : Prop where
  oneAccount : ∀ schedule, OneAccount lower hash calls initial ((run schedule).book stored)
  cancelled : ∀ schedule call, (run schedule).phase call = .cancelled → .cancel call ∈ schedule
  finishes : ∀ schedule call, (run schedule).phase call ≠ .cancelled →
    ∃ more outcome, (run (schedule ++ more)).phase call = .finished outcome

variable {lower hash calls}

theorem InMemoryUserRepository.registers {store : Dict UUID User} (keyed : KeyedById store)
    (emails : ((users store).map User.email).Nodup) (fresh : FreshUserIds calls (users store)) :
    Registers lower hash calls (users store) users (run lower hash calls (.start store)) := by
  refine ⟨fun schedule => ?_, fun schedule call now => ?_, fun schedule call running => ?_⟩
  · exact (run_sound fresh keyed (.start emails) schedule).oneAccount fresh
  · obtain ⟨action, member, rfl⟩ := exists_of_run (fun s action => cancelled_act s action call) (by nofun) now
    exact member
  · suffices finish : CanFinish (act lower hash calls) (run lower hash calls (.start store) schedule) call by
      obtain ⟨more, outcome, finished⟩ := finish
      exact ⟨more, outcome, by rwa [run, List.foldl_append]⟩
    cases now : (run lower hash calls (.start store) schedule).phase call with
    | called => exact finishes_called now
    | hashing => exact finishes_hashing now
    | flushed user =>
      obtain ⟨_, _, never⟩ := exists_of_run (P := fun _ => False)
        (fun s action flushed => .inl (flushed_act s action call flushed)) (by nofun) now
      exact never.elim
    | finished outcome => exact .now now
    | cancelled => exact absurd now running

theorem PostgresUserRepository.registers {rows : List User}
    (unique : rows.Pairwise fun user other => conflicts user other = false) (fresh : FreshUserIds calls rows) :
    Registers lower hash calls rows Table.committed (run lower hash calls (.start ⟨rows, []⟩)) := by
  have emails : (rows.map User.email).Nodup := by
    refine List.pairwise_map.mpr (unique.imp fun apart same => ?_)
    simp [conflicts, same] at apart
  have started : OpenRows lower hash calls (.start ⟨rows, []⟩ : RegistrationState ι (Table ι User)) := by
    refine ⟨?_, fun _ => rfl, fun _ _ flushed => nomatch flushed⟩
    unfold Table.Sound
    simpa [RegistrationState.start] using unique
  refine ⟨fun schedule => ?_, fun schedule call now => ?_, fun schedule call running => ?_⟩
  · exact (run_sound fresh started (.start emails) schedule).2.oneAccount fresh
  · obtain ⟨action, member, rfl⟩ := exists_of_run (fun s action => cancelled_act s action call) (by nofun) now
    exact member
  · obtain ⟨open_, sound⟩ := run_sound fresh started (.start emails) schedule
    suffices finish : CanFinish (act lower hash calls) (run lower hash calls (.start ⟨rows, []⟩) schedule) call by
      obtain ⟨more, outcome, finished⟩ := finish
      exact ⟨more, outcome, by rwa [run, List.foldl_append]⟩
    cases now : (run lower hash calls (.start ⟨rows, []⟩) schedule).phase call with
    | called => exact finishes_called fresh open_ sound now
    | hashing => exact finishes_hashing open_ now
    | flushed user => exact finishes_flushed now
    | finished outcome => exact .now now
    | cancelled => exact absurd now running

end Registers

section Samples

/-- Two calls with spellings of one email. -/
def sampleRegistrations (call : Bool) : Registration Nat :=
  if call then ⟨" Ann@example.com", "first", 1, ⟨1⟩⟩ else ⟨"ann@example.com ", "second", 2, ⟨2⟩⟩

def sampleHash (password : String) (salt : Nat) : String := password ++ toString salt

def asciiLower (s : String) : String := s.map Char.toLower

/-- Both calls look for the email before either stores it. -/
def sampleTurns : List (RegistrationAction Bool) :=
  [.resume true, .resume false, .resume false, .resume true, .resume false, .resume true]

example : ((PostgresUserRepository.run asciiLower sampleHash sampleRegistrations (.start ⟨[], []⟩)
    sampleTurns).store.committed.map fun user => (user.id.int, user.email)) = [(2, "ann@example.com")] := by
  decide +kernel

end Samples
end LedgerLens
