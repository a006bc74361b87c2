import Mathlib.Data.List.Nodup
import Mathlib.Logic.Function.Basic
import Mathlib.Tactic.Common

namespace RowLocks
universe u
variable {ι κ σ τ ℓ ω ο : Type u}

/-- What a statement leads to: the next one, or the end of the transaction with an answer. -/
inductive Step (ℓ ω ο : Type u) where
  | more (next : ℓ)
  | rollback (answer : ο)
  | commit (write : ω) (answer : ο)

/-- Clients that each run one transaction. Its first statement locks a row, if the row is there; every
further statement reads what is committed when it runs. -/
structure Protocol (ι κ σ ℓ ω ο : Type u) where
  row : ι → κ
  lockable : κ → σ → Bool
  missing : ι → ο
  locked : ι → σ → ℓ
  statement : ι → σ → ℓ → Step ℓ ω ο
  apply : ω → σ → σ

inductive Phase (ℓ ο : Type u) where
  | waiting
  | running (progress : ℓ)
  | answered (answer : ο)
  | aborted

def Phase.isAnswered : Phase ℓ ο → Bool
  | .answered _ => true
  | _ => false

/-- What is committed, who holds which lock, how far each client is, and the clients in the order in
which their first statement returned. -/
structure State (ι κ σ ℓ ο : Type u) where
  committed : σ
  holder : κ → Option ι
  phase : ι → Phase ℓ ο
  order : List ι

inductive Action (ι : Type u) where
  | advance (client : ι)
  | abort (client : ι)

def State.start (committed : σ) : State ι κ σ ℓ ο := ⟨committed, fun _ => none, fun _ => .waiting, []⟩

/-- The clients that have got their answers, in the order of their first statements. -/
def State.completed (s : State ι κ σ ℓ ο) : List ι := s.order.filter fun client => (s.phase client).isAnswered

section Actions
variable [DecidableEq ι] [DecidableEq κ]

def State.lock (s : State ι κ σ ℓ ο) (key : κ) (client : ι) (progress : ℓ) : State ι κ σ ℓ ο where
  committed := s.committed
  holder := Function.update s.holder key (some client)
  phase := Function.update s.phase client (.running progress)
  order := s.order ++ [client]

def State.move (s : State ι κ σ ℓ ο) (client : ι) (phase : Phase ℓ ο) : State ι κ σ ℓ ο :=
  { s with phase := Function.update s.phase client phase }

/-- The end of a transaction releases its lock. -/
def State.finish (s : State ι κ σ ℓ ο) (key : κ) (client : ι) (phase : Phase ℓ ο) (committed : σ) :
    State ι κ σ ℓ ο where
  committed := committed
  holder := Function.update s.holder key none
  phase := Function.update s.phase client phase
  order := s.order

namespace Protocol
variable (p : Protocol ι κ σ ℓ ω ο)

/-- A client moves by one statement; one whose row is locked by another stays where it is. An abort
undoes what is not committed. -/
def act (s : State ι κ σ ℓ ο) : Action ι → State ι κ σ ℓ ο
  | .advance client =>
    match s.phase client with
    | .waiting =>
      if p.lockable (p.row client) s.committed then
        if (s.holder (p.row client)).isNone then s.lock (p.row client) client (p.locked client s.committed) else s
      else { s.move client (.answered (p.missing client)) with order := s.order ++ [client] }
    | .running progress =>
      match p.statement client s.committed progress with
      | .more next => s.move client (.running next)
      | .rollback answer => s.finish (p.row client) client (.answered answer) s.committed
      | .commit write answer => s.finish (p.row client) client (.answered answer) (p.apply write s.committed)
    | _ => s
  | .abort client =>
    match s.phase client with
    | .waiting => s.move client .aborted
    | .running _ => s.finish (p.row client) client .aborted s.committed
    | _ => s

/-- A schedule: the clients act in any order. -/
def run (s : State ι κ σ ℓ ο) (actions : List (Action ι)) : State ι κ σ ℓ ο := actions.foldl p.act s

end Protocol
end Actions

/-- Where a client can be when nobody else commits. -/
inductive Protocol.Reaches (p : Protocol ι κ σ ℓ ω ο) (client : ι) (s : σ) : ℓ → Prop
  | locked : p.Reaches client s (p.locked client s)
  | more {progress next} : p.Reaches client s progress → p.statement client s progress = .more next →
      p.Reaches client s next

/-- Transactions that see and change nothing but their row, and that do on their own what `answer`
and `settle` say. -/
structure Lawful (p : Protocol ι κ σ ℓ ω ο) (view : κ → σ → τ) (answer : ι → σ → ο) (settle : ι → σ → σ) : Prop where
  lockable_local : ∀ {key s s'}, view key s = view key s' → p.lockable key s = p.lockable key s'
  locked_local : ∀ {client s s'}, view (p.row client) s = view (p.row client) s' →
    p.locked client s = p.locked client s'
  statement_local : ∀ {client s s'} progress, view (p.row client) s = view (p.row client) s' →
    p.statement client s progress = p.statement client s' progress
  answer_local : ∀ {client s s'}, view (p.row client) s = view (p.row client) s' → answer client s = answer client s'
  settle_local : ∀ {client s s'}, view (p.row client) s = view (p.row client) s' →
    view (p.row client) (settle client s) = view (p.row client) (settle client s')
  settle_other : ∀ {client key} s, p.row client ≠ key → view key (settle client s) = view key s
  missing : ∀ {client s}, p.lockable (p.row client) s = false →
    answer client s = p.missing client ∧ settle client s = s
  rollback : ∀ {client s progress o}, p.Reaches client s progress → p.statement client s progress = .rollback o →
    answer client s = o ∧ settle client s = s
  commit : ∀ {client s progress w o}, p.Reaches client s progress → p.statement client s progress = .commit w o →
    answer client s = o ∧ settle client s = p.apply w s

/-- One whole transaction after another. -/
def serial (settle : ι → σ → σ) (clients : List ι) (s : σ) : σ := clients.foldl (fun s client => settle client s) s

theorem serial_append (settle : ι → σ → σ) (first second : List ι) (s : σ) :
    serial settle (first ++ second) s = serial settle second (serial settle first s) := List.foldl_append

variable {p : Protocol ι κ σ ℓ ω ο} {view : κ → σ → τ} {answer : ι → σ → ο} {settle : ι → σ → σ}

theorem Protocol.Reaches.congr (lawful : Lawful p view answer settle) {client : ι} {s s' : σ} {progress : ℓ}
    (same : view (p.row client) s = view (p.row client) s') (reaches : p.Reaches client s progress) :
    p.Reaches client s' progress := by
  induction reaches with
  | locked =>
    rw [lawful.locked_local same]
    exact .locked
  | more _ next ih =>
    rw [lawful.statement_local _ same] at next
    exact .more ih next

/-- Of a serial execution, a row sees only the clients that lock it. -/
theorem serial_view [DecidableEq κ] (lawful : Lawful p view answer settle) (key : κ) (clients : List ι) {s s' : σ}
    (same : view key s = view key s') :
    view key (serial settle clients s) =
      view key (serial settle (clients.filter fun client => p.row client = key) s') := by
  induction clients generalizing s s' with
  | nil => exact same
  | cons client rest ih =>
    by_cases own : p.row client = key
    · subst own
      rw [List.filter_cons_of_pos (by simp)]
      exact ih (lawful.settle_local same)
    · rw [List.filter_cons_of_neg (by simpa using own)]
      exact ih ((lawful.settle_other s own).trans same)

section Invariant
variable [DecidableEq ι] [DecidableEq κ]

/-- The clients that have come to a row, in order. -/
def turns (p : Protocol ι κ σ ℓ ω ο) (order : List ι) (key : κ) : List ι :=
  order.filter fun client => p.row client = key

/-- Those of some clients that have got their answers. -/
def answeredOf (phase : ι → Phase ℓ ο) (clients : List ι) : List ι :=
  clients.filter fun client => (phase client).isAnswered

omit [DecidableEq ι] in
theorem mem_turns {order : List ι} {key : κ} {client : ι} :
    client ∈ turns p order key ↔ client ∈ order ∧ p.row client = key := by
  simp [turns]

omit [DecidableEq ι] in
theorem turns_own (order : List ι) (client : ι) :
    turns p (order ++ [client]) (p.row client) = turns p order (p.row client) ++ [client] := by
  simp [turns]

omit [DecidableEq ι] in
theorem turns_other (order : List ι) {client : ι} {key : κ} (other : p.row client ≠ key) :
    turns p (order ++ [client]) key = turns p order key := by
  simp [turns, other]

omit [DecidableEq κ] in
/-- A client counts as answered when it is; what becomes of it changes nothing for the others. -/
theorem answeredOf_update {phase : ι → Phase ℓ ο} {clients : List ι} {client : ι} {next : Phase ℓ ο}
    (kept : client ∈ clients → next.isAnswered = (phase client).isAnswered) :
    answeredOf (Function.update phase client next) clients = answeredOf phase clients := by
  refine List.filter_congr fun other member => ?_
  by_cases same : other = client
  · subst same
    rw [Function.update_self, kept member]
  · rw [Function.update_of_ne same]

/-- The committed data of every row are those of its clients in the order of their turns, each client
that has its answer got the one it would have got alone in its turn, and a client that is under way
has the last turn on its row and has seen nothing but what is still there. -/
structure Serialized (p : Protocol ι κ σ ℓ ω ο) (view : κ → σ → τ) (answer : ι → σ → ο) (settle : ι → σ → σ)
    (initial : σ) (s : State ι κ σ ℓ ο) : Prop where
  distinct : s.order.Nodup
  listed : ∀ client ∈ s.order, s.phase client ≠ .waiting
  holder : ∀ key client, s.holder key = some client ↔
    p.row client = key ∧ ∃ progress, s.phase client = .running progress
  running : ∀ client progress, s.phase client = .running progress →
    p.lockable (p.row client) s.committed = true ∧ p.Reaches client s.committed progress ∧
      ∃ before, turns p s.order (p.row client) = before ++ [client]
  views : ∀ key, view key s.committed = view key (serial settle (answeredOf s.phase (turns p s.order key)) initial)
  answers : ∀ client o, s.phase client = .answered o → ∃ before after,
    turns p s.order (p.row client) = before ++ client :: after ∧
      answer client (serial settle (answeredOf s.phase before) initial) = o

omit [DecidableEq ι] in
theorem Serialized.start (initial : σ) : Serialized p view answer settle initial (.start initial) where
  distinct := List.nodup_nil
  listed _ member := nomatch member
  holder _ _ := by simp [State.start]
  running _ _ running := nomatch running
  views _ := rfl
  answers _ _ answered := nomatch answered

variable {initial : σ} {s : State ι κ σ ℓ ο} {client : ι}

omit [DecidableEq ι] in
theorem Serialized.exclusive (serialized : Serialized p view answer settle initial s) {other : ι}
    {progress progress' : ℓ} (first : s.phase client = .running progress) (second : s.phase other = .running progress')
    (same : p.row other = p.row client) : other = client := by
  have holds := (serialized.holder _ client).mpr ⟨rfl, progress, first⟩
  have holds' := (serialized.holder _ other).mpr ⟨same, progress', second⟩
  exact Option.some.inj (holds'.symm.trans holds)

omit [DecidableEq ι] in
/-- Nobody who has had an earlier turn on a row is still under way. -/
theorem Serialized.not_before (serialized : Serialized p view answer settle initial s) {progress : ℓ}
    (running : s.phase client = .running progress) {other : ι} {before after : List ι}
    (turn : turns p s.order (p.row other) = before ++ other :: after) : client ∉ before := by
  intro earlier
  have member : client ∈ turns p s.order (p.row other) := turn ▸ List.mem_append_left _ earlier
  obtain ⟨_, _, first, last⟩ := serialized.running client progress running
  rw [(mem_turns.mp member).2, turn] at last
  have nodup : (before ++ other :: after).Nodup := turn ▸ serialized.distinct.filter _
  have behind : client ∈ other :: after := by
    have ends := congrArg List.getLast? last
    rw [List.getLast?_append_of_ne_nil _ (List.cons_ne_nil _ _), List.getLast?_concat] at ends
    exact List.mem_of_getLast? ends
  exact (List.nodup_append.mp nodup).2.2 client earlier client behind rfl

omit [DecidableEq ι] in
/-- What a client under way finds on its row is what the clients before it have left. -/
theorem Serialized.view_before (serialized : Serialized p view answer settle initial s) {progress : ℓ}
    (running : s.phase client = .running progress) : ∃ first, turns p s.order (p.row client) = first ++ [client] ∧
      client ∉ first ∧ view (p.row client) s.committed =
        view (p.row client) (serial settle (answeredOf s.phase first) initial) := by
  obtain ⟨_, _, first, last⟩ := serialized.running client progress running
  refine ⟨first, last, serialized.not_before running last, ?_⟩
  have pending : answeredOf s.phase [client] = [] := by simp [answeredOf, running, Phase.isAnswered]
  have before := serialized.views (p.row client)
  rwa [last, answeredOf, List.filter_append, ← answeredOf, ← answeredOf, pending, List.append_nil] at before

omit [DecidableEq ι] in
theorem Serialized.distinct_later (serialized : Serialized p view answer settle initial s) (absent : client ∉ s.order) :
    (s.order ++ [client]).Nodup := by
  have later := serialized.distinct.concat absent
  rwa [List.concat_eq_append] at later

/-- A client that comes later changes nothing for those that have their answers. -/
theorem Serialized.answers_later (serialized : Serialized p view answer settle initial s) (absent : client ∉ s.order)
    (next : Phase ℓ ο) {other : ι} {o : ο} (answered : s.phase other = .answered o) : ∃ before after,
      turns p (s.order ++ [client]) (p.row other) = before ++ other :: after ∧
        answer other (serial settle (answeredOf (Function.update s.phase client next) before) initial) = o := by
  obtain ⟨before, after, turn, alone⟩ := serialized.answers other o answered
  have outside : client ∉ before := fun member => absent (mem_turns.mp (turn ▸ List.mem_append_left _ member)).1
  refine ⟨before, after ++ turns p [client] (p.row other), ?_, ?_⟩
  · rw [turns, List.filter_append, ← turns, turn, List.append_assoc]
    rfl
  · rw [answeredOf_update fun member => absurd member outside]
    exact alone

/-- A statement that only reads, or an abort before the lock. -/
theorem Serialized.move (serialized : Serialized p view answer settle initial s) {next : Phase ℓ ο}
    (pending : (s.phase client).isAnswered = false) (pending' : next.isAnswered = false) (begun : next ≠ .waiting)
    (sameLock : (∃ progress, next = .running progress) ↔ ∃ progress, s.phase client = .running progress)
    (reaches : ∀ progress, next = .running progress → p.Reaches client s.committed progress) :
    Serialized p view answer settle initial (s.move client next) where
  distinct := serialized.distinct
  listed other member := by
    by_cases same : other = client
    · subst same
      simpa [State.move] using begun
    · simpa [State.move, same] using serialized.listed other member
  holder key other := by
    refine (serialized.holder key other).trans (and_congr_right fun _ => ?_)
    by_cases same : other = client
    · subst same
      simpa [State.move] using sameLock.symm
    · simp [State.move, same]
  running other progress running := by
    by_cases same : other = client
    · subst same
      simp only [State.move, Function.update_self] at running
      obtain ⟨earlier, ran⟩ := sameLock.mp ⟨progress, running⟩
      obtain ⟨lockable, _, last⟩ := serialized.running other earlier ran
      exact ⟨lockable, reaches progress running, last⟩
    · simp only [State.move, Function.update_of_ne same] at running
      exact serialized.running other progress running
  views key := by
    rw [State.move, answeredOf_update fun _ => pending'.trans pending.symm]
    exact serialized.views key
  answers other o answered := by
    by_cases same : other = client
    · subst same
      simp only [State.move, Function.update_self] at answered
      rw [answered] at pending'
      cases pending'
    · simp only [State.move, Function.update_of_ne same] at answered
      obtain ⟨before, after, turn, alone⟩ := serialized.answers other o answered
      refine ⟨before, after, turn, ?_⟩
      rw [State.move, answeredOf_update fun _ => pending'.trans pending.symm]
      exact alone

/-- The first statement, when the row is there and free. -/
theorem Serialized.lock (serialized : Serialized p view answer settle initial s) (waiting : s.phase client = .waiting)
    (lockable : p.lockable (p.row client) s.committed = true) (free : s.holder (p.row client) = none) :
    Serialized p view answer settle initial (s.lock (p.row client) client (p.locked client s.committed)) := by
  have absent : client ∉ s.order := fun member => serialized.listed client member waiting
  have elsewhere : ∀ {other progress}, s.phase other = .running progress → p.row client ≠ p.row other := by
    intro other progress running same
    have holds := (serialized.holder _ other).mpr ⟨rfl, progress, running⟩
    rw [← same, free] at holds
    cases holds
  have pending : (.running (p.locked client s.committed) : Phase ℓ ο).isAnswered = (s.phase client).isAnswered := by
    rw [waiting]
    rfl
  refine ⟨?_, fun other member => ?_, fun key other => ?_, fun other progress running => ?_, fun key => ?_,
    fun other o answered => ?_⟩
  · exact serialized.distinct_later absent
  · by_cases same : other = client
    · subst same
      simp [State.lock]
    · have earlier : other ∈ s.order := by simpa [State.lock, same] using member
      simpa [State.lock, same] using serialized.listed other earlier
  · simp only [State.lock]
    by_cases own : key = p.row client
    · subst own
      rw [Function.update_self, Option.some.injEq]
      constructor
      · rintro rfl
        exact ⟨rfl, _, Function.update_self ..⟩
      · rintro ⟨row, progress, running⟩
        by_contra different
        rw [Function.update_of_ne (Ne.symm different)] at running
        exact elsewhere running row.symm
    · rw [Function.update_of_ne own, serialized.holder]
      refine and_congr_right fun row => ?_
      have different : other ≠ client := by
        rintro rfl
        exact own row.symm
      rw [Function.update_of_ne different]
  · by_cases same : other = client
    · subst same
      simp only [State.lock, Function.update_self, Phase.running.injEq] at running
      subst running
      exact ⟨lockable, .locked, _, turns_own ..⟩
    · simp only [State.lock, Function.update_of_ne same] at running
      simp only [State.lock, turns_other s.order (elsewhere running)]
      exact serialized.running other progress running
  · simp only [State.lock]
    rw [answeredOf_update fun _ => pending]
    by_cases own : p.row client = key
    · subst own
      have skipped : answeredOf s.phase [client] = [] := by simp [answeredOf, waiting, Phase.isAnswered]
      rw [turns_own, answeredOf, List.filter_append, ← answeredOf, ← answeredOf, skipped, List.append_nil]
      exact serialized.views _
    · rw [turns_other _ own]
      exact serialized.views key
  · by_cases same : other = client
    · subst same
      simp [State.lock] at answered
    · simp only [State.lock, Function.update_of_ne same] at answered
      exact serialized.answers_later absent _ answered

/-- The first statement, when there is no row. -/
theorem Serialized.missing (lawful : Lawful p view answer settle)
    (serialized : Serialized p view answer settle initial s) (waiting : s.phase client = .waiting)
    (missing : p.lockable (p.row client) s.committed = false) :
    Serialized p view answer settle initial
      { s.move client (.answered (p.missing client)) with order := s.order ++ [client] } := by
  have absent : client ∉ s.order := fun member => serialized.listed client member waiting
  obtain ⟨answers, settles⟩ := lawful.missing missing
  have elsewhere : ∀ {other progress}, s.phase other = .running progress → p.row client ≠ p.row other := by
    intro other progress running same
    have lockable := (serialized.running other progress running).1
    rw [← same, missing] at lockable
    cases lockable
  have turned : ∀ key, answeredOf (Function.update s.phase client (.answered (p.missing client)))
      (turns p s.order key) = answeredOf s.phase (turns p s.order key) :=
    fun key => answeredOf_update fun member => absurd (mem_turns.mp member).1 absent
  refine ⟨?_, fun other member => ?_, fun key other => ?_, fun other progress running => ?_, fun key => ?_,
    fun other o answered => ?_⟩
  · exact serialized.distinct_later absent
  · by_cases same : other = client
    · subst same
      simp [State.move]
    · have earlier : other ∈ s.order := by simpa [State.move, same] using member
      simpa [State.move, same] using serialized.listed other earlier
  · refine (serialized.holder key other).trans (and_congr_right fun _ => ?_)
    by_cases same : other = client
    · subst same
      simp [State.move, waiting]
    · simp [State.move, same]
  · by_cases same : other = client
    · subst same
      simp [State.move] at running
    · simp only [State.move, Function.update_of_ne same] at running
      simp only [State.move, turns_other s.order (elsewhere running)]
      exact serialized.running other progress running
  · simp only [State.move]
    by_cases own : p.row client = key
    · subst own
      have last : answeredOf (Function.update s.phase client (.answered (p.missing client))) [client] = [client] := by
        simp [answeredOf, Phase.isAnswered]
      rw [turns_own, answeredOf, List.filter_append, ← answeredOf, ← answeredOf, last, turned, serial_append]
      refine Eq.trans ?_ (lawful.settle_local (serialized.views _))
      rw [settles]
    · rw [turns_other _ own, turned]
      exact serialized.views key
  · simp only [State.move]
    by_cases same : other = client
    · subst same
      simp only [State.move, Function.update_self, Phase.answered.injEq] at answered
      refine ⟨_, [], turns_own .., ?_⟩
      rw [turned, ← answered, ← answers]
      exact (lawful.answer_local (serialized.views _)).symm
    · simp only [State.move, Function.update_of_ne same] at answered
      exact serialized.answers_later absent _ answered

/-- The end of a transaction: it is undone, or it takes effect as a whole. -/
theorem Serialized.finish (lawful : Lawful p view answer settle)
    (serialized : Serialized p view answer settle initial s) {progress : ℓ}
    (running : s.phase client = .running progress) {next : Phase ℓ ο} {committed : σ}
    (ends : (next = .aborted ∧ committed = s.committed) ∨
      (next = .answered (answer client s.committed) ∧ committed = settle client s.committed)) :
    Serialized p view answer settle initial (s.finish (p.row client) client next committed) := by
  have elsewhere : ∀ {key}, p.row client ≠ key → view key committed = view key s.committed := by
    intro key other
    rcases ends with ⟨_, rfl⟩ | ⟨_, rfl⟩
    · rfl
    · exact lawful.settle_other _ other
  have ended : next ≠ .waiting ∧ ∀ progress, next ≠ .running progress := by
    rcases ends with ⟨rfl, _⟩ | ⟨rfl, _⟩ <;> simp
  obtain ⟨first, last, outside, before⟩ := serialized.view_before running
  refine ⟨serialized.distinct, fun other member => ?_, fun key other => ?_, fun other later running' => ?_,
    fun key => ?_, fun other o answered => ?_⟩
  · by_cases same : other = client
    · subst same
      simpa [State.finish] using ended.1
    · simpa [State.finish, same] using serialized.listed other member
  · simp only [State.finish]
    by_cases own : key = p.row client
    · subst own
      simp only [Function.update_self, reduceCtorEq, false_iff, not_and, not_exists]
      intro row later running'
      by_cases same : other = client
      · subst same
        rw [Function.update_self] at running'
        exact ended.2 later running'
      · rw [Function.update_of_ne same] at running'
        exact same (serialized.exclusive running running' row)
    · rw [Function.update_of_ne own, serialized.holder]
      refine and_congr_right fun row => ?_
      have different : other ≠ client := by
        rintro rfl
        exact own row.symm
      rw [Function.update_of_ne different]
  · by_cases same : other = client
    · subst same
      simp only [State.finish, Function.update_self] at running'
      exact absurd running' (ended.2 later)
    · simp only [State.finish, Function.update_of_ne same] at running'
      have row : p.row client ≠ p.row other := fun row => same (serialized.exclusive running running' row.symm)
      obtain ⟨lockable, reaches, turn⟩ := serialized.running other later running'
      refine ⟨?_, reaches.congr lawful (elsewhere row).symm, turn⟩
      exact (lawful.lockable_local (elsewhere row)).trans lockable
  · simp only [State.finish]
    by_cases own : p.row client = key
    · subst own
      rw [last, answeredOf, List.filter_append, ← answeredOf, ← answeredOf,
        answeredOf_update fun member => absurd member outside]
      rcases ends with ⟨rfl, rfl⟩ | ⟨rfl, rfl⟩
      · have undone : answeredOf (Function.update s.phase client .aborted) [client] = [] := by
          simp [answeredOf, Phase.isAnswered]
        rw [undone, List.append_nil]
        exact before
      · have done : answeredOf (Function.update s.phase client (.answered (answer client s.committed))) [client] =
            [client] := by
          simp [answeredOf, Phase.isAnswered]
        rw [done, serial_append]
        exact lawful.settle_local before
    · rw [elsewhere own, answeredOf_update fun member => absurd (mem_turns.mp member).2 own]
      exact serialized.views key
  · simp only [State.finish]
    by_cases same : other = client
    · subst same
      simp only [State.finish, Function.update_self] at answered
      rcases ends with ⟨rfl, _⟩ | ⟨rfl, _⟩
      · cases answered
      · cases answered
        refine ⟨first, [], last, ?_⟩
        rw [answeredOf_update fun member => absurd member outside]
        exact (lawful.answer_local before).symm
    · simp only [State.finish, Function.update_of_ne same] at answered
      obtain ⟨before, after, turn, alone⟩ := serialized.answers other o answered
      refine ⟨before, after, turn, ?_⟩
      rw [answeredOf_update fun member => absurd member (serialized.not_before running turn)]
      exact alone

/-- One action of one client. -/
theorem Serialized.act (lawful : Lawful p view answer settle) (serialized : Serialized p view answer settle initial s)
    (action : Action ι) : Serialized p view answer settle initial (p.act s action) := by
  cases action with
  | advance client =>
    cases phase : s.phase client with
    | waiting =>
      simp only [Protocol.act, phase]
      split
      · next lockable =>
        split
        · next free => exact serialized.lock phase lockable (by simpa using free)
        · exact serialized
      · next missing => exact serialized.missing lawful phase (by simpa using missing)
    | running progress =>
      have reaches := (serialized.running client progress phase).2.1
      cases result : p.statement client s.committed progress with
      | more next =>
        simp only [Protocol.act, phase, result]
        refine serialized.move (by rw [phase]; rfl) rfl (by simp) (by simp [phase]) fun later same => ?_
        cases same
        exact reaches.more result
      | rollback o =>
        obtain ⟨answers, settles⟩ := lawful.rollback reaches result
        simp only [Protocol.act, phase, result]
        exact serialized.finish lawful phase (.inr ⟨by rw [answers], settles.symm⟩)
      | commit w o =>
        obtain ⟨answers, settles⟩ := lawful.commit reaches result
        simp only [Protocol.act, phase, result]
        exact serialized.finish lawful phase (.inr ⟨by rw [answers], settles.symm⟩)
    | answered o => simpa only [Protocol.act, phase] using serialized
    | aborted => simpa only [Protocol.act, phase] using serialized
  | abort client =>
    cases phase : s.phase client with
    | waiting =>
      simp only [Protocol.act, phase]
      exact serialized.move (by rw [phase]; rfl) rfl (by simp) (by simp [phase]) (by simp)
    | running progress =>
      simp only [Protocol.act, phase]
      exact serialized.finish lawful phase (.inl ⟨rfl, rfl⟩)
    | answered o => simpa only [Protocol.act, phase] using serialized
    | aborted => simpa only [Protocol.act, phase] using serialized

theorem Serialized.run (lawful : Lawful p view answer settle) (serialized : Serialized p view answer settle initial s)
    (actions : List (Action ι)) : Serialized p view answer settle initial (p.run s actions) := by
  induction actions generalizing s with
  | nil => exact serialized
  | cons action rest ih => exact ih (serialized.act lawful action)

omit [DecidableEq ι] in
theorem Serialized.mem_completed (serialized : Serialized p view answer settle initial s) :
    client ∈ s.completed ↔ ∃ o, s.phase client = .answered o := by
  rw [State.completed, List.mem_filter]
  constructor
  · rintro ⟨_, answered⟩
    cases phase : s.phase client with
    | answered o => exact ⟨o, rfl⟩
    | _ => simp [phase, Phase.isAnswered] at answered
  · rintro ⟨o, answered⟩
    obtain ⟨before, after, turn, _⟩ := serialized.answers client o answered
    have member : client ∈ turns p s.order (p.row client) := by simp [turn]
    exact ⟨(mem_turns.mp member).1, by rw [answered]; rfl⟩

omit [DecidableEq ι] in
theorem completed_turns (key : κ) :
    (s.completed.filter fun client => p.row client = key) = answeredOf s.phase (turns p s.order key) :=
  List.filter_comm ..

omit [DecidableEq ι] in
/-- Every row is as if the completed clients had run one after another. -/
theorem Serialized.committed (lawful : Lawful p view answer settle)
    (serialized : Serialized p view answer settle initial s) (key : κ) :
    view key s.committed = view key (serial settle s.completed initial) := by
  rw [serialized.views, serial_view lawful key s.completed (s := initial) rfl, completed_turns]

omit [DecidableEq ι] in
/-- So is every answer. -/
theorem Serialized.answered (lawful : Lawful p view answer settle)
    (serialized : Serialized p view answer settle initial s) {before after : List ι}
    (place : s.completed = before ++ client :: after) :
    s.phase client = .answered (answer client (serial settle before initial)) := by
  have nodup : (before ++ client :: after).Nodup := place ▸ serialized.distinct.filter _
  have member : client ∈ s.completed := by simp [place]
  obtain ⟨o, answered⟩ := serialized.mem_completed.mp member
  obtain ⟨first, last, turn, alone⟩ := serialized.answers client o answered
  have done : (s.phase client).isAnswered := by
    rw [answered]
    rfl
  have split : (before.filter fun other => p.row other = p.row client) ++ client ::
        (after.filter fun other => p.row other = p.row client) =
      answeredOf s.phase first ++ client :: answeredOf s.phase last := by
    have kept : answeredOf s.phase (client :: last) = client :: answeredOf s.phase last := List.filter_cons_of_pos done
    rw [← kept, answeredOf, answeredOf, ← List.filter_append, ← turn, ← answeredOf, ← completed_turns, place,
      List.filter_append, List.filter_cons_of_pos (by simp)]
  have same : (before.filter fun other => p.row other = p.row client) = answeredOf s.phase first := by
    refine ((List.append_cons_inj_of_notMem (fun listed => ?_) fun listed => ?_).mp split).1
    · exact (List.nodup_append.mp nodup).2.2 client (List.mem_of_mem_filter listed) client List.mem_cons_self rfl
    · exact (List.nodup_cons.mp (List.nodup_append.mp nodup).2.1).1 (List.mem_of_mem_filter listed)
  rw [answered, ← alone, ← same]
  exact congrArg _ (lawful.answer_local (serial_view lawful _ before rfl).symm)

end Invariant
end RowLocks
