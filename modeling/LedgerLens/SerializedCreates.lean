import LedgerLens.ConcurrentCreates
import LedgerLens.Restamping

namespace LedgerLens
open Decimal (Context)
open RowLocks (Action Serialized State serial)
variable {F : Type} [UnicodeDatabase]

/-- The replay of a ledger succeeds; a position that falls below zero would stop it. -/
def Replays (ctx : Context) (rows : List Transaction) : Prop := ∃ positions, derivePositions ctx rows = .ok positions

theorem Accepts.replays {ctx : Context} {rows : List Transaction} {t : Transaction} (accepted : Accepts ctx rows t)
    (sound : SoundLedger (rowsOf t.portfolioId rows)) : Replays ctx (rowsOf t.portfolioId rows ++ [t]) := by
  have later := accepted.sound sound
  obtain ⟨positions, replayed⟩ := accepted.replayed
  rw [derivePositions_presorted ctx (fun other member => validateTransaction_eq_ok.mp (later.validated other member))
    later.utc] at replayed
  exact ⟨positions, replayed⟩

theorem SoundLedger.derivePositions_sorted {rows : List Transaction} (sound : SoundLedger rows) (ctx : Context) :
    derivePositions ctx (ledgerSorted rows) = derivePositions ctx rows := by
  rw [← List.append_nil (ledgerSorted rows), derivePositions_presorted, List.append_nil]
  · simpa using fun t member => validateTransaction_eq_ok.mp (sound.validated t member)
  · simpa using sound.utc

theorem Grows.replays {ctx : Context} {before after : World F} (grows : Grows ctx before after)
    (start : ∀ portfolioId, SoundLedger (before.store.rows portfolioId) ∧ Replays ctx (before.store.rows portfolioId))
    (portfolioId : UUID) : Replays ctx (after.store.rows portfolioId) :=
  (grows.invariant (fun rows => SoundLedger rows ∧ Replays ctx rows) start
    (fun _ _ accepted held => ⟨accepted.sound held.1, accepted.replays held.1⟩) portfolioId).2

/-- Whatever a request is answered with carries its external id. -/
theorem admission_externalId {ctx : Context} {ownerId portfolioId : UUID} {newTransaction : NewTransaction}
    {fresh : Fresh} {store : Store F} {creation : TransactionCreation}
    (decided : admission ctx ownerId portfolioId newTransaction fresh store = .ok creation) :
    creation.transaction.externalId = Text.strip newTransaction.externalId := by
  obtain ⟨_, transaction, _, _, built, _, outcome⟩ := admit_eq_ok.mp decided
  have carries := (BuiltFrom.of_eq_ok built).externalId_eq
  rcases outcome with ⟨existing, found, _, rfl⟩ | ⟨_, _, rfl⟩
  · exact (mem_rows_of_byExternalId found).2.trans carries
  · exact carries

def CreateRequest.call (request : CreateRequest) : Call F :=
  ⟨request.ownerId, .createTransaction request.portfolioId request.newTransaction request.fresh⟩

def CreateRequest.create (ctx : Context) (request : CreateRequest) : Service F TransactionCreation :=
  TransactionService.create ctx request.ownerId request.portfolioId request.newTransaction request.fresh

variable [FloatArithmetic F] {ι : Type}

/-- Creates executed one after another, each as a whole. -/
def runCreates (ctx : Context) (wiring : Wiring) (requests : ι → CreateRequest) (world : World F) (clients : List ι) :
    World F :=
  runCalls ctx wiring world (clients.map fun client => (requests client).call)

section OneAfterAnother
variable {ctx : Context} {wiring : Wiring} {requests : ι → CreateRequest} {world : World F}

theorem runCreates_append (first second : List ι) :
    runCreates ctx wiring requests world (first ++ second) =
      runCreates ctx wiring requests (runCreates ctx wiring requests world first) second := by
  rw [runCreates, List.map_append, runCalls, List.foldl_append]
  rfl

theorem runCreates_cons (client : ι) (rest : List ι) :
    runCreates ctx wiring requests world (client :: rest) = runCreates ctx wiring requests
      (world.update (settleCreation ((requests client).decision ctx world.store))) rest := by
  have step : ((serve ctx wiring ((requests client).call : Call F)).run world).2 =
      world.update (settleCreation ((requests client).decision ctx world.store)) := by
    simp only [CreateRequest.call, serve, Program.map_run, create_run]
    rfl
  rw [← step]
  rfl

theorem runCreates_store (clients : List ι) :
    (runCreates ctx wiring requests world clients).store =
      serial (fun client store => settleCreation ((requests client).decision ctx store) store) clients world.store := by
  induction clients generalizing world with
  | nil => rfl
  | cons client rest ih =>
    rw [runCreates_cons, ih]
    rfl

theorem runCreates_grows (clients : List ι) : Grows ctx world (runCreates ctx wiring requests world clients) :=
  runCalls_grows ..

/-- What is new in a portfolio was created in the turn of one of the clients. -/
theorem created_of_mem {portfolioId : UUID} {t : Transaction} {clients : List ι}
    (stored : t ∈ (runCreates ctx wiring requests world clients).store.rows portfolioId)
    (new : t ∉ world.store.rows portfolioId) : ∃ before client after, clients = before ++ client :: after ∧
      (requests client).decision ctx (runCreates ctx wiring requests world before).store = .ok ⟨t, true⟩ := by
  induction clients generalizing world with
  | nil => exact absurd stored new
  | cons client rest ih =>
    rw [runCreates_cons] at stored
    by_cases now : t ∈ (settleCreation ((requests client).decision ctx world.store) world.store).rows portfolioId
    · refine ⟨[], client, rest, rfl, ?_⟩
      rw [settleCreation_rows] at now
      split at now
      · next transaction decided =>
        have single := (List.mem_append.mp now).resolve_left new
        cases List.mem_singleton.mp (List.mem_of_mem_filter single)
        exact decided
      · exact absurd (by simpa using now) new
    · obtain ⟨before, other, after, rfl, created⟩ := ih stored now
      exact ⟨client :: before, other, after, rfl, by rwa [runCreates_cons]⟩

/-- The transaction of a successful outcome is in its portfolio from then on. -/
theorem stored_of_decision {before after : List ι} {client : ι} {creation : TransactionCreation}
    (decided : (requests client).decision ctx (runCreates ctx wiring requests world before).store = .ok creation) :
    creation.transaction ∈ (runCreates ctx wiring requests world (before ++ client :: after)).store.rows
      (requests client).portfolioId := by
  rw [runCreates_append, runCreates_cons]
  refine Grows.mem (runCreates_grows after) ?_
  rw [World.update_store, decided]
  exact admit_stored decided

/-- No transaction is created in two turns. -/
theorem created_once {before between : List ι} {client later : ι} {t : Transaction}
    (first : (requests client).decision ctx (runCreates ctx wiring requests world before).store = .ok ⟨t, true⟩)
    (second : (requests later).decision ctx
      (runCreates ctx wiring requests world (before ++ client :: between)).store = .ok ⟨t, true⟩) : False := by
  have stored : t ∈ (runCreates ctx wiring requests world (before ++ client :: between)).store.rows
      (requests client).portfolioId := stored_of_decision first
  have own := (Accepts.of_admit first).2
  have own' := (Accepts.of_admit second).2
  have absent := Store.byExternalId_eq_none.mp (admit_created second).absent
  rw [← own, own'] at stored
  exact absent t stored rfl

end OneAfterAnother

section Outcomes
variable (ctx : Context) (wiring : Wiring) (requests : ι → CreateRequest) (world : World F)
  (final : State ι UUID (Store F) CreateProgress (Except Error TransactionCreation))

/-- The ledgers and the outcomes are those of the completed creates executed one after another, in the
order in which `get_for_update` returned to them. -/
structure SerialInLockOrder : Prop where
  completed : ∀ client, client ∈ final.completed ↔ ∃ outcome, final.phase client = .answered outcome
  distinct : final.completed.Nodup
  rows : ∀ portfolioId, final.committed.rows portfolioId =
    (runCreates ctx wiring requests world final.completed).store.rows portfolioId
  ledgers : ∀ portfolioId, final.committed.ledger portfolioId =
    (runCreates ctx wiring requests world final.completed).store.ledger portfolioId
  outcomes : ∀ before client after, final.completed = before ++ client :: after →
    final.phase client =
      .answered (((requests client).create ctx).run (runCreates ctx wiring requests world before)).1

/-- Each new transaction was created for exactly one client; requests with one external id that
succeed all return the one transaction that is stored under it. -/
structure CreatedOnce : Prop where
  created : ∀ portfolioId, ∀ t ∈ final.committed.rows portfolioId, t ∉ world.store.rows portfolioId →
    ∃! client, final.phase client = .answered (.ok ⟨t, true⟩)
  stored : ∀ client creation, final.phase client = .answered (.ok creation) →
    ((final.committed.rows (requests client).portfolioId).filter fun t =>
      t.externalId = Text.strip (requests client).newTransaction.externalId) = [creation.transaction]
  identical : ∀ client other creation creation',
    (requests client).portfolioId = (requests other).portfolioId →
    Text.strip (requests client).newTransaction.externalId = Text.strip (requests other).newTransaction.externalId →
    final.phase client = .answered (.ok creation) → final.phase other = .answered (.ok creation') →
    creation.transaction = creation'.transaction ∧ (creation.created → creation'.created → client = other)

end Outcomes

section Schedules
variable {ctx : Context} {wiring : Wiring} {requests : ι → CreateRequest} {world : World F}
  {final : State ι UUID (Store F) CreateProgress (Except Error TransactionCreation)}

theorem serialInLockOrder [DecidableEq ι] (schedule : List (Action ι)) : SerialInLockOrder ctx wiring requests world
    ((createProtocol ctx requests).run (.start world.store) schedule) := by
  have lawful := createProtocol_lawful (F := F) ctx requests
  have serialized := (Serialized.start world.store).run lawful schedule
  generalize (createProtocol ctx requests).run (.start world.store) schedule = final at serialized ⊢
  have views : ∀ portfolioId, portfolioView portfolioId final.committed =
      portfolioView portfolioId (runCreates ctx wiring requests world final.completed).store := by
    intro portfolioId
    rw [runCreates_store]
    exact serialized.committed lawful portfolioId
  refine ⟨fun client => serialized.mem_completed, serialized.distinct.filter _, fun portfolioId => ?_,
    fun portfolioId => ?_, fun before client after place => ?_⟩
  · exact (Prod.mk.inj (views portfolioId)).2
  · exact (portfolioView_eq (views portfolioId)).2.2
  · rw [CreateRequest.create, create_run, runCreates_store]
    exact serialized.answered lawful place

/-- A completed create had its turn, and its outcome was decided in it. -/
theorem SerialInLockOrder.turn (serial : SerialInLockOrder ctx wiring requests world final) {client : ι}
    {outcome : Except Error TransactionCreation} (answered : final.phase client = .answered outcome) :
    ∃ before after, final.completed = before ++ client :: after ∧
      (requests client).decision ctx (runCreates ctx wiring requests world before).store = outcome := by
  obtain ⟨before, after, place⟩ := List.append_of_mem ((serial.completed client).mpr ⟨outcome, answered⟩)
  have decided := serial.outcomes before client after place
  rw [answered, CreateRequest.create, create_run] at decided
  cases decided
  exact ⟨before, after, place, rfl⟩

theorem SerialInLockOrder.stored (serial : SerialInLockOrder ctx wiring requests world final)
    (reached : ReachedStore world.store) {client : ι} {creation : TransactionCreation}
    (answered : final.phase client = .answered (.ok creation)) :
    ((final.committed.rows (requests client).portfolioId).filter fun t =>
      t.externalId = Text.strip (requests client).newTransaction.externalId) = [creation.transaction] := by
  obtain ⟨before, after, place, decided⟩ := serial.turn answered
  have grown : Grows ctx world (runCreates ctx wiring requests world final.completed) :=
    runCreates_grows final.completed
  have sound := (grown.reached reached).sound (requests client).portfolioId
  have member : creation.transaction ∈ (runCreates ctx wiring requests world final.completed).store.rows
      (requests client).portfolioId := by
    rw [place]
    exact stored_of_decision decided
  rw [serial.rows, ← admission_externalId decided]
  exact sound.filter_externalId member

/-- Two clients are not told that they created the same transaction. -/
theorem SerialInLockOrder.creator (serial : SerialInLockOrder ctx wiring requests world final) {client other : ι}
    {t : Transaction} (first : final.phase client = .answered (.ok ⟨t, true⟩))
    (second : final.phase other = .answered (.ok ⟨t, true⟩)) : client = other := by
  by_contra different
  obtain ⟨before, after, place, decided⟩ := serial.turn first
  obtain ⟨before', after', place', decided'⟩ := serial.turn second
  rcases List.append_eq_append_iff.mp (place.symm.trans place') with ⟨between, rfl, rest⟩ | ⟨between, rfl, rest⟩
  · cases between with
    | nil => exact different (List.cons.inj rest).1
    | cons head between =>
      cases (List.cons.inj rest).1
      exact created_once decided decided'
  · cases between with
    | nil => exact different (List.cons.inj rest).1.symm
    | cons head between =>
      cases (List.cons.inj rest).1
      exact created_once decided' decided

theorem SerialInLockOrder.createdOnce (serial : SerialInLockOrder ctx wiring requests world final)
    (reached : ReachedStore world.store) : CreatedOnce requests world final where
  created portfolioId t member new := by
    rw [serial.rows] at member
    obtain ⟨before, client, after, place, created⟩ := created_of_mem member new
    have answered := serial.outcomes before client after place
    rw [CreateRequest.create, create_run] at answered
    have decided : final.phase client = .answered (.ok ⟨t, true⟩) := answered.trans (congrArg _ created)
    exact ⟨client, decided, fun other second => serial.creator second decided⟩
  stored client creation answered := serial.stored reached answered
  identical client other creation creation' samePortfolio sameId answered answered' := by
    have only := serial.stored reached answered
    have only' := serial.stored reached answered'
    rw [samePortfolio, sameId, only'] at only
    have same : creation.transaction = creation'.transaction := (List.singleton_inj.mp only).symm
    refine ⟨same, fun created created' => ?_⟩
    obtain ⟨t, _⟩ := creation
    obtain ⟨t', _⟩ := creation'
    cases same
    cases created
    cases created'
    exact serial.creator answered answered'

end Schedules

/-- Whatever was called before, any number of creates under any schedule of their statements and
aborts leave the ledgers, and give the answers, of the completed creates one after another in the
order of their locks; what is new was created once, and no ledger sells what it does not hold. -/
theorem concurrent_creates [DecidableEq ι] (wiring : Wiring) (calls : List (Call F)) (requests : ι → CreateRequest)
    (schedule : List (Action ι)) :
    (∀ ctx,
      let world := runCalls ctx wiring {} calls
      let final := (createProtocol ctx requests).run (.start world.store) schedule
      SerialInLockOrder ctx wiring requests world final ∧ CreatedOnce requests world final ∧
        ∀ portfolioId, Replays ctx (final.committed.ledger portfolioId)) ∧
    ∀ portfolioId, NeverShort (((createProtocol .exact requests).run
      (.start (runCalls .exact wiring {} calls).store) schedule).committed.ledger portfolioId) := by
  refine ⟨fun ctx => ?_, fun portfolioId => ?_⟩
  · have serial : SerialInLockOrder ctx wiring requests (runCalls ctx wiring {} calls) _ := serialInLockOrder schedule
    have before : Grows ctx {} (runCalls ctx wiring {} calls) := runCalls_grows ..
    have grown : ∀ clients, Grows ctx {} (runCreates ctx wiring requests (runCalls ctx wiring {} calls) clients) :=
      fun clients => before.trans (runCreates_grows clients)
    refine ⟨serial, serial.createdOnce (before.reached reachedStore_empty), fun portfolioId => ?_⟩
    rw [serial.ledgers, Store.ledger, Replays, ((grown _).sound (fun _ => .nil) portfolioId).derivePositions_sorted]
    exact (grown _).replays (fun _ => ⟨.nil, [], rfl⟩) portfolioId
  · have serial : SerialInLockOrder .exact wiring requests (runCalls .exact wiring {} calls) _ :=
      serialInLockOrder schedule
    have before : Grows .exact {} (runCalls .exact wiring {} calls) := runCalls_grows ..
    have start : NeverShort [] := fun symbol => by simp
    rw [serial.ledgers]
    exact Grows.neverShort (before.trans (runCreates_grows _)) (fun _ => start) portfolioId

end LedgerLens
