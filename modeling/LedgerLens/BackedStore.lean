import Mathlib.Data.List.Find
import LedgerLens.PersistedTransactions
import LedgerLens.PostgresDatabase

namespace LedgerLens
variable {F : Type}

section Requests

/-- `CurrencyCode` -/
structure CurrencyCode (text : String) : Prop where
  length : text.length = 3
  capitals : ∀ c ∈ text.toList, 'A' ≤ c ∧ c ≤ 'Z'

theorem capital_toNat {c : Char} (capital : 'A' ≤ c ∧ c ≤ 'Z') : 65 ≤ c.toNat ∧ c.toNat ≤ 90 := by
  simpa [Char.le_def, UInt32.le_iff_toNat_le] using capital

theorem toUpper_of_capital {c : Char} (capital : 'A' ≤ c ∧ c ≤ 'Z') : c.toUpper = c := by
  have range := capital_toNat capital
  rw [Char.toUpper.eq_def, dif_neg]
  rintro ⟨lower, _⟩
  have := UInt32.le_iff_toNat_le.mp lower
  have a : 'a'.val.toNat = 97 := by decide
  have : c.val.toNat = c.toNat := rfl
  omega

theorem CurrencyCode.normalize [UnicodeDatabase] {text : String} (code : CurrencyCode text) :
    Text.upper (Text.strip text) = text := by
  have visible : ∀ c ∈ text.toList, Text.isSpace c = false := by
    intro c listed
    have range := capital_toNat (code.capitals c listed)
    simp only [Text.isSpace, Bool.or_eq_false_iff, Bool.and_eq_false_iff, decide_eq_false_iff_not]
    omega
  have raised : text.toList.flatMap UnicodeDatabase.upper = text.toList := by
    have each : ∀ c ∈ text.toList, UnicodeDatabase.upper c = [c] := by
      intro c listed
      have range := capital_toNat (code.capitals c listed)
      rw [UnicodeDatabase.upper_ascii c (by omega), toUpper_of_capital (code.capitals c listed)]
    rw [List.flatMap_congr each]
    simp
  rw [Text.strip_visible visible, Text.upper, raised, String.ofList_toList]

/-- `CreatePortfolioRequest`, of which the server takes the name. -/
structure PortfolioInput.Accepts (name baseCurrency : String) : Prop where
  name : name.length ≤ 100 ∧ '\x00' ∉ name.toList
  baseCurrency : CurrencyCode baseCurrency

/-- A transaction that `TransactionInput` accepts and that, normalized, the server takes. -/
structure Persistable [UnicodeDatabase] (newTransaction : NewTransaction) : Prop where
  accepts : TransactionInput.Accepts newTransaction
  convertible : newTransaction.occurredAt.astimezoneUtc.isSome
  text : newTransaction.PlainText
  symbol : ∀ symbol ∈ newTransaction.symbol, (Text.upper (Text.strip symbol)).length ≤ 32

end Requests

/-- `uuid4` repeats no id, and capitals are what `upper` leaves alone in every locale. -/
structure Server.Documented (server : Server) : Prop where
  uuid4 : Function.Injective server.uuid4
  upper : ∀ text : String, (∀ c ∈ text.toList, 'A' ≤ c ∧ c ≤ 'Z') → server.upper text = text

/-- The ids under which the store keeps portfolios and transactions. -/
def Store.ids (store : Store F) : List UUID := store.portfolios.keys ++ store.transactions.map Transaction.id

/-- The tables hold what the store holds, in the order in which it came. -/
structure Backs (server : Server) (drawn : Nat) (store : Store F) (database : Database) : Prop where
  portfolios : database.portfolios.map PostgresPortfolioRepository.toDomain = store.portfolios.entries.map Prod.snd
  keyed : ∀ entry ∈ store.portfolios.entries, entry.1 = entry.2.id
  created : database.portfolios.Pairwise fun a b => a.createdAt.instant < b.createdAt.instant
  transactions : Stores database.tables store.transactions
  utc : ∀ t ∈ store.transactions, t.inUtc = t
  assets : ∀ asset ∈ database.assets, ∀ n, drawn ≤ n → asset.id ≠ server.uuid4 n

section Assets
open PostgresTransactionRepository

/-- The get-or-create of an asset adds none but the one that the drawn id is for. -/
theorem PostgresTransactionRepository.assetId_assets {tables next : Tables} {newId : UUID} {symbol : Option String}
    {found : Option UUID} (run : assetId tables newId symbol = .ok (found, next)) :
    ∀ asset ∈ next.assets, asset ∈ tables.assets ∨ symbol.isSome ∧ asset.id = newId := by
  cases symbol with
  | none =>
    cases run
    exact fun asset listed => .inl listed
  | some symbol =>
    obtain ⟨⟨inserted, withAsset⟩, insert, run⟩ := Checked.bind_eq_ok.mp run
    have grown : ∀ asset ∈ withAsset.assets, asset ∈ tables.assets ∨ asset.id = newId := by
      obtain ⟨text, _, insert⟩ := Checked.bind_eq_ok.mp insert
      split at insert
      · cases insert
        exact fun asset listed => .inl listed
      · obtain ⟨_, insert⟩ := Checked.guard_eq_ok.mp insert
        cases insert
        refine List.forall_mem_append.mpr ⟨fun asset listed => .inl listed, fun asset single => ?_⟩
        cases List.mem_singleton.mp single
        exact .inr rfl
    have same : next.assets = withAsset.assets := by
      cases inserted with
      | some id => cases run; rfl
      | none =>
        simp only at run
        split at run
        · cases run
        · cases run; rfl
    rw [same]
    exact fun asset listed => (grown asset listed).imp_right fun drawn => ⟨rfl, drawn⟩

theorem PostgresTransactionRepository.add_assets {tables next : Tables} {draws : Draws} {t : Transaction}
    (run : add tables draws t = .ok next) :
    ∀ asset ∈ next.assets, asset ∈ tables.assets ∨ t.symbol.isSome ∧ asset.id = draws.assetId := by
  obtain ⟨⟨found, withAsset⟩, got, run⟩ := Checked.bind_eq_ok.mp run
  have same : next.assets = withAsset.assets := by
    obtain ⟨row, _, run⟩ := Checked.bind_eq_ok.mp run
    split at run
    · cases run
    · obtain ⟨_, run⟩ := Checked.guard_eq_ok.mp run
      obtain ⟨_, run⟩ := Checked.guard_eq_ok.mp run
      obtain ⟨_, run⟩ := Checked.guard_eq_ok.mp run
      obtain ⟨_, run⟩ := Checked.guard_eq_ok.mp run
      cases run
      rfl
  rw [same]
  exact assetId_assets got

end Assets

namespace Backs
variable {server : Server} {drawn : Nat} {store : Store F} {database : Database}

theorem empty (server : Server) (users : List UUID) : Backs server 0 ({} : Store F) ⟨users, [], [], []⟩ where
  portfolios := rfl
  keyed := by simp
  created := .nil
  transactions := Stores.empty []
  utc := by simp
  assets := by simp

section Portfolios

theorem keys (backs : Backs server drawn store database) :
    store.portfolios.keys = database.portfolios.map PortfolioRecord.id := by
  have ids := congrArg (List.map Portfolio.id) backs.portfolios
  rw [List.map_map, List.map_map] at ids
  rw [Dict.keys, List.map_congr_left backs.keyed]
  exact ids.symm

theorem getPortfolio (backs : Backs server drawn store database) (portfolioId : UUID) :
    (database.portfolios.find? fun record => record.id = portfolioId).map PostgresPortfolioRepository.toDomain =
      store.portfolios.get? portfolioId := by
  have entry : (store.portfolios.entries.find? fun entry => entry.1 = portfolioId) =
      store.portfolios.entries.find?
        ((fun portfolio : Portfolio => decide (portfolio.id = portfolioId)) ∘ Prod.snd) := by
    refine List.find?_congr fun entry listed => ?_
    rw [Function.comp_apply, backs.keyed entry listed]
  rw [Dict.get?, entry, ← List.find?_map, ← backs.portfolios, List.find?_map]
  rfl

theorem filterOwner (backs : Backs server drawn store database) (ownerId : UUID) :
    (database.portfolios.filter fun record => record.ownerId = ownerId).map PostgresPortfolioRepository.toDomain =
      (store.portfolios.entries.map Prod.snd).filter fun portfolio => portfolio.ownerId = ownerId := by
  rw [← backs.portfolios, List.filter_map]
  rfl

/-- The newest portfolios come first, as in the reversed dictionary. -/
theorem sortedPortfolios (backs : Backs server drawn store database) (ownerId : UUID) :
    (StableSort.sortOn
      (fun record : PortfolioRecord => toLex (OrderDual.toDual record.createdAt.instant, OrderDual.toDual record.id))
      (database.portfolios.filter fun record => record.ownerId = ownerId)).map PostgresPortfolioRepository.toDomain =
    (store.portfolios.entries.map Prod.snd).reverse.filter fun portfolio => portfolio.ownerId = ownerId := by
  have newest : (database.portfolios.filter fun record => record.ownerId = ownerId).reverse.Pairwise fun a b =>
      toLex (OrderDual.toDual a.createdAt.instant, OrderDual.toDual a.id) <
        toLex (OrderDual.toDual b.createdAt.instant, OrderDual.toDual b.id) := by
    rw [List.pairwise_reverse]
    exact (backs.created.filter _).imp fun earlier => Prod.Lex.toLex_lt_toLex.mpr (.inl earlier)
  rw [StableSort.sortOn_of_perm (List.reverse_perm _) newest, List.map_reverse, backs.filterOwner, List.filter_reverse]

theorem countForOwner (backs : Backs server drawn store database) (ownerId : UUID) :
    (database.portfolios.filter fun record => record.ownerId = ownerId).length =
      ((store.portfolios.entries.map Prod.snd).filter fun portfolio => portfolio.ownerId = ownerId).length := by
  rw [← backs.filterOwner, List.length_map]

theorem insertPortfolio (backs : Backs server drawn store database) (documented : server.Documented)
    {record : PortfolioRecord} (accepts : PortfolioInput.Accepts record.name record.baseCurrency)
    (fresh : record.id ∉ store.portfolios.keys) (registered : record.ownerId ∈ database.users) :
    database.insertPortfolio server record =
      .ok { database with portfolios := database.portfolios ++ [record] } := by
  obtain ⟨⟨fits, text⟩, code⟩ := accepts
  have unused : ¬ database.portfolios.any fun other => other.id = record.id := by
    rw [List.any_eq_true]
    rintro ⟨other, listed, same⟩
    rw [backs.keys] at fresh
    exact fresh (List.mem_map.mpr ⟨other, listed, of_decide_eq_true same⟩)
  have capitals : '\x00' ∉ record.baseCurrency.toList := fun nul => absurd (code.capitals _ nul) (by decide)
  have checked : record.baseCurrency = server.upper record.baseCurrency ∧ record.baseCurrency.length = 3 :=
    ⟨(documented.upper _ code.capitals).symm, code.length⟩
  simp only [Database.insertPortfolio, Sql.varchar_of_le fits, Sql.varchar_of_le code.length.le,
    Sql.text_of_notMem text, Sql.text_of_notMem capitals, columnValue, Checked.ok_bind]
  have known : ¬ database.users.all fun user => user ≠ record.ownerId := fun unknown =>
    absurd rfl (of_decide_eq_true (List.all_eq_true.mp unknown _ registered))
  rw [if_neg (not_not.mpr checked), if_neg unused, if_neg known]
  rfl

/-- A portfolio with a new id goes into the table and into the dictionary. -/
theorem addPortfolio (backs : Backs server drawn store database) {portfolio : Portfolio}
    (bare : portfolio.transactions = []) (fresh : portfolio.id ∉ store.portfolios.keys) {record : PortfolioRecord}
    (same : PostgresPortfolioRepository.toDomain record = portfolio)
    (past : ∀ earlier ∈ database.portfolios, earlier.createdAt.instant < record.createdAt.instant) :
    Backs server drawn (store.addPortfolio portfolio)
      { database with portfolios := database.portfolios ++ [record] } := by
  have entries : (store.addPortfolio portfolio).portfolios.entries =
      store.portfolios.entries ++ [(portfolio.id, portfolio)] := Dict.entries_set_of_fresh fresh
  have rows : (store.addPortfolio portfolio).transactions = store.transactions := by
    simp [Store.addPortfolio, bare]
  constructor
  · rw [entries, List.map_append, List.map_append, backs.portfolios, List.map_singleton, List.map_singleton, same]
  · rw [entries]
    refine List.forall_mem_append.mpr ⟨backs.keyed, fun entry single => ?_⟩
    cases List.mem_singleton.mp single
    rfl
  · refine List.pairwise_append.mpr ⟨backs.created, List.pairwise_singleton _ _, fun earlier listed last single => ?_⟩
    cases List.mem_singleton.mp single
    exact past earlier listed
  · rw [rows]
    exact ⟨backs.transactions.assets, backs.transactions.ids, backs.transactions.externalIds,
      backs.transactions.written⟩
  · rw [rows]
    exact backs.utc
  · exact backs.assets

end Portfolios

section Transactions

theorem listForPortfolio (backs : Backs server drawn store database) (portfolioId : UUID) :
    PostgresTransactionRepository.listForPortfolio database.tables portfolioId = .ok (store.ledger portfolioId) := by
  have kept : (store.ledger portfolioId).map Transaction.inUtc = store.ledger portfolioId := by
    refine (List.map_congr_left fun t listed => ?_).trans (List.map_id _)
    exact backs.utc t (List.mem_of_mem_filter (StableSort.mem_sortOn.mp listed))
  rw [backs.transactions.listForPortfolio]
  exact congrArg Except.ok kept

theorem getByExternalId (backs : Backs server drawn store database) (portfolioId : UUID) {externalId : String}
    (text : '\x00' ∉ externalId.toList) :
    PostgresTransactionRepository.getByExternalId database.tables portfolioId externalId =
      .ok (store.byExternalId portfolioId externalId) := by
  cases found : store.byExternalId portfolioId externalId with
  | some t =>
    obtain ⟨rfl, rfl⟩ := of_decide_eq_true (List.find?_some found :)
    have listed := List.mem_of_find?_eq_some found
    rw [backs.transactions.getByExternalId listed, backs.utc t listed]
  | none =>
    have absent : (database.tables.transactions.find? fun record =>
        record.portfolioId = portfolioId ∧ record.externalId = externalId) = none := by
      refine List.find?_eq_none.mpr (Checked.forall_of_forall₂ backs.transactions.written
        (fun t listed => List.find?_eq_none.mp found t listed) fun t row written other => ?_)
      obtain ⟨assetId, now, rfl, _⟩ := written.row
      exact other
    rw [PostgresTransactionRepository.getByExternalId, Sql.text_of_notMem text, columnValue, Checked.ok_bind, absent]
    rfl

theorem mem_portfolios (backs : Backs server drawn store database) {portfolioId : UUID} {portfolio : Portfolio}
    (found : store.portfolios.get? portfolioId = some portfolio) : portfolioId ∈ database.tables.portfolios := by
  have listed : portfolioId ∈ store.portfolios.keys :=
    List.mem_map.mpr ⟨_, Dict.get?_eq_some.mp found, rfl⟩
  rw [backs.keys] at listed
  exact listed

theorem writtenFor (backs : Backs server drawn store database) {row : TransactionRecord}
    (listed : row ∈ database.tables.transactions) :
    ∃ t ∈ store.transactions, WrittenAs database.tables.assets t row :=
  Checked.exists_of_forall₂ backs.transactions.written.flip row listed

/-- A transaction under a new id, with an external id that its portfolio has not used. -/
theorem addTransaction (backs : Backs server drawn store database) (documented : server.Documented)
    {t : Transaction} (storable : t.Storable) (text : t.PlainText) (utc : t.inUtc = t)
    (fresh : t.id ∉ store.transactions.map Transaction.id)
    (absent : store.byExternalId t.portfolioId t.externalId = none) {portfolio : Portfolio}
    (found : store.portfolios.get? t.portfolioId = some portfolio) (now : DateTime) :
    ∃ tables, PostgresTransactionRepository.add database.tables ⟨server.uuid4 drawn, now⟩ t =
        .ok tables ∧
      Backs server (drawn + t.symbol.toList.length) (store.addTransaction t) (database.withTables tables) := by
  have recorded : t.inUtc.createdAt.isSome := utc.symm ▸ storable.recorded
  rcases run : PostgresTransactionRepository.add database.tables ⟨server.uuid4 drawn, now⟩ t with
    raised | tables
  · rcases PostgresTransactionRepository.add_raises storable raised run with
      (⟨asset, listed, same⟩ | ⟨row, listed, same⟩ | ⟨row, listed, same⟩ | missing | unrecorded) | refused
    · exact absurd same (backs.assets asset listed drawn le_rfl)
    · obtain ⟨other, stored, written⟩ := backs.writtenFor listed
      obtain ⟨assetId, now, rfl, _⟩ := written.row
      exact absurd (List.mem_map.mpr ⟨other, stored, same⟩) fresh
    · obtain ⟨other, stored, written⟩ := backs.writtenFor listed
      obtain ⟨assetId, now, rfl, _⟩ := written.row
      exact absurd (decide_eq_true same) (List.find?_eq_none.mp absent other stored)
    · exact absurd (backs.mem_portfolios found) missing
    · rw [unrecorded] at recorded
      cases recorded
    · exact absurd text refused.not_plain
  · refine ⟨tables, rfl, ?_⟩
    obtain ⟨assetId, step⟩ := PostgresTransactionRepository.add_eq_ok storable run
    have kept : (database.withTables tables).tables = tables := by
      change Tables.mk database.tables.portfolios tables.assets tables.transactions = tables
      rw [← step.portfolios]
    refine ⟨backs.portfolios, backs.keyed, backs.created, ?_, ?_, fun asset listed n later => ?_⟩
    · rw [kept]
      exact backs.transactions.add storable run
    · exact List.forall_mem_append.mpr ⟨backs.utc, fun other single => List.mem_singleton.mp single ▸ utc⟩
    · rcases PostgresTransactionRepository.add_assets run asset listed with old | ⟨named, same⟩
      · exact backs.assets asset old n (Nat.le_of_add_right_le later)
      · rw [same]
        refine fun repeated => absurd (documented.uuid4 repeated) (Nat.ne_of_lt ?_)
        obtain ⟨symbol, named⟩ := Option.isSome_iff_exists.mp named
        rw [named] at later
        exact later

end Transactions
end Backs
end LedgerLens
