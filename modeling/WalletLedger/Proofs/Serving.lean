import WalletLedger.Proofs.Protocol
import WalletLedger.Proofs.Rows
import WalletLedger.Proofs.Tables

/-!
Transfers on a database that nobody else uses. While a transaction works on tables in which books
are written down, each operation of a unit does to the tables what it does to the books.
-/
namespace WalletLedger.Sql

namespace Database

theorem answer_eq {s : Statement} (inner : s.inner) (db : Database) :
    db.answer s = match db.tables.answer db.now s with
      | .error f => (.error f, db)
      | .ok (o, t) => (.ok o, db.put t) := by
  cases s <;> first | rfl | contradiction

def writing (committed : Tables) (users : List UserRecord) (b : Books) (clock : Timestamp) :
    Database :=
  ⟨committed, some (.of users b), clock⟩

def holding (users : List UserRecord) (b : Books) (clock : Timestamp) : Database :=
  ⟨.of users b, none, clock⟩

variable {committed : Tables} {users : List UserRecord} {b : Books} {clock now : Timestamp}
  {u : DatabaseUnit}

theorem writing_answer {s : Statement} {o : Outcome} {b' : Books} (inner : s.inner)
    (h : (Tables.of users b).answer clock s = .ok (o, .of users b')) :
    (writing committed users b clock).answer s = (.ok o, writing committed users b' clock) := by
  rw [answer_eq inner]
  show (match (Tables.of users b).answer clock s with
    | .error f => _
    | .ok (o, t) => _) = _
  rw [h]
  rfl

theorem holding_answer {s : Statement} {o : Outcome} {b' : Books} (inner : s.inner)
    (h : (Tables.of users b).answer clock s = .ok (o, .of users b')) :
    (holding users b clock).answer s = (.ok o, holding users b' clock) := by
  rw [answer_eq inner]
  show (match (Tables.of users b).answer clock s with
    | .error f => _
    | .ok (o, t) => _) = _
  rw [h]
  rfl

theorem run_single {ε α : Type} {s : Statement} {f : Reply → Except ε α} {db db' : Database}
    {r : Reply} (h : db.answer s = (r, db')) : (single s f).run answer db = (f r, db') := by
  rw [single, Dialogue.run, h]
  rfl

theorem run_lockWallets (pair : WalletPair) :
    (u.dialogue now (.lockWallets pair)).run answer (writing committed users b clock) =
      (.ok (pair.ids.filterMap b.wallet?), writing committed users b clock) := by
  have rows : pair.ids.filterMap (Tables.of users b).wallet? =
      (pair.ids.filterMap b.wallet?).map WalletRecord.of := by
    rw [List.map_filterMap]
    exact List.filterMap_congr fun id _ => Tables.wallet?_of id
  have answered : (Tables.of users b).answer clock (.lockWallets pair) =
      .ok (⟨((pair.ids.filterMap b.wallet?).map WalletRecord.of).map WalletRecord.row, 1⟩,
        .of users b) := by
    rw [← rows]
    rfl
  refine (run_single (writing_answer rfl answered)).trans ?_
  rw [Reply.all_rows WalletRecord.ofRow_row _ fun w _ => WalletRecord.toWallet_of w]

theorem run_findByKey (grown : b.Grown) (key : IdempotencyKey) :
    (u.dialogue now (.findByKey key)).run answer (writing committed users b clock) =
      (.ok (b.transactionByKey? key), writing committed users b clock) := by
  have answered : (Tables.of users b).answer clock (.selectTransactionByKey key) =
      .ok (⟨((b.transactionByKey? key).map TransactionRecord.of).toList.map TransactionRecord.row,
        1⟩, .of users b) := by
    rw [← Tables.transactionByKey?_of grown]
    rfl
  refine (run_single (writing_answer rfl answered)).trans ?_
  rw [Reply.first_row TransactionRecord.ofRow_row]
  intro t found
  have mem := (grown.transactionByKey?_iff.mp found).1
  exact TransactionRecord.toTransaction_of (grown.proper t mem).keyed

theorem run_insertTransaction {draft : TransactionDraft} {t : Transaction}
    (inserts : (Tables.of users b).insertTransaction draft now =
      .ok (1, .of users (b.withTransaction t)))
    (named : t.id = draft.id) (new : b.transaction? t.id = none)
    (keyed : IdempotencyKey.check t.key.text = .ok t.key) :
    (u.dialogue now (.insertTransaction draft)).run answer (writing committed users b clock) =
      (.ok (.inserted t),
        writing committed users (b.withTransaction t) clock) := by
  have inserted : (Tables.of users b).answer clock (.insertTransaction draft now) =
      .ok (⟨[], 1⟩, .of users (b.withTransaction t)) := by
    rw [Tables.answer, inserts]
    rfl
  have found : (b.withTransaction t).transaction? draft.id =
      some t := by
    rw [← named]
    exact (Table.find?_append_new (Table.find?_none_iff.mp new)).trans (if_pos rfl)
  have reread : (Tables.of users (b.withTransaction t)).answer clock
      (.selectTransaction draft.id) = .ok (⟨[(TransactionRecord.of t).row], 1⟩,
        .of users (b.withTransaction t)) := by
    rw [Tables.answer, Tables.transaction?_of, found]
    rfl
  simp only [DatabaseUnit.dialogue, Dialogue.run, writing_answer rfl inserted, Reply.affected]
  refine (run_single (writing_answer rfl reread)).trans ?_
  rw [Reply.reread, Reply.transactionRow_row]
  show ((TransactionRecord.of t).toTransaction.map InsertOutcome.inserted, _) = _
  rw [TransactionRecord.toTransaction_of keyed]
  rfl

theorem run_insertEntry {e : EntryDraft} (accepts : Tables.Accepts b e) :
    (u.dialogue now (.insertEntry e)).run answer (writing committed users b clock) =
      (.ok (e.recordedAt now),
        writing committed users (b.withEntry (e.recordedAt now)) clock) := by
  have inserted : (Tables.of users b).answer clock (.insertEntry e now) =
      .ok (⟨[(EntryRecord.of (e.recordedAt now)).row], 1⟩,
        .of users (b.withEntry (e.recordedAt now))) := by
    rw [Tables.answer, Tables.insertEntry_of accepts]
    rfl
  refine (run_single (writing_answer rfl inserted)).trans ?_
  rw [Reply.given_row EntryRecord.ofRow_row (EntryRecord.toEntry_of _)]

theorem run_setBalance {wallet : WalletId} {balance : Amount} (held : wallet ∈ u.locked)
    (stored : balance.Stored) (owed : ¬balance.IsNegative) (known : (b.wallet? wallet).isSome) :
    (u.dialogue now (.setBalance wallet balance)).run answer (writing committed users b clock) =
      (.ok (), writing committed users (b.setBalance clock (wallet, balance)) clock) := by
  obtain ⟨n, updates⟩ := Tables.updateBalance_of users clock stored owed known
  have updated : (Tables.of users b).answer clock (.updateBalance wallet balance) =
      .ok (⟨[], n + 1⟩, .of users (b.setBalance clock (wallet, balance))) := by
    rw [Tables.answer, updates]
    rfl
  rw [DatabaseUnit.dialogue, if_pos held]
  exact run_single (writing_answer rfl updated)

theorem run_setStatus {ts : List Transaction} {t : Transaction} (status : TransactionStatus)
    (last : b.transactions = ts ++ [t]) (old : ∀ x ∈ ts, x.id ≠ t.id)
    (pending : t.status = .pending) (keyed : IdempotencyKey.check t.key.text = .ok t.key) :
    (u.dialogue now (.setStatus t.id status)).run answer (writing committed users b clock) =
      (.ok (t.withStatus status now), writing committed users
        { b with transactions := ts ++ [t.withStatus status now] } clock) := by
  have found : b.transaction? t.id = some t := by
    rw [Books.transaction?, last]
    exact (Table.find?_append_new old).trans (if_pos rfl)
  have read : (Tables.of users b).answer clock (.selectTransaction t.id) =
      .ok (⟨[(TransactionRecord.of t).row], 1⟩, .of users b) := by
    rw [Tables.answer, Tables.transaction?_of, found]
    rfl
  have updated : (Tables.of users b).answer clock (.updateStatus t.id status now) =
      .ok (⟨[(TransactionRecord.of (t.withStatus status now)).row], 1⟩,
        .of users { b with transactions := ts ++ [t.withStatus status now] }) := by
    rw [Tables.answer, Tables.updateStatus_of status last old pending]
    rfl
  simp only [DatabaseUnit.dialogue, Dialogue.run, writing_answer rfl read,
    Reply.transactionRow_row]
  refine (run_single (writing_answer rfl updated)).trans ?_
  have means := Reply.first_row (n := 1) TransactionRecord.ofRow_row
    (some (t.withStatus status now))
    fun x same => by
      cases same
      exact TransactionRecord.toTransaction_of keyed
  simp only [Option.map_some, Option.toList_some, List.map_cons, List.map_nil] at means
  rw [Reply.completed, means]

end Database

end WalletLedger.Sql
