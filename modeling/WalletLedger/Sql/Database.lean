import WalletLedger.Sql.Dialogue
import WalletLedger.Store.Table

/-!
A database for the ledger, with one connection to it: its four tables, what each statement reads and
writes there, and the rules of the schema, each of which refuses a statement as a whole. A
transaction works on a copy of the tables, which its commit puts in their place.
-/
namespace WalletLedger

/-- The amount in a column `NUMERIC(28, 8)`: eight fraction digits, where a half goes away from
zero, and at most 28 digits altogether. -/
def Amount.column? (a : Amount) : Option Amount :=
  let excess := tenTo (a.scale - 8)
  let units := (a.coefficient.natAbs * tenTo (8 - a.scale) + excess / 2) / excess
  if units < tenTo 28 then ofParts? (a.coefficient.sign * units) 8 else none

namespace Sql

def WalletRecord.of (w : Wallet) : WalletRecord :=
  ⟨w.id, w.owner, w.kind, w.currency.code, w.balance, .ofUtc w.createdAt, .ofUtc w.updatedAt⟩

def TransactionRecord.of (t : Transaction) : TransactionRecord :=
  ⟨t.id, t.sender, t.receiver, t.amount, t.currency.code, t.kind, t.description, t.status,
    t.key.text, .ofUtc t.createdAt, .ofUtc t.updatedAt⟩

def EntryRecord.of (e : Entry) : EntryRecord :=
  ⟨e.id, e.wallet, e.transaction, e.amount, e.kind, e.currency.code, e.before, e.after,
    .ofUtc e.createdAt⟩

def UserRecord.row (r : UserRecord) : Row := users.row (Statement.userValues r)

def WalletRecord.row (r : WalletRecord) : Row :=
  wallets.row [.uuid r.id, .uuid r.owner, .text r.kind.name, .text r.currency, .amount r.balance,
    .time r.createdAt, .time r.updatedAt]

def TransactionRecord.row (r : TransactionRecord) : Row :=
  transactions.row [.uuid r.id, .uuid r.sender, .uuid r.receiver, .amount r.amount,
    .text r.currency, .text r.kind.name, r.description.elim .null .text, .text r.status.name,
    .text r.key, .time r.createdAt, .time r.updatedAt]

def EntryRecord.row (r : EntryRecord) : Row :=
  entries.row [.uuid r.id, .uuid r.wallet, .uuid r.transaction, .amount r.amount, .text r.kind.name,
    .text r.currency, .amount r.before, .amount r.after, .time r.createdAt]

structure Tables where
  users : List UserRecord := []
  wallets : List WalletRecord := []
  transactions : List TransactionRecord := []
  entries : List EntryRecord := []
  deriving DecidableEq, Repr

def violated (state rule : String) : Failure :=
  .raised .querying (.driver (.postgres state rule))

def require (holds : Bool) (state rule : String) : Except Failure Unit :=
  if holds then .ok () else .error (violated state rule)

def numeric (a : Amount) : Except Failure Amount :=
  match a.column? with
  | some a => .ok a
  | none => .error (violated "22003" "numeric field overflow")

namespace Tables

def user? (t : Tables) (id : UserId) : Option UserRecord := Table.find? UserRecord.id id t.users

def wallet? (t : Tables) (id : WalletId) : Option WalletRecord :=
  Table.find? WalletRecord.id id t.wallets

def transaction? (t : Tables) (id : TransactionId) : Option TransactionRecord :=
  Table.find? TransactionRecord.id id t.transactions

def transactionByKey? (t : Tables) (key : String) : Option TransactionRecord :=
  Table.find? TransactionRecord.key key t.transactions

/-- The transactions of a wallet, latest first; of two made at one time the higher id. -/
def history (t : Tables) (wallet : WalletId) : List TransactionRecord :=
  (t.transactions.filter fun x => x.sender = wallet || x.receiver = wallet).mergeSort fun x y =>
    y.createdAt.utc.rank < x.createdAt.utc.rank ||
      (x.createdAt.utc.rank = y.createdAt.utc.rank && decide (y.id ≤ x.id))

def entriesOf (t : Tables) (transaction : TransactionId) : List EntryRecord :=
  let side (kind : EntryKind) :=
    t.entries.filter fun e => e.transaction = transaction && e.kind = kind
  side .debit ++ side .credit

def insertUser (t : Tables) (u : UserRecord) : Except Failure Tables := do
  require (!Table.has UserRecord.id u.id t.users) "23505" "users_pkey"
  require (!Table.has UserRecord.email u.email t.users) "23505" "users_email_key"
  return { t with users := t.users ++ [u] }

def insertWallet (t : Tables) (w : Wallet) : Except Failure (WalletRecord × Tables) := do
  let balance ← numeric w.balance
  let row := WalletRecord.of { w with balance := balance }
  require (!balance.IsNegative) "23514" "chk_wallet_balance_non_negative"
  require (!Table.has WalletRecord.id w.id t.wallets) "23505" "wallets_pkey"
  require (!t.wallets.any fun x => x.owner = w.owner && x.kind = w.kind)
    "23505" "uq_wallet_user_type"
  require (t.user? w.owner).isSome "23503" "wallets_user_id_fkey"
  return (row, { t with wallets := t.wallets ++ [row] })

/-- A key that is taken is no failure: there is nothing to insert. -/
def insertTransaction (t : Tables) (d : TransactionDraft) (now : Timestamp) :
    Except Failure (Nat × Tables) := do
  let amount ← numeric d.amount
  let row := TransactionRecord.of ({ d with amount := amount }.recordedAt now)
  require amount.IsPositive "23514" "chk_transaction_amount_positive"
  require (d.sender ≠ d.receiver) "23514" "chk_transaction_distinct_wallets"
  if Table.has TransactionRecord.key d.key.text t.transactions then return (0, t)
  require (!Table.has TransactionRecord.id d.id t.transactions) "23505" "transactions_pkey"
  require (t.wallet? d.sender).isSome "23503" "transactions_sender_wallet_id_fkey"
  require (t.wallet? d.receiver).isSome "23503" "transactions_receiver_wallet_id_fkey"
  return (1, { t with transactions := t.transactions ++ [row] })

def insertEntry (t : Tables) (d : EntryDraft) (now : Timestamp) :
    Except Failure (EntryRecord × Tables) := do
  let amount ← numeric d.amount
  let before ← numeric d.before
  let after ← numeric d.after
  let kept : EntryDraft := { d with amount := amount, before := before, after := after }
  let row := EntryRecord.of (kept.recordedAt now)
  require amount.IsPositive "23514" "chk_entry_amount_positive"
  require kept.consistent "23514" "chk_entry_balance_arithmetic"
  require (!Table.has EntryRecord.id d.id t.entries) "23505" "ledger_entries_pkey"
  require (!t.entries.any fun e => e.transaction = d.transaction && e.kind = d.kind)
    "23505" "uq_entry_per_side"
  require (t.wallet? d.wallet).isSome "23503" "ledger_entries_wallet_id_fkey"
  require (t.transaction? d.transaction).isSome "23503" "ledger_entries_transaction_id_fkey"
  return (row, { t with entries := t.entries ++ [row] })

def updateBalance (t : Tables) (now : Timestamp) (wallet : WalletId) (balance : Amount) :
    Except Failure (Nat × Tables) := do
  let balance ← numeric balance
  let hits := (t.wallets.filter (·.id = wallet)).length
  require (hits = 0 || !balance.IsNegative) "23514" "chk_wallet_balance_non_negative"
  return (hits, { t with wallets := t.wallets.map fun w =>
    if w.id = wallet then { w with balance := balance, updatedAt := .ofUtc now } else w })

/-- A transaction that is completed or has failed keeps its status. -/
def updateStatus (t : Tables) (id : TransactionId) (status : TransactionStatus) (now : Timestamp) :
    Except Failure (List TransactionRecord × Tables) := do
  let change (x : TransactionRecord) : TransactionRecord :=
    if x.id = id then { x with status := status, updatedAt := .ofUtc now } else x
  require (t.transactions.all fun x => !(x.id = id) || !x.status.terminal || x.status = status)
    "23001" "prevent_terminal_transaction_change"
  let rows := t.transactions.map change
  return (rows.filter (·.id = id), { t with transactions := rows })

/-- What is looked at when a transaction ends: the entries of a completed transaction are its
amount, once on each side. -/
def balanced (t : Tables) : Bool :=
  t.entries.all fun e =>
    match t.transaction? e.transaction with
    | none => true
    | some x => !(x.status = .completed) || EntryKind.all.all fun kind =>
      let amounts := (t.entriesOf x.id).filter (·.kind = kind)
      match Amount.sum? (amounts.map (·.amount)) with
      | some total => decide (total.SameValue x.amount)
      | none => false

def answer (t : Tables) (now : Timestamp) : Statement → Except Failure (Outcome × Tables)
  | .begin | .commit | .rollback | .abandon | .setLockTimeout _ | .define _ =>
    .ok ({ affected := 0 }, t)
  | .selectUser id => .ok ({ rows := (t.user? id).toList.map UserRecord.row }, t)
  | .selectUserByEmail email =>
    .ok ({ rows := (Table.find? UserRecord.email email t.users).toList.map UserRecord.row }, t)
  | .insertUser u => (t.insertUser u).map fun t => ({ rows := [u.row] }, t)
  | .selectWallet id => .ok ({ rows := (t.wallet? id).toList.map WalletRecord.row }, t)
  | .selectWalletOfKind owner kind =>
    let found := t.wallets.find? fun w => w.owner = owner && w.kind = kind
    .ok ({ rows := found.toList.map WalletRecord.row }, t)
  | .selectWalletsOf owner =>
    let found := (t.wallets.filter (·.owner = owner)).mergeSort fun x y =>
      x.createdAt.utc.rank ≤ y.createdAt.utc.rank
    .ok ({ rows := found.map WalletRecord.row }, t)
  | .insertWallet w => (t.insertWallet w).map fun (r, t) => ({ rows := [r.row] }, t)
  | .lockWallets pair => .ok ({ rows := (pair.ids.filterMap t.wallet?).map WalletRecord.row }, t)
  | .updateBalance wallet balance =>
    (t.updateBalance now wallet balance).map fun (n, t) => ({ affected := n }, t)
  | .selectTransaction id =>
    .ok ({ rows := (t.transaction? id).toList.map TransactionRecord.row }, t)
  | .selectTransactionByKey key =>
    .ok ({ rows := (t.transactionByKey? key.text).toList.map TransactionRecord.row }, t)
  | .selectHistory wallet limit offset =>
    let found := ((t.history wallet).drop offset).take limit
    .ok ({ rows := found.map TransactionRecord.row }, t)
  | .countHistory wallet =>
    .ok ({ rows := [[("num_items", .whole (t.history wallet).length)]] }, t)
  | .insertTransaction d now =>
    (t.insertTransaction d now).map fun (n, t) => ({ affected := n }, t)
  | .updateStatus id status now =>
    (t.updateStatus id status now).map fun (rows, t) =>
      ({ rows := rows.map TransactionRecord.row }, t)
  | .selectEntries transaction =>
    .ok ({ rows := (t.entriesOf transaction).map EntryRecord.row }, t)
  | .insertEntry d now => (t.insertEntry d now).map fun (r, t) => ({ rows := [r.row] }, t)

end Tables

structure Database where
  committed : Tables
  working : Option Tables := none
  now : Timestamp
  deriving DecidableEq, Repr

namespace Database

def tables (db : Database) : Tables := db.working.getD db.committed

/-- Outside of a transaction every statement is committed at once. -/
def put (db : Database) (t : Tables) : Database :=
  match db.working with
  | some _ => { db with working := some t }
  | none => { db with committed := t }

def answer (db : Database) : Statement → Reply × Database
  | .begin => (.ok { affected := 0 }, { db with working := some db.committed })
  | .commit =>
    if db.tables.balanced then
      (.ok { affected := 0 }, { db with committed := db.tables, working := none })
    else (.error (violated "23514" "check_transaction_entries"), { db with working := none })
  | .rollback | .abandon => (.ok { affected := 0 }, { db with working := none })
  | s =>
    match db.tables.answer db.now s with
    | .error f => (.error f, db)
    | .ok (o, t) => (.ok o, db.put t)

end Database

end Sql

end WalletLedger
