import WalletLedger.Sql.Record
import WalletLedger.TimeSpan
import WalletLedger.WalletPair

/-!
The statements that the ledger sends to a database: what each is about, its text, and the values
for the numbered places in the text. Columns of enumerations are cast to text on the way out and
back on the way in.
-/
namespace WalletLedger.Sql

inductive Statement where
  | begin
  | commit
  | rollback
  /-- The transaction ends because nobody holds it any more. -/
  | abandon
  | setLockTimeout (wait : TimeSpan)
  | selectUser (id : UserId)
  | selectUserByEmail (email : String)
  | insertUser (user : UserRecord)
  | selectWallet (id : WalletId)
  | selectWalletOfKind (owner : UserId) (kind : WalletKind)
  | selectWalletsOf (owner : UserId)
  | insertWallet (wallet : Wallet)
  | lockWallets (pair : WalletPair)
  | updateBalance (wallet : WalletId) (balance : Amount)
  | selectTransaction (id : TransactionId)
  | selectTransactionByKey (key : IdempotencyKey)
  | selectHistory (wallet : WalletId) (limit offset : Nat)
  | countHistory (wallet : WalletId)
  | insertTransaction (draft : TransactionDraft) (now : Timestamp)
  | updateStatus (transaction : TransactionId) (status : TransactionStatus) (now : Timestamp)
  | selectEntries (transaction : TransactionId)
  | insertEntry (draft : EntryDraft) (now : Timestamp)
  | define (text : String)
  deriving DecidableEq, Repr

inductive Manner where
  | step (name : String)
  | query
  | execute
  deriving DecidableEq, Repr

structure Column where
  name : String
  enumeration : Option String := none

instance : Coe String Column := ⟨fun name => { name }⟩

structure Relation where
  name : String
  columns : List Column

def users : Relation := ⟨"users", ["id", "email", "full_name", "created_at", "updated_at"]⟩

def wallets : Relation :=
  ⟨"wallets", ["id", "user_id", ⟨"wallet_type", some "wallet_type"⟩, "currency", "balance",
    "created_at", "updated_at"]⟩

def transactions : Relation :=
  ⟨"transactions", ["id", "sender_wallet_id", "receiver_wallet_id", "amount", "currency",
    ⟨"transaction_type", some "transaction_type"⟩, "description",
    ⟨"status", some "transaction_status"⟩, "idempotency_key", "created_at", "updated_at"]⟩

def entries : Relation :=
  ⟨"ledger_entries", ["id", "wallet_id", "transaction_id", "amount",
    ⟨"entry_type", some "entry_type"⟩, "currency", "balance_before", "balance_after",
    "created_at"]⟩

def quoted (name : String) : String := "\"" ++ name ++ "\""

def listed (parts : List String) : String := ", ".intercalate parts

namespace Column

def asText (c : Column) (place : String) : String :=
  if c.enumeration.isSome then s!"CAST({place} AS \"text\")" else place

def asEnumeration (c : Column) (place : String) : String :=
  match c.enumeration with
  | some e => s!"CAST({place} AS {quoted e})"
  | none => place

end Column

namespace Relation

def column (r : Relation) (name : String) : String := s!"{quoted r.name}.{quoted name}"

def select (r : Relation) : String :=
  let columns := r.columns.map fun c => c.asText (r.column c.name)
  s!"SELECT {listed columns} FROM {quoted r.name}"

def insert (r : Relation) : String :=
  let places := (List.range r.columns.length).zip r.columns |>.map fun p =>
    p.2.asEnumeration ("$" ++ toString (p.1 + 1))
  let names := r.columns.map (quoted ·.name)
  s!"INSERT INTO {quoted r.name} ({listed names}) VALUES ({listed places})"

def returning (r : Relation) : String :=
  "RETURNING " ++ listed (r.columns.map fun c => c.asText (quoted c.name))

def update (r : Relation) : String := s!"UPDATE {quoted r.name} SET "

def equals (r : Relation) (name place : String) : String := s!"{r.column name} = {place}"

def selectBy (r : Relation) (name : String) : String :=
  s!"{r.select} WHERE {r.column name} = $1 LIMIT $2"

end Relation

def inHistory : String :=
  transactions.equals "sender_wallet_id" "$1" ++ " OR " ++
    transactions.equals "receiver_wallet_id" "$2"

namespace Statement

def manner : Statement → Manner
  | begin => .step "begin"
  | commit => .step "commit"
  | rollback => .step "rollback"
  | abandon => .step "dropped"
  | setLockTimeout _ | insertTransaction _ _ | updateBalance _ _ | define _ => .execute
  | _ => .query

def text : Statement → String
  | begin => "BEGIN"
  | commit => "COMMIT"
  | rollback | abandon => "ROLLBACK"
  | setLockTimeout wait => s!"SET LOCAL lock_timeout = '{wait.nanos / tenTo 6}ms'"
  | selectUser _ => users.selectBy "id"
  | selectUserByEmail _ => users.selectBy "email"
  | insertUser _ => s!"{users.insert} {users.returning}"
  | selectWallet _ => wallets.selectBy "id"
  | selectWalletOfKind _ _ =>
    wallets.select ++ " WHERE " ++ wallets.equals "user_id" "$1" ++ " AND " ++
      wallets.equals "wallet_type" "(CAST($2 AS \"wallet_type\"))" ++ " LIMIT $3"
  | selectWalletsOf _ =>
    wallets.select ++ " WHERE " ++ wallets.equals "user_id" "$1" ++ " ORDER BY " ++
      wallets.column "created_at" ++ " ASC"
  | insertWallet _ => s!"{wallets.insert} {wallets.returning}"
  | lockWallets _ =>
    wallets.select ++ " WHERE " ++ wallets.column "id" ++ " IN ($1, $2) ORDER BY " ++
      wallets.column "id" ++ " ASC FOR UPDATE"
  | updateBalance _ _ =>
    wallets.update ++ "\"balance\" = $1, \"updated_at\" = CURRENT_TIMESTAMP WHERE " ++
      wallets.equals "id" "$2"
  | selectTransaction _ => transactions.selectBy "id"
  | selectTransactionByKey _ => transactions.selectBy "idempotency_key"
  | selectHistory _ _ _ =>
    transactions.select ++ " WHERE " ++ inHistory ++ " ORDER BY " ++
      transactions.column "created_at" ++ " DESC, " ++ transactions.column "id" ++
      " DESC LIMIT $3 OFFSET $4"
  | countHistory _ =>
    s!"SELECT COUNT(*) AS num_items FROM ({transactions.select} WHERE {inHistory}) AS \"sub_query\""
  | insertTransaction _ _ =>
    transactions.insert ++ " ON CONFLICT (\"idempotency_key\") DO NOTHING"
  | updateStatus _ _ _ =>
    transactions.update ++ "\"status\" = CAST($1 AS \"transaction_status\"), " ++
      "\"updated_at\" = $2 WHERE " ++ transactions.equals "id" "$3" ++ " " ++
      transactions.returning
  | selectEntries _ =>
    entries.select ++ " WHERE " ++ entries.equals "transaction_id" "$1" ++ " ORDER BY " ++
      entries.column "entry_type" ++ " ASC"
  | insertEntry _ _ => s!"{entries.insert} {entries.returning}"
  | define text => text

def userValues (u : UserRecord) : List Value :=
  [.uuid u.id, .text u.email, .text u.fullName, .time u.createdAt, .time u.updatedAt]

def walletValues (w : Wallet) : List Value :=
  [.uuid w.id, .uuid w.owner, .text w.kind.name, .text w.currency.code, .amount w.balance,
    .time (.ofUtc w.createdAt), .time (.ofUtc w.updatedAt)]

def transactionValues (d : TransactionDraft) (now : Timestamp) : List Value :=
  [.uuid d.id, .uuid d.sender, .uuid d.receiver, .amount d.amount, .text d.currency.code,
    .text d.kind.name, match d.description with | some s => .text s | none => .null,
    .text d.status.name, .text d.key.text, .time (.ofUtc now), .time (.ofUtc now)]

def entryValues (d : EntryDraft) (now : Timestamp) : List Value :=
  [.uuid d.id, .uuid d.wallet, .uuid d.transaction, .amount d.amount, .text d.kind.name,
    .text d.currency.code, .amount d.before, .amount d.after, .time (.ofUtc now)]

def values : Statement → List Value
  | begin | commit | rollback | abandon | setLockTimeout _ | define _ => []
  | selectUser id | selectWallet id | selectTransaction id => [.uuid id, .whole 1]
  | selectUserByEmail email => [.text email, .whole 1]
  | insertUser user => userValues user
  | selectWalletOfKind owner kind => [.uuid owner, .text kind.name, .whole 1]
  | selectWalletsOf owner => [.uuid owner]
  | insertWallet wallet => walletValues wallet
  | lockWallets pair => [.uuid pair.first, .uuid pair.second]
  | updateBalance wallet balance => [.amount balance, .uuid wallet]
  | selectTransactionByKey key => [.text key.text, .whole 1]
  | selectHistory wallet limit offset =>
    [.uuid wallet, .uuid wallet, .whole limit, .whole offset]
  | countHistory wallet => [.uuid wallet, .uuid wallet]
  | insertTransaction draft now => transactionValues draft now
  | updateStatus transaction status now =>
    [.text status.name, .time (.ofUtc now), .uuid transaction]
  | selectEntries transaction => [.uuid transaction]
  | insertEntry draft now => entryValues draft now

end Statement

def Relation.row (r : Relation) (values : List Value) : Row := (r.columns.map (·.name)).zip values

end WalletLedger.Sql
