import WalletLedger.Entry
import WalletLedger.IdempotencyKey
import WalletLedger.Sql.Value
import WalletLedger.Transaction
import WalletLedger.Wallet

/-!
The records of the four tables, and the ledger's own records made from them. A record holds what
its columns hold; currencies and keys are texts there, which may turn out to be corrupt.
-/
namespace WalletLedger.Sql

structure UserRecord where
  id : UserId
  email : String
  fullName : String
  createdAt : ZonedTime
  updatedAt : ZonedTime
  deriving DecidableEq, Repr

structure WalletRecord where
  id : WalletId
  owner : UserId
  kind : WalletKind
  currency : String
  balance : Amount
  createdAt : ZonedTime
  updatedAt : ZonedTime
  deriving DecidableEq, Repr

structure TransactionRecord where
  id : TransactionId
  sender : WalletId
  receiver : WalletId
  amount : Amount
  currency : String
  kind : TransferKind
  description : Option String
  status : TransactionStatus
  key : String
  createdAt : ZonedTime
  updatedAt : ZonedTime
  deriving DecidableEq, Repr

structure EntryRecord where
  id : EntryId
  wallet : WalletId
  transaction : TransactionId
  amount : Amount
  kind : EntryKind
  currency : String
  before : Amount
  after : Amount
  createdAt : ZonedTime
  deriving DecidableEq, Repr

def currencyOf (code : String) : Except StoreError Currency :=
  match Currency.ofText? code with
  | some c => .ok c
  | none => .error (.backend s!"corrupt currency column: {Currency.unknownMessage code}")

def keyOf (text : String) : Except StoreError IdempotencyKey :=
  match IdempotencyKey.check text with
  | .ok key => .ok key
  | .error e => .error (.backend s!"corrupt idempotency_key column: {e.message}")

def UserRecord.ofRow (row : Row) : Except Failure UserRecord := do
  return ⟨← row.uuid "id", ← row.text "email", ← row.text "full_name", ← row.time "created_at",
    ← row.time "updated_at"⟩

namespace WalletRecord

def ofRow (row : Row) : Except Failure WalletRecord := do
  return ⟨← row.uuid "id", ← row.uuid "user_id",
    ← row.choice "WalletType" WalletKind.ofName? "wallet_type", ← row.text "currency",
    ← row.amount "balance", ← row.time "created_at", ← row.time "updated_at"⟩

def toWallet (r : WalletRecord) : Except StoreError Wallet := do
  return ⟨r.id, r.owner, r.kind, ← currencyOf r.currency, r.balance, r.createdAt.utc,
    r.updatedAt.utc⟩

end WalletRecord

namespace TransactionRecord

def ofRow (row : Row) : Except Failure TransactionRecord := do
  return ⟨← row.uuid "id", ← row.uuid "sender_wallet_id", ← row.uuid "receiver_wallet_id",
    ← row.amount "amount", ← row.text "currency",
    ← row.choice "TransactionType" TransferKind.ofName? "transaction_type",
    ← row.optionalText "description",
    ← row.choice "TransactionStatus" TransactionStatus.ofName? "status",
    ← row.text "idempotency_key", ← row.time "created_at", ← row.time "updated_at"⟩

/-- A corrupt key is noticed before a corrupt currency. -/
def toTransaction (r : TransactionRecord) : Except StoreError Transaction := do
  let key ← keyOf r.key
  let currency ← currencyOf r.currency
  return {
    id := r.id
    sender := r.sender
    receiver := r.receiver
    amount := r.amount
    currency := currency
    kind := r.kind
    description := r.description
    status := r.status
    key := key
    createdAt := r.createdAt.utc
    updatedAt := r.updatedAt.utc }

end TransactionRecord

namespace EntryRecord

def ofRow (row : Row) : Except Failure EntryRecord := do
  return ⟨← row.uuid "id", ← row.uuid "wallet_id", ← row.uuid "transaction_id",
    ← row.amount "amount", ← row.choice "EntryType" EntryKind.ofName? "entry_type",
    ← row.text "currency", ← row.amount "balance_before", ← row.amount "balance_after",
    ← row.time "created_at"⟩

def toEntry (r : EntryRecord) : Except StoreError Entry := do
  let currency ← currencyOf r.currency
  return {
    id := r.id
    wallet := r.wallet
    transaction := r.transaction
    amount := r.amount
    kind := r.kind
    currency := currency
    before := r.before
    after := r.after
    createdAt := r.createdAt.utc }

end EntryRecord

end WalletLedger.Sql
