import WalletLedger.Sql.Record
import WalletLedger.Wire.Field

/-!
Records of tables in JSON. Enumerations stand there by their titles, and times keep their distance
from UTC.
-/
namespace WalletLedger.Sql

open Json

def zonedTime? (j : Json) : Option ZonedTime := j.string?.bind ZonedTime.ofText?

def UserRecord.toJson (u : UserRecord) : Json :=
  record [("id", .text u.id.text), ("email", .text u.email), ("full_name", .text u.fullName),
    ("created_at", .text u.createdAt.text), ("updated_at", .text u.updatedAt.text)]

def WalletRecord.ofJson? (j : Json) : Option WalletRecord :=
  match j.fields? ["id", "user_id", "wallet_type", "currency", "balance", "created_at",
    "updated_at"] with
  | some [id, owner, kind, currency, balance, createdAt, updatedAt] => do
    some {
      id := ← need? identifier? id
      owner := ← need? identifier? owner
      kind := ← need? (choice? WalletKind.ofTitle?) kind
      currency := ← need? string? currency
      balance := ← need? amount? balance
      createdAt := ← need? zonedTime? createdAt
      updatedAt := ← need? zonedTime? updatedAt }
  | _ => none

def TransactionRecord.ofJson? (j : Json) : Option TransactionRecord :=
  match j.fields? ["id", "sender_wallet_id", "receiver_wallet_id", "amount", "currency",
    "transaction_type", "description", "status", "idempotency_key", "created_at",
    "updated_at"] with
  | some [id, sender, receiver, amount, currency, kind, description, status, key, createdAt,
      updatedAt] => do
    some {
      id := ← need? identifier? id
      sender := ← need? identifier? sender
      receiver := ← need? identifier? receiver
      amount := ← need? amount? amount
      currency := ← need? string? currency
      kind := ← need? (choice? TransferKind.ofTitle?) kind
      description := ← optional? string? description
      status := ← need? (choice? TransactionStatus.ofTitle?) status
      key := ← need? string? key
      createdAt := ← need? zonedTime? createdAt
      updatedAt := ← need? zonedTime? updatedAt }
  | _ => none

def EntryRecord.ofJson? (j : Json) : Option EntryRecord :=
  match j.fields? ["id", "wallet_id", "transaction_id", "amount", "entry_type", "currency",
    "balance_before", "balance_after", "created_at"] with
  | some [id, wallet, transaction, amount, kind, currency, before, after, createdAt] => do
    some {
      id := ← need? identifier? id
      wallet := ← need? identifier? wallet
      transaction := ← need? identifier? transaction
      amount := ← need? amount? amount
      kind := ← need? (choice? EntryKind.ofTitle?) kind
      currency := ← need? string? currency
      before := ← need? amount? before
      after := ← need? amount? after
      createdAt := ← need? zonedTime? createdAt }
  | _ => none

end WalletLedger.Sql
