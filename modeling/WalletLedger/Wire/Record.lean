import WalletLedger.Entry
import WalletLedger.Json.Printer
import WalletLedger.Json.Reader
import WalletLedger.Page
import WalletLedger.Transaction
import WalletLedger.Wallet
import WalletLedger.Wire.Field

/-! The JSON form of the ledger's records. Amounts are strings, which keep their scale. -/
namespace WalletLedger

open Json

namespace Money

def toJson (m : Money) : Json :=
  record [("amount", .text m.amount.text), ("currency", .text m.currency.code)]

def ofJson? (j : Json) : Option Money :=
  match j.fields? ["amount", "currency"] with
  | some [amount, currency] => do
    some ⟨← need? amount? amount, ← need? (choice? Currency.ofCode?) currency⟩
  | _ => none

end Money

namespace Wallet

def fieldNames : List String :=
  ["id", "user_id", "wallet_type", "currency", "balance", "created_at", "updated_at"]

def toJson (w : Wallet) : Json :=
  record [("id", .text w.id.text), ("user_id", .text w.owner.text),
    ("wallet_type", .text w.kind.name), ("currency", .text w.currency.code),
    ("balance", .text w.balance.text), ("created_at", .text w.createdAt.text),
    ("updated_at", .text w.updatedAt.text)]

def ofJson? (j : Json) : Option Wallet :=
  match j.fields? fieldNames with
  | some [id, owner, kind, currency, balance, createdAt, updatedAt] => do
    some {
      id := ← need? identifier? id
      owner := ← need? identifier? owner
      kind := ← need? (choice? WalletKind.ofName?) kind
      currency := ← need? (choice? Currency.ofCode?) currency
      balance := ← need? amount? balance
      createdAt := ← need? timestamp? createdAt
      updatedAt := ← need? timestamp? updatedAt }
  | _ => none

end Wallet

namespace Transaction

def fieldNames : List String :=
  ["id", "sender_wallet_id", "receiver_wallet_id", "amount", "currency", "transaction_type",
    "description", "status", "idempotency_key", "created_at", "updated_at"]

def toJson (t : Transaction) : Json :=
  record [("id", .text t.id.text), ("sender_wallet_id", .text t.sender.text),
    ("receiver_wallet_id", .text t.receiver.text), ("amount", .text t.amount.text),
    ("currency", .text t.currency.code), ("transaction_type", .text t.kind.name),
    ("description", match t.description with | some s => .text s | none => .null),
    ("status", .text t.status.name), ("idempotency_key", .text t.key.text),
    ("created_at", .text t.createdAt.text), ("updated_at", .text t.updatedAt.text)]

def ofJson? (j : Json) : Option Transaction :=
  match j.fields? fieldNames with
  | some [id, sender, receiver, amount, currency, kind, description, status, key, createdAt,
      updatedAt] => do
    some {
      id := ← need? identifier? id
      sender := ← need? identifier? sender
      receiver := ← need? identifier? receiver
      amount := ← need? amount? amount
      currency := ← need? (choice? Currency.ofCode?) currency
      kind := ← need? (choice? TransferKind.ofName?) kind
      description := ← optional? string? description
      status := ← need? (choice? TransactionStatus.ofName?) status
      key := ⟨← need? string? key⟩
      createdAt := ← need? timestamp? createdAt
      updatedAt := ← need? timestamp? updatedAt }
  | _ => none

end Transaction

namespace Entry

def fieldNames : List String :=
  ["id", "wallet_id", "transaction_id", "amount", "entry_type", "currency", "balance_before",
    "balance_after", "created_at"]

def toJson (e : Entry) : Json :=
  record [("id", .text e.id.text), ("wallet_id", .text e.wallet.text),
    ("transaction_id", .text e.transaction.text), ("amount", .text e.amount.text),
    ("entry_type", .text e.kind.name), ("currency", .text e.currency.code),
    ("balance_before", .text e.before.text), ("balance_after", .text e.after.text),
    ("created_at", .text e.createdAt.text)]

def ofJson? (j : Json) : Option Entry :=
  match j.fields? fieldNames with
  | some [id, wallet, transaction, amount, kind, currency, before, after, createdAt] => do
    some {
      id := ← need? identifier? id
      wallet := ← need? identifier? wallet
      transaction := ← need? identifier? transaction
      amount := ← need? amount? amount
      kind := ← need? (choice? EntryKind.ofName?) kind
      currency := ← need? (choice? Currency.ofCode?) currency
      before := ← need? amount? before
      after := ← need? amount? after
      createdAt := ← need? timestamp? createdAt }
  | _ => none

end Entry

namespace PageRequest

def toJson (r : PageRequest) : Json :=
  record [("page", .integer r.page), ("per_page", .integer r.perPage)]

def ofJson? (j : Json) : Option PageRequest :=
  match j.fields? ["page", "per_page"] with
  | some [page, perPage] => do
    some ⟨← orDefault? standard.page word32? page, ← orDefault? standard.perPage word32? perPage⟩
  | _ => none

end PageRequest

namespace PageMeta

def toJson (m : PageMeta) : Json :=
  record [("page", .integer m.page), ("per_page", .integer m.perPage),
    ("total", .integer m.total), ("total_pages", .integer m.totalPages)]

def ofJson? (j : Json) : Option PageMeta :=
  match j.fields? ["page", "per_page", "total", "total_pages"] with
  | some [page, perPage, total, totalPages] => do
    some ⟨← need? word32? page, ← need? word32? perPage, ← need? word64? total,
      ← need? word64? totalPages⟩
  | _ => none

end PageMeta

namespace PageResponse

variable {α : Type}

def toJson (item : α → Json) (r : PageResponse α) : Json :=
  record [("data", .array (r.data.map item)), ("meta", r.info.toJson)]

def ofJson? (item? : Json → Option α) (j : Json) : Option (PageResponse α) :=
  match j.fields? ["data", "meta"] with
  | some [some (.array items), some info] => do
    some ⟨← items.mapM item?, ← PageMeta.ofJson? info⟩
  | _ => none

end PageResponse

end WalletLedger
