import WalletLedger.Operation
import WalletLedger.Sql.Fetch

/-!
A unit of work in a database: one transaction of its own. Each operation is a dialogue of a few
statements. The rows of wallets are locked by the statement that reads them, so the unit knows only
which wallets it has read that way; a balance is written to none but those.
-/
namespace WalletLedger.Sql

structure DatabaseUnit where
  locked : List WalletId := []
  deriving DecidableEq, Repr

namespace DatabaseUnit

/-- Opens a unit whose waits for rows are limited. If the limit cannot be set, the transaction is
given up. -/
def begin (wait : TimeSpan) : Dialogue (Except StoreError DatabaseUnit) :=
  .say .begin fun
    | .error f => .done (.error f.classify)
    | .ok _ => .say (.setLockTimeout wait) fun
      | .error f => .say .abandon fun _ => .done (.error f.classify)
      | .ok _ => .done (.ok {})

def transactionRow (id : TransactionId) : Asking StoreError TransactionRecord := do
  match ← classified (first TransactionRecord.ofRow (.selectTransaction id)) with
  | some r => return r
  | none => throw (.rowMissing .transaction id)

def insertTransaction (draft : TransactionDraft) (now : Timestamp) :
    Asking StoreError InsertOutcome := do
  if (← classified (ask (.insertTransaction draft now))).affected = 0 then return .duplicateKey
  return .inserted (← orFail (← transactionRow draft.id).toTransaction)

def setBalance (u : DatabaseUnit) (wallet : WalletId) (balance : Amount) :
    Asking StoreError Unit := do
  if wallet ∉ u.locked then
    throw (.backend s!"wallet {wallet.text} updated without holding its lock")
  if (← classified (ask (.updateBalance wallet balance))).affected = 0 then
    throw (.rowMissing .wallet wallet)

/-- The row to change is the one that was read, by its own identifier. -/
def setStatus (id : TransactionId) (status : TransactionStatus) (now : Timestamp) :
    Asking StoreError Transaction := do
  let row ← transactionRow id
  match ← firstAs TransactionRecord.ofRow TransactionRecord.toTransaction
    (.updateStatus row.id status now) with
  | some t => return t
  | none => throw (Failure.recordNotUpdated.classify)

def perform (u : DatabaseUnit) (now : Timestamp) : (op : UnitOp) → Asking StoreError op.Answer
  | .lockWallets pair => allAs WalletRecord.ofRow WalletRecord.toWallet (.lockWallets pair)
  | .findByKey key =>
    firstAs TransactionRecord.ofRow TransactionRecord.toTransaction (.selectTransactionByKey key)
  | .insertTransaction draft => insertTransaction draft now
  | .insertEntry draft => do
    orFail (← classified (inserted EntryRecord.ofRow (.insertEntry draft now))).toEntry
  | .setBalance wallet balance => u.setBalance wallet balance
  | .setStatus id status => setStatus id status now

def after (u : DatabaseUnit) : (op : UnitOp) → Except StoreError op.Answer → DatabaseUnit
  | .lockWallets _, .ok rows => ⟨u.locked ++ rows.map (·.id)⟩
  | _, _ => u

def commit : Asking StoreError Unit := do
  let _ ← classified (ask .commit)

def rollback : Asking StoreError Unit := do
  let _ ← classified (ask .rollback)

end DatabaseUnit

end WalletLedger.Sql
