import WalletLedger.Operation
import WalletLedger.Sql.Fetch

/-! Reads of what is committed. Each is one statement, outside of any unit. -/
namespace WalletLedger.Sql

def count (s : Statement) : Asking Failure Nat := do
  match ← first (·.whole "num_items") s with
  | some n => return (n % twoTo 64).toNat
  | none => return 0

def read : (r : StoreRead) → Asking StoreError r.Answer
  | .wallet id => firstAs WalletRecord.ofRow WalletRecord.toWallet (.selectWallet id)
  | .transaction id =>
    firstAs TransactionRecord.ofRow TransactionRecord.toTransaction (.selectTransaction id)
  | .transactionByKey key =>
    firstAs TransactionRecord.ofRow TransactionRecord.toTransaction (.selectTransactionByKey key)
  | .transactions wallet limit offset =>
    allAs TransactionRecord.ofRow TransactionRecord.toTransaction
      (.selectHistory wallet limit offset)
  | .transactionCount wallet => classified (count (.countHistory wallet))
  | .entries transaction => allAs EntryRecord.ofRow EntryRecord.toEntry (.selectEntries transaction)

end WalletLedger.Sql
