import WalletLedger.Entry
import WalletLedger.StoreError
import WalletLedger.Transaction
import WalletLedger.Wallet
import WalletLedger.WalletPair

/-!
What a store is asked for: the operations of a unit of work, whose writes take effect together or
not at all, and reads of what is committed. Each comes with the type of its answer.
-/
namespace WalletLedger

/-- The row is written in the unit, or its key belongs to another transaction already. -/
inductive InsertOutcome where
  | inserted (transaction : Transaction)
  | duplicateKey
  deriving DecidableEq, Repr

inductive UnitOp where
  | lockWallets (pair : WalletPair)
  | findByKey (key : IdempotencyKey)
  | insertTransaction (draft : TransactionDraft)
  | insertEntry (draft : EntryDraft)
  | setBalance (wallet : WalletId) (balance : Amount)
  | setStatus (transaction : TransactionId) (status : TransactionStatus)
  deriving DecidableEq, Repr

/-- Locking answers the rows that exist; setting a status answers the changed row. -/
abbrev UnitOp.Answer : UnitOp → Type
  | lockWallets _ => List Wallet
  | findByKey _ => Option Transaction
  | insertTransaction _ => InsertOutcome
  | insertEntry _ => Entry
  | setBalance _ _ => Unit
  | setStatus _ _ => Transaction

inductive StoreRead where
  | wallet (id : WalletId)
  | transaction (id : TransactionId)
  | transactionByKey (key : IdempotencyKey)
  | transactions (wallet : WalletId) (limit offset : Nat)
  | transactionCount (wallet : WalletId)
  | entries (transaction : TransactionId)
  deriving DecidableEq, Repr

abbrev StoreRead.Answer : StoreRead → Type
  | wallet _ => Option Wallet
  | transaction _ | transactionByKey _ => Option Transaction
  | transactions _ _ _ => List Transaction
  | transactionCount _ => Nat
  | entries _ => List Entry

end WalletLedger
