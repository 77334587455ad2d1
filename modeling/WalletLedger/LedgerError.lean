import WalletLedger.Money
import WalletLedger.Retry
import WalletLedger.ServiceError
import WalletLedger.StoreError

/-!
Why a ledger call fails. The first eight causes lie with the request and are of the domain; the
others lie with the store, the clock or the ledger itself.
-/
namespace WalletLedger

inductive LedgerError where
  | nonPositiveAmount (amount : Amount)
  | invalidAmount (error : MoneyError)
  | invalidKey (detail : String)
  | sameWallet (wallet : WalletId)
  | currencyMismatch (wallet : WalletId) (expected actual : Currency)
  | insufficientFunds (wallet : WalletId) (available requested : Amount)
  | walletNotFound (wallet : WalletId)
  | transactionNotFound (transaction : TransactionId)
  | store (error : StoreError)
  | deadlineExceeded (deadline : TimeSpan)
  | invariantViolation (detail : String)
  deriving DecidableEq, Repr

namespace LedgerError

def kind : LedgerError → String
  | nonPositiveAmount _ => "NonPositiveAmount"
  | invalidAmount _ => "InvalidAmount"
  | invalidKey _ => "InvalidIdempotencyKey"
  | sameWallet _ => "SameWallet"
  | currencyMismatch _ _ _ => "CurrencyMismatch"
  | insufficientFunds _ _ _ => "InsufficientFunds"
  | walletNotFound _ => "WalletNotFound"
  | transactionNotFound _ => "TransactionNotFound"
  | store error => "Store." ++ error.kind
  | deadlineExceeded _ => "DeadlineExceeded"
  | invariantViolation _ => "InvariantViolation"

def message : LedgerError → String
  | nonPositiveAmount amount => s!"Transfer amount must be positive, got {amount.text}"
  | invalidAmount error => s!"Invalid amount: {error.message}"
  | invalidKey detail => s!"Invalid idempotency key: {detail}"
  | sameWallet wallet => s!"Cannot transfer from wallet {wallet.text} to itself"
  | currencyMismatch wallet expected actual =>
    s!"Wallet {wallet.text} holds {actual.code}, transfer is in {expected.code}"
  | insufficientFunds wallet available requested =>
    s!"Insufficient funds in wallet {wallet.text}: available {available.text}, " ++
      s!"requested {requested.text}"
  | walletNotFound wallet => s!"Wallet not found: {wallet.text}"
  | transactionNotFound transaction => s!"Transaction not found: {transaction.text}"
  | store error => error.message
  | deadlineExceeded deadline => s!"Deadline of {deadline.text} exceeded"
  | invariantViolation detail => s!"Invariant violated: {detail}"

def code : LedgerError → String
  | nonPositiveAmount _ => "NON_POSITIVE_AMOUNT"
  | invalidAmount _ => "INVALID_AMOUNT"
  | invalidKey _ => "INVALID_IDEMPOTENCY_KEY"
  | sameWallet _ => "SAME_WALLET"
  | currencyMismatch _ _ _ => "CURRENCY_MISMATCH"
  | insufficientFunds _ _ _ => "INSUFFICIENT_FUNDS"
  | walletNotFound _ => "WALLET_NOT_FOUND"
  | transactionNotFound _ => "TRANSACTION_NOT_FOUND"
  | store (.contention _) => "CONTENTION"
  | store (.connection _) => "CONNECTION_FAILURE"
  | store _ => "DATABASE_ERROR"
  | deadlineExceeded _ => "DEADLINE_EXCEEDED"
  | invariantViolation _ => "INTERNAL_ERROR"

def httpStatus : LedgerError → Nat
  | nonPositiveAmount _ | invalidAmount _ | invalidKey _ | sameWallet _ => 400
  | currencyMismatch _ _ _ | insufficientFunds _ _ _ => 422
  | walletNotFound _ | transactionNotFound _ => 404
  | store (.contention _) | store (.connection _) => 503
  | deadlineExceeded _ => 504
  | store _ | invariantViolation _ => 500

def ofDomain : LedgerError → Bool
  | store _ | deadlineExceeded _ | invariantViolation _ => false
  | _ => true

def retryable : LedgerError → Bool
  | store error => error.retryable
  | deadlineExceeded _ => true
  | _ => false

def serviceKind : LedgerError → ServiceErrorKind
  | nonPositiveAmount _ | invalidAmount _ | invalidKey _ | sameWallet _ => .validation
  | currencyMismatch _ _ _ | insufficientFunds _ _ _ => .businessRule
  | walletNotFound _ | transactionNotFound _ => .notFound
  | store (.contention _) | store (.connection _) => .unavailable
  | store _ => .database
  | deadlineExceeded _ => .timeout
  | invariantViolation _ => .internal

def toService (e : LedgerError) : ServiceError := ⟨e.serviceKind, e.message⟩

def ofRetry : RetryError StoreError → LedgerError
  | .operation error => store error
  | .deadlineExceeded deadline => deadlineExceeded deadline

end LedgerError

end WalletLedger
