import WalletLedger.Entry
import WalletLedger.Store.Table
import WalletLedger.Transaction
import WalletLedger.Wallet

/-!
The books: what is committed. Wallets stand in the order of their opening, entries in the order of
their commit, and a key leads to the transaction that carries it.
-/
namespace WalletLedger

structure Books where
  wallets : List Wallet := []
  owners : List (UserId × WalletKind) := []
  transactions : List Transaction := []
  keys : List (IdempotencyKey × TransactionId) := []
  entries : List Entry := []
  deriving DecidableEq, Repr

namespace Books

def wallet? (b : Books) (id : WalletId) : Option Wallet := Table.find? Wallet.id id b.wallets

def transaction? (b : Books) (id : TransactionId) : Option Transaction :=
  Table.find? (·.id) id b.transactions

def transactionByKey? (b : Books) (key : IdempotencyKey) : Option Transaction :=
  (Table.find? Prod.fst key b.keys).bind fun p => b.transaction? p.2

def hasKey (b : Books) (key : IdempotencyKey) : Bool := Table.has Prod.fst key b.keys

def newestFirst (s t : Transaction) : Bool :=
  t.createdAt.rank < s.createdAt.rank ||
    (s.createdAt.rank = t.createdAt.rank && decide (t.id ≤ s.id))

/-- The transactions of a wallet, latest first; of two made at one time the higher id. -/
def history (b : Books) (wallet : WalletId) : List Transaction :=
  (b.transactions.filter (·.involves wallet)).mergeSort newestFirst

def entriesOf (b : Books) (transaction : TransactionId) : List Entry :=
  b.entries.filter (·.transaction = transaction)

def total? (b : Books) (currency : Currency) : Option Amount :=
  Amount.sum? ((b.wallets.filter (·.currency = currency)).map (·.balance))

def setBalance (b : Books) (now : Timestamp) (p : WalletId × Amount) : Books :=
  { b with wallets := b.wallets.map fun w =>
      if w.id = p.1 then { w with balance := p.2, updatedAt := now } else w }

def putTransaction (b : Books) (t : Transaction) : Books :=
  { b with
    transactions := Table.put (·.id) t b.transactions
    keys := Table.put Prod.fst (t.key, t.id) b.keys }

end Books

end WalletLedger
