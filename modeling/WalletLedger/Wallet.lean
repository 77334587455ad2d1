import WalletLedger.Money
import WalletLedger.Identifier
import WalletLedger.Timestamp

/-! Wallets: balances in one currency, at most one of each kind to an owner. -/
namespace WalletLedger

inductive WalletKind where
  | savings | fixed | miscellaneous
  deriving DecidableEq, Repr

namespace WalletKind

def all : List WalletKind := [savings, fixed, miscellaneous]

def name : WalletKind → String
  | savings => "savings"
  | fixed => "fixed"
  | miscellaneous => "miscellaneous"

def ofName? (s : String) : Option WalletKind := all.find? (·.name = s)

/-- The name with a capital letter, as messages and rows that stand in JSON have it. -/
def title (k : WalletKind) : String := k.name.capitalize

def ofTitle? (s : String) : Option WalletKind := all.find? (·.title = s)

end WalletKind

structure Wallet where
  id : WalletId
  owner : UserId
  kind : WalletKind
  currency : Currency
  balance : Amount
  createdAt : Timestamp
  updatedAt : Timestamp
  deriving DecidableEq, Repr

namespace Wallet

def money (w : Wallet) : Money := ⟨w.balance, w.currency⟩

def covers (w : Wallet) (amount : Amount) : Bool := decide (amount ≤ w.balance)

end Wallet

end WalletLedger
