import WalletLedger.Text.Capital

/-! The currencies a wallet can hold. -/
namespace WalletLedger

inductive Currency where
  | ngn | usd | eur | gbp | jpy
  deriving DecidableEq, Repr

namespace Currency

def all : List Currency := [ngn, usd, eur, gbp, jpy]

def code : Currency → String
  | ngn => "NGN"
  | usd => "USD"
  | eur => "EUR"
  | gbp => "GBP"
  | jpy => "JPY"

def minorUnits : Currency → Nat
  | jpy => 0
  | _ => 2

def ofCode? (s : String) : Option Currency := all.find? (·.code = s)

def ofText? (s : String) : Option Currency := ofCode? (capitalText s)

def unknownMessage (s : String) : String := s!"Unknown currency: {s}"

theorem ofCode?_code (c : Currency) : ofCode? c.code = some c := by cases c <;> decide

end Currency

end WalletLedger
