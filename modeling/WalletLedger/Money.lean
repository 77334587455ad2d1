import WalletLedger.Amount.Text
import WalletLedger.Currency

/-!
Money: an amount in a currency. Sums stay within one currency, and `ofParts` never rounds.
-/
namespace WalletLedger

structure Money where
  amount : Amount
  currency : Currency
  deriving DecidableEq, Repr

inductive MoneyError where
  | currencyMismatch (expected actual : Currency)
  | overflow
  | exponentOutOfRange (exponent : Int)
  | excessPrecision (currency : Currency) (allowed scale : Nat)
  deriving DecidableEq, Repr

def MoneyError.kind : MoneyError → String
  | currencyMismatch _ _ => "CurrencyMismatch"
  | overflow => "Overflow"
  | exponentOutOfRange _ => "ExponentOutOfRange"
  | excessPrecision _ _ _ => "ExcessPrecision"

def MoneyError.message : MoneyError → String
  | currencyMismatch expected actual =>
    s!"Currency mismatch: expected {expected.code}, got {actual.code}"
  | overflow => "Monetary amount overflow"
  | exponentOutOfRange exponent => s!"Exponent {exponent} is out of range"
  | excessPrecision currency allowed scale =>
    s!"{currency.code} amounts allow at most {allowed} decimal places, got {scale}"

namespace Money

def zero (currency : Currency) : Money := ⟨Amount.zero, currency⟩

def text (m : Money) : String := s!"{m.amount.text} {m.currency.code}"

/-- The exact value of `coefficient * 10 ^ exponent`, with a scale only where the exponent is
negative. -/
def ofParts (coefficient exponent : Int) (currency : Currency) : Except MoneyError Money :=
  if 28 < exponent.natAbs then .error (.exponentOutOfRange exponent)
  else
    let amount? :=
      if exponent ≤ 0 then Amount.ofParts? coefficient exponent.natAbs
      else (Amount.ofParts? coefficient 0).bind (Amount.timesTen? exponent.toNat)
    match amount? with
    | some amount => .ok ⟨amount, currency⟩
    | none => .error .overflow

/-- Refuses fractions finer than the currency's smallest unit; zeros at the end do not count. -/
def checkScale (m : Money) : Except MoneyError Unit :=
  let scale := m.amount.normalize.scale
  if m.currency.minorUnits < scale then
    .error (.excessPrecision m.currency m.currency.minorUnits scale)
  else .ok ()

def combine (op : Amount → Amount → Option Amount) (a b : Money) : Except MoneyError Money :=
  if a.currency ≠ b.currency then .error (.currencyMismatch a.currency b.currency)
  else match op a.amount b.amount with
    | some amount => .ok ⟨amount, a.currency⟩
    | none => .error .overflow

def add (a b : Money) : Except MoneyError Money := combine Amount.add? a b
def sub (a b : Money) : Except MoneyError Money := combine Amount.sub? a b

end Money

end WalletLedger
