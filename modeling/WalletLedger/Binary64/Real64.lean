import WalletLedger.Binary64

/-! Binary numbers with a sign, and the values beyond them: infinities and what is no number. -/
namespace WalletLedger

inductive Real64 where
  | finite (negative : Bool) (magnitude : Binary64)
  | infinite (negative : Bool)
  | notANumber
  deriving DecidableEq, Repr

namespace Real64

def ofDecimal (negative : Bool) (whole fraction : List Char) (exponent : Int) : Real64 :=
  let digits := (whole ++ fraction).dropWhile (· = '0')
  let n := (readNat? digits).getD 0
  let e := exponent - fraction.length
  let top := e + digits.length
  let nearest :=
    if n = 0 ∨ top < -400 then Binary64.ofRatio? 0 1
    else if 400 < top then none
    else Binary64.ofRatio? (n * tenTo e.toNat) (tenTo (-e).toNat)
  match nearest with
  | some b => finite negative b
  | none => infinite negative

def isZero : Real64 → Bool
  | finite _ b => b.significand = 0
  | _ => false

def text : Real64 → String
  | finite negative b => String.ofList (if negative then '-' :: b.chars else b.chars)
  | infinite negative => if negative then "-inf" else "inf"
  | notANumber => "NaN"

/-- The nearest unsigned number of 64 bits, a half going up; what is no number counts as zero. -/
def toWord64 : Real64 → Nat
  | finite false b => min ((2 * b.ratio.1 + b.ratio.2) / (2 * b.ratio.2)) (twoTo 64 - 1)
  | infinite false => twoTo 64 - 1
  | _ => 0

end Real64

end WalletLedger
