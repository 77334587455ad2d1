import WalletLedger.Amount.Text

/-!
Binary floating-point numbers of 53 significant bits, as far as decimal text needs them: the
number nearest to a ratio (a half goes to the even significand) and the shortest decimal that
reads back. Signs are kept apart.
-/
namespace WalletLedger

/-- The number `significand * 2 ^ exponent`. -/
structure Binary64 where
  significand : Nat
  exponent : Int
  deriving DecidableEq, Repr

namespace Binary64

def ratio (b : Binary64) : Nat × Nat :=
  (b.significand * twoTo b.exponent.toNat, twoTo (-b.exponent).toNat)

def ofRatio? (n d : Nat) : Option Binary64 :=
  if n = 0 then some ⟨0, -1074⟩
  else
    let guess : Int := (n.log2 : Int) - d.log2 - 53
    let e := max guess (-1074)
    let rounded (e : Int) : Nat := roundHalfEven (n * twoTo (-e).toNat) (d * twoTo e.toNat)
    let (m, e) :=
      if rounded e < twoTo 53 then (rounded e, e)
      else if rounded (e + 1) < twoTo 53 then (rounded (e + 1), e + 1)
      else (twoTo 52, e + 2)
    if m * twoTo e.toNat < twoTo 1024 then some ⟨m, e⟩ else none

def mul? (a b : Binary64) : Option Binary64 :=
  ofRatio? (a.ratio.1 * b.ratio.1) (a.ratio.2 * b.ratio.2)

def div? (a b : Binary64) : Option Binary64 :=
  ofRatio? (a.ratio.1 * b.ratio.2) (a.ratio.2 * b.ratio.1)

def readsAs (b : Binary64) (m : Nat) (k : Int) : Bool :=
  match ofRatio? (m * tenTo k.toNat) (tenTo (-k).toNat) with
  | some c => c.ratio.1 * b.ratio.2 = b.ratio.1 * c.ratio.2
  | none => false

/-- The decimal on the grid of step `10 ^ k` that is nearest to the number, if one of its
neighbours there reads back. -/
def onGrid? (b : Binary64) (k : Int) : Option (Nat × Int) :=
  let n := b.ratio.1 * tenTo (-k).toNat
  let d := b.ratio.2 * tenTo k.toNat
  let low := n / d
  let near := roundHalfEven n d
  let far := if near = low then low + 1 else low
  if b.readsAs near k then some (near, k)
  else if b.readsAs far k then some (far, k)
  else none

/-- The shortest decimal that reads back, as digits and a power of ten. -/
def shortest (b : Binary64) : Nat × Int :=
  if b.significand = 0 then (0, 0)
  else
    let (n, d) := b.ratio
    let top : Int := if d ≤ n then ((digitChars (n / d)).length : Int)
      else 1 - ((digitChars (d / n)).length : Int)
    ((List.range 20).findSome? fun (i : Nat) => b.onGrid? (top + 1 - (i : Int))).getD (n / d, 0)

def chars (b : Binary64) : List Char :=
  let (m, k) := b.shortest
  let ds := digitChars m
  if 0 ≤ k then ds ++ List.replicate (if m = 0 then 0 else k.toNat) '0'
  else
    let width := k.natAbs
    let padded := List.replicate (width + 1 - ds.length) '0' ++ ds
    let whole := padded.take (padded.length - width)
    let fraction := (padded.drop (padded.length - width)).reverse.dropWhile (· = '0')
    whole ++ (if fraction.isEmpty then [] else '.' :: fraction.reverse)

end Binary64

end WalletLedger
