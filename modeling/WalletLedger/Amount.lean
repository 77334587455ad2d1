import WalletLedger.Power

/-!
Decimal amounts: an integer coefficient of at most 96 bits over a power of ten of at most 28.
The scale belongs to the amount (`1.50` is not written like `1.5`), while order and `SameValue`
look at the number alone. Sums keep the larger scale and give up fraction digits only where the
coefficient would not fit.
-/
namespace WalletLedger

structure Amount where
  coefficient : Int
  scale : Nat
  coefficient_lt : coefficient.natAbs < twoTo 96
  scale_le : scale ≤ 28
  deriving DecidableEq, Repr

/-- The quotient nearest to `n / d`; a half goes to the even neighbour. -/
def roundHalfEven (n d : Nat) : Nat :=
  if 2 * (n % d) < d ∨ (2 * (n % d) = d ∧ n / d % 2 = 0) then n / d else n / d + 1

namespace Amount

def ofParts? (coefficient : Int) (scale : Nat) : Option Amount :=
  if h : coefficient.natAbs < twoTo 96 ∧ scale ≤ 28 then some ⟨coefficient, scale, h.1, h.2⟩
  else none

def zero : Amount := ⟨0, 0, by decide, by decide⟩

/-- Ten times the amount, that many times over; none as soon as 96 bits do not hold a product. -/
def timesTen? : Nat → Amount → Option Amount
  | 0, a => some a
  | n + 1, a => (ofParts? (a.coefficient * 10) a.scale).bind (timesTen? n)

/-- The coefficient that writes the same number with `s` fraction digits, for `s` no smaller
than the scale. -/
def atScale (a : Amount) (s : Nat) : Int := a.coefficient * tenTo (s - a.scale)

abbrev SameValue (a b : Amount) : Prop :=
  a.coefficient * tenTo b.scale = b.coefficient * tenTo a.scale

instance : LE Amount := ⟨fun a b => a.coefficient * tenTo b.scale ≤ b.coefficient * tenTo a.scale⟩
instance : LT Amount := ⟨fun a b => a.coefficient * tenTo b.scale < b.coefficient * tenTo a.scale⟩
instance (a b : Amount) : Decidable (a ≤ b) := inferInstanceAs (Decidable (_ ≤ (_ : Int)))
instance (a b : Amount) : Decidable (a < b) := inferInstanceAs (Decidable (_ < (_ : Int)))

abbrev IsZero (a : Amount) : Prop := a.coefficient = 0
abbrev IsPositive (a : Amount) : Prop := 0 < a.coefficient
abbrev IsNegative (a : Amount) : Prop := a.coefficient < 0

def neg (a : Amount) : Amount :=
  ⟨-a.coefficient, a.scale, by simpa using a.coefficient_lt, a.scale_le⟩

instance : Neg Amount := ⟨neg⟩

/-- The amount nearest to `c / 10 ^ s` that keeps as many of the `s` fraction digits as 96 bits
allow; none when even the whole number is too long. -/
def fit (c : Int) (s : Nat) : Option Amount :=
  (List.range (s + 1)).findSome? fun dropped =>
    ofParts? (c.sign * (roundHalfEven c.natAbs (tenTo dropped) : Int)) (s - dropped)

/-- A zero operand gives way to the other one, scale included. -/
def add? (a b : Amount) : Option Amount :=
  if a.IsZero then some b
  else if b.IsZero then some a
  else
    let s := max a.scale b.scale
    fit (a.atScale s + b.atScale s) s

def sub? (a b : Amount) : Option Amount := a.add? (-b)

/-- Sums from the left: a total that passes the limit on the way is none, whatever follows. -/
def sum? (as : List Amount) : Option Amount := as.foldlM add? zero

def stripZeros (c : Int) : Nat → Int × Nat
  | 0 => (c, 0)
  | s + 1 => if c % 10 = 0 then stripZeros (c / 10) s else (c, s + 1)

theorem stripZeros_bounds (c : Int) (s : Nat) :
    (stripZeros c s).1.natAbs ≤ c.natAbs ∧ (stripZeros c s).2 ≤ s := by
  induction s generalizing c with
  | zero => exact ⟨Nat.le_refl _, Nat.le_refl _⟩
  | succ s ih =>
    unfold stripZeros
    split
    · have := ih (c / 10)
      omega
    · exact ⟨Nat.le_refl _, Nat.le_refl _⟩

def normalize (a : Amount) : Amount :=
  let p := stripZeros a.coefficient a.scale
  have h : p.1.natAbs ≤ a.coefficient.natAbs ∧ p.2 ≤ a.scale := stripZeros_bounds _ _
  ⟨p.1, p.2, Nat.lt_of_le_of_lt h.1 a.coefficient_lt, Nat.le_trans h.2 a.scale_le⟩

end Amount

end WalletLedger
