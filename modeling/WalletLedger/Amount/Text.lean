import WalletLedger.Amount

/-!
Amounts as text. Writing shows every fraction digit the scale asks for. Reading takes plain
decimals, with `_` between digits, and keeps their scale; once 28 fraction digits or 96 bits are
used up, the next character decides the rounding (half away from zero) and ends the reading.
`readExponent?` adds the form with an exponent.
-/
namespace WalletLedger

def digitChars (n : Nat) : List Char := Nat.toDigits 10 n

def digitValue? (c : Char) : Option Nat :=
  if '0' ≤ c ∧ c ≤ '9' then some (c.toNat - '0'.toNat) else none

def readNat? (cs : List Char) : Option Nat :=
  if cs.isEmpty then none
  else cs.foldlM (fun n c => (digitValue? c).map (10 * n + ·)) 0

def readWord32? (cs : List Char) : Option Nat :=
  let digits := match cs with
    | '+' :: rest => rest
    | _ => cs
  (readNat? digits).filter (· < twoTo 32)

namespace Amount

def magnitudeChars (a : Amount) : List Char :=
  let ds := digitChars a.coefficient.natAbs
  let padded := List.replicate (a.scale + 1 - ds.length) '0' ++ ds
  let whole := padded.length - a.scale
  padded.take whole ++ (if a.scale = 0 then [] else '.' :: padded.drop whole)

def toChars (a : Amount) : List Char :=
  if a.IsNegative then '-' :: a.magnitudeChars else a.magnitudeChars

def text (a : Amount) : String := String.ofList a.toChars

/-- The text with the other sign, which a zero shows as well. -/
def flippedText (a : Amount) : String :=
  String.ofList (if a.IsNegative then a.magnitudeChars else '-' :: a.magnitudeChars)

/-- Reading stops at `next`, the first character there is no room for. A coefficient that rounds
up to 97 bits gives up one more digit if the fraction has one. -/
def roundOff? (negative : Bool) (n scale : Nat) (next : Char) : Option Amount :=
  let signed (m : Nat) : Int := if negative then -(m : Int) else m
  let digit := if next = '_' ∨ next = '.' then some 0 else digitValue? next
  digit.bind fun d =>
    if d < 5 then ofParts? (signed n) scale
    else if n + 1 < twoTo 96 then ofParts? (signed (n + 1)) scale
    else if scale = 0 then none
    else ofParts? (signed ((n + 5) / 10)) (scale - 1)

/-- Reads on after `n` with `scale` fraction digits; `point` and `any` tell whether a point and a
digit have been met. -/
def readDigits? (negative : Bool) (point any : Bool) (n scale : Nat) : List Char → Option Amount
  | [] => if any then ofParts? (if negative then -(n : Int) else n) scale else none
  | c :: rest =>
    if point ∧ scale = 28 then roundOff? negative n scale c
    else match digitValue? c with
      | some d =>
        if 10 * n + d < twoTo 96 then
          readDigits? negative point true (10 * n + d) (if point then scale + 1 else scale) rest
        else if point then roundOff? negative n scale c
        else none
      | none =>
        if c = '.' ∧ !point then readDigits? negative true any n scale rest
        else if c = '_' ∧ any then readDigits? negative point any n scale rest
        else none

def read? : List Char → Option Amount
  | '-' :: rest => readDigits? true false false 0 0 rest
  | '+' :: rest => readDigits? false false false 0 0 rest
  | cs => readDigits? false false false 0 0 cs

def ofText? (s : String) : Option Amount := read? s.toList

/-- A decimal, `e` or `E`, and a power of ten of at most 28 either way. A negative power lengthens
the scale; a positive one shortens it, or, where it is longer than the scale, gives the number
without trailing zeros. -/
def readExponent? (cs : List Char) : Option Amount := do
  let mark : Char → Bool := fun c => c = 'e' || c = 'E'
  let base ← read? (cs.takeWhile (!mark ·))
  match cs.dropWhile (!mark ·) with
  | [] => none
  | _ :: '-' :: digits =>
    let e ← readWord32? digits
    if e ≤ 28 then ofParts? base.coefficient (base.scale + e) else none
  | _ :: digits =>
    let e ← readWord32? digits
    if e ≤ base.scale then ofParts? base.coefficient (base.scale - e)
    else if e ≤ 28 then
      (ofParts? (base.coefficient * tenTo (e - base.scale)) 0).map normalize
    else none

end Amount

end WalletLedger
