import WalletLedger.Binary64
import WalletLedger.Json

/-!
The binary number that a real literal stands for. Digits count as long as they fit 64 bits, those
beyond only move the point; then the number is scaled by a power of ten at once, up to `10 ^ 308`.
Each of these steps rounds.
-/
namespace WalletLedger.RealLiteral

/-- Appends digits to `n` while 64 bits hold them; the number, and how many were used. -/
def takeDigits (n : Nat) : List Char → Nat × Nat
  | [] => (n, 0)
  | c :: rest =>
    let m := 10 * n + (digitValue? c).getD 0
    if m < twoTo 64 then
      let p := takeDigits m rest
      (p.1, p.2 + 1)
    else (n, 0)

def powerOfTen? (e : Nat) : Option Binary64 := Binary64.ofRatio? (tenTo e) 1

/-- Divides by `10 ^ e` in steps of at most `10 ^ 308`; four of them empty any 64-bit number. -/
def divide? (b : Binary64) (e : Nat) : Nat → Option Binary64
  | 0 => Binary64.ofRatio? 0 1
  | steps + 1 =>
    if e ≤ 308 then do b.div? (← powerOfTen? e)
    else do divide? (← b.div? (← powerOfTen? 308)) (e - 308) steps

def magnitude? (r : RealLiteral) : Option Binary64 := do
  let (n, used) := takeDigits 0 r.whole
  let (n, used') := takeDigits n r.fraction
  let e : Int := (r.whole.length : Int) - used - used' + r.exponent
  let b ← Binary64.ofRatio? n 1
  if n = 0 then some b
  else if e < 0 then divide? b e.natAbs 5
  else if e ≤ 308 then b.mul? (← powerOfTen? e.toNat)
  else none

def ofInteger (n : Int) : RealLiteral := ⟨n < 0, digitChars n.natAbs, [], 0⟩

end WalletLedger.RealLiteral
