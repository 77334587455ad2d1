import WalletLedger.Power

/-!
Spans of time in nanoseconds, up to `2 ^ 64` seconds less a nanosecond. Their text uses the
largest unit of `s`, `ms`, `µs` and `ns` that they fill once.
-/
namespace WalletLedger

structure TimeSpan where
  nanos : Nat
  nanos_lt : nanos < twoTo 64 * tenTo 9
  deriving DecidableEq, Repr

namespace TimeSpan

def ofNanos? (n : Nat) : Option TimeSpan :=
  if h : n < twoTo 64 * tenTo 9 then some ⟨n, h⟩ else none

def zero : TimeSpan := ⟨0, by decide⟩
def longest : TimeSpan := ⟨twoTo 64 * tenTo 9 - 1, by decide⟩

def clamp (n : Nat) : TimeSpan := (ofNanos? n).getD longest

def ofMillis (n : Nat) : TimeSpan := clamp (n * tenTo 6)

def seconds (t : TimeSpan) : Nat := t.nanos / tenTo 9
def subsecond (t : TimeSpan) : Nat := t.nanos % tenTo 9

def scale? (t : TimeSpan) (k : Nat) : Option TimeSpan := ofNanos? (t.nanos * k)

def addClamped (a b : TimeSpan) : TimeSpan := clamp (a.nanos + b.nanos)

/-- The digits of a fraction with its trailing zeros dropped, behind a point if any are left. -/
def fractionChars (width n : Nat) : List Char :=
  let ds := Nat.toDigits 10 n
  let kept := ((List.replicate (width - ds.length) '0' ++ ds).reverse.dropWhile (· = '0')).reverse
  if kept.isEmpty then [] else '.' :: kept

def textIn (width : Nat) (unit : String) (n : Nat) : String :=
  let whole := Nat.toDigits 10 (n / tenTo width)
  String.ofList (whole ++ fractionChars width (n % tenTo width)) ++ unit

def text (t : TimeSpan) : String :=
  if tenTo 9 ≤ t.nanos then textIn 9 "s" t.nanos
  else if tenTo 6 ≤ t.nanos then textIn 6 "ms" t.nanos
  else if tenTo 3 ≤ t.nanos then textIn 3 "µs" t.nanos
  else textIn 0 "ns" t.nanos

end TimeSpan

end WalletLedger
