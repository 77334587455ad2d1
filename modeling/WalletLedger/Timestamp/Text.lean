import WalletLedger.Amount.Text
import WalletLedger.Text.Blank
import WalletLedger.Timestamp

/-!
Timestamps as text. Writing follows RFC 3339 in UTC, with the fewest of 0, 3, 6 or 9 fraction
digits that are exact. Reading takes any offset, single-digit fields, blanks between the fields,
and a blank for the `T`; digits past the ninth of the fraction are dropped.
-/
namespace WalletLedger

def padded (width n : Nat) : List Char :=
  let ds := digitChars n
  List.replicate (width - ds.length) '0' ++ ds

namespace Timestamp

/-- Four digits, or a sign and at least four digits outside the years 0 to 9999. -/
def yearChars (year : Int) : List Char :=
  if year < 0 then '-' :: padded 4 year.natAbs
  else if year ≤ 9999 then padded 4 year.natAbs
  else '+' :: padded 4 year.natAbs

def fractionText (nano : Nat) : List Char :=
  if nano = 0 then []
  else if nano % tenTo 6 = 0 then '.' :: padded 3 (nano / tenTo 6)
  else if nano % tenTo 3 = 0 then '.' :: padded 6 (nano / tenTo 3)
  else '.' :: padded 9 nano

def toChars (t : Timestamp) : List Char :=
  let leap := t.nano / tenTo 9
  yearChars t.date.year ++ '-' :: padded 2 t.date.month ++ '-' :: padded 2 t.date.day ++
    'T' :: padded 2 (t.second / 3600) ++ ':' :: padded 2 (t.second / 60 % 60) ++
    ':' :: padded 2 (t.second % 60 + leap) ++ fractionText (t.nano % tenTo 9) ++ ['Z']

def text (t : Timestamp) : String := String.ofList t.toChars

def skipBlanks (cs : List Char) : List Char := cs.dropWhile isBlank

def readField? (width : Nat) (cs : List Char) : Option (Nat × List Char) :=
  let cs := skipBlanks cs
  let ds := (cs.take width).takeWhile (fun c => '0' ≤ c ∧ c ≤ '9')
  (readNat? ds).map (·, cs.drop ds.length)

def readLiteral? (c : Char) : List Char → Option (List Char)
  | d :: rest => if d = c then some rest else none
  | [] => none

def readYear? (cs : List Char) : Option (Int × List Char) :=
  match skipBlanks cs with
  | '-' :: rest => (readSigned rest).map fun p => (-(p.1 : Int), p.2)
  | '+' :: rest => (readSigned rest).map fun p => ((p.1 : Int), p.2)
  | rest => (readField? 4 rest).map fun p => ((p.1 : Int), p.2)
where
  readSigned (cs : List Char) : Option (Nat × List Char) :=
    let ds := cs.takeWhile (fun c => '0' ≤ c ∧ c ≤ '9')
    (readNat? ds).map (·, cs.drop ds.length)

def readFraction? (cs : List Char) : Option (Nat × List Char) :=
  match cs with
  | '.' :: rest =>
    let ds := rest.takeWhile (fun c => '0' ≤ c ∧ c ≤ '9')
    let kept := ds.take 9
    (readNat? kept).map fun n => (n * tenTo (9 - kept.length), rest.drop ds.length)
  | _ => some (0, cs)

def readPair? : List Char → Option (Nat × List Char)
  | a :: b :: rest => do
    let x ← digitValue? a
    let y ← digitValue? b
    some (10 * x + y, rest)
  | _ => none

def readOffset? : List Char → Option (Int × List Char)
  | 'Z' :: rest | 'z' :: rest => some (0, rest)
  | '+' :: rest => clock rest
  | '-' :: rest | '−' :: rest => (clock rest).map fun p => (-p.1, p.2)
  | _ => none
where
  clock (cs : List Char) : Option (Int × List Char) := do
    let (hours, rest) ← readPair? cs
    let (minutes, rest) ← readPair? (rest.dropWhile fun c => c = ':' || isBlank c)
    if minutes < 60 then some (((hours * 3600 + minutes * 60 : Nat) : Int), rest) else none

def readZoned? (cs : List Char) : Option (Timestamp × Int) := do
  let (year, cs) ← readYear? cs
  let (month, cs) ← readField? 2 (← readLiteral? '-' (skipBlanks cs))
  let (day, cs) ← readField? 2 (← readLiteral? '-' (skipBlanks cs))
  let cs ← match cs with
    | c :: rest => if c = 'T' ∨ c = 't' ∨ c = ' ' then some rest else none
    | [] => none
  let (hour, cs) ← readField? 2 cs
  let (minute, cs) ← readField? 2 (← readLiteral? ':' (skipBlanks cs))
  let (second, cs) ← readField? 2 (← readLiteral? ':' (skipBlanks cs))
  let (nano, cs) ← readFraction? cs
  let (offset, cs) ← readOffset? (skipBlanks cs)
  if (skipBlanks cs).isEmpty ∧ hour < 24 ∧ minute < 60 ∧ second ≤ 60 ∧ offset.natAbs < 86400
      ∧ -262143 ≤ year ∧ year ≤ 262142 then
    let date ← Date.of? year month day
    let leap := if second = 60 then 1 else 0
    let t ← of? date (hour * 3600 + minute * 60 + (second - leap)) (nano + leap * tenTo 9)
    some (t.toUtc offset, offset)
  else none

def read? (cs : List Char) : Option Timestamp := (readZoned? cs).map (·.1)

def ofText? (s : String) : Option Timestamp := read? s.toList

end Timestamp

end WalletLedger
