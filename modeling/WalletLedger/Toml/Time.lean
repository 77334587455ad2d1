import WalletLedger.Timestamp.Text

/-! Dates and times of day in TOML, alone or together, and the text in which they are passed on. -/
namespace WalletLedger.Toml

def readDate? (cs : List Char) : Option (List Char × List Char) := do
  let (century, cs) ← Timestamp.readPair? cs
  let (year, cs) ← Timestamp.readPair? cs
  let (month, cs) ← Timestamp.readPair? (← Timestamp.readLiteral? '-' cs)
  let (day, cs) ← Timestamp.readPair? (← Timestamp.readLiteral? '-' cs)
  let _ ← Date.of? (100 * century + year : Nat) month day
  return (padded 4 (100 * century + year) ++ '-' :: padded 2 month ++ '-' :: padded 2 day, cs)

/-- Nine digits of the fraction count, and zeros at its end do not. -/
def fractionOf (ds : List Char) : List Char :=
  let kept := ((ds.take 9).reverse.dropWhile (· = '0')).reverse
  if kept.isEmpty then [] else '.' :: kept

def readClock? (cs : List Char) : Option (List Char × List Char) := do
  let (hour, cs) ← Timestamp.readPair? cs
  let (minute, cs) ← Timestamp.readPair? (← Timestamp.readLiteral? ':' cs)
  let (second, cs) ← Timestamp.readPair? (← Timestamp.readLiteral? ':' cs)
  if 23 < hour ∨ 59 < minute ∨ 60 < second then none
  let time := padded 2 hour ++ ':' :: padded 2 minute ++ ':' :: padded 2 second
  match cs with
  | '.' :: rest =>
    let ds := rest.takeWhile Char.isDigit
    if ds.isEmpty then none else return (time ++ fractionOf ds, rest.dropWhile Char.isDigit)
  | _ => return (time, cs)

def readZone? : List Char → Option (List Char)
  | [] => some []
  | ['Z'] | ['z'] => some ['Z']
  | sign :: rest => do
    let (hour, rest) ← Timestamp.readPair? rest
    let (minute, rest) ← Timestamp.readPair? (← Timestamp.readLiteral? ':' rest)
    if (sign ≠ '+' ∧ sign ≠ '-') ∨ !rest.isEmpty ∨ 23 < hour ∨ 59 < minute then none
    return sign :: (padded 2 hour ++ ':' :: padded 2 minute)

def readTime? (cs : List Char) : Option (List Char) :=
  match readDate? cs with
  | some (date, []) => some date
  | some (date, t :: rest) => do
    if t ≠ 'T' ∧ t ≠ 't' ∧ t ≠ ' ' then none
    let (time, rest) ← readClock? rest
    return date ++ 'T' :: time ++ (← readZone? rest)
  | none => do
    let (time, rest) ← readClock? cs
    if rest.isEmpty then return time else none

end WalletLedger.Toml
