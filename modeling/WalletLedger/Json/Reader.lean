import WalletLedger.Json
import WalletLedger.Json.Quoted

/-! Reading JSON text: one value with nothing but blanks around it. -/
namespace WalletLedger.Json

def isSpace (c : Char) : Bool := c = ' ' || c = '\n' || c = '\t' || c = '\r'

def skipSpace (cs : List Char) : List Char := cs.dropWhile isSpace

def isDigit (c : Char) : Bool := '0' ≤ c && c ≤ '9'

def splitDigits (cs : List Char) : List Char × List Char :=
  (cs.takeWhile isDigit, cs.dropWhile isDigit)

def readExponent? (cs : List Char) : Option (Int × List Char) :=
  let (negative, cs) := match cs with
    | '-' :: rest => (true, rest)
    | '+' :: rest => (false, rest)
    | _ => (false, cs)
  let (ds, rest) := splitDigits cs
  (readNat? ds).map fun n => (if negative then -(n : Int) else n, rest)

/-- A number without its sign. Digits before the point start with zero only for zero itself. -/
def readNumber? (negative : Bool) (cs : List Char) : Option (Json × List Char) := do
  let (whole, rest) := splitDigits cs
  let n ← readNat? whole
  if whole.head? = some '0' ∧ 1 < whole.length then none
  let (fraction, rest, pointed) ← match rest with
    | '.' :: tail =>
      let (ds, tail) := splitDigits tail
      if ds.isEmpty then none else some (ds, tail, true)
    | _ => some ([], rest, false)
  match rest with
  | c :: tail =>
    if c = 'e' ∨ c = 'E' then
      let (e, tail) ← readExponent? tail
      some (real ⟨negative, whole, fraction, e⟩, tail)
    else some (plain n whole fraction pointed, rest)
  | [] => some (plain n whole fraction pointed, rest)
where
  plain (n : Nat) (whole fraction : List Char) (pointed : Bool) : Json :=
    if pointed ∨ (negative ∧ n = 0) then real ⟨negative, whole, fraction, 0⟩
    else integer (if negative then -(n : Int) else n)

mutual

/-- Reads a value; `fuel` bounds the nesting and the number of items. -/
def readValue? : Nat → List Char → Option (Json × List Char)
  | 0, _ => none
  | fuel + 1, cs =>
    match skipSpace cs with
    | 'n' :: 'u' :: 'l' :: 'l' :: rest => some (null, rest)
    | 't' :: 'r' :: 'u' :: 'e' :: rest => some (bool true, rest)
    | 'f' :: 'a' :: 'l' :: 's' :: 'e' :: rest => some (bool false, rest)
    | '"' :: rest =>
      (Quoted.decode rest).map fun p =>
        ((p.1.map fun content => text (String.ofList content)).getD unreadableText, p.2)
    | '[' :: rest =>
      match skipSpace rest with
      | ']' :: tail => some (array [], tail)
      | tail => (readItems? fuel tail).map fun p => (array p.1, p.2)
    | '{' :: rest =>
      match skipSpace rest with
      | '}' :: tail => some (object [], tail)
      | tail => (readMembers? fuel tail).map fun p => (object p.1, p.2)
    | '-' :: rest => readNumber? true rest
    | rest => readNumber? false rest

def readItems? : Nat → List Char → Option (List Json × List Char)
  | 0, _ => none
  | fuel + 1, cs =>
    match readValue? fuel cs with
    | none => none
    | some (j, rest) =>
      match skipSpace rest with
      | ']' :: tail => some ([j], tail)
      | ',' :: tail => (readItems? fuel tail).map fun p => (j :: p.1, p.2)
      | _ => none

def readMembers? : Nat → List Char → Option (List (Option String × Json) × List Char)
  | 0, _ => none
  | fuel + 1, cs =>
    match skipSpace cs with
    | '"' :: rest =>
      match Quoted.decode rest with
      | none => none
      | some (key, rest) =>
        match skipSpace rest with
        | ':' :: rest =>
          match readValue? fuel rest with
          | none => none
          | some (j, rest) =>
            let member := (key.map String.ofList, j)
            match skipSpace rest with
            | '}' :: tail => some ([member], tail)
            | ',' :: tail => (readMembers? fuel tail).map fun p => (member :: p.1, p.2)
            | _ => none
        | _ => none
    | _ => none

end

/-- Every item and every level of nesting takes a character or more of the text, so twice its
length is fuel enough. -/
def read? (cs : List Char) : Option Json :=
  match readValue? (2 * cs.length + 2) cs with
  | some (j, rest) => if (skipSpace rest).isEmpty then some j else none
  | none => none

def ofText? (s : String) : Option Json := read? s.toList

end WalletLedger.Json
