import WalletLedger.Settings.Value
import WalletLedger.Toml.Time
import WalletLedger.Toml.Token

/-!
TOML documents. Lines name a table or put a value at a key. A table may be named once, whether by a
header or by the keys that lead through it, and a key may be given once.
-/
namespace WalletLedger.Toml

/-- What a key leads to while a document is read. A table is `implied` if it is only on the way to
what was named, and `dotted` if it came from a key with points; `tables` are a list of tables, of
which the last is still open. -/
inductive Node where
  | value (v : SettingValue)
  | table (implied dotted : Bool) (members : List (String × Node))
  | tables (closed : List (List (String × Node))) (last : List (String × Node))

abbrev Members := List (String × Node)

def Members.put (ms : Members) (k : String) (n : Node) : Members := Table.put Prod.fst (k, n) ms

mutual

def Node.settle : Node → SettingValue
  | .value v => v
  | .table _ _ ms => .table (settleMembers ms)
  | .tables closed last => .list (settleTables closed ++ [.table (settleMembers last)])

def settleMembers : List (String × Node) → SettingTable
  | [] => []
  | (k, n) :: rest => (k, n.settle) :: settleMembers rest

def settleTables : List (List (String × Node)) → List SettingValue
  | [] => []
  | ms :: rest => .table (settleMembers ms) :: settleTables rest

end

open SettingValue in
def putAt (v : SettingValue) : List String → Members → Option Members
  | [], _ => none
  | [k], ms => if (lookUp? k ms).isSome then none else some (ms ++ [(k, .value v)])
  | k :: path, ms =>
    match lookUp? k ms with
    | none => (putAt v path []).map fun inner => ms ++ [(k, .table true true inner)]
    | some (.table true dotted inner) =>
      if path.length = 1 ∧ !dotted then none
      else (putAt v path inner).map fun inner => ms.put k (.table true dotted inner)
    | some _ => none

open SettingValue in
def changeAt (f : Members → Option Members) : List String → Members → Option Members
  | [], ms => f ms
  | k :: path, ms =>
    match lookUp? k ms with
    | none => (changeAt f path []).map fun inner => ms ++ [(k, .table true false inner)]
    | some (.table implied dotted inner) =>
      (changeAt f path inner).map fun inner => ms.put k (.table implied dotted inner)
    | some (.tables closed last) =>
      (changeAt f path last).map fun last => ms.put k (.tables closed last)
    | some (.value _) => none

open SettingValue in
def nameTable (k : String) (ms : Members) : Option Members :=
  match lookUp? k ms with
  | none => some (ms ++ [(k, .table false false [])])
  | some (.table true false inner) => some (ms.put k (.table false false inner))
  | some _ => none

open SettingValue in
def nameItem (k : String) (ms : Members) : Option Members :=
  match lookUp? k ms with
  | none => some (ms ++ [(k, .tables [] [])])
  | some (.tables closed last) => some (ms.put k (.tables (closed ++ [last]) []))
  | some _ => none

def nameAt (name : String → Members → Option Members) (path : List String) (ms : Members) :
    Option Members :=
  match path.getLast? with
  | some k => changeAt (name k) path.dropLast ms
  | none => none

/-- The characters of a number, a word or a time. A blank may divide a date from its time. -/
def splitWord (cs : List Char) : List Char × List Char :=
  let inWord (c : Char) : Bool := isBare c || c = '+' || c = '.' || c = ':'
  let word := cs.takeWhile inWord
  let rest := cs.dropWhile inWord
  match readDate? word, rest with
  | some (_, []), ' ' :: c :: tail =>
    if c.isDigit then (word ++ ' ' :: (c :: tail).takeWhile inWord, (c :: tail).dropWhile inWord)
    else (word, rest)
  | _, _ => (word, rest)

def readWord? (word : List Char) : Option SettingValue :=
  if word = ['t', 'r', 'u', 'e'] then some (.flag true)
  else if word = ['f', 'a', 'l', 's', 'e'] then some (.flag false)
  else ((readWhole? word).map .whole).orElse fun _ =>
    ((readReal? word).map .real).orElse fun _ =>
      (readTime? word).map fun t => .text (String.ofList t)

mutual

def readValue? : Nat → List Char → Option (SettingValue × List Char)
  | 0, _ => none
  | fuel + 1, '[' :: rest => (readItems? fuel (skipLines false rest)).map fun p => (.list p.1, p.2)
  | fuel + 1, '\x7b' :: rest =>
    match skipBlanks rest with
    | '\x7d' :: tail => some (.table [], tail)
    | tail => (readPairs? fuel [] tail).map fun p => (.table (settleMembers p.1), p.2)
  | _ + 1, cs =>
    match cs.head? with
    | some '"' | some '\x27' => (readString? cs).map fun p => (.text (String.ofList p.1), p.2)
    | _ => (readWord? (splitWord cs).1).map (·, (splitWord cs).2)

def readItems? : Nat → List Char → Option (List SettingValue × List Char)
  | 0, _ => none
  | _ + 1, ']' :: rest => some ([], rest)
  | fuel + 1, cs =>
    match readValue? fuel cs with
    | none => none
    | some (v, rest) =>
      match skipLines false rest with
      | ',' :: tail => (readItems? fuel (skipLines false tail)).map fun p => (v :: p.1, p.2)
      | ']' :: tail => some ([v], tail)
      | _ => none

def readPairs? : Nat → Members → List Char → Option (Members × List Char)
  | 0, _, _ => none
  | fuel + 1, ms, cs =>
    match readKey? cs with
    | some (path, '=' :: rest) =>
      match readValue? fuel (skipBlanks rest) with
      | none => none
      | some (v, rest) =>
        match putAt v path ms, skipBlanks rest with
        | some ms, ',' :: tail => readPairs? fuel ms tail
        | some ms, '\x7d' :: tail => some (ms, tail)
        | _, _ => none
    | _ => none

end

def readLines? : Nat → List String → Members → List Char → Option Members
  | 0, _, _, _ => none
  | fuel + 1, path, ms, cs =>
    match skipLines false cs with
    | [] => some ms
    | '[' :: '[' :: rest =>
      match readKey? rest with
      | some (path, ']' :: ']' :: rest) => do
        readLines? fuel path (← nameAt nameItem path ms) (← readLineEnd? rest)
      | _ => none
    | '[' :: rest =>
      match readKey? rest with
      | some (path, ']' :: rest) => do
        readLines? fuel path (← nameAt nameTable path ms) (← readLineEnd? rest)
      | _ => none
    | rest =>
      match readKey? rest with
      | some (key, '=' :: rest) => do
        let (v, rest) ← readValue? (2 * rest.length + 2) (skipBlanks rest)
        readLines? fuel path (← changeAt (putAt v key) path ms) (← readLineEnd? rest)
      | _ => none

def read? (cs : List Char) : Option SettingTable :=
  (readLines? (cs.length + 1) [] [] cs).map settleMembers

def ofText? (s : String) : Option SettingTable := read? s.toList

end WalletLedger.Toml
