import WalletLedger.Binary64.Real64
import WalletLedger.Settings
import WalletLedger.Store.Table

/-!
Settings before their types are known: values of any kind in tables. Later sources are laid over
earlier ones, table by table. Reading a setting converts between kinds where that makes sense.
-/
namespace WalletLedger

inductive SettingValue where
  | flag (b : Bool)
  | whole (n : Int)
  | real (r : Real64)
  | text (s : String)
  | list (items : List SettingValue)
  | table (members : List (String × SettingValue))

abbrev SettingTable := List (String × SettingValue)

namespace SettingValue

def lookUp? {ν : Type} (k : String) (members : List (String × ν)) : Option ν :=
  (Table.find? Prod.fst k members).map (·.2)

def members : Option SettingValue → SettingTable
  | some (table ms) => ms
  | _ => []

mutual

/-- Lays a value over an old one: tables are joined, and anything else is replaced. -/
def laidOver (old : Option SettingValue) : SettingValue → SettingValue
  | table ms => table (laidOverAll (members old) ms)
  | v => v

def laidOverAll (old : SettingTable) : SettingTable → SettingTable
  | [] => old
  | (k, v) :: rest => laidOverAll (Table.put Prod.fst (k, v.laidOver (lookUp? k old)) old) rest

end

def laidOverAt (v : SettingValue) : List String → Option SettingValue → SettingValue
  | [], old => v.laidOver old
  | k :: path, old =>
    table (Table.put Prod.fst (k, laidOverAt v path (lookUp? k (members old))) (members old))

def textOf? : SettingValue → Option String
  | flag b => some (if b then "true" else "false")
  | whole n => some (if n < 0 then String.ofList ('-' :: digitChars n.natAbs)
      else String.ofList (digitChars n.natAbs))
  | real r => some r.text
  | text s => some s
  | list _ | table _ => none

def flagWord? (s : String) : Option Bool :=
  let word := s.map Char.toLower
  if word = "true" ∨ word = "on" ∨ word = "yes" then some true
  else if word = "false" ∨ word = "off" ∨ word = "no" then some false
  else none

def flagOf? : SettingValue → Option Bool
  | flag b => some b
  | whole n => some (n ≠ 0)
  | real r => some !r.isZero
  | text s => if s = "1" then some true else if s = "0" then some false else flagWord? s
  | list _ | table _ => none

def wholeOf? : SettingValue → Option Nat
  | flag b => some b.toNat
  | whole n => if 0 ≤ n then some n.toNat else none
  | real r => some r.toWord64
  | text s =>
    match flagWord? s with
    | some b => some b.toNat
    | none => readNat? (match s.toList with | '+' :: ds => ds | ds => ds)
  | list _ | table _ => none

def wordOf? (limit : Nat) (v : SettingValue) : Option Nat := v.wholeOf?.filter (· < limit)

def fields? (names : List String) : SettingValue → Option (List (Option SettingValue))
  | table ms => some (names.map (lookUp? · ms))
  | list vs => some ((List.range names.length).map (vs[·]?))
  | _ => none

def form : SettingsForm SettingValue :=
  ⟨fields?, textOf?, wordOf? (twoTo 32), wordOf? (twoTo 64), flagOf?⟩

end SettingValue

end WalletLedger
