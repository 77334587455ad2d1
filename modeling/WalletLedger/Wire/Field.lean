import WalletLedger.Identifier
import WalletLedger.Json.Real
import WalletLedger.Money
import WalletLedger.Timestamp.Text

/-!
Fields of records in JSON. A record is an object, in which unknown members are passed over and
known ones may stand once, or an array of its fields in their order.
-/
namespace WalletLedger

namespace Json

def fields? (names : List String) : Json → Option (List (Option Json))
  | array items =>
    if items.length ≤ names.length then
      some (items.map some ++ List.replicate (names.length - items.length) none)
    else none
  | object members =>
    if members.all (fun m => m.1.isSome) then
      names.mapM fun name =>
        match members.filter (·.1 = some name) with
        | [] => some none
        | [m] => some (some m.2)
        | _ => none
    else none
  | _ => none

def record (members : List (String × Json)) : Json :=
  object (members.map fun m => (some m.1, m.2))

def string? : Json → Option String
  | text s => some s
  | _ => none

def bool? : Json → Option Bool
  | bool b => some b
  | _ => none

def nat? (limit : Nat) : Json → Option Nat
  | integer n => if 0 ≤ n ∧ n.toNat < limit then some n.toNat else none
  | _ => none

def word32? : Json → Option Nat := nat? (twoTo 32)
def word64? : Json → Option Nat := nat? (twoTo 64)

def int64? : Json → Option Int
  | integer n => signedWord? n
  | _ => none

/-- A name of an enumeration, alone or as the only member of an object, with null. -/
def choice? {α : Type} (ofName? : String → Option α) : Json → Option α
  | text s => ofName? s
  | object [(some s, null)] => ofName? s
  | _ => none

def identifier? (j : Json) : Option Identifier := j.string?.bind Identifier.ofText?

def timestamp? (j : Json) : Option Timestamp := j.string?.bind Timestamp.ofText?

def realAmount? (r : RealLiteral) : Option Amount := do
  let b ← r.magnitude?
  Amount.read? (if r.negative then '-' :: b.chars else b.chars)

/-- Amounts stand in strings, plain or with an exponent. Numbers are taken too: whole ones of 64
bits as they are, others through the shortest text of the binary number nearest to them. -/
def amount? : Json → Option Amount
  | text s => (Amount.read? s.toList).orElse fun _ => Amount.readExponent? s.toList
  | integer n =>
    if -(twoTo 63 : Int) ≤ n ∧ n < twoTo 64 then Amount.ofParts? n 0
    else realAmount? (RealLiteral.ofInteger n)
  | real r => realAmount? r
  | _ => none

def need? {α : Type} (read? : Json → Option α) (field : Option Json) : Option α := field.bind read?

def optional? {α : Type} (read? : Json → Option α) : Option Json → Option (Option α)
  | none | some null => some none
  | some j => (read? j).map some

end Json

def orDefault? {ν α : Type} (default : α) (read? : ν → Option α) : Option ν → Option α
  | none => some default
  | some v => read? v

end WalletLedger
