import WalletLedger.Power

/-!
Identifiers of users, wallets, transactions and entries: 128-bit numbers, ordered as numbers, and
written as 32 hexadecimal digits in groups of 8, 4, 4, 4 and 12. Reading also takes the digits
without hyphens, and the grouped form in braces or behind `urn:uuid:`, in any letter case.
-/
namespace WalletLedger

structure Identifier where
  value : Nat
  value_lt : value < twoTo 128
  deriving DecidableEq, Repr

abbrev UserId := Identifier
abbrev WalletId := Identifier
abbrev TransactionId := Identifier
abbrev EntryId := Identifier

def hexChar (n : Nat) : Char :=
  if n < 10 then Char.ofNat ('0'.toNat + n) else Char.ofNat ('a'.toNat + (n - 10))

def hexValue? (c : Char) : Option Nat :=
  if '0' ≤ c ∧ c ≤ '9' then some (c.toNat - '0'.toNat)
  else if 'a' ≤ c ∧ c ≤ 'f' then some (c.toNat - 'a'.toNat + 10)
  else if 'A' ≤ c ∧ c ≤ 'F' then some (c.toNat - 'A'.toNat + 10)
  else none

namespace Identifier

instance : LT Identifier := ⟨fun a b => a.value < b.value⟩
instance : LE Identifier := ⟨fun a b => a.value ≤ b.value⟩
instance (a b : Identifier) : Decidable (a < b) := inferInstanceAs (Decidable (_ < (_ : Nat)))
instance (a b : Identifier) : Decidable (a ≤ b) := inferInstanceAs (Decidable (_ ≤ (_ : Nat)))

theorem ext {a b : Identifier} (h : a.value = b.value) : a = b := by
  cases a; cases b; simp_all

def ofNat (n : Nat) : Identifier := ⟨n % twoTo 128, Nat.mod_lt _ (by decide)⟩

def nil : Identifier := ofNat 0

def order (a b : Identifier) : Ordering := compare a.value b.value

def hexDigits : Nat → Nat → List Char
  | 0, _ => []
  | n + 1, v => hexDigits n (v / 16) ++ [hexChar (v % 16)]

def groups : List Nat := [8, 4, 4, 4, 12]

def hyphenate : List Nat → List Char → List Char
  | [], cs => cs
  | [n], cs => cs.take n
  | n :: rest, cs => cs.take n ++ '-' :: hyphenate rest (cs.drop n)

def ungroup? : List Nat → List Char → Option (List Char)
  | [], cs => if cs.isEmpty then some [] else none
  | [n], cs => if cs.length = n then some cs else none
  | n :: rest, cs =>
    match cs.drop n with
    | '-' :: tail => (ungroup? rest tail).map (cs.take n ++ ·)
    | _ => none

def toChars (id : Identifier) : List Char := hyphenate groups (hexDigits 32 id.value)

def text (id : Identifier) : String := String.ofList id.toChars

def ofHex? (cs : List Char) : Option Identifier := do
  if cs.length ≠ 32 then none
  let n ← cs.foldlM (fun n c => (hexValue? c).map (16 * n + ·)) 0
  if h : n < twoTo 128 then some ⟨n, h⟩ else none

/-- The grouped text inside the optional wrapping; a wrapped text is always grouped. -/
def unwrap? (cs : List Char) : Option (List Char) :=
  match cs with
  | '{' :: rest => if rest.getLast? = some '}' then some rest.dropLast else none
  | _ =>
    if (cs.take 9).map Char.toLower = "urn:uuid:".toList then some (cs.drop 9) else none

def read? (cs : List Char) : Option Identifier :=
  if cs.length = 32 then ofHex? cs
  else (ungroup? groups ((unwrap? cs).getD cs)).bind ofHex?

def ofText? (s : String) : Option Identifier := read? s.toList

end Identifier

end WalletLedger
