/-!
Upper-casing by Unicode's full case mapping, as far as it leads into ASCII: the small letters, the
dotless i, the long and the sharp s, and the Latin ligatures. No other character has an image made
of ASCII letters, and those are left alone here.
-/
namespace WalletLedger

def capitals (c : Char) : List Char :=
  if 'a' ≤ c ∧ c ≤ 'z' then [c.toUpper]
  else match c.toNat with
    | 0x00DF => ['S', 'S']
    | 0x0131 => ['I']
    | 0x017F => ['S']
    | 0xFB00 => ['F', 'F']
    | 0xFB01 => ['F', 'I']
    | 0xFB02 => ['F', 'L']
    | 0xFB03 => ['F', 'F', 'I']
    | 0xFB04 => ['F', 'F', 'L']
    | 0xFB05 => ['S', 'T']
    | 0xFB06 => ['S', 'T']
    | _ => [c]

def capitalText (s : String) : String := String.ofList (s.toList.flatMap capitals)

end WalletLedger
