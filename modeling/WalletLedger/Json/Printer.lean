import WalletLedger.Json
import WalletLedger.Json.Quoted

/-! Compact JSON text: no blanks, members in their order. -/
namespace WalletLedger.Json

def integerChars (n : Int) : List Char :=
  if n < 0 then '-' :: digitChars n.natAbs else digitChars n.natAbs

def realChars (r : RealLiteral) : List Char :=
  (if r.negative then ['-'] else []) ++ r.whole ++
    (if r.fraction.isEmpty then [] else '.' :: r.fraction) ++
    (if r.exponent = 0 then [] else 'e' :: integerChars r.exponent)

mutual

def print : Json → List Char
  | null => "null".toList
  | bool true => "true".toList
  | bool false => "false".toList
  | integer n => integerChars n
  | real r => realChars r
  | text s => Quoted.encode s.toList
  | unreadableText => Quoted.encode []
  | array items => '[' :: printItems items ++ [']']
  | object members => '{' :: printMembers members ++ ['}']

def printItems : List Json → List Char
  | [] => []
  | [j] => print j
  | j :: js => print j ++ ',' :: printItems js

def printMembers : List (Option String × Json) → List Char
  | [] => []
  | [(k, j)] => Quoted.encode (k.getD "").toList ++ ':' :: print j
  | (k, j) :: ms => Quoted.encode (k.getD "").toList ++ ':' :: print j ++ ',' :: printMembers ms

end

def toText (j : Json) : String := String.ofList j.print

end WalletLedger.Json
