import WalletLedger.Amount.Text

/-!
JSON values as they are written. Objects keep the order and the repetitions of their members, and
a string that names no text (half of a surrogate pair) is kept as such, since a reader may pass
over it without reading it.
-/
namespace WalletLedger

/-- A number with a fraction, an exponent or a sign in front of zero: its digits before and after
the point, and the power of ten. -/
structure RealLiteral where
  negative : Bool
  whole : List Char
  fraction : List Char
  exponent : Int
  deriving DecidableEq, Repr

inductive Json where
  | null
  | bool (b : Bool)
  | integer (n : Int)
  | real (r : RealLiteral)
  | text (s : String)
  | unreadableText
  | array (items : List Json)
  | object (members : List (Option String × Json))

end WalletLedger
