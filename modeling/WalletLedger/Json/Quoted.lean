import WalletLedger.Identifier

/-!
JSON strings. Writing escapes the quote, the backslash and the control characters, with the short
escapes where there are any. Reading takes every escape of the format.
-/
namespace WalletLedger.Quoted

def escape (c : Char) : List Char :=
  match c with
  | '"' => ['\\', '"']
  | '\\' => ['\\', '\\']
  | '\x08' => ['\\', 'b']
  | '\x0c' => ['\\', 'f']
  | '\n' => ['\\', 'n']
  | '\r' => ['\\', 'r']
  | '\t' => ['\\', 't']
  | c =>
    if c.toNat < 0x20 then
      ['\\', 'u', '0', '0', hexChar (c.toNat / 16), hexChar (c.toNat % 16)]
    else [c]

def encode (cs : List Char) : List Char := '"' :: cs.flatMap escape ++ ['"']

def unescape? : Char → Option Char
  | '"' => some '"'
  | '\\' => some '\\'
  | '/' => some '/'
  | 'b' => some '\x08'
  | 'f' => some '\x0c'
  | 'n' => some '\n'
  | 'r' => some '\r'
  | 't' => some '\t'
  | _ => none

def hexWord? (a b c d : Char) : Option Nat := do
  let w ← hexValue? a
  let x ← hexValue? b
  let y ← hexValue? c
  let z ← hexValue? d
  some (((w * 16 + x) * 16 + y) * 16 + z)

def push (c : Char) : Option (List Char) × List Char → Option (List Char) × List Char
  | (content, rest) => (content.map (c :: ·), rest)

def giveUp : Option (List Char) × List Char → Option (List Char) × List Char
  | (_, rest) => (none, rest)

/-- Reads on inside a string, up to and with its closing quote: the text, if the escapes name one,
and what follows. None where the string itself is malformed. -/
def decode : List Char → Option (Option (List Char) × List Char)
  | [] => none
  | '"' :: rest => some (some [], rest)
  | '\\' :: 'u' :: a :: b :: c :: d :: '\\' :: 'u' :: e :: f :: g :: h :: rest =>
    match hexWord? a b c d with
    | none => none
    | some high =>
      if 0xD800 ≤ high ∧ high < 0xDC00 then
        match hexWord? e f g h with
        | some low =>
          if 0xDC00 ≤ low ∧ low < 0xE000 then
            (decode rest).map
              (push (Char.ofNat (0x10000 + (high - 0xD800) * 0x400 + (low - 0xDC00))))
          else (decode ('\\' :: 'u' :: e :: f :: g :: h :: rest)).map giveUp
        | none => none
      else if 0xDC00 ≤ high ∧ high < 0xE000 then
        (decode ('\\' :: 'u' :: e :: f :: g :: h :: rest)).map giveUp
      else (decode ('\\' :: 'u' :: e :: f :: g :: h :: rest)).map (push (Char.ofNat high))
  | '\\' :: 'u' :: a :: b :: c :: d :: rest =>
    match hexWord? a b c d with
    | none => none
    | some n =>
      if 0xD800 ≤ n ∧ n < 0xE000 then (decode rest).map giveUp
      else (decode rest).map (push (Char.ofNat n))
  | '\\' :: e :: rest =>
    match unescape? e with
    | some c => (decode rest).map (push c)
    | none => none
  | c :: rest => if c.toNat < 0x20 then none else (decode rest).map (push c)

end WalletLedger.Quoted
