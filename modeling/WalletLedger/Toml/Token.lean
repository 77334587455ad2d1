import WalletLedger.Binary64.Real64
import WalletLedger.Json.Quoted
import WalletLedger.Timestamp.Text

/-!
The words of TOML: keys, strings, numbers and times, each read off the front of a text. Blanks are
spaces and tabs; a line may end in a comment.
-/
namespace WalletLedger.Toml

def isBlank (c : Char) : Bool := c = ' ' || c = '\t'

def skipBlanks (cs : List Char) : List Char := cs.dropWhile isBlank

def isPlain (c : Char) : Bool := c = '\t' || (0x20 ≤ c.toNat && c.toNat ≠ 0x7f)

def readNewline? : List Char → Option (List Char)
  | '\n' :: rest => some rest
  | '\r' :: '\n' :: rest => some rest
  | _ => none

def readLineEnd? (cs : List Char) : Option (List Char) :=
  let rest := match skipBlanks cs with
    | '#' :: comment => comment.dropWhile isPlain
    | other => other
  if rest.isEmpty then some [] else readNewline? rest

/-- Passes over blanks, line ends and comments; `comment` tells that one is being passed. -/
def skipLines (comment : Bool) : List Char → List Char
  | [] => []
  | c :: rest =>
    if c = '\n' then skipLines false rest
    else if comment then skipLines true rest
    else if isBlank c ∨ (c = '\r' ∧ rest.head? = some '\n') then skipLines false rest
    else if c = '#' then skipLines true rest
    else c :: rest

def hexNumber? (cs : List Char) : Option Nat :=
  cs.foldlM (fun n c => (hexValue? c).map (16 * n + ·)) 0

def charOf? (n : Nat) : Option Char := if n.isValidChar then some (Char.ofNat n) else none

def unescape? : Char → Option Char
  | '"' => some '"'
  | '\\' => some '\\'
  | 'b' => some '\x08'
  | 'f' => some '\x0c'
  | 'n' => some '\n'
  | 'r' => some '\r'
  | 't' => some '\t'
  | _ => none

def push (c : Char) (p : List Char × List Char) : List Char × List Char := (c :: p.1, p.2)

def readQuoted? : List Char → Option (List Char × List Char)
  | '"' :: rest => some ([], rest)
  | '\\' :: 'u' :: a :: b :: c :: d :: rest => do
    return push (← charOf? (← hexNumber? [a, b, c, d])) (← readQuoted? rest)
  | '\\' :: 'U' :: a :: b :: c :: d :: e :: f :: g :: h :: rest => do
    return push (← charOf? (← hexNumber? [a, b, c, d, e, f, g, h])) (← readQuoted? rest)
  | '\\' :: e :: rest => do return push (← unescape? e) (← readQuoted? rest)
  | c :: rest => if isPlain c then (readQuoted? rest).map (push c) else none
  | [] => none

/-- The text of a string over several lines, up to and with its three closing quotes; one or two
more in front of them belong to the text. A backslash at the end of a line joins it to the next
text; `joining` tells that the blanks after it are being passed. -/
def readLongQuoted? (joining : Bool) : List Char → Option (List Char × List Char)
  | '"' :: '"' :: '"' :: rest =>
    match rest with
    | '"' :: '"' :: tail => some (['"', '"'], tail)
    | '"' :: tail => some (['"'], tail)
    | _ => some ([], rest)
  | '\\' :: 'u' :: a :: b :: c :: d :: rest => do
    return push (← charOf? (← hexNumber? [a, b, c, d])) (← readLongQuoted? false rest)
  | '\\' :: 'U' :: a :: b :: c :: d :: e :: f :: g :: h :: rest => do
    return push (← charOf? (← hexNumber? [a, b, c, d, e, f, g, h])) (← readLongQuoted? false rest)
  | '\\' :: e :: rest =>
    if (readNewline? (skipBlanks (e :: rest))).isSome then readLongQuoted? true (e :: rest)
    else do return push (← unescape? e) (← readLongQuoted? false rest)
  | c :: rest =>
    if joining ∧ (isBlank c ∨ c = '\n' ∨ c = '\r') then readLongQuoted? true rest
    else if c = '\r' ∧ rest.head? = some '\n' then readLongQuoted? false rest
    else if isPlain c ∨ c = '\n' then (readLongQuoted? false rest).map (push c)
    else none
  | [] => none

def readLiteral? : List Char → Option (List Char × List Char)
  | '\x27' :: rest => some ([], rest)
  | c :: rest => if isPlain c then (readLiteral? rest).map (push c) else none
  | [] => none

def readLongLiteral? : List Char → Option (List Char × List Char)
  | '\x27' :: '\x27' :: '\x27' :: rest =>
    match rest with
    | '\x27' :: '\x27' :: tail => some (['\x27', '\x27'], tail)
    | '\x27' :: tail => some (['\x27'], tail)
    | _ => some ([], rest)
  | c :: rest =>
    if c = '\r' ∧ rest.head? = some '\n' then readLongLiteral? rest
    else if isPlain c ∨ c = '\n' then (readLongLiteral? rest).map (push c)
    else none
  | [] => none

/-- A line end right after the opening quotes does not count. -/
def dropNewline (cs : List Char) : List Char := (readNewline? cs).getD cs

def readString? : List Char → Option (List Char × List Char)
  | '"' :: '"' :: '"' :: rest => readLongQuoted? false (dropNewline rest)
  | '"' :: rest => readQuoted? rest
  | '\x27' :: '\x27' :: '\x27' :: rest => readLongLiteral? (dropNewline rest)
  | '\x27' :: rest => readLiteral? rest
  | _ => none

def isBare (c : Char) : Bool := c.isAlphanum || c = '_' || c = '-'

def readKeyPart? (cs : List Char) : Option (String × List Char) :=
  match cs with
  | '"' :: rest => (readQuoted? rest).map fun p => (String.ofList p.1, p.2)
  | '\x27' :: rest => (readLiteral? rest).map fun p => (String.ofList p.1, p.2)
  | _ =>
    let part := cs.takeWhile isBare
    if part.isEmpty then none else some (String.ofList part, cs.dropWhile isBare)

def readKeyParts? : Nat → List Char → Option (List String × List Char)
  | 0, _ => none
  | n + 1, cs => do
    let (part, rest) ← readKeyPart? (skipBlanks cs)
    match skipBlanks rest with
    | '.' :: tail =>
      let (parts, rest) ← readKeyParts? n tail
      return (part :: parts, rest)
    | rest => return ([part], rest)

def readKey? (cs : List Char) : Option (List String × List Char) := readKeyParts? (cs.length + 1) cs

def ungroup? (isDigit : Char → Bool) : List Char → Option (List Char)
  | [] => none
  | [c] => if isDigit c then some [c] else none
  | c :: '_' :: rest => if isDigit c then (ungroup? isDigit rest).map (c :: ·) else none
  | c :: rest => if isDigit c then (ungroup? isDigit rest).map (c :: ·) else none

def readRadix? (base : Nat) (cs : List Char) : Option Nat := do
  let digit (c : Char) : Option Nat := (hexValue? c).filter (· < base)
  let ds ← ungroup? (fun c => (digit c).isSome) cs
  ds.foldlM (fun n c => (digit c).map (base * n + ·)) 0

def wholeDigits? (cs : List Char) : Option (List Char) :=
  (ungroup? Char.isDigit cs).filter fun ds => ds.length = 1 || ds.head? ≠ some '0'

def splitSign : List Char → Bool × List Char
  | '-' :: rest => (true, rest)
  | '+' :: rest => (false, rest)
  | rest => (false, rest)

def readWhole? : List Char → Option Int
  | '0' :: 'x' :: rest => (readRadix? 16 rest).bind (signedWord? ·)
  | '0' :: 'o' :: rest => (readRadix? 8 rest).bind (signedWord? ·)
  | '0' :: 'b' :: rest => (readRadix? 2 rest).bind (signedWord? ·)
  | cs => do
    let (negative, cs) := splitSign cs
    let n ← readNat? (← wholeDigits? cs)
    signedWord? (if negative then -(n : Int) else n)

def readReal? (cs : List Char) : Option Real64 := do
  let (negative, cs) := splitSign cs
  if cs = ['i', 'n', 'f'] then return .infinite negative
  if cs = ['n', 'a', 'n'] then return .notANumber
  let mark : Char → Bool := fun c => c = 'e' || c = 'E'
  let mantissa := cs.takeWhile (!mark ·)
  let whole ← wholeDigits? (mantissa.takeWhile (· ≠ '.'))
  let fraction ← match mantissa.dropWhile (· ≠ '.') with
    | [] => some []
    | _ :: ds => ungroup? Char.isDigit ds
  match cs.dropWhile (!mark ·) with
  | [] => if fraction.isEmpty then none else return .ofDecimal negative whole fraction 0
  | _ :: power =>
    let (down, ds) := splitSign power
    let e ← readNat? (← ungroup? Char.isDigit ds)
    return .ofDecimal negative whole fraction (if down then -(e : Int) else e)

end WalletLedger.Toml
