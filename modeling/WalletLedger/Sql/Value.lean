import WalletLedger.Amount.Text
import WalletLedger.Identifier
import WalletLedger.Sql.Failure
import WalletLedger.Timestamp.Text

/-!
Values that statements carry and rows hold. A time keeps the distance from UTC at which it is
written down. Columns are read by name; one that is missing reads as null.
-/
namespace WalletLedger.Sql

/-- A point in time, and the seconds by which its writer is ahead of UTC. -/
structure ZonedTime where
  utc : Timestamp
  offset : Int
  deriving DecidableEq, Repr

namespace ZonedTime

def ofUtc (t : Timestamp) : ZonedTime := ⟨t, 0⟩

def ofText? (s : String) : Option ZonedTime :=
  (Timestamp.readZoned? s.toList).map fun p => ⟨p.1, p.2⟩

def text (t : ZonedTime) : String :=
  if t.offset = 0 then t.utc.text
  else
    let shown := (t.utc.toUtc (-t.offset)).toChars.dropLast
    let minutes := t.offset.natAbs / 60
    String.ofList (shown ++ (if t.offset < 0 then '-' else '+') ::
      (padded 2 (minutes / 60) ++ ':' :: padded 2 (minutes % 60)))

end ZonedTime

inductive Value where
  | null
  | uuid (id : Identifier)
  | amount (a : Amount)
  | text (s : String)
  | whole (n : Int)
  | time (t : ZonedTime)
  deriving DecidableEq, Repr

abbrev Row := List (String × Value)

def choose {α : Type} (title : String) (ofName? : String → Option α) (name : String) :
    Except Failure α :=
  match ofName? name with
  | some a => .ok a
  | none => .error (.type s!"unexpected value for {title} enum: {name}")

namespace Row

def value (row : Row) (column : String) : Value :=
  ((row.find? (·.1 = column)).map (·.2)).getD .null

def nullIn (column : String) : Failure :=
  .type s!"A null value was encountered while decoding \"{column}\""

def uuid (row : Row) (column : String) : Except Failure Identifier :=
  match row.value column with
  | .uuid id => .ok id
  | _ => .error (nullIn column)

def amount (row : Row) (column : String) : Except Failure Amount :=
  match row.value column with
  | .amount a => .ok a
  | _ => .error (nullIn column)

def text (row : Row) (column : String) : Except Failure String :=
  match row.value column with
  | .text s => .ok s
  | _ => .error (nullIn column)

def optionalText (row : Row) (column : String) : Except Failure (Option String) :=
  match row.value column with
  | .text s => .ok (some s)
  | _ => .ok none

def whole (row : Row) (column : String) : Except Failure Int :=
  match row.value column with
  | .whole n => .ok n
  | _ => .error (nullIn column)

def time (row : Row) (column : String) : Except Failure ZonedTime :=
  match row.value column with
  | .time t => .ok t
  | _ => .error (nullIn column)

def choice {α : Type} (row : Row) (title : String) (ofName? : String → Option α)
    (column : String) : Except Failure α := do
  choose title ofName? (← row.text column)

end Row

end WalletLedger.Sql
