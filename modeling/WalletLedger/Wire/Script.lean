import WalletLedger.Sql.Dialogue
import WalletLedger.Wire.Row

/-!
Scripts of replies in JSON: `rows`, `affected` or an `error` for each statement. The name of a
column tells what kind of value it holds. A member that is null counts as left out.
-/
namespace WalletLedger.Sql

open Json

/-- The member of an object with this name that stands last, unless it is null. -/
def member? (name : String) : Json → Option Json
  | object members =>
    match members.reverse.find? (·.1 = some name) with
    | some (_, null) | none => none
    | some (_, j) => some j
  | _ => none

def Cause.ofName? (name detail : String) (state : Option String) : Option Cause :=
  match name with
  | "Internal" => some (.internal detail)
  | "Database" => some (.driver (.database state detail))
  | "Io" => some (.driver (.io detail))
  | "Tls" => some (.driver (.tls detail))
  | "PoolTimedOut" => some (.driver .poolTimedOut)
  | "PoolClosed" => some (.driver .poolClosed)
  | "WorkerCrashed" => some (.driver .workerCrashed)
  | "RowNotFound" => some (.driver .rowNotFound)
  | "Protocol" => some (.driver (.protocol detail))
  | "ColumnNotFound" => some (.driver (.columnNotFound detail))
  | _ => none

def Doing.ofName? : String → Option Doing
  | "Conn" => some .connecting
  | "Exec" => some .executing
  | "Query" => some .querying
  | _ => none

def Failure.ofName? (name detail : String) : Option Failure :=
  match name with
  | "AcquireTimeout" => some .acquireTimedOut
  | "AcquireClosed" => some .acquireClosed
  | "RecordNotFound" => some (.recordNotFound detail)
  | "Custom" => some (.custom detail)
  | "Type" => some (.type detail)
  | "Json" => some (.json detail)
  | "Migration" => some (.migration detail)
  | "AttrNotSet" => some (.attributeNotSet detail)
  | "RecordNotInserted" => some .recordNotInserted
  | "RecordNotUpdated" => some .recordNotUpdated
  | "UnpackInsertId" => some .noInsertId
  | _ => none

def Failure.ofJson? (j : Json) : Option Failure := do
  let via ← need? string? (member? "via" j)
  let cause ← optional? string? (member? "cause" j)
  let state ← optional? string? (member? "code" j)
  let detail := (← optional? string? (member? "message" j)).getD ""
  match Doing.ofName? via with
  | some doing => some (.raised doing (← Cause.ofName? (← cause) detail state))
  | none => Failure.ofName? via detail

def Value.ofJson? (column : String) : Json → Option Value
  | .null => some .null
  | j =>
    if column = "id" ∨ column.endsWith "_id" then j.identifier?.map .uuid
    else if column ∈ ["amount", "balance", "balance_before", "balance_after"] then
      (j.string?.bind Amount.ofText?).map .amount
    else if column ∈ ["created_at", "updated_at"] then (zonedTime? j).map .time
    else if column = "num_items" then j.int64?.map .whole
    else j.string?.map .text

def Row.ofJson? : Json → Option Row
  | object members => members.mapM fun m => do
    let column ← m.1
    some (column, ← Value.ofJson? column m.2)
  | _ => none

def rows? : Json → Option (List Row)
  | array items => items.mapM Row.ofJson?
  | _ => none

def Reply.ofJson? (j : Json) : Option Reply := do
  match member? "error" j with
  | some e => some (.error (← Failure.ofJson? e))
  | none =>
    let rows ← orDefault? [] rows? (member? "rows" j)
    some (.ok ⟨rows, ← orDefault? 1 word64? (member? "affected" j)⟩)

end WalletLedger.Sql
