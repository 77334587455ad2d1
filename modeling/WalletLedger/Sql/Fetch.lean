import WalletLedger.Sql.Dialogue

/-!
Fetching what rows hold. A row is read into a record of its table, and a record into what it means
to the ledger; either may fail.
-/
namespace WalletLedger.Sql

variable {ρ α : Type}

def first (ofRow : Row → Except Failure ρ) (s : Statement) : Asking Failure (Option ρ) := do
  match (← ask s).rows with
  | [] => return none
  | row :: _ => return some (← orFail (ofRow row))

/-- The records of all rows. They are all read before any of them is used. -/
def all (ofRow : Row → Except Failure ρ) (s : Statement) : Asking Failure (List ρ) := do
  orFail ((← ask s).rows.mapM ofRow)

def firstAs (ofRow : Row → Except Failure ρ) (convert : ρ → Except StoreError α) (s : Statement) :
    Asking StoreError (Option α) := do
  match ← classified (first ofRow s) with
  | none => return none
  | some r => return some (← orFail (convert r))

def allAs (ofRow : Row → Except Failure ρ) (convert : ρ → Except StoreError α) (s : Statement) :
    Asking StoreError (List α) := do
  orFail ((← classified (all ofRow s)).mapM convert)

def inserted (ofRow : Row → Except Failure ρ) (s : Statement) : Asking Failure ρ := do
  match ← first ofRow s with
  | some r => return r
  | none => throw (.recordNotFound "Failed to find inserted item")

end WalletLedger.Sql
