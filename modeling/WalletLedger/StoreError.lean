import WalletLedger.Identifier

/-! What a store can report when a call on it fails. Lock and connection trouble passes. -/
namespace WalletLedger

inductive Row where
  | wallet | transaction
  deriving DecidableEq, Repr

def Row.name : Row → String
  | wallet => "wallet"
  | transaction => "transaction"

inductive StoreError where
  | contention (detail : String)
  | connection (detail : String)
  | rowMissing (row : Row) (id : Identifier)
  | constraint (detail : String)
  | backend (detail : String)
  deriving DecidableEq, Repr

namespace StoreError

def kind : StoreError → String
  | contention _ => "Contention"
  | connection _ => "Connection"
  | rowMissing _ _ => "RowMissing"
  | constraint _ => "Constraint"
  | backend _ => "Backend"

def message : StoreError → String
  | contention detail => s!"Lock contention: {detail}"
  | connection detail => s!"Connection failure: {detail}"
  | rowMissing row id => s!"{row.name} {id.text} not found"
  | constraint detail => s!"Constraint violated: {detail}"
  | backend detail => s!"Store error: {detail}"

def retryable : StoreError → Bool
  | contention _ | connection _ => true
  | _ => false

end StoreError

end WalletLedger
