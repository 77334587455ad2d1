import WalletLedger.Identifier
import WalletLedger.IdempotencyKey

/-!
Locks as one line of claims in the order in which they were made. The first claim to a resource
holds it, later ones wait behind it, and a claim ends when it is taken out of the line.
-/
namespace WalletLedger

abbrev UnitId := Nat

inductive Resource where
  | row (wallet : WalletId)
  | key (key : IdempotencyKey)
  deriving DecidableEq, Repr

structure Claim where
  resource : Resource
  unit : UnitId
  deriving DecidableEq, Repr

abbrev Claims := List Claim

namespace Claims

def holder? (cs : Claims) (r : Resource) : Option UnitId :=
  (cs.find? (·.resource = r)).map (·.unit)

def holds (cs : Claims) (u : UnitId) (r : Resource) : Bool := cs.holder? r = some u

def claim (cs : Claims) (u : UnitId) (r : Resource) : Claims := cs ++ [⟨r, u⟩]

def withdraw (cs : Claims) (u : UnitId) (r : Resource) : Claims :=
  cs.filter fun c => !(c.resource = r && c.unit = u)

def release (cs : Claims) (u : UnitId) : Claims := cs.filter (·.unit ≠ u)

/-- The units that hold something in `after` that they did not hold in `before`, in the order of
the claims in `before` that they waited behind. -/
def granted (before after : Claims) : List UnitId :=
  before.filterMap fun c =>
    match after.holder? c.resource with
    | some u => if before.holds c.unit c.resource ∧ u ≠ c.unit then some u else none
    | none => none

end Claims

end WalletLedger
