import WalletLedger.Identifier
import WalletLedger.Timestamp

/-!
Where new identifiers and times come from: identifiers ascend, and the clock moves with each use.
-/
namespace WalletLedger

structure Supply where
  nextId : Nat
  now : Timestamp
  deriving DecidableEq, Repr

namespace Supply

def id (s : Supply) : Identifier := .ofNat s.nextId

def secondId (s : Supply) : Identifier := .ofNat (s.nextId + 1)

def after (s : Supply) (ids : Nat) : Supply := ⟨s.nextId + ids, s.now.tick⟩

end Supply

end WalletLedger
