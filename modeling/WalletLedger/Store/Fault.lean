import WalletLedger.StoreError

/-!
Failures arranged beforehand. A fault waits at one kind of store call, lets some calls pass and
makes the next one fail; faults at the same kind of call take their turns.
-/
namespace WalletLedger

inductive StorePoint where
  | begin | lockWallets | findByKey | insertTransaction | insertEntry | setBalance | setStatus
  | commit | read
  deriving DecidableEq, Repr

namespace StorePoint

def all : List StorePoint :=
  [begin, lockWallets, findByKey, insertTransaction, insertEntry, setBalance, setStatus, commit,
    read]

def name : StorePoint → String
  | begin => "Begin"
  | lockWallets => "LockWallets"
  | findByKey => "FindByKey"
  | insertTransaction => "InsertTransaction"
  | insertEntry => "InsertLedgerEntry"
  | setBalance => "UpdateWalletBalance"
  | setStatus => "UpdateTransactionStatus"
  | commit => "Commit"
  | read => "Read"

def ofName? (s : String) : Option StorePoint := all.find? (·.name = s)

end StorePoint

structure Fault where
  point : StorePoint
  skip : Nat
  error : StoreError
  deriving DecidableEq, Repr

/-- A call at `point`: the failure that it meets, if any, and the faults that are left. -/
def strike (point : StorePoint) : List Fault → Option StoreError × List Fault
  | [] => (none, [])
  | f :: rest =>
    if f.point = point then
      match f.skip with
      | 0 => (some f.error, rest)
      | n + 1 => (none, { f with skip := n } :: rest)
    else
      let (struck, left) := strike point rest
      (struck, f :: left)

theorem length_strike (point : StorePoint) (fs : List Fault) :
    (strike point fs).2.length + (strike point fs).1.toList.length = fs.length := by
  induction fs with
  | nil => rfl
  | cons f rest ih =>
    unfold strike
    split
    · split <;> simp
    · simp only [List.length_cons]; omega

end WalletLedger
