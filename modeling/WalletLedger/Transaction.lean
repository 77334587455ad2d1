import WalletLedger.IdempotencyKey
import WalletLedger.Timestamp

/-!
Transfers as they are asked for, drafted and recorded. A committed transfer is completed; a pending
one exists only inside the unit of work that writes it.
-/
namespace WalletLedger

inductive TransferKind where
  | transfer | payment | withdrawal | deposit
  deriving DecidableEq, Repr

namespace TransferKind

def all : List TransferKind := [transfer, payment, withdrawal, deposit]

def name : TransferKind → String
  | transfer => "transfer"
  | payment => "payment"
  | withdrawal => "withdrawal"
  | deposit => "deposit"

def ofName? (s : String) : Option TransferKind := all.find? (·.name = s)

def title (k : TransferKind) : String := k.name.capitalize

def ofTitle? (s : String) : Option TransferKind := all.find? (·.title = s)

end TransferKind

inductive TransactionStatus where
  | pending | completed | failed
  deriving DecidableEq, Repr

namespace TransactionStatus

def all : List TransactionStatus := [pending, completed, failed]

def name : TransactionStatus → String
  | pending => "pending"
  | completed => "completed"
  | failed => "failed"

def ofName? (s : String) : Option TransactionStatus := all.find? (·.name = s)

def title (k : TransactionStatus) : String := k.name.capitalize

def ofTitle? (s : String) : Option TransactionStatus := all.find? (·.title = s)

/-- No further change of status is meant to follow. -/
def terminal : TransactionStatus → Bool
  | pending => false
  | completed | failed => true

end TransactionStatus

structure TransferRequest where
  sender : WalletId
  receiver : WalletId
  amount : Amount
  currency : Currency
  kind : TransferKind
  description : Option String
  key : IdempotencyKey
  deriving DecidableEq, Repr

def TransferRequest.money (r : TransferRequest) : Money := ⟨r.amount, r.currency⟩

structure TransactionDraft extends TransferRequest where
  id : TransactionId
  status : TransactionStatus
  deriving DecidableEq, Repr

structure Transaction extends TransactionDraft where
  createdAt : Timestamp
  updatedAt : Timestamp
  deriving DecidableEq, Repr

def TransferRequest.draft (r : TransferRequest) (id : TransactionId) : TransactionDraft :=
  ⟨r, id, .pending⟩

def TransactionDraft.recordedAt (d : TransactionDraft) (now : Timestamp) : Transaction :=
  ⟨d, now, now⟩

namespace Transaction

def involves (t : Transaction) (wallet : WalletId) : Bool :=
  t.sender = wallet || t.receiver = wallet

def withStatus (t : Transaction) (status : TransactionStatus) (now : Timestamp) : Transaction :=
  { t with status := status, updatedAt := now }

end Transaction

inductive TransferOutcome where
  | created (transaction : Transaction)
  | replayed (transaction : Transaction)
  deriving DecidableEq, Repr

namespace TransferOutcome

def transaction : TransferOutcome → Transaction
  | created t | replayed t => t

def isReplay : TransferOutcome → Bool
  | created _ => false
  | replayed _ => true

end TransferOutcome

end WalletLedger
