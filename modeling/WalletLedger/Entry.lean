import WalletLedger.Money
import WalletLedger.Identifier
import WalletLedger.Timestamp

/-!
Ledger entries: one movement against one wallet. Balances are what the ledger owes the holder, so
a debit lowers the balance and a credit raises it.
-/
namespace WalletLedger

inductive EntryKind where
  | debit | credit
  deriving DecidableEq, Repr

namespace EntryKind

def all : List EntryKind := [debit, credit]

def name : EntryKind → String
  | debit => "debit"
  | credit => "credit"

def ofName? (s : String) : Option EntryKind := all.find? (·.name = s)

def title (k : EntryKind) : String := k.name.capitalize

def ofTitle? (s : String) : Option EntryKind := all.find? (·.title = s)

def apply (k : EntryKind) (balance amount : Amount) : Option Amount :=
  match k with
  | debit => balance.sub? amount
  | credit => balance.add? amount

end EntryKind

structure EntryDraft where
  id : EntryId
  wallet : WalletId
  transaction : TransactionId
  amount : Amount
  kind : EntryKind
  currency : Currency
  before : Amount
  after : Amount
  deriving DecidableEq, Repr

structure Entry extends EntryDraft where
  createdAt : Timestamp
  deriving DecidableEq, Repr

namespace EntryDraft

def recordedAt (d : EntryDraft) (now : Timestamp) : Entry := ⟨d, now⟩

def signedAmount (d : EntryDraft) : Amount :=
  match d.kind with
  | .debit => -d.amount
  | .credit => d.amount

/-- The signed amount in writing; a debit of zero keeps its sign there. -/
def signedText (d : EntryDraft) : String :=
  match d.kind with
  | .debit => d.amount.flippedText
  | .credit => d.amount.text

def consistent (d : EntryDraft) : Bool :=
  match d.kind.apply d.before d.amount with
  | some after => decide (after.SameValue d.after)
  | none => false

end EntryDraft

end WalletLedger
