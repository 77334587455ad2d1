import WalletLedger.Operation
import WalletLedger.Posting
import WalletLedger.Supply
import WalletLedger.Validation

/-!
The work of a transfer inside its unit of work, for any store: lock both wallets, look for an
earlier transfer with the key, check the request against the locked rows, write the pending
transaction, both entries and both balances, and complete the transaction. Each stage asks the unit
for one operation, and its answer leads to the next stage or to a conclusion.
-/
namespace WalletLedger

abbrev TransferResult := Except LedgerError TransferOutcome

inductive Conclusion where
  | create (transaction : Transaction)
  | replay (transaction : Transaction)
  | fail (error : LedgerError)
  deriving DecidableEq, Repr

inductive Work where
  | locking (pair : WalletPair)
  | lookingUp (sender receiver : Wallet)
  | inserting (sender receiver : Wallet) (draft : TransactionDraft)
  | lookingUpWinner
  | debiting (transaction : TransactionId) (plan : TransferPlan)
  | crediting (transaction : TransactionId) (plan : TransferPlan)
  | settingSender (transaction : TransactionId) (plan : TransferPlan)
  | settingReceiver (transaction : TransactionId) (plan : TransferPlan)
  | completing (transaction : TransactionId)
  deriving DecidableEq, Repr

namespace Work

def op (r : TransferRequest) : Work → UnitOp
  | locking pair => .lockWallets pair
  | lookingUp _ _ => .findByKey r.key
  | inserting _ _ draft => .insertTransaction draft
  | lookingUpWinner => .findByKey r.key
  | debiting _ plan => .insertEntry plan.debit
  | crediting _ plan => .insertEntry plan.credit
  | settingSender _ plan => .setBalance plan.debit.wallet plan.senderBalance
  | settingReceiver _ plan => .setBalance plan.credit.wallet plan.receiverBalance
  | completing transaction => .setStatus transaction .completed

def draws : Work → Nat
  | lookingUp _ _ => 1
  | inserting _ _ _ => 2
  | _ => 0

def next (r : TransferRequest) (supply : Supply) : (w : Work) → (w.op r).Answer → Work ⊕ Conclusion
  | locking pair, rows =>
    match pair.resolve rows r.sender r.receiver with
    | .error e => .inr (.fail e)
    | .ok (sender, receiver) => .inl (lookingUp sender receiver)
  | lookingUp sender receiver, found =>
    match found with
    | some t => .inr (.replay t)
    | none =>
      match r.validateAgainst sender receiver with
      | .error e => .inr (.fail e)
      | .ok () => .inl (inserting sender receiver (r.draft supply.id))
  | inserting sender receiver _, outcome =>
    match outcome with
    | .duplicateKey => .inl lookingUpWinner
    | .inserted t =>
      match planTransfer supply.id supply.secondId t sender receiver with
      | .error e => .inr (.fail e)
      | .ok plan => .inl (debiting t.id plan)
  | lookingUpWinner, found =>
    match found with
    | some t => .inr (.replay t)
    | none => .inr (.fail (.invariantViolation
        s!"idempotency key {r.key.text} collided but no transaction owns it"))
  | debiting t plan, _ => .inl (crediting t plan)
  | crediting t plan, _ => .inl (settingSender t plan)
  | settingSender t plan, _ => .inl (settingReceiver t plan)
  | settingReceiver t _, _ => .inl (completing t)
  | completing _, t => .inr (.create t)

def after (r : TransferRequest) (supply : Supply) (w : Work)
    (reply : Except StoreError (w.op r).Answer) : Work ⊕ Conclusion :=
  match reply with
  | .error e => .inr (.fail (.store e))
  | .ok a => w.next r supply a

def rank : Work → Nat
  | locking _ => 9
  | lookingUp _ _ => 8
  | inserting _ _ _ => 7
  | debiting _ _ => 6
  | crediting _ _ => 5
  | settingSender _ _ => 4
  | settingReceiver _ _ => 3
  | completing _ => 2
  | lookingUpWinner => 1

theorem rank_pos (w : Work) : 0 < w.rank := by cases w <;> simp [rank]

theorem rank_next_lt (r : TransferRequest) (supply : Supply) (w w' : Work)
    (reply : Except StoreError (w.op r).Answer) (h : w.after r supply reply = .inl w') :
    w'.rank < w.rank := by
  cases reply with
  | error e => simp [after] at h
  | ok a =>
    simp only [after] at h
    cases w <;> simp only [next] at h <;> (repeat' split at h) <;> cases h <;> simp [rank]

end Work

def TransferRequest.work (r : TransferRequest) : Work ⊕ Conclusion :=
  match WalletPair.of r.sender r.receiver with
  | .error e => .inr (.fail e)
  | .ok pair => .inl (.locking pair)

end WalletLedger
