import WalletLedger.Entry
import WalletLedger.Transaction
import WalletLedger.Wallet

/-! The writes of a transfer: the sender's debit, the receiver's credit, and both balances. -/
namespace WalletLedger

structure TransferPlan where
  debit : EntryDraft
  credit : EntryDraft
  senderBalance : Amount
  receiverBalance : Amount
  deriving DecidableEq, Repr

def TransferPlan.netChange? (p : TransferPlan) : Option Amount := do
  let received ← p.receiverBalance.sub? p.credit.before
  let sent ← p.senderBalance.sub? p.debit.before
  received.add? sent

def planTransfer (debitId creditId : EntryId) (t : Transaction) (sender receiver : Wallet) :
    Except LedgerError TransferPlan :=
  match sender.money.sub t.money with
  | .error e => .error (.invalidAmount e)
  | .ok sent =>
    if sent.amount.IsNegative then
      .error (.insufficientFunds sender.id sender.balance t.amount)
    else match receiver.money.add t.money with
      | .error e => .error (.invalidAmount e)
      | .ok received => .ok {
          debit := ⟨debitId, sender.id, t.id, t.amount, .debit, sender.currency,
            sender.balance, sent.amount⟩
          credit := ⟨creditId, receiver.id, t.id, t.amount, .credit, receiver.currency,
            receiver.balance, received.amount⟩
          senderBalance := sent.amount
          receiverBalance := received.amount }

end WalletLedger
