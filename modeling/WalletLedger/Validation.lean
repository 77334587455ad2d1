import WalletLedger.Entry
import WalletLedger.Transaction
import WalletLedger.Wallet

/-!
The rules of a transfer: of the request alone, of the request against its wallets, and of the two
entries it leaves. Each check reports the first rule broken.
-/
namespace WalletLedger

def TransferRequest.validate (r : TransferRequest) : Except LedgerError Unit := do
  if ¬r.amount.IsPositive then throw (.nonPositiveAmount r.amount)
  match r.money.checkScale with
  | .error e => throw (.invalidAmount e)
  | .ok () => pure ()
  let _ ← IdempotencyKey.check r.key.text
  if r.sender = r.receiver then throw (.sameWallet r.sender)

/-- The check of a request when it is made: the key is looked at before the rest. -/
def TransferRequest.admit (r : TransferRequest) : Except LedgerError Unit := do
  let _ ← IdempotencyKey.check r.key.text
  r.validate

def TransferRequest.validateAgainst (r : TransferRequest) (sender receiver : Wallet) :
    Except LedgerError Unit := do
  if sender.id = receiver.id then throw (.sameWallet sender.id)
  if sender.currency ≠ r.currency then
    throw (.currencyMismatch sender.id r.currency sender.currency)
  if receiver.currency ≠ r.currency then
    throw (.currencyMismatch receiver.id r.currency receiver.currency)
  if !sender.covers r.amount then
    throw (.insufficientFunds sender.id sender.balance r.amount)

def EntryDraft.checkConsistent (e : EntryDraft) : Except LedgerError Unit :=
  if e.consistent then .ok ()
  else .error (.invariantViolation
    s!"entry {e.id.text} balance_after does not follow from balance_before")

def validatePair (debit credit : EntryDraft) : Except LedgerError Unit := do
  if ¬debit.amount.IsPositive ∨ ¬debit.amount.SameValue credit.amount then
    throw (.invariantViolation
      s!"unbalanced entries: debit {debit.amount.text} credit {credit.amount.text}")
  if debit.transaction ≠ credit.transaction then
    throw (.invariantViolation "entries belong to different transactions")
  debit.checkConsistent
  credit.checkConsistent

def validateEntries : List EntryDraft → Except LedgerError Unit
  | [a, b] =>
    match a.kind, b.kind with
    | .debit, .credit => validatePair a b
    | .credit, .debit => validatePair b a
    | _, _ => .error (.invariantViolation "transaction must have one debit and one credit")
  | entries => .error (.invariantViolation s!"expected 2 entries, found {entries.length}")

end WalletLedger
