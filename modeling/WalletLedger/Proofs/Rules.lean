import WalletLedger.Validation

/-!
The rules of a transfer, in the order in which they are looked at: those of the request alone, and
those of the request against its wallets.
-/
namespace WalletLedger

theorem IdempotencyKey.check_ok {text : String} {key : IdempotencyKey}
    (h : IdempotencyKey.check text = .ok key) : key = ⟨text⟩ := by
  unfold check at h
  repeat' split at h
  all_goals cases h
  rfl

namespace TransferRequest
variable {r : TransferRequest} {s q : Wallet}

theorem validate_eq (r : TransferRequest) : r.validate =
    if ¬r.amount.IsPositive then .error (.nonPositiveAmount r.amount)
    else match r.money.checkScale with
      | .error e => .error (.invalidAmount e)
      | .ok () => match IdempotencyKey.check r.key.text with
        | .error e => .error e
        | .ok _ => if r.sender = r.receiver then .error (.sameWallet r.sender) else .ok () := by
  simp only [validate, bind, Except.bind, pure, Except.pure, throw, throwThe, MonadExceptOf.throw]
  by_cases positive : r.amount.IsPositive
  · simp only [positive, not_true, if_false]
    cases r.money.checkScale with
    | error e => rfl
    | ok => cases IdempotencyKey.check r.key.text <;> rfl
  · simp only [positive, not_false_eq_true, if_true]

theorem validate_ok (h : r.validate = .ok ()) : r.amount.IsPositive ∧
    r.money.checkScale = .ok () ∧ IdempotencyKey.check r.key.text = .ok r.key ∧
      r.sender ≠ r.receiver := by
  rw [validate_eq] at h
  split at h
  · contradiction
  · rename_i positive
    cases scaled : r.money.checkScale with
    | error e => simp [scaled] at h
    | ok =>
      cases keyed : IdempotencyKey.check r.key.text with
      | error e => simp [scaled, keyed] at h
      | ok key =>
        rw [IdempotencyKey.check_ok keyed]
        refine ⟨Decidable.not_not.mp positive, rfl, rfl, fun same => ?_⟩
        simp [scaled, keyed, same] at h

theorem amount_positive (h : r.validate = .ok ()) : r.amount.IsPositive := (validate_ok h).1

theorem distinct_of_valid (h : r.validate = .ok ()) : r.sender ≠ r.receiver := (validate_ok h).2.2.2

theorem validateAgainst_eq (r : TransferRequest) (s q : Wallet) : r.validateAgainst s q =
    if s.id = q.id then .error (.sameWallet s.id)
    else if s.currency ≠ r.currency then .error (.currencyMismatch s.id r.currency s.currency)
    else if q.currency ≠ r.currency then .error (.currencyMismatch q.id r.currency q.currency)
    else if r.amount ≤ s.balance then .ok ()
    else .error (.insufficientFunds s.id s.balance r.amount) := by
  by_cases covered : r.amount ≤ s.balance <;>
    simp only [validateAgainst, bind, Except.bind, pure, Except.pure, throw, throwThe,
      MonadExceptOf.throw, Wallet.covers, covered] <;> rfl

theorem validateAgainst_ok_iff : r.validateAgainst s q = .ok () ↔
    s.id ≠ q.id ∧ s.currency = r.currency ∧ q.currency = r.currency ∧ r.amount ≤ s.balance := by
  rw [validateAgainst_eq]
  split
  · simp_all
  · split
    · simp_all
    · split
      · simp_all
      · by_cases covered : r.amount ≤ s.balance <;> simp_all

end TransferRequest

end WalletLedger
