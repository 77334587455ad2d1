import WalletLedger.Proofs.Column

/-!
The plan of a transfer. Rounding never takes the sign from a difference, so the check of a request
and the plan agree on what a balance covers. Amounts that fit into columns leave room for their
sums, whatever their scales are, so that plans made of them are exact.
-/
namespace WalletLedger

theorem roundHalfEven_pos {n d : Nat} (pos : 0 < d) (h : d ≤ n) : 0 < roundHalfEven n d := by
  have quotient : 0 < n / d := Nat.div_pos h pos
  unfold roundHalfEven
  split <;> omega

namespace Amount
variable {a b c : Amount}

/-- What is rounded at all is so long that something is left of it. -/
theorem fit_sign {n : Int} {s : Nat} (bound : s ≤ 28) (h : fit n s = some a) :
    a.coefficient.sign = n.sign := by
  by_cases short : n.natAbs < twoTo 96
  · rw [fit_short short bound] at h
    cases h
    rfl
  · obtain ⟨d, mem, there⟩ := List.exists_of_findSome?_eq_some h
    have digits : d ≤ 28 := Nat.le_trans (Nat.lt_succ_iff.mp (List.mem_range.mp mem)) bound
    have long : tenTo d ≤ n.natAbs := by
      have power : tenTo d ≤ tenTo 28 := Nat.pow_le_pow_right (by decide) digits
      have room : tenTo 28 < twoTo 96 := by decide
      omega
    have left : 0 < roundHalfEven n.natAbs (tenTo d) :=
      roundHalfEven_pos (Nat.pow_pos (by decide)) long
    obtain ⟨coefficient, -⟩ := ofParts?_eq_some there
    rw [coefficient, Int.sign_mul, Int.sign_sign, Int.sign_natCast_of_ne_zero (Nat.ne_of_gt left),
      Int.mul_one]

theorem sameValue_iff : a.SameValue b ↔ a.value = b.value := by
  have orders : a.SameValue b ↔ a ≤ b ∧ b ≤ a := le_antisymm_iff
  rw [orders, le_iff_value, le_iff_value, le_antisymm_iff]

theorem add?_isNegative_iff (h : a.add? b = some c) : c.IsNegative ↔ a.value + b.value < 0 := by
  unfold add? at h
  split at h
  · rename_i zero
    cases h
    rw [value_of_isZero zero, zero_add, isNegative_iff]
  · split at h
    · rename_i zero
      cases h
      rw [value_of_isZero zero, add_zero, isNegative_iff]
    · have sign := fit_sign (max_scale_le a b) h
      have power : (0 : ℚ) < 10 ^ max a.scale b.scale := pow_pos (by norm_num) _
      rw [← atScale_add, div_lt_iff₀ power, zero_mul, Int.cast_lt_zero, IsNegative,
        ← Int.sign_eq_neg_one_iff_neg, sign, Int.sign_eq_neg_one_iff_neg]

theorem sub?_isNegative_iff (h : a.sub? b = some c) : c.IsNegative ↔ ¬b ≤ a := by
  rw [add?_isNegative_iff h, value_neg, le_iff_value, not_le]
  constructor <;> intro less <;> linarith

theorem add?_scale_le (h : a.add? b = some c) : c.scale ≤ max a.scale b.scale := by
  unfold add? at h
  split at h
  · cases h
    exact Nat.le_max_right _ _
  · split at h
    · cases h
      exact Nat.le_max_left _ _
    · obtain ⟨d, -, there⟩ := List.exists_of_findSome?_eq_some h
      rw [(ofParts?_eq_some there).2]
      exact Nat.sub_le _ _

/-- An amount that a column `NUMERIC(28, 8)` holds as it is, in any of the scales in which it can
be written. -/
structure FitsColumn (a : Amount) : Prop where
  scale : a.scale ≤ 8
  small : |a.value| < 10 ^ 20

theorem FitsColumn.neg (h : a.FitsColumn) : (-a).FitsColumn := by
  refine ⟨h.scale, ?_⟩
  rw [value_neg, abs_neg]
  exact h.small

theorem FitsColumn.units (h : a.FitsColumn) : (a.atScale 8).natAbs < tenTo 28 := by
  have units : (a.atScale 8 : ℚ) = a.value * 10 ^ 8 := by
    rw [← atScale_value h.scale]
    field_simp
  have short : (((a.atScale 8).natAbs : Nat) : ℚ) < 10 ^ 28 := by
    have small := h.small
    rw [Nat.cast_natAbs, Int.cast_abs, units, abs_mul, abs_of_pos (by norm_num : (0 : ℚ) < 10 ^ 8)]
    linarith
  exact_mod_cast short

theorem FitsColumn.add? (ha : a.FitsColumn) (hb : b.FitsColumn) :
    ∃ x, a.add? b = some x ∧ x.value = a.value + b.value ∧ x.scale ≤ 8 := by
  have short : (a.atScale 8 + b.atScale 8).natAbs < twoTo 96 := by
    have room : tenTo 28 + tenTo 28 < twoTo 96 := by decide
    have := ha.units
    have := hb.units
    omega
  have exact : Representable (a.value + b.value) := by
    refine ⟨⟨a.atScale 8 + b.atScale 8, 8, short, by decide⟩, ?_⟩
    rw [← atScale_value ha.scale, ← atScale_value hb.scale, ← add_div, ← Int.cast_add]
    rfl
  obtain ⟨x, sum, value⟩ := add?_exact exact
  exact ⟨x, sum, value, Nat.le_trans (add?_scale_le sum) (Nat.max_le.mpr ⟨ha.scale, hb.scale⟩)⟩

end Amount

theorem planTransfer_accepted {debit credit : EntryId} {t : Transaction} {s q : Wallet}
    {p : TransferPlan} (h : planTransfer debit credit t s q = .ok p)
    (positive : t.amount.IsPositive) :
    validateEntries [p.debit, p.credit] = .ok () ∧ validateEntries [p.credit, p.debit] = .ok () := by
  obtain ⟨sent, received, taken, given, -, -, -, rfl⟩ := planTransfer_ok h
  have debited : EntryKind.debit.apply s.balance t.amount = some sent := taken
  have credited : EntryKind.credit.apply q.balance t.amount = some received := given
  simp [validateEntries, validatePair, EntryDraft.checkConsistent, EntryDraft.consistent, positive,
    debited, credited, bind, Except.bind]

/-- The balances of an entry differ by its amount, to the last digit. It is the rule
`chk_entry_balance_arithmetic` of the schema. -/
def EntryDraft.Adds (e : EntryDraft) : Prop :=
  match e.kind with
  | .debit => e.after.value = e.before.value - e.amount.value
  | .credit => e.after.value = e.before.value + e.amount.value

/-- What the database asks of the amounts that it keeps is what validation asks of an entry. -/
theorem EntryDraft.consistent_iff_adds {e : EntryDraft} (before : e.before.FitsColumn)
    (amount : e.amount.FitsColumn) : e.consistent = true ↔ e.Adds := by
  unfold EntryDraft.consistent EntryDraft.Adds
  cases e.kind with
  | debit =>
    obtain ⟨left, taken, value, -⟩ := before.add? amount.neg
    rw [Amount.value_neg, ← sub_eq_add_neg] at value
    have applied : EntryKind.debit.apply e.before e.amount = some left := taken
    simp only [applied, decide_eq_true_iff, Amount.sameValue_iff, value]
    exact eq_comm
  | credit =>
    obtain ⟨grown, given, value, -⟩ := before.add? amount
    have applied : EntryKind.credit.apply e.before e.amount = some grown := given
    simp only [applied, decide_eq_true_iff, Amount.sameValue_iff, value]
    exact eq_comm

/-- A plan that takes the amount of a transaction from one balance and gives it to the other, to the
last digit, and leaves a debit and a credit of it. -/
structure TransferPlan.Exact (p : TransferPlan) (t : Transaction) (s q : Wallet) : Prop where
  sent : p.senderBalance.value = s.balance.value - t.amount.value
  received : p.receiverBalance.value = q.balance.value + t.amount.value
  digits : p.senderBalance.scale ≤ 8 ∧ p.receiverBalance.scale ≤ 8
  unchanged : ∃ n, p.netChange? = some n ∧ n.value = 0
  debit : p.debit = ⟨p.debit.id, s.id, t.id, t.amount, .debit, t.currency, s.balance,
    p.senderBalance⟩
  credit : p.credit = ⟨p.credit.id, q.id, t.id, t.amount, .credit, t.currency, q.balance,
    p.receiverBalance⟩
  adds : p.debit.Adds ∧ p.credit.Adds
  accepted : validateEntries [p.debit, p.credit] = .ok () ∧
    validateEntries [p.credit, p.debit] = .ok ()

/-- Posting is exact for all that the columns of the database can hold, whatever the scales of the
balances and of the amount are. -/
theorem planTransfer_exact {t : Transaction} {s q : Wallet} (inS : s.currency = t.currency)
    (inQ : q.currency = t.currency) (sender : s.balance.FitsColumn) (receiver : q.balance.FitsColumn)
    (amount : t.amount.FitsColumn) (owed : 0 ≤ q.balance.value) (positive : 0 < t.amount.value)
    (covered : t.amount.value ≤ s.balance.value) (debit credit : EntryId) :
    ∃ p, planTransfer debit credit t s q = .ok p ∧ p.Exact t s q := by
  obtain ⟨sent, taken, left, digits⟩ := sender.add? amount.neg
  obtain ⟨received, given, grown, digits'⟩ := receiver.add? amount
  rw [Amount.value_neg, ← sub_eq_add_neg] at left
  have covers : ¬sent.IsNegative := by
    rw [Amount.isNegative_iff, left]
    linarith
  have planned : planTransfer debit credit t s q = .ok _ :=
    planTransfer_made inS inQ taken covers given
  refine ⟨_, planned, left, grown, ⟨digits, digits'⟩, ?_, rfl, rfl, ⟨left, grown⟩,
    planTransfer_accepted planned (Amount.isPositive_iff.mpr positive)⟩
  have balanced : sent.value + received.value = s.balance.value + q.balance.value := by linarith
  obtain ⟨n, change, zero⟩ := TransferPlan.netChange?_of_planned planned
    (by rw [Amount.isNegative_iff]; linarith) (by rw [Amount.isNegative_iff]; linarith)
    (Amount.isPositive_iff.mpr positive) balanced
  exact ⟨n, change, Amount.value_of_isZero zero⟩

/-- Balances that use every digit of their columns, at three scales. -/
theorem planTransfer_exact_limits :
    let balance : Amount := ⟨9999999999999999999999999999, 8, by decide, by decide⟩
    let other : Amount := ⟨999999999999999999999, 1, by decide, by decide⟩
    let amount : Amount := ⟨99999999999999999999, 0, by decide, by decide⟩
    let s : Wallet := ⟨.ofNat 1, .ofNat 7, .savings, .usd, balance, .epoch, .epoch⟩
    let q : Wallet := ⟨.ofNat 2, .ofNat 8, .savings, .usd, other, .epoch, .epoch⟩
    let r : TransferRequest := ⟨s.id, q.id, amount, .usd, .transfer, none, ⟨"rent"⟩⟩
    let t : Transaction := (r.draft (.ofNat 3)).recordedAt .epoch
    (s.balance.FitsColumn ∧ q.balance.FitsColumn ∧ t.amount.FitsColumn) ∧
      ∃ p, planTransfer (.ofNat 4) (.ofNat 5) t s q = .ok p ∧ p.Exact t s q := by
  intro balance other amount s q r t
  have sender : balance.FitsColumn := ⟨by decide, by norm_num [Amount.value, balance, abs_of_pos]⟩
  have receiver : other.FitsColumn := ⟨by decide, by norm_num [Amount.value, other, abs_of_pos]⟩
  have moved : amount.FitsColumn := ⟨by decide, by norm_num [Amount.value, amount, abs_of_pos]⟩
  refine ⟨⟨sender, receiver, moved⟩, planTransfer_exact rfl rfl sender receiver moved ?_ ?_ ?_ _ _⟩
  · show 0 ≤ other.value
    norm_num [Amount.value, other]
  · show 0 < amount.value
    norm_num [Amount.value, amount]
  · show amount.value ≤ balance.value
    norm_num [Amount.value, amount, balance]

section
variable {r : TransferRequest} {s q : Wallet}

/-- The check of a request and the plan for it find the same balances too low, and say so in the
same words. Where the check finds nothing wrong, the debit is possible and leaves a balance that is
owed to its holder, and nothing but a lack of room for the credit can be in the way of the plan. -/
theorem funds_checks_agree (sender : ¬s.balance.IsNegative) (apart : s.id ≠ q.id)
    (inS : s.currency = r.currency) (inQ : q.currency = r.currency) (positive : r.amount.IsPositive)
    (id : TransactionId) (now : Timestamp) (debit credit : EntryId) :
    (∀ wallet available requested,
      r.validateAgainst s q = .error (.insufficientFunds wallet available requested) ↔
        planTransfer debit credit ((r.draft id).recordedAt now) s q =
          .error (.insufficientFunds wallet available requested)) ∧
      (r.validateAgainst s q = .ok () →
        (∃ sent, s.balance.sub? r.amount = some sent ∧ ¬sent.IsNegative ∧
          ∀ p, planTransfer debit credit ((r.draft id).recordedAt now) s q = .ok p →
            p.senderBalance = sent) ∧
        ∀ e, planTransfer debit credit ((r.draft id).recordedAt now) s q = .error e →
          e = .invalidAmount .overflow ∧ q.balance.add? r.amount = none) := by
  have checked := r.validateAgainst_eq s q
  rw [if_neg apart, if_neg (not_not.mpr inS), if_neg (not_not.mpr inQ)] at checked
  obtain ⟨sent, taken⟩ := Amount.sub?_some sender (Int.not_lt.mpr (Int.le_of_lt positive))
  have overdrawn := Amount.sub?_isNegative_iff taken
  generalize pending : (r.draft id).recordedAt now = t
  have request : t.toTransferRequest = r := by rw [← pending]; rfl
  rw [← request] at inS inQ taken overdrawn checked ⊢
  by_cases covers : t.amount ≤ s.balance
  · have owed : ¬sent.IsNegative := fun negative => overdrawn.mp negative covers
    rw [checked, if_pos covers]
    cases given : q.balance.add? t.amount with
    | none =>
      rw [planTransfer_full inS inQ taken owed given]
      refine ⟨fun _ _ _ => by simp, fun _ => ⟨⟨sent, taken, owed, ?_⟩, fun e failed => ?_⟩⟩
      · intro p made
        contradiction
      · exact ⟨(Except.error.inj failed).symm, rfl⟩
    | some received =>
      rw [planTransfer_made inS inQ taken owed given]
      refine ⟨fun _ _ _ => by simp, fun _ => ⟨⟨sent, taken, owed, ?_⟩, fun e failed => ?_⟩⟩
      · intro p made
        rw [← Except.ok.inj made]
      · contradiction
  · rw [checked, if_neg covers, planTransfer_overdrawn inS taken (overdrawn.mpr covers)]
    refine ⟨fun _ _ _ => ?_, fun accepted => by contradiction⟩
    rw [Except.error.injEq, Except.error.injEq]

/-- All that an amount can write is asked of the smallest amount that there is. The difference has
to give up every digit of its fraction. -/
theorem funds_checks_agree_grain :
    let grain : Amount := ⟨1, 28, by decide, by decide⟩
    let most : Amount := ⟨79228162514264337593543950335, 0, by decide, by decide⟩
    let s : Wallet := ⟨.ofNat 1, .ofNat 7, .savings, .usd, grain, .epoch, .epoch⟩
    let q : Wallet := ⟨.ofNat 2, .ofNat 8, .savings, .usd, .zero, .epoch, .epoch⟩
    let r : TransferRequest := ⟨s.id, q.id, most, .usd, .transfer, none, ⟨"rent"⟩⟩
    ¬s.balance.IsNegative ∧ s.id ≠ q.id ∧ r.amount.IsPositive ∧
      planTransfer (.ofNat 4) (.ofNat 5) ((r.draft (.ofNat 3)).recordedAt .epoch) s q =
        .error (.insufficientFunds (.ofNat 1) grain most) := by
  intro grain most s q r
  have owed : ¬s.balance.IsNegative := by decide
  have apart : s.id ≠ q.id := by decide
  have positive : r.amount.IsPositive := by decide
  have refused : r.validateAgainst s q = .error (.insufficientFunds (.ofNat 1) grain most) := by
    decide
  have agree := funds_checks_agree owed apart rfl rfl positive (.ofNat 3) .epoch (.ofNat 4)
    (.ofNat 5)
  exact ⟨owed, apart, positive, (agree.1 _ _ _).mp refused⟩

end

end WalletLedger
