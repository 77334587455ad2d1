import Mathlib.Algebra.Order.Group.Unbundled.Int
import WalletLedger.Proofs.Value

/-!
Amounts from a whole number and a power of ten. A positive power is multiplied in one factor after
the other, and a product never gets shorter, so the multiplication fails on its way if and only if
the last product is too long. What comes out is the number itself, with no digit rounded.
-/
namespace WalletLedger

namespace Amount
variable {c : Int} {s : Nat}

theorem ofParts?_none_iff (bound : s ≤ 28) : ofParts? c s = none ↔ 2 ^ 96 ≤ c.natAbs := by
  unfold ofParts?
  split
  · rename_i fits
    exact iff_of_false (Option.some_ne_none _) (Nat.not_le.mpr fits.1)
  · rename_i long
    refine iff_of_true rfl ?_
    by_contra! short
    exact long ⟨short, bound⟩

theorem natAbs_le_mul_pow (c : Int) (n : Nat) : c.natAbs ≤ (c * 10 ^ n).natAbs := by
  rw [Int.natAbs_mul, Int.natAbs_pow]
  exact Nat.le_mul_of_pos_right _ (Nat.pow_pos (by decide))

theorem ofParts?_timesTen (bound : s ≤ 28) (n : Nat) (c : Int) :
    (ofParts? c s).bind (timesTen? n) = ofParts? (c * 10 ^ n) s := by
  induction n generalizing c with
  | zero =>
    rw [pow_zero, Int.mul_one]
    exact Option.bind_fun_some _
  | succ n ih =>
    cases first : ofParts? c s with
    | none =>
      have long := (ofParts?_none_iff bound).mp first
      have longer := natAbs_le_mul_pow c (n + 1)
      exact ((ofParts?_none_iff bound).mpr (long.trans longer)).symm
    | some a =>
      obtain ⟨coefficient, scale⟩ := ofParts?_eq_some first
      rw [Option.bind_some, timesTen?, coefficient, scale, ih, mul_assoc, ← pow_succ']

end Amount

namespace Money
variable {coefficient exponent : Int} {currency : Currency}

def wholePart (coefficient exponent : Int) : Int := coefficient * 10 ^ (max exponent 0).toNat

theorem wholePart_value (coefficient exponent : Int) :
    (wholePart coefficient exponent : ℚ) / 10 ^ (max (-exponent) 0).toNat =
      coefficient * 10 ^ exponent := by
  rcases le_total exponent 0 with below | above
  · obtain ⟨n, rfl⟩ := Int.exists_eq_neg_ofNat below
    have zeros : max (-(n : Int)) 0 = 0 := max_eq_right below
    have digits : max (- -(n : Int)) 0 = n := by omega
    rw [wholePart, zeros, digits, zpow_neg, zpow_natCast, div_eq_mul_inv]
    simp
  · obtain ⟨n, rfl⟩ := Int.eq_ofNat_of_zero_le above
    have zeros : max (n : Int) 0 = n := max_eq_left above
    have digits : max (-(n : Int)) 0 = 0 := by omega
    rw [wholePart, zeros, digits, zpow_natCast]
    simp

theorem ofParts_far (far : 28 < exponent.natAbs) :
    ofParts coefficient exponent currency = .error (.exponentOutOfRange exponent) := by
  rw [ofParts, if_pos far]

/-- Within the range of exponents, what counts is the whole number and the fraction digits. -/
theorem ofParts_near (near : exponent.natAbs ≤ 28) : ofParts coefficient exponent currency =
    ((Amount.ofParts? (wholePart coefficient exponent) (max (-exponent) 0).toNat).map
      fun amount => ⟨amount, currency⟩).elim (.error .overflow) .ok := by
  have made : (if exponent ≤ 0 then Amount.ofParts? coefficient exponent.natAbs
      else (Amount.ofParts? coefficient 0).bind (Amount.timesTen? exponent.toNat)) =
      Amount.ofParts? (wholePart coefficient exponent) (max (-exponent) 0).toNat := by
    split
    · have zeros : (max exponent 0).toNat = 0 := by omega
      have digits : (max (-exponent) 0).toNat = exponent.natAbs := by omega
      rw [wholePart, zeros, digits, pow_zero, Int.mul_one]
    · have zeros : (max exponent 0).toNat = exponent.toNat := by omega
      have digits : (max (-exponent) 0).toNat = 0 := by omega
      rw [wholePart, zeros, digits]
      exact Amount.ofParts?_timesTen (Nat.zero_le 28) exponent.toNat coefficient
  rw [ofParts, if_neg (Nat.not_lt.mpr near), made]
  cases Amount.ofParts? (wholePart coefficient exponent) (max (-exponent) 0).toNat <;> rfl

theorem ofParts_long (near : exponent.natAbs ≤ 28)
    (long : 2 ^ 96 ≤ (wholePart coefficient exponent).natAbs) :
    ofParts coefficient exponent currency = .error .overflow := by
  have bound : (max (-exponent) 0).toNat ≤ 28 := by omega
  rw [ofParts_near near, (Amount.ofParts?_none_iff bound).mpr long]
  rfl

theorem ofParts_short (currency : Currency) (near : exponent.natAbs ≤ 28)
    (short : (wholePart coefficient exponent).natAbs < 2 ^ 96) :
    ∃ m, ofParts coefficient exponent currency = .ok m ∧ m.currency = currency ∧
      m.amount.value = coefficient * 10 ^ exponent ∧
      (m.amount.scale : Int) = max (-exponent) 0 := by
  have bound : (max (-exponent) 0).toNat ≤ 28 := by omega
  cases made : Amount.ofParts? (wholePart coefficient exponent) (max (-exponent) 0).toNat with
  | none =>
    have long := (Amount.ofParts?_none_iff bound).mp made
    exact absurd short (Nat.not_lt.mpr long)
  | some amount =>
    obtain ⟨same, scale⟩ := Amount.ofParts?_eq_some made
    refine ⟨⟨amount, currency⟩, ?_, rfl, ?_, ?_⟩
    · rw [ofParts_near near, made]
      rfl
    · rw [Amount.value, same, scale, wholePart_value]
    · rw [scale]
      omega

/-- A whole number times a power of ten is made into an amount as it is, with as many fraction digits
as the exponent asks for, or is refused: for its exponent, or else for its length. -/
theorem ofParts_exact (coefficient exponent : Int) (currency : Currency) :
    (ofParts coefficient exponent currency = .error (.exponentOutOfRange exponent) ↔
      28 < |exponent|) ∧
    (ofParts coefficient exponent currency = .error .overflow ↔
      |exponent| ≤ 28 ∧ 2 ^ 96 - 1 < |coefficient * 10 ^ (max exponent 0).toNat|) ∧
    (|exponent| ≤ 28 ∧ |coefficient * 10 ^ (max exponent 0).toNat| ≤ 2 ^ 96 - 1 →
      ∃ m, ofParts coefficient exponent currency = .ok m ∧ m.currency = currency ∧
        m.amount.value = coefficient * 10 ^ exponent ∧
        (m.amount.scale : Int) = max (-exponent) 0) := by
  have size : (coefficient * 10 ^ (max exponent 0).toNat).natAbs =
      (wholePart coefficient exponent).natAbs := rfl
  rw [Int.abs_eq_natAbs, Int.abs_eq_natAbs, size]
  by_cases near : exponent.natAbs ≤ 28
  · by_cases long : 2 ^ 96 ≤ (wholePart coefficient exponent).natAbs
    · rw [ofParts_long near long]
      refine ⟨iff_of_false (by simp) (by omega), iff_of_true rfl (by omega), fun _ => by omega⟩
    · obtain ⟨m, made, whole⟩ := ofParts_short currency near (Nat.not_le.mp long)
      rw [made]
      refine ⟨iff_of_false (by simp) (by omega), iff_of_false (by simp) (by omega), fun _ => ?_⟩
      exact ⟨m, rfl, whole⟩
  · rw [ofParts_far (Nat.not_le.mp near)]
    refine ⟨iff_of_true rfl (by omega), iff_of_false (by simp) (by omega), fun _ => by omega⟩

example : ofParts 8 28 .usd = .error .overflow ∧ ofParts 0 28 .usd = .ok (zero .usd) := by
  decide +kernel

end Money

end WalletLedger
