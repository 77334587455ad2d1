import Mathlib.Order.Bounds.Defs
import WalletLedger.Proofs.Column

/-!
How finely an amount is divided. Without the zeros at its end an amount has as many fraction digits
as its number needs, whatever its scale was; so the check against the smallest unit of a currency
passes exactly those numbers that are a whole number of such units.
-/
namespace WalletLedger

namespace Amount
variable {a b : Amount}

def Digits (a : Amount) : Set Nat := {k | ∃ n : Int, a.value * 10 ^ k = n}

theorem mem_digits_iff {k : Nat} : k ∈ a.Digits ↔ ∃ n : Int, a.value = n / 10 ^ k := by
  have power : (10 : ℚ) ^ k ≠ 0 := pow_ne_zero k (by norm_num)
  exact exists_congr fun n => (eq_div_iff power).symm

theorem digits_least (a : Amount) : IsLeast a.Digits a.normalize.scale := by
  constructor
  · rw [mem_digits_iff, ← normalize_value]
    exact ⟨a.normalize.coefficient, rfl⟩
  · intro k mem
    obtain ⟨n, same⟩ := mem_digits_iff.mp mem
    exact normalize_scale_le same

theorem whole_iff {c : Currency} : a.Whole c ↔ c.minorUnits ∈ a.Digits := mem_digits_iff.symm

theorem normalize_scale_eq (same : a.value = b.value) : a.normalize.scale = b.normalize.scale := by
  have digits : a.Digits = b.Digits := by rw [Digits, Digits, same]
  exact a.digits_least.unique (digits ▸ b.digits_least)

end Amount

namespace Money

theorem checkScale_eq (m : Money) : m.checkScale =
    if m.currency.minorUnits < m.amount.normalize.scale then
      .error (.excessPrecision m.currency m.currency.minorUnits m.amount.normalize.scale)
    else .ok () := rfl

/-- The check passes whole numbers of smallest units and no others; what it reports of another
number is the least number of fraction digits that writes it exactly, which is too many. Amounts of
one number and one currency are judged alike. -/
theorem checkScale_exact (m : Money) :
    (m.checkScale = .ok () ↔ ∃ n : Int, m.amount.value * 10 ^ m.currency.minorUnits = n) ∧
    (∀ e, m.checkScale = .error e → ∃ scale,
      e = .excessPrecision m.currency m.currency.minorUnits scale ∧ m.currency.minorUnits < scale ∧
      IsLeast {k | ∃ n : Int, m.amount.value * 10 ^ k = n} scale) ∧
    ∀ a : Amount, a.value = m.amount.value →
      (⟨a, m.currency⟩ : Money).checkScale = m.checkScale := by
  refine ⟨checkScale_iff.trans Amount.whole_iff, fun e failed => ?_, fun a same => ?_⟩
  · rw [checkScale_eq] at failed
    split at failed
    · rename_i fine
      cases failed
      exact ⟨_, rfl, fine, m.amount.digits_least⟩
    · contradiction
  · rw [checkScale_eq, checkScale_eq, Amount.normalize_scale_eq same]

end Money

end WalletLedger
