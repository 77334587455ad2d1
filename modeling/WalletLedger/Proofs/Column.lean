import Mathlib.Algebra.Order.Field.Basic
import Mathlib.Algebra.Order.Ring.Abs
import WalletLedger.Proofs.DoubleEntry
import WalletLedger.Sql.Database

/-!
Amounts in columns. A column keeps an amount that is a whole number of smallest units, whatever its
scale was, and sums of amounts in columns are exact and keep the scale of the column.
-/
namespace WalletLedger

namespace Amount
variable {a b : Amount} {c : Currency}

theorem isPositive_iff : a.IsPositive ↔ 0 < a.value := by
  have power : (0 : ℚ) < 10 ^ a.scale := pow_pos (by norm_num) _
  rw [value, div_pos_iff_of_pos_right power, Int.cast_pos]

theorem isNegative_iff : a.IsNegative ↔ a.value < 0 := by
  have power : (0 : ℚ) < 10 ^ a.scale := pow_pos (by norm_num) _
  rw [value, div_lt_iff₀ power, zero_mul, Int.cast_lt_zero]

structure Stored (a : Amount) : Prop where
  scale : a.scale = 8
  short : a.coefficient.natAbs < tenTo 28

theorem Stored.neg (h : a.Stored) : (-a).Stored :=
  ⟨h.scale, lt_of_eq_of_lt (Int.natAbs_neg _) h.short⟩

theorem stored_of_value (scale : a.scale = 8) (small : |a.value| < 10 ^ 20) : a.Stored := by
  refine ⟨scale, ?_⟩
  have units : (a.coefficient : ℚ) = a.value * 10 ^ 8 := by
    rw [value, scale]
    field_simp
  have short : ((a.coefficient.natAbs : Nat) : ℚ) < 10 ^ 28 := by
    rw [Nat.cast_natAbs, Int.cast_abs, units, abs_mul, abs_of_pos (by norm_num : (0 : ℚ) < 10 ^ 8)]
    linarith
  exact_mod_cast short

/-- Digits that a column has no place for do not matter if they are zeros. -/
theorem column?_of_units {n : Int} (exact : a.atScale 8 = n * tenTo (a.scale - 8))
    (short : n.natAbs < tenTo 28) : ∃ x, a.column? = some x ∧ x.coefficient = n ∧ x.scale = 8 := by
  have places : 0 < tenTo (8 - a.scale) := Nat.pow_pos (by decide)
  have excess : 0 < tenTo (a.scale - 8) := Nat.pow_pos (by decide)
  have sizes : a.coefficient.natAbs * tenTo (8 - a.scale) = tenTo (a.scale - 8) * n.natAbs := by
    have := congrArg Int.natAbs exact
    rwa [atScale, Int.natAbs_mul, Int.natAbs_mul, Int.natAbs_natCast, Int.natAbs_natCast,
      Nat.mul_comm n.natAbs] at this
  have units : (a.coefficient.natAbs * tenTo (8 - a.scale) + tenTo (a.scale - 8) / 2) /
      tenTo (a.scale - 8) = n.natAbs := by
    rw [sizes, Nat.mul_add_div excess, Nat.div_eq_of_lt (Nat.div_lt_self excess (by decide)),
      Nat.add_zero]
  have sign : a.coefficient.sign = n.sign := by
    have signs := congrArg Int.sign exact
    rwa [atScale, Int.sign_mul, Int.sign_mul, Int.sign_natCast_of_ne_zero (Nat.ne_of_gt places),
      Int.sign_natCast_of_ne_zero (Nat.ne_of_gt excess), Int.mul_one, Int.mul_one] at signs
  have fits : n.natAbs < twoTo 96 := Nat.lt_trans short (by decide)
  refine ⟨⟨n, 8, fits, by decide⟩, ?_, rfl, rfl⟩
  simp only [column?, units, if_pos short, sign, Int.sign_mul_natAbs, ofParts?]
  exact dif_pos ⟨fits, by decide⟩

theorem Stored.column? (h : a.Stored) : a.column? = some a := by
  have exact : a.atScale 8 = a.coefficient * tenTo (a.scale - 8) := by
    rw [atScale, h.scale]
  obtain ⟨x, kept, coefficient, scale⟩ := column?_of_units exact h.short
  rw [kept, Option.some.injEq, Amount.mk.injEq]
  exact ⟨coefficient, scale.trans h.scale.symm⟩

theorem Whole.column? (whole : a.Whole c) (small : |a.value| < 10 ^ 20) :
    ∃ x, a.column? = some x ∧ x.Stored ∧ x.value = a.value := by
  obtain ⟨n, same⟩ := whole
  have minor : c.minorUnits ≤ 8 := by cases c <;> decide
  have units : a.value * 10 ^ 8 = (n * 10 ^ (8 - c.minorUnits) : Int) := by
    have powers : (10 : ℚ) ^ 8 = 10 ^ (8 - c.minorUnits) * 10 ^ c.minorUnits := by
      rw [← pow_add, Nat.sub_add_cancel minor]
    rw [same, powers]
    push_cast
    field_simp
  have exact : a.atScale 8 = n * 10 ^ (8 - c.minorUnits) * tenTo (a.scale - 8) := by
    have powers : (10 : ℚ) ^ (8 - a.scale) * 10 ^ a.scale = 10 ^ 8 * 10 ^ (a.scale - 8) := by
      rw [← pow_add, ← pow_add]
      congr 1
      omega
    have coefficient : (a.coefficient : ℚ) = a.value * 10 ^ a.scale := by
      rw [value]
      field_simp
    have cast : (a.atScale 8 : ℚ) =
        (n * 10 ^ (8 - c.minorUnits) : Int) * (tenTo (a.scale - 8) : Int) := by
      calc (a.atScale 8 : ℚ) = a.coefficient * 10 ^ (8 - a.scale) := by simp [atScale, tenTo]
        _ = a.value * (10 ^ (8 - a.scale) * 10 ^ a.scale) := by rw [coefficient]; ring
        _ = a.value * 10 ^ 8 * 10 ^ (a.scale - 8) := by rw [powers]; ring
        _ = _ := by rw [units]; simp [tenTo]
    exact_mod_cast cast
  have short : (n * 10 ^ (8 - c.minorUnits)).natAbs < tenTo 28 := by
    have short : (((n * 10 ^ (8 - c.minorUnits)).natAbs : Nat) : ℚ) < 10 ^ 28 := by
      rw [Nat.cast_natAbs, Int.cast_abs, ← units, abs_mul,
        abs_of_pos (by norm_num : (0 : ℚ) < 10 ^ 8)]
      linarith
    exact_mod_cast short
  obtain ⟨x, kept, coefficient, scale⟩ := column?_of_units exact short
  refine ⟨x, kept, ⟨scale, coefficient ▸ short⟩, ?_⟩
  rw [value, coefficient, scale, ← units]
  field_simp

theorem fit_short {n : Int} {s : Nat} (short : n.natAbs < twoTo 96) (bound : s ≤ 28) :
    fit n s = some ⟨n, s, short, bound⟩ := by
  have whole : roundHalfEven n.natAbs (tenTo 0) = n.natAbs := by
    have := roundHalfEven_mul n.natAbs Nat.one_pos
    rwa [Nat.mul_one] at this
  have first : dropping n s 0 = some ⟨n, s, short, bound⟩ := by
    rw [dropping, whole, Int.sign_mul_natAbs, Nat.sub_zero, ofParts?, dif_pos ⟨short, bound⟩]
  rw [fit_eq, List.range_succ_eq_map, List.findSome?_cons, first]

theorem Stored.add? (ha : a.Stored) (hb : b.Stored) :
    ∃ x, a.add? b = some x ∧ x.scale = 8 ∧ x.value = a.value + b.value := by
  unfold Amount.add?
  split
  · rename_i zero
    exact ⟨b, rfl, hb.scale, by rw [value_of_isZero zero, zero_add]⟩
  · split
    · rename_i zero
      exact ⟨a, rfl, ha.scale, by rw [value_of_isZero zero, add_zero]⟩
    · have scale : max a.scale b.scale = 8 := by rw [ha.scale, hb.scale, Nat.max_self]
      have left : a.atScale 8 = a.coefficient := by
        rw [atScale, ha.scale]
        exact Int.mul_one _
      have right : b.atScale 8 = b.coefficient := by
        rw [atScale, hb.scale]
        exact Int.mul_one _
      have short : (a.coefficient + b.coefficient).natAbs < twoTo 96 := by
        have room : tenTo 28 + tenTo 28 < twoTo 96 := by decide
        have := ha.short
        have := hb.short
        omega
      simp only [scale, left, right]
      refine ⟨_, fit_short short (by decide), rfl, ?_⟩
      simp only [value, ha.scale, hb.scale, Int.cast_add, add_div]

theorem stripZeros_le {n : Int} {s m : Nat} (zeros : (10 : Int) ^ (s - m) ∣ n) :
    (stripZeros n s).2 ≤ m := by
  induction s generalizing n with
  | zero => exact Nat.zero_le m
  | succ s ih =>
    by_cases fine : s + 1 ≤ m
    · exact Nat.le_trans (stripZeros_bounds n (s + 1)).2 fine
    · have more : s + 1 - m = s - m + 1 := by omega
      rw [more, pow_succ] at zeros
      obtain ⟨k, rfl⟩ := zeros
      have last : 10 ^ (s - m) * 10 * k = 10 ^ (s - m) * k * 10 := by ring
      rw [stripZeros, last, if_pos (Int.mul_emod_left _ _), Int.mul_ediv_cancel _ (by decide)]
      exact ih ⟨k, rfl⟩

theorem normalize_scale_le {n : Int} {k : Nat} (same : a.value = n / 10 ^ k) :
    a.normalize.scale ≤ k := by
  refine stripZeros_le ?_
  by_cases fine : a.scale ≤ k
  · rw [Nat.sub_eq_zero_of_le fine, pow_zero]
    exact one_dvd _
  · exact Dvd.intro_left n (factor_of_div_eq (Nat.le_of_not_le fine) same).symm

theorem Whole.scale_le (whole : a.Whole c) : a.normalize.scale ≤ c.minorUnits := by
  obtain ⟨n, same⟩ := whole
  exact normalize_scale_le same

end Amount

theorem Money.checkScale_iff {m : Money} : m.checkScale = .ok () ↔ m.amount.Whole m.currency := by
  refine ⟨whole_of_checkScale, fun whole => ?_⟩
  unfold checkScale
  exact if_neg (Nat.not_lt.mpr whole.scale_le)

end WalletLedger
