import Mathlib.Algebra.Order.Field.Rat
import Mathlib.Tactic.FieldSimp
import Mathlib.Tactic.Linarith
import Mathlib.Tactic.Ring
import WalletLedger.Proofs.Growth

/-!
The numbers that amounts stand for, and when sums of amounts are exact. A sum gives up digits only
if it has to: it is exact if and only if there is an amount for the exact sum.
-/
namespace WalletLedger

theorem roundHalfEven_mul (n : Nat) {d : Nat} (pos : 0 < d) : roundHalfEven (n * d) d = n := by
  have rest : n * d % d = 0 := Nat.mul_mod_left n d
  have whole : n * d / d = n := Nat.mul_div_cancel n pos
  unfold roundHalfEven
  rw [rest, whole, if_pos (Or.inl (by omega))]

theorem roundHalfEven_cancel (n d : Nat) {k : Nat} (pos : 0 < k) :
    roundHalfEven (n * k) (d * k) = roundHalfEven n d := by
  have less : 2 * (n % d * k) < d * k ↔ 2 * (n % d) < d := by
    rw [← Nat.mul_assoc]
    exact Nat.mul_lt_mul_right pos
  have half : 2 * (n % d * k) = d * k ↔ 2 * (n % d) = d := by
    rw [← Nat.mul_assoc]
    exact Nat.mul_right_cancel_iff pos
  simp only [roundHalfEven, Nat.mul_mod_mul_right, Nat.mul_div_mul_right n d pos, less, half]

theorem roundHalfEven_le {n d m : Nat} (pos : 0 < d) (h : n ≤ m * d) : roundHalfEven n d ≤ m := by
  have quotient : n / d ≤ m := Nat.div_le_of_le_mul (by rwa [Nat.mul_comm])
  rcases Nat.lt_or_eq_of_le quotient with below | last
  · unfold roundHalfEven
    split <;> omega
  · have whole : n = m * d := by
      refine Nat.le_antisymm h ?_
      rw [← last]
      exact Nat.div_mul_le_self n d
    rw [whole, roundHalfEven_mul m pos]

theorem findSome?_range_le {α : Type} {f : Nat → Option α} {k n : Nat} {x : α} (bound : k < n)
    (hit : f k = some x) : ∃ d ≤ k, ∃ y, f d = some y ∧ (List.range n).findSome? f = some y := by
  obtain ⟨m, rfl⟩ := Nat.exists_eq_add_of_lt bound
  have split : List.range (k + m + 1) = List.range (k + 1) ++ (List.range m).map (k + 1 + ·) := by
    rw [← List.range_add]
    congr 1
    omega
  have found : ((List.range (k + 1)).findSome? f).isSome := by
    rw [List.findSome?_isSome_iff]
    exact ⟨k, by simp, by rw [hit]; rfl⟩
  obtain ⟨y, first⟩ := Option.isSome_iff_exists.mp found
  obtain ⟨d, mem, there⟩ := List.exists_of_findSome?_eq_some first
  refine ⟨d, Nat.lt_succ_iff.mp (List.mem_range.mp mem), y, there, ?_⟩
  rw [split, List.findSome?_append, first]
  rfl

namespace Amount
variable {a b c : Amount}

def value (a : Amount) : ℚ := a.coefficient / 10 ^ a.scale

def Representable (x : ℚ) : Prop := ∃ a : Amount, a.value = x

theorem value_neg (a : Amount) : (-a).value = -a.value := by
  have coefficient : (-a).coefficient = -a.coefficient := rfl
  have scale : (-a).scale = a.scale := rfl
  simp only [value, coefficient, scale, Int.cast_neg, neg_div]

theorem value_of_isZero (h : a.IsZero) : a.value = 0 := by
  have zero : a.coefficient = 0 := h
  simp only [value, zero, Int.cast_zero, zero_div]

theorem isZero_of_value (h : a.value = 0) : a.IsZero := by
  have power : (10 : ℚ) ^ a.scale ≠ 0 := pow_ne_zero _ (by norm_num)
  have zero : (a.coefficient : ℚ) = 0 := (div_eq_zero_iff.mp h).resolve_right power
  exact_mod_cast zero

theorem atScale_value {s : Nat} (h : a.scale ≤ s) : (a.atScale s : ℚ) / 10 ^ s = a.value := by
  have powers : (10 : ℚ) ^ s = 10 ^ (s - a.scale) * 10 ^ a.scale := by
    rw [← pow_add, Nat.sub_add_cancel h]
  have cast : (a.atScale s : ℚ) = a.coefficient * 10 ^ (s - a.scale) := by
    simp [atScale, tenTo]
  rw [cast, powers, value]
  field_simp

theorem ofParts?_eq_some {n : Int} {s : Nat} (h : ofParts? n s = some a) :
    a.coefficient = n ∧ a.scale = s := by
  unfold ofParts? at h
  split at h
  · cases h
    exact ⟨rfl, rfl⟩
  · contradiction

def dropping (c : Int) (s d : Nat) : Option Amount :=
  ofParts? (c.sign * (roundHalfEven c.natAbs (tenTo d) : Int)) (s - d)

theorem fit_eq (c : Int) (s : Nat) : fit c s = (List.range (s + 1)).findSome? (dropping c s) := rfl

theorem dropping_value {c : Int} {d s : Nat} (le : d ≤ s) (h : dropping c s d = some a) :
    a.value = c.sign * roundHalfEven c.natAbs (tenTo d) * 10 ^ d / 10 ^ s := by
  obtain ⟨coefficient, scale⟩ := ofParts?_eq_some h
  have powers : (10 : ℚ) ^ s = 10 ^ (s - d) * 10 ^ d := by
    rw [← pow_add, Nat.sub_add_cancel le]
  rw [value, scale, coefficient, powers]
  push_cast
  field_simp

theorem value_of_dropping {c m : Int} {d k s : Nat} (early : d ≤ k) (le : k ≤ s)
    (factor : c = m * 10 ^ k) (h : dropping c s d = some a) : a.value = c / 10 ^ s := by
  have zeros : c.natAbs = m.natAbs * 10 ^ (k - d) * tenTo d := by
    have powers : 10 ^ (k - d) * 10 ^ d = 10 ^ k := by rw [← pow_add, Nat.sub_add_cancel early]
    rw [factor, Int.natAbs_mul, mul_assoc]
    show _ = m.natAbs * (10 ^ (k - d) * 10 ^ d)
    rw [powers, Int.natAbs_pow]
    rfl
  have positive : 0 < tenTo d := Nat.pow_pos (by decide)
  have rounded := roundHalfEven_mul (m.natAbs * 10 ^ (k - d)) positive
  have whole : c.sign * (roundHalfEven c.natAbs (tenTo d) : Int) * 10 ^ d = c := by
    have size : ((m.natAbs * 10 ^ (k - d) : Nat) : Int) * 10 ^ d = c.natAbs := by
      rw [zeros, Nat.cast_mul _ (tenTo d)]
      simp [tenTo]
    rw [zeros, rounded, mul_assoc, size, Int.sign_mul_natAbs]
  have cast : (c : ℚ) = c.sign * roundHalfEven c.natAbs (tenTo d) * 10 ^ d := by
    exact_mod_cast whole.symm
  rw [dropping_value (Nat.le_trans early le) h, ← cast]

theorem dropping_isSome {c : Int} {s : Nat} (bound : s ≤ 28) (d : Nat) :
    (dropping c s d).isSome ↔ roundHalfEven c.natAbs (tenTo d) < twoTo 96 := by
  have size : (c.sign * (roundHalfEven c.natAbs (tenTo d) : Int)).natAbs =
      roundHalfEven c.natAbs (tenTo d) := by
    rw [Int.natAbs_mul, Int.natAbs_natCast]
    by_cases zero : c = 0
    · have positive : 0 < tenTo d := Nat.pow_pos (by decide)
      have nothing := roundHalfEven_mul 0 positive
      rw [Nat.zero_mul] at nothing
      rw [zero, Int.natAbs_zero, nothing, Nat.mul_zero]
    · rw [Int.natAbs_sign_of_ne_zero zero, Nat.one_mul]
  have scale : s - d ≤ 28 := Nat.le_trans (Nat.sub_le s d) bound
  unfold dropping ofParts?
  split
  · rename_i fits
    exact iff_of_true rfl (size ▸ fits.1)
  · rename_i long
    exact iff_of_false Bool.false_ne_true fun short => long ⟨size.symm ▸ short, scale⟩

theorem dropping_some {c : Int} {d s : Nat} (bound : s ≤ 28)
    (short : roundHalfEven c.natAbs (tenTo d) < twoTo 96) : ∃ a, dropping c s d = some a :=
  Option.isSome_iff_exists.mp ((dropping_isSome bound d).mpr short)

/-- The fewest digits that a fraction has to give up for 96 bits to hold the rest. -/
def excess (c : Int) (s : Nat) : Nat :=
  ((List.range (s + 1)).find? fun d => roundHalfEven c.natAbs (tenTo d) < twoTo 96).getD 0

theorem fit_excess {c : Int} {s : Nat} (bound : s ≤ 28) (h : fit c s = some a) :
    excess c s ≤ s ∧ dropping c s (excess c s) = some a := by
  rw [fit_eq] at h
  obtain ⟨before, d, after, split, there, earlier⟩ := List.findSome?_eq_some_iff.mp h
  have short := (dropping_isSome bound d).mp (by rw [there]; rfl)
  have long : ∀ x ∈ before, ¬roundHalfEven c.natAbs (tenTo x) < twoTo 96 := by
    intro x mem short
    have some := (dropping_isSome bound x).mpr short
    rw [earlier x mem] at some
    contradiction
  have first : (List.range (s + 1)).find?
      (fun d => roundHalfEven c.natAbs (tenTo d) < twoTo 96) = some d := by
    apply List.find?_eq_some_iff_append.mpr
    refine ⟨decide_eq_true short, before, after, split, fun x mem => ?_⟩
    simpa using long x mem
  have mem : d ∈ List.range (s + 1) := by
    rw [split]
    simp
  have fewest : excess c s = d := by rw [excess, first, Option.getD_some]
  rw [fewest]
  exact ⟨Nat.lt_succ_iff.mp (List.mem_range.mp mem), there⟩

def gain (c : Int) (s : Nat) : ℚ :=
  (c.sign * roundHalfEven c.natAbs (tenTo (excess c s)) * 10 ^ excess c s - c) / 10 ^ s

theorem fit_value {c : Int} {s : Nat} (bound : s ≤ 28) (h : fit c s = some a) :
    a.value = c / 10 ^ s + gain c s := by
  obtain ⟨le, there⟩ := fit_excess bound h
  rw [dropping_value le there, gain, ← add_div]
  ring

theorem fit_of_factor {c m : Int} {k s : Nat} (le : k ≤ s) (bound : s ≤ 28)
    (short : m.natAbs < twoTo 96) (factor : c = m * 10 ^ k) :
    ∃ r, fit c s = some r ∧ r.value = c / 10 ^ s := by
  have rounded : roundHalfEven c.natAbs (tenTo k) = m.natAbs := by
    rw [factor, Int.natAbs_mul, Int.natAbs_pow]
    exact roundHalfEven_mul _ (Nat.pow_pos (by decide))
  obtain ⟨x, hit⟩ := dropping_some bound (rounded ▸ short)
  obtain ⟨d, early, r, there, found⟩ := findSome?_range_le (Nat.lt_succ_of_le le) hit
  exact ⟨r, found, value_of_dropping early le factor there⟩

/-- A fraction that some amount equals comes out of the fitting as it is. -/
theorem fit_exact {c : Int} {s : Nat} (bound : s ≤ 28) (h : Representable (c / 10 ^ s)) :
    ∃ r, fit c s = some r ∧ r.value = c / 10 ^ s := by
  obtain ⟨a, same⟩ := h
  have crossed : a.coefficient * 10 ^ s = c * 10 ^ a.scale := by
    have power : ∀ n : Nat, (10 : ℚ) ^ n ≠ 0 := fun n => pow_ne_zero n (by norm_num)
    exact_mod_cast (div_eq_div_iff (power a.scale) (power s)).mp same
  have ten : ∀ n : Nat, (10 : Int) ^ n ≠ 0 := fun n => pow_ne_zero n (by norm_num)
  by_cases fine : a.scale ≤ s
  · refine fit_of_factor (Nat.sub_le s a.scale) bound a.coefficient_lt ?_
    have powers : (10 : Int) ^ s = 10 ^ (s - a.scale) * 10 ^ a.scale := by
      rw [← pow_add, Nat.sub_add_cancel fine]
    rw [powers, ← mul_assoc] at crossed
    exact (mul_right_cancel₀ (ten a.scale) crossed).symm
  · have coarse : s ≤ a.scale := Nat.le_of_not_le fine
    have powers : (10 : Int) ^ a.scale = 10 ^ (a.scale - s) * 10 ^ s := by
      rw [← pow_add, Nat.sub_add_cancel coarse]
    rw [powers, ← mul_assoc] at crossed
    have factor := mul_right_cancel₀ (ten s) crossed
    refine fit_of_factor (Nat.zero_le s) bound (Nat.lt_of_le_of_lt ?_ a.coefficient_lt)
      (by rw [pow_zero, mul_one])
    rw [factor, Int.natAbs_mul, Int.natAbs_pow]
    exact Nat.le_mul_of_pos_right _ (Nat.pow_pos (by decide))

theorem atScale_add (a b : Amount) :
    ((a.atScale (max a.scale b.scale) + b.atScale (max a.scale b.scale) : Int) : ℚ) /
      10 ^ max a.scale b.scale = a.value + b.value := by
  rw [Int.cast_add, add_div, atScale_value (Nat.le_max_left _ _),
    atScale_value (Nat.le_max_right _ _)]

theorem max_scale_le (a b : Amount) : max a.scale b.scale ≤ 28 :=
  Nat.max_le.mpr ⟨a.scale_le, b.scale_le⟩

theorem add?_exact (h : Representable (a.value + b.value)) :
    ∃ c, a.add? b = some c ∧ c.value = a.value + b.value := by
  unfold add?
  split
  · rename_i zero
    exact ⟨b, rfl, by rw [value_of_isZero zero, zero_add]⟩
  · split
    · rename_i zero
      exact ⟨a, rfl, by rw [value_of_isZero zero, add_zero]⟩
    · rw [← atScale_add] at h ⊢
      exact fit_exact (max_scale_le a b) h

theorem dropping_neg (c : Int) (s d : Nat) :
    dropping (-c) s d = (dropping c s d).map fun a => -a := by
  have opposite : (-c).sign * ((roundHalfEven (-c).natAbs (tenTo d) : Nat) : Int) =
      -(c.sign * ((roundHalfEven c.natAbs (tenTo d) : Nat) : Int)) := by
    rw [Int.natAbs_neg, Int.sign_neg, Int.neg_mul]
  unfold dropping
  rw [opposite]
  generalize c.sign * ((roundHalfEven c.natAbs (tenTo d) : Nat) : Int) = n
  unfold ofParts?
  simp only [Int.natAbs_neg]
  split <;> rfl

theorem fit_neg (c : Int) (s : Nat) : fit (-c) s = (fit c s).map fun a => -a := by
  rw [fit_eq, fit_eq, List.map_findSome?]
  congr 1
  funext d
  exact dropping_neg c s d

theorem fit_zeros (c : Int) {k s : Nat} (bound : s + k ≤ 28) :
    (fit (c * 10 ^ k) (s + k)).map value = (fit c s).map value := by
  have same : ((c * 10 ^ k : Int) : ℚ) / 10 ^ (s + k) = c / 10 ^ s := by
    push_cast
    rw [pow_add]
    field_simp
  by_cases exact : Representable ((c : ℚ) / 10 ^ s)
  · obtain ⟨x, found, value⟩ := fit_exact (Nat.le_trans (Nat.le_add_right s k) bound) exact
    obtain ⟨y, found', value'⟩ := fit_exact bound (same ▸ exact)
    rw [found, found', Option.map_some, Option.map_some, value, value', same]
  · have none : ∀ d < k, dropping (c * 10 ^ k) (s + k) d = Option.none := by
      intro d early
      refine Option.eq_none_iff_forall_ne_some.mpr fun a there => exact ⟨a, ?_⟩
      rw [value_of_dropping (Nat.le_of_lt early) (Nat.le_add_left k s) rfl there, same]
    have shifted : ∀ d, dropping (c * 10 ^ k) (s + k) (k + d) = dropping c s d := by
      intro d
      have ten : (0 : Int) < 10 ^ k := pow_pos (by norm_num) k
      have sign : (c * 10 ^ k).sign = c.sign := by
        rw [Int.sign_mul, Int.sign_eq_one_of_pos ten, Int.mul_one]
      have powers : tenTo (k + d) = tenTo d * 10 ^ k := by
        show 10 ^ (k + d) = 10 ^ d * 10 ^ k
        rw [← pow_add, Nat.add_comm]
      have rounded : roundHalfEven (c * 10 ^ k).natAbs (tenTo (k + d)) =
          roundHalfEven c.natAbs (tenTo d) := by
        rw [powers, Int.natAbs_mul, Int.natAbs_pow]
        exact roundHalfEven_cancel _ _ (Nat.pow_pos (by decide))
      have scale : s + k - (k + d) = s - d := by omega
      simp only [dropping, sign, rounded, scale]
    have split : List.range (s + k + 1) = List.range k ++ (List.range (s + 1)).map (k + ·) := by
      rw [← List.range_add]
      congr 1
      omega
    have late : (List.range k).findSome? (dropping (c * 10 ^ k) (s + k)) = Option.none :=
      List.findSome?_eq_none_iff.mpr fun d mem => none d (List.mem_range.mp mem)
    have rest : dropping (c * 10 ^ k) (s + k) ∘ (k + ·) = dropping c s := funext shifted
    rw [fit_eq, fit_eq, split, List.findSome?_append, late, Option.none_or, List.findSome?_map,
      rest]

/-- What the fitting makes of a fraction follows from the number that the fraction is. -/
theorem fit_congr {c c' : Int} {s s' : Nat} (bound : s ≤ 28) (bound' : s' ≤ 28)
    (same : (c : ℚ) / 10 ^ s = c' / 10 ^ s') : (fit c s).map value = (fit c' s').map value := by
  have crossed : c * 10 ^ (28 - s) = c' * 10 ^ (28 - s') := by
    have power : ∀ n : Nat, (10 : ℚ) ^ n ≠ 0 := fun n => pow_ne_zero n (by norm_num)
    have powers : ∀ n ≤ 28, (10 : ℚ) ^ 28 = 10 ^ (28 - n) * 10 ^ n := by
      intro n le
      rw [← pow_add, Nat.sub_add_cancel le]
    have left : (c : ℚ) * 10 ^ (28 - s) = c / 10 ^ s * 10 ^ 28 := by
      rw [powers s bound]
      field_simp
    have right : (c' : ℚ) * 10 ^ (28 - s') = c' / 10 ^ s' * 10 ^ 28 := by
      rw [powers s' bound']
      field_simp
    have equal : (c : ℚ) * 10 ^ (28 - s) = c' * 10 ^ (28 - s') := by rw [left, right, same]
    exact_mod_cast equal
  have full : s + (28 - s) = 28 := Nat.add_sub_cancel' bound
  have full' : s' + (28 - s') = 28 := Nat.add_sub_cancel' bound'
  rw [← fit_zeros c (Nat.le_of_eq full), ← fit_zeros c' (Nat.le_of_eq full'), full, full', crossed]

theorem add?_fit (a b : Amount) : (a.add? b).map value =
    (fit (a.atScale (max a.scale b.scale) + b.atScale (max a.scale b.scale))
      (max a.scale b.scale)).map value := by
  by_cases exact : Representable (a.value + b.value)
  · obtain ⟨x, found, same⟩ := add?_exact exact
    rw [← atScale_add] at exact
    obtain ⟨y, found', same'⟩ := fit_exact (max_scale_le a b) exact
    rw [found, found', Option.map_some, Option.map_some, same, same', atScale_add]
  · have left : ¬a.IsZero := fun zero => exact ⟨b, by rw [value_of_isZero zero, zero_add]⟩
    have right : ¬b.IsZero := fun zero => exact ⟨a, by rw [value_of_isZero zero, add_zero]⟩
    unfold add?
    rw [if_neg left, if_neg right]

/-- How far the sum that amounts give is from the exact sum: what comes of the digits for which the
sum has no room. -/
def drift (a b : Amount) : ℚ :=
  gain (a.atScale (max a.scale b.scale) + b.atScale (max a.scale b.scale)) (max a.scale b.scale)

theorem value_of_add? (h : a.add? b = some c) : c.value = a.value + b.value + a.drift b := by
  have values := add?_fit a b
  rw [h, Option.map_some] at values
  obtain ⟨r, found, same⟩ := Option.map_eq_some_iff.mp values.symm
  rw [← same, fit_value (max_scale_le a b) found, atScale_add, drift]

theorem drift_eq_zero_iff (h : a.add? b = some c) :
    a.drift b = 0 ↔ Representable (a.value + b.value) := by
  have value := value_of_add? h
  constructor
  · intro exact
    rw [exact, add_zero] at value
    exact ⟨c, value⟩
  · intro representable
    obtain ⟨r, found, same⟩ := add?_exact representable
    cases h.symm.trans found
    rw [same] at value
    linarith

theorem add?_congr {a' b' : Amount} (same : a.value + b.value = a'.value + b'.value) :
    (a.add? b).map value = (a'.add? b').map value := by
  rw [add?_fit, add?_fit]
  refine fit_congr (max_scale_le a b) (max_scale_le a' b') ?_
  rw [atScale_add, atScale_add, same]

theorem add?_neg (a b : Amount) :
    ((-a).add? (-b)).map value = ((a.add? b).map value).map fun x => -x := by
  have opposite : ∀ (x : Amount) (s : Nat), (-x).atScale s = -x.atScale s :=
    fun x s => Int.neg_mul _ _
  have scale : ∀ x : Amount, (-x).scale = x.scale := fun _ => rfl
  rw [add?_fit, add?_fit, scale, scale, opposite, opposite, ← Int.neg_add, fit_neg]
  simp only [Option.map_map]
  congr 1
  funext x
  exact value_neg x

theorem atScale_le {s : Nat} (owed : ¬a.IsNegative) :
    a.atScale s ≤ ((twoTo 96 - 1) * tenTo s : Nat) := by
  have short : a.coefficient ≤ (twoTo 96 - 1 : Nat) := by
    have := a.coefficient_lt
    omega
  have power : tenTo (s - a.scale) ≤ tenTo s := Nat.pow_le_pow_right (by decide) (Nat.sub_le _ _)
  calc a.coefficient * (tenTo (s - a.scale) : Int)
      ≤ (twoTo 96 - 1 : Nat) * (tenTo (s - a.scale) : Int) :=
        Int.mul_le_mul_of_nonneg_right short (Int.natCast_nonneg _)
    _ ≤ (twoTo 96 - 1 : Nat) * (tenTo s : Int) :=
        Int.mul_le_mul_of_nonneg_left (Int.ofNat_le.mpr power) (Int.natCast_nonneg _)
    _ = ((twoTo 96 - 1) * tenTo s : Nat) := (Int.natCast_mul _ _).symm

theorem sub?_some (ha : ¬a.IsNegative) (hb : ¬b.IsNegative) : ∃ c, a.sub? b = some c := by
  have fits : ∀ s ≤ 28, ∃ c, fit (a.atScale s + (-b).atScale s) s = some c := by
    intro s bound
    have opposite : (-b).atScale s = -b.atScale s := Int.neg_mul _ _
    have size : (a.atScale s + (-b).atScale s).natAbs ≤ (twoTo 96 - 1) * tenTo s := by
      have left := atScale_nonneg ha s
      have right := atScale_nonneg hb s
      have := atScale_le ha (s := s)
      have := atScale_le hb (s := s)
      rw [opposite]
      omega
    have rounded := roundHalfEven_le (Nat.pow_pos (by decide)) size
    have short : roundHalfEven (a.atScale s + (-b).atScale s).natAbs (tenTo s) < twoTo 96 :=
      Nat.lt_of_le_of_lt rounded (by decide)
    obtain ⟨x, hit⟩ := dropping_some bound short
    obtain ⟨d, -, r, -, found⟩ := findSome?_range_le (Nat.lt_succ_self s) hit
    exact ⟨r, found⟩
  unfold sub? add?
  split
  · exact ⟨_, rfl⟩
  · split
    · exact ⟨_, rfl⟩
    · exact fits _ (max_scale_le a (-b))

end Amount

end WalletLedger
