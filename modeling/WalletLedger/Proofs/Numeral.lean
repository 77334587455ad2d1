import Mathlib.Algebra.GroupWithZero.Nat
import WalletLedger.Identifier
import WalletLedger.Timestamp.Text

/-!
Written numbers. Digits are read as the number they were written for, whatever zeros stand in front
of them; an amount comes back with its sign and its scale, and an identifier from its groups.
-/
namespace WalletLedger

/-! Decimal digits. -/

theorem isDigit_iff {c : Char} : c.isDigit = true ↔ '0' ≤ c ∧ c ≤ '9' := by
  rw [Char.isDigit, Bool.and_eq_true, decide_eq_true_eq, decide_eq_true_eq]
  rfl

theorem digitValue?_of_isDigit {c : Char} (digit : c.isDigit = true) :
    digitValue? c = some (c.toNat - '0'.toNat) :=
  if_pos (isDigit_iff.mp digit)

theorem exists_digit_cons {ds : List Char} (some_ : ds ≠ [])
    (digits : ∀ c ∈ ds, c.isDigit = true) : ∃ d rest, ds = d :: rest ∧ d.isDigit = true := by
  obtain ⟨d, rest, rfl⟩ := List.exists_cons_of_ne_nil some_
  exact ⟨d, rest, rfl, digits d List.mem_cons_self⟩

theorem readNat?_of_digits {ds : List Char} (some_ : ds ≠ [])
    (digits : ∀ c ∈ ds, c.isDigit = true) : readNat? ds = some (Nat.ofDigitChars 10 ds 0) := by
  have onwards : ∀ n, ds.foldlM (fun n c => (digitValue? c).map (10 * n + ·)) n =
      some (Nat.ofDigitChars 10 ds n) := by
    clear some_
    induction ds with
    | nil => intro n; rfl
    | cons d ds ih =>
      intro n
      have first := digitValue?_of_isDigit (digits d List.mem_cons_self)
      rw [List.foldlM_cons, first, Nat.ofDigitChars_cons]
      exact ih (fun c mem => digits c (List.mem_cons_of_mem _ mem)) _
  have full : ds.isEmpty = false := by simpa using some_
  rw [readNat?, full]
  exact onwards 0

theorem le_ofDigitChars (ds : List Char) (n : Nat) : n ≤ Nat.ofDigitChars 10 ds n := by
  rw [Nat.ofDigitChars_eq_ofDigitChars_zero]
  have := Nat.le_mul_of_pos_left n (Nat.pow_pos (n := ds.length) (by decide : 0 < 10))
  omega

theorem isDigit_of_mem_digitChars {n : Nat} {c : Char} (mem : c ∈ digitChars n) :
    c.isDigit = true :=
  Nat.isDigit_of_mem_toDigits (by decide) (by decide) mem

section padded
variable {width n : Nat}

theorem isDigit_of_mem_padded {c : Char} (mem : c ∈ padded width n) : c.isDigit = true := by
  rcases List.mem_append.mp mem with zero | digit
  · rw [List.eq_of_mem_replicate zero]
    rfl
  · exact isDigit_of_mem_digitChars digit

theorem padded_ne_nil (width n : Nat) : padded width n ≠ [] := by
  have := Nat.toDigits_ne_nil (n := n) (b := 10)
  simp [padded, digitChars, this]

theorem ofDigitChars_padded : Nat.ofDigitChars 10 (padded width n) 0 = n := by
  rw [padded, Nat.ofDigitChars_append, Nat.ofDigitChars_replicate_zero, Nat.mul_zero]
  exact Nat.ofDigitChars_ten_toDigits

theorem readNat?_padded : readNat? (padded width n) = some n := by
  rw [readNat?_of_digits (padded_ne_nil width n) fun c => isDigit_of_mem_padded,
    ofDigitChars_padded]

theorem le_length_padded (width n : Nat) : width ≤ (padded width n).length := by
  rw [padded, List.length_append, List.length_replicate]
  omega

theorem length_padded (pos : 0 < width) (short : n < 10 ^ width) :
    (padded width n).length = width := by
  have digits : (digitChars n).length ≤ width :=
    (Nat.length_toDigits_le_iff (by decide) pos).mpr short
  rw [padded, List.length_append, List.length_replicate]
  omega

end padded

/-! Amounts. -/

namespace Amount
variable {a : Amount}

theorem readDigits?_append (negative point any : Bool) (scale : Nat) (rest : List Char) {n : Nat}
    {ds : List Char} (digits : ∀ c ∈ ds, c.isDigit = true)
    (room : Nat.ofDigitChars 10 ds n < twoTo 96)
    (places : point = true → scale + ds.length ≤ 28) :
    readDigits? negative point any n scale (ds ++ rest) =
      readDigits? negative point (any || !ds.isEmpty) (Nat.ofDigitChars 10 ds n)
        (if point then scale + ds.length else scale) rest := by
  induction ds generalizing any n scale with
  | nil => simp
  | cons d ds ih =>
    rw [Nat.ofDigitChars_cons] at room
    have inside : 10 * n + (d.toNat - '0'.toNat) < twoTo 96 :=
      Nat.lt_of_le_of_lt (le_ofDigitChars ds _) room
    have open_ : ¬ (point = true ∧ scale = 28) := by
      rintro ⟨h, rfl⟩
      have := places h
      rw [List.length_cons] at this
      omega
    have later := ih true (if point then scale + 1 else scale)
      (fun c mem => digits c (List.mem_cons_of_mem _ mem)) room fun h => by
        have := places h
        simp only [h, if_true, List.length_cons] at this ⊢
        omega
    rw [List.cons_append, readDigits?, if_neg open_,
      digitValue?_of_isDigit (digits d List.mem_cons_self)]
    simp only [if_pos inside, later, Nat.ofDigitChars_cons]
    cases point <;> simp [Nat.add_assoc, Nat.add_comm 1]

theorem readDigits?_point {negative any : Bool} {n scale : Nat} {rest : List Char} :
    readDigits? negative false any n scale ('.' :: rest) =
      readDigits? negative true any n scale rest := rfl

theorem magnitudeChars_eq (a : Amount) : ∃ whole fraction : List Char,
    whole ≠ [] ∧ fraction.length = a.scale ∧
    whole ++ fraction = padded (a.scale + 1) a.coefficient.natAbs ∧
    a.magnitudeChars = whole ++ if a.scale = 0 then [] else '.' :: fraction := by
  have long := le_length_padded (a.scale + 1) a.coefficient.natAbs
  generalize same : padded (a.scale + 1) a.coefficient.natAbs = digits at long
  refine ⟨digits.take (digits.length - a.scale), digits.drop (digits.length - a.scale), ?_, ?_,
    List.take_append_drop .., ?_⟩
  · rw [ne_eq, List.take_eq_nil_iff]
    rintro (h | rfl)
    · omega
    · simp at long
  · rw [List.length_drop]
    omega
  · rw [← same]
    rfl

theorem readDigits?_magnitudeChars (negative : Bool) :
    readDigits? negative false false 0 0 a.magnitudeChars =
      ofParts? (if negative then -(a.coefficient.natAbs : Int) else a.coefficient.natAbs)
        a.scale := by
  obtain ⟨whole, fraction, some_, places, cut, shown⟩ := magnitudeChars_eq a
  have digits : ∀ c ∈ whole ++ fraction, c.isDigit = true := by
    rw [cut]
    exact fun c => isDigit_of_mem_padded
  have value : Nat.ofDigitChars 10 fraction (Nat.ofDigitChars 10 whole 0) =
      a.coefficient.natAbs := by
    rw [← Nat.ofDigitChars_append, cut, ofDigitChars_padded]
  have room := a.coefficient_lt
  rw [← value] at room
  have upto := readDigits?_append negative false false 0
    (if a.scale = 0 then [] else '.' :: fraction)
    (fun c mem => digits c (List.mem_append_left _ mem))
    (Nat.lt_of_le_of_lt (le_ofDigitChars fraction _) room) fun h => absurd h Bool.false_ne_true
  have met : (false || !whole.isEmpty) = true := by simpa using some_
  rw [shown, upto, met, if_neg Bool.false_ne_true]
  by_cases none_ : a.scale = 0
  · obtain rfl : fraction = [] := List.eq_nil_of_length_eq_zero (places.trans none_)
    rw [Nat.ofDigitChars_nil] at value
    rw [if_pos none_, readDigits?, if_pos rfl, value, none_]
  · have bound := a.scale_le
    have after := readDigits?_append negative true true 0 []
      (fun c mem => digits c (List.mem_append_right _ mem)) room fun _ => by omega
    rw [List.append_nil, Bool.true_or, if_pos rfl, Nat.zero_add, places, value] at after
    rw [if_neg none_, readDigits?_point, after, readDigits?, if_pos rfl]

theorem ofParts?_eq (a : Amount) : ofParts? a.coefficient a.scale = some a :=
  dif_pos ⟨a.coefficient_lt, a.scale_le⟩

theorem read?_of_digit {c : Char} {cs : List Char} (digit : c.isDigit = true) :
    read? (c :: cs) = readDigits? false false false 0 0 (c :: cs) := by
  rw [read?]
  all_goals
    rintro rest ⟨⟩
    contradiction

theorem read?_toChars (a : Amount) : read? a.toChars = some a := by
  rw [toChars]
  split
  · rename_i below
    have sign : -(a.coefficient.natAbs : Int) = a.coefficient := by
      have : a.coefficient < 0 := below
      omega
    rw [read?, readDigits?_magnitudeChars, if_pos rfl, sign, ofParts?_eq]
  · rename_i above
    have sign : (a.coefficient.natAbs : Int) = a.coefficient := by
      have : ¬ a.coefficient < 0 := above
      omega
    obtain ⟨whole, fraction, some_, -, cut, shown⟩ := magnitudeChars_eq a
    have digits : ∀ c ∈ whole, c.isDigit = true := fun c mem =>
      isDigit_of_mem_padded (cut ▸ List.mem_append_left fraction mem)
    obtain ⟨c, cs, rfl, digit⟩ := exists_digit_cons some_ digits
    have unsigned :
        read? a.magnitudeChars = readDigits? false false false 0 0 a.magnitudeChars := by
      rw [shown, List.cons_append, read?_of_digit digit]
    rw [unsigned, readDigits?_magnitudeChars, if_neg Bool.false_ne_true, sign, ofParts?_eq]

end Amount

/-! Identifiers. -/

namespace Identifier

theorem hexValue?_hexChar : ∀ n < 16, hexValue? (hexChar n) = some n := by decide

theorem length_hexDigits (n v : Nat) : (hexDigits n v).length = n := by
  induction n generalizing v with
  | zero => rfl
  | succ n ih => simp [hexDigits, ih]

theorem exists_of_mem_hexDigits {n v : Nat} {c : Char} (mem : c ∈ hexDigits n v) :
    ∃ d < 16, c = hexChar d := by
  induction n generalizing v with
  | zero => nomatch mem
  | succ n ih =>
    rcases List.mem_append.mp mem with before | last
    · exact ih before
    · exact ⟨v % 16, Nat.mod_lt _ (by decide), List.mem_singleton.mp last⟩

theorem foldlM_hexDigits {n v m : Nat} (short : v < 16 ^ n) :
    (hexDigits n v).foldlM (fun n c => (hexValue? c).map (16 * n + ·)) m =
      some (16 ^ n * m + v) := by
  induction n generalizing v with
  | zero =>
    obtain rfl : v = 0 := by simpa using short
    simp [hexDigits]
  | succ n ih =>
    have before : v / 16 < 16 ^ n := by
      rw [Nat.pow_succ] at short
      omega
    have last := hexValue?_hexChar (v % 16) (Nat.mod_lt _ (by decide))
    have sum : 16 * (16 ^ n * m + v / 16) + v % 16 = 16 ^ (n + 1) * m + v := by
      rw [Nat.pow_succ', Nat.mul_assoc]
      omega
    rw [hexDigits, List.foldlM_append, ih before, Option.bind_eq_bind, Option.bind_some,
      List.foldlM_cons, last]
    exact congrArg some sum

theorem length_hyphenate {ns : List Nat} {ds : List Char} (all : ds.length = ns.sum) :
    (hyphenate ns ds).length = ns.sum + (ns.length - 1) := by
  induction ns, ds using hyphenate.induct with
  | case1 ds => simpa [hyphenate] using all
  | case2 n ds =>
    obtain rfl : ds.length = n := by simpa using all
    simp [hyphenate]
  | case3 n rest ds more ih =>
    obtain ⟨m, rest, rfl⟩ := List.exists_cons_of_ne_nil more
    have left := ih (by simp at all ⊢; omega)
    simp only [List.sum_cons] at all left
    rw [hyphenate, List.length_append, List.length_cons, left, List.length_take]
    · simp
      omega
    · exact more

theorem ungroup?_hyphenate {ns : List Nat} {ds : List Char} (all : ds.length = ns.sum) :
    ungroup? ns (hyphenate ns ds) = some ds := by
  induction ns, ds using hyphenate.induct with
  | case1 ds =>
    obtain rfl : ds = [] := List.eq_nil_of_length_eq_zero all
    rfl
  | case2 n ds =>
    obtain rfl : ds.length = n := by simpa using all
    simp [hyphenate, ungroup?]
  | case3 n rest ds more ih =>
    have left := ih (by simp at all ⊢; omega)
    have first : (ds.take n).length = n := by
      simp at all ⊢
      omega
    have from_ : (ds.take n ++ '-' :: hyphenate rest (ds.drop n)).drop n =
        '-' :: hyphenate rest (ds.drop n) := List.drop_left' first
    have upto : (ds.take n ++ '-' :: hyphenate rest (ds.drop n)).take n = ds.take n :=
      List.take_left' first
    rw [hyphenate, ungroup?, from_, upto]
    · show (ungroup? rest (hyphenate rest (ds.drop n))).map (ds.take n ++ ·) = some ds
      rw [left, Option.map_some, List.take_append_drop]
    · exact more
    · exact more

theorem ofHex?_hexDigits (id : Identifier) : ofHex? (hexDigits 32 id.value) = some id := by
  have short : id.value < 16 ^ 32 := id.value_lt
  rw [ofHex?, if_neg (not_not_intro (length_hexDigits 32 _)), foldlM_hexDigits short]
  show (if h : 16 ^ 32 * 0 + id.value < twoTo 128 then some _ else none : Option Identifier) = _
  rw [dif_pos (by simpa using id.value_lt)]
  simp

/-- What wraps an identifier begins with no hexadecimal digit. -/
theorem unwrap?_toChars (id : Identifier) : unwrap? id.toChars = none := by
  obtain ⟨c, cs, cut⟩ : ∃ c cs, hexDigits 32 id.value = c :: cs :=
    List.exists_cons_of_length_eq_add_one (length_hexDigits 32 _)
  obtain ⟨d, small, rfl⟩ : ∃ d < 16, c = hexChar d :=
    exists_of_mem_hexDigits (cut ▸ List.mem_cons_self)
  obtain ⟨rest, shown⟩ : ∃ rest, id.toChars = hexChar d :: rest := by
    rw [toChars, cut]
    exact ⟨_, rfl⟩
  have bare : ∀ d < 16, hexChar d ≠ '{' ∧ (hexChar d).toLower ≠ 'u' := by decide
  have wrapped : ¬ ((hexChar d :: rest).take 9).map Char.toLower = "urn:uuid:".toList := by
    intro same
    exact (bare d small).2 (List.cons.inj same).1
  rw [shown, unwrap?, if_neg wrapped]
  intro rest same
  exact (bare d small).1 (List.cons.inj same).1

theorem read?_toChars (id : Identifier) : read? id.toChars = some id := by
  have all : (hexDigits 32 id.value).length = groups.sum := length_hexDigits ..
  have long : id.toChars.length = 36 := length_hyphenate all
  have ungrouped : ungroup? groups id.toChars = some (hexDigits 32 id.value) :=
    ungroup?_hyphenate all
  have grouped : ¬ id.toChars.length = 32 := by omega
  rw [read?, if_neg grouped, unwrap?_toChars, Option.getD_none, ungrouped, Option.bind_some,
    ofHex?_hexDigits]

end Identifier

end WalletLedger
