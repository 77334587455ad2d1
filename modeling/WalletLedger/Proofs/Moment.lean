import WalletLedger.Proofs.Listing
import WalletLedger.Proofs.Numeral

/-!
Written points in time. In the years of four digits what is written down is read back, but for a
leap second that does not end its minute: no text says that, and the second after it is read.
-/
namespace WalletLedger.Timestamp

/-- What RFC 3339 has a text for: years of four digits, and leap seconds at the end of a minute. -/
structure Rfc3339 (t : Timestamp) : Prop where
  year_nonneg : 0 ≤ t.date.year
  year_le : t.date.year ≤ 9999
  leap : tenTo 9 ≤ t.nano → t.second % 60 = 59

instance (t : Timestamp) : Decidable t.Rfc3339 :=
  decidable_of_iff
    (0 ≤ t.date.year ∧ t.date.year ≤ 9999 ∧ (tenTo 9 ≤ t.nano → t.second % 60 = 59))
    ⟨fun h => ⟨h.1, h.2.1, h.2.2⟩, fun h => ⟨h.year_nonneg, h.year_le, h.leap⟩⟩

section fields
variable {width n : Nat} {c : Char} {rest : List Char}

theorem isBlank_of_isDigit (digit : c.isDigit = true) : isBlank c = false := by
  have bounds := isDigit_iff.mp digit
  have low : 48 ≤ c.toNat := UInt32.le_iff_toNat_le.mp bounds.1
  have high : c.toNat ≤ 57 := UInt32.le_iff_toNat_le.mp bounds.2
  simp only [isBlank, Bool.or_eq_false_iff, Bool.and_eq_false_iff, decide_eq_false_iff_not]
  omega

theorem skipBlanks_cons (solid : isBlank c = false) : skipBlanks (c :: rest) = c :: rest := by
  simp [skipBlanks, solid]

theorem padded_eq_cons (width n : Nat) : ∃ d ds, padded width n = d :: ds ∧ d.isDigit = true :=
  exists_digit_cons (padded_ne_nil width n) fun _ => isDigit_of_mem_padded

theorem skipBlanks_padded : skipBlanks (padded width n ++ rest) = padded width n ++ rest := by
  obtain ⟨d, ds, cut, digit⟩ := padded_eq_cons width n
  rw [cut, List.cons_append, skipBlanks_cons (isBlank_of_isDigit digit)]

theorem takeWhile_padded (width n : Nat) (rest : List Char) :
    (padded width n ++ rest).takeWhile (fun c => '0' ≤ c ∧ c ≤ '9') =
      padded width n ++ rest.takeWhile fun c => '0' ≤ c ∧ c ≤ '9' :=
  List.takeWhile_append_of_pos fun _ mem =>
    decide_eq_true (isDigit_iff.mp (isDigit_of_mem_padded mem))

theorem readField?_padded (rest : List Char) (pos : 0 < width) (short : n < 10 ^ width) :
    readField? width (padded width n ++ rest) = some (n, rest) := by
  have long := length_padded pos short
  have digits : ((padded width n ++ rest).take width).takeWhile (fun c => '0' ≤ c ∧ c ≤ '9') =
      padded width n := by
    rw [List.take_left' long]
    simpa using takeWhile_padded width n []
  rw [readField?, skipBlanks_padded]
  simp only [digits, readNat?_padded, Option.map_some, List.drop_left]

theorem readField?_two (short : n < 10 ^ 2) : readField? 2 (padded 2 n ++ rest) = some (n, rest) :=
  readField?_padded rest Nat.two_pos short

theorem readLiteral?_cons (solid : isBlank c = false) :
    readLiteral? c (skipBlanks (c :: rest)) = some rest := by
  rw [skipBlanks_cons solid]
  exact if_pos rfl

theorem readYear?_yearChars {year : Int} (nonneg : 0 ≤ year) (le : year ≤ 9999) :
    readYear? (yearChars year ++ rest) = some (year, rest) := by
  have short : year.natAbs < 10 ^ 4 := by omega
  have field := readField?_padded rest (by decide) short
  have same : (year.natAbs : Int) = year := by omega
  obtain ⟨d, ds, cut, digit⟩ := padded_eq_cons 4 year.natAbs
  rw [yearChars, if_neg (by omega), if_pos le, readYear?, skipBlanks_padded]
  rw [cut, List.cons_append] at field ⊢
  split
  · rename_i minus
    rw [(List.cons.inj minus).1] at digit
    contradiction
  · rename_i plus
    rw [(List.cons.inj plus).1] at digit
    contradiction
  · rw [field, Option.map_some, same]

end fields

theorem readFraction?_padded {width n : Nat} {rest : List Char} (pos : 0 < width) (le : width ≤ 9)
    (short : n < 10 ^ width) :
    readFraction? ('.' :: padded width n ++ 'Z' :: rest) =
      some (n * tenTo (9 - width), 'Z' :: rest) := by
  have long := length_padded pos short
  have upto : (padded width n ++ 'Z' :: rest).takeWhile (fun c => '0' ≤ c ∧ c ≤ '9') =
      padded width n := by
    rw [takeWhile_padded]
    exact List.append_nil _
  have kept : (padded width n).take 9 = padded width n := List.take_of_length_le (by omega)
  simp only [List.cons_append, readFraction?, upto, kept, readNat?_padded, Option.map_some, long,
    List.drop_left' long]

theorem readFraction?_fractionText {nano : Nat} {rest : List Char} (small : nano < tenTo 9) :
    readFraction? (fractionText nano ++ 'Z' :: rest) = some (nano, 'Z' :: rest) := by
  have nine : tenTo 9 = 10 ^ 9 := rfl
  have six : tenTo 6 = 10 ^ 6 := rfl
  have three : tenTo 3 = 10 ^ 3 := rfl
  rw [nine] at small
  rw [fractionText, six, three]
  split
  · rename_i none_
    rw [none_]
    rfl
  split
  · rename_i whole
    rw [readFraction?_padded (by decide) (by decide) (by omega)]
    show some (nano / 10 ^ 6 * 10 ^ 6, _) = _
    rw [Nat.div_mul_cancel (Nat.dvd_of_mod_eq_zero whole)]
  split
  · rename_i whole
    rw [readFraction?_padded (by decide) (by decide) (by omega)]
    show some (nano / 10 ^ 3 * 10 ^ 3, _) = _
    rw [Nat.div_mul_cancel (Nat.dvd_of_mod_eq_zero whole)]
  · rw [readFraction?_padded (by decide) (by decide) small]
    exact congrArg some (Prod.ext (Nat.mul_one nano) rfl)

theorem Date.of?_eq (d : Date) : Date.of? d.year d.month d.day = some d :=
  dif_pos ⟨⟨d.month_pos, d.month_le⟩, d.day_pos, d.day_le⟩

theorem toUtc_zero (t : Timestamp) : t.toUtc 0 = t := by
  have := t.second_lt
  have inside : ¬ (t.second : Int) - 0 < 0 := by omega
  have today : (t.second : Int) - 0 < 86400 := by omega
  have same : ((t.second : Int) - 0).toNat % 86400 = t.second := by omega
  simp only [toUtc, if_neg inside, if_pos today, same]

theorem of?_eq_some_iff {date : Date} {second nano : Nat} {t : Timestamp} :
    of? date second nano = some t ↔ date = t.date ∧ second = t.second ∧ nano = t.nano := by
  unfold of?
  split
  · rw [Option.some.injEq]
    constructor
    · rintro rfl
      exact ⟨rfl, rfl, rfl⟩
    · rintro ⟨rfl, rfl, rfl⟩
      rfl
  · rename_i outside
    constructor
    · intro none_
      contradiction
    · rintro ⟨rfl, rfl, rfl⟩
      exact absurd ⟨t.second_lt, t.nano_lt⟩ outside

/-- The text of a leap second has the number 60 in the place of the seconds, if it ends its minute;
only from that number a leap second is read. -/
theorem read?_toChars_eq {t : Timestamp} {leap : Nat} (nonneg : 0 ≤ t.date.year)
    (le : t.date.year ≤ 9999)
    (ends : leap = if t.second % 60 + t.nano / tenTo 9 = 60 then 1 else 0) :
    read? t.toChars = of? t.date
      (t.second / 3600 * 3600 + t.second / 60 % 60 * 60 + (t.second % 60 + t.nano / tenTo 9 - leap))
      (t.nano % tenTo 9 + leap * tenTo 9) := by
  have nine : tenTo 9 = 1000000000 := rfl
  have dayEnd := t.second_lt
  have nanoEnd := t.nano_lt
  have monthEnd := t.date.month_le
  have dayOfMonth : t.date.day < 10 ^ 2 := by
    have last := t.date.day_le
    have most := daysInMonth_le t.date.year t.date.month
    omega
  have month : t.date.month < 10 ^ 2 := by omega
  have hour : t.second / 3600 < 10 ^ 2 := by omega
  have minute : t.second / 60 % 60 < 10 ^ 2 := by omega
  have second : t.second % 60 + t.nano / tenTo 9 < 10 ^ 2 := by
    rw [nine] at nanoEnd ⊢
    omega
  have small : t.nano % tenTo 9 < tenTo 9 := Nat.mod_lt _ (by decide)
  have dash : isBlank '-' = false := rfl
  have colon : isBlank ':' = false := rfl
  have zulu : isBlank 'Z' = false := rfl
  have offset : readOffset? ['Z'] = some (0, []) := rfl
  have clock : t.second / 3600 < 24 ∧ t.second / 60 % 60 < 60 ∧
      t.second % 60 + t.nano / tenTo 9 ≤ 60 := by
    rw [nine] at nanoEnd ⊢
    omega
  have near : (0 : Int).natAbs < 86400 ∧ -262143 ≤ t.date.year ∧ t.date.year ≤ 262142 := by
    omega
  rw [read?, readZoned?, toChars]
  simp only [List.append_assoc, List.cons_append]
  -- The date, up to and with the `T`.
  rw [readYear?_yearChars nonneg le]
  dsimp only [Option.bind_eq_bind, Option.bind_some]
  rw [readLiteral?_cons dash, Option.bind_some, readField?_two month, Option.bind_some,
    readLiteral?_cons dash, Option.bind_some, readField?_two dayOfMonth, Option.bind_some]
  dsimp only
  -- The time of the day, and the offset.
  rw [if_pos (Or.inl rfl), readField?_two hour, Option.bind_some, readLiteral?_cons colon,
    Option.bind_some, readField?_two minute, Option.bind_some, readLiteral?_cons colon,
    Option.bind_some, readField?_two second, Option.bind_some, readFraction?_fractionText small,
    Option.bind_some, skipBlanks_cons zulu, offset, Option.bind_some]
  dsimp only
  rw [if_pos ⟨rfl, clock.1, clock.2.1, clock.2.2, near⟩, Date.of?_eq, Option.bind_some, ← ends]
  cases of? t.date _ _ with
  | none => rfl
  | some read => rw [Option.bind_some, toUtc_zero, Option.map_some]

theorem read?_toChars_iff {t : Timestamp} (nonneg : 0 ≤ t.date.year) (le : t.date.year ≤ 9999) :
    read? t.toChars = some t ↔ (tenTo 9 ≤ t.nano → t.second % 60 = 59) := by
  have nine : tenTo 9 = 1000000000 := rfl
  have nanoEnd := t.nano_lt
  rw [nine] at nanoEnd
  rw [read?_toChars_eq nonneg le rfl, of?_eq_some_iff, nine]
  simp only [true_and]
  split <;> omega

theorem read?_toChars {t : Timestamp} (writable : t.Rfc3339) : read? t.toChars = some t :=
  (read?_toChars_iff writable.year_nonneg writable.year_le).mpr writable.leap

end WalletLedger.Timestamp
