import Mathlib.Data.List.Chain
import WalletLedger.Proofs.Rows

/-!
Which texts are read as a currency. Upper-casing makes a code of its spellings in any letter case of
ASCII, and of something more: the long s is upper-cased to `S`, so `USD` has four further spellings.
The rows of a database are judged by the same reading.
-/
namespace WalletLedger

def SameLetters (s t : String) : Prop := s.toList.map Char.toUpper = t.toList.map Char.toUpper

instance (s t : String) : Decidable (SameLetters s t) := inferInstanceAs (Decidable (_ = _))

/-! Upper-casing takes most characters to one; the others are taken to letters that stand side by
side in no code. -/

def ligatures : List (Char × Char) := [('S', 'S'), ('F', 'F'), ('F', 'I'), ('F', 'L'), ('S', 'T')]

def capital (c : Char) : Char :=
  if c = 'ſ' then 'S' else if c = 'ı' then 'I' else c.toUpper

theorem toUpper_eq {c x : Char} (h : c.toUpper = x) : c = x ∨ c.toNat = x.toNat + 32 := by
  unfold Char.toUpper at h
  split at h
  · rename_i small
    right
    subst h
    simp only [UInt32.le_iff_toNat_le] at small
    have sum : (c.val + ('A'.val - 'a'.val)).toNat =
        (c.val.toNat + ('A'.val - 'a'.val).toNat) % 2 ^ 32 := UInt32.toNat_add ..
    have shift : ('A'.val - 'a'.val).toNat = 4294967264 := by decide
    have first : 'a'.val.toNat = 97 := by decide
    have last : 'z'.val.toNat = 122 := by decide
    show c.val.toNat = (c.val + ('A'.val - 'a'.val)).toNat + 32
    omega
  · exact Or.inl h

theorem char_of_toNat {c d : Char} (h : c.toNat = d.toNat) : c = d :=
  Char.ext (UInt32.toNat_inj.mp h)

theorem capitals_cases (c : Char) : capitals c = [capital c] ∨
    (capital c).isUpper = false ∧ ∃ u v w, capitals c = u :: v :: w ∧ (u, v) ∈ ligatures := by
  unfold capitals
  split
  · rename_i small
    have long : c ≠ 'ſ' := by rintro rfl; exact absurd small (by decide)
    have dotless : c ≠ 'ı' := by rintro rfl; exact absurd small (by decide)
    exact Or.inl (by simp [capital, long, dotless])
  · rename_i large
    split
    · rename_i code
      obtain rfl : c = 'ß' := char_of_toNat code
      exact Or.inr ⟨by decide, 'S', 'S', [], rfl, by decide⟩
    · rename_i code
      obtain rfl : c = 'ı' := char_of_toNat code
      exact Or.inl (by decide)
    · rename_i code
      obtain rfl : c = 'ſ' := char_of_toNat code
      exact Or.inl (by decide)
    · rename_i code
      obtain rfl : c = 'ﬀ' := char_of_toNat code
      exact Or.inr ⟨by decide, 'F', 'F', [], rfl, by decide⟩
    · rename_i code
      obtain rfl : c = 'ﬁ' := char_of_toNat code
      exact Or.inr ⟨by decide, 'F', 'I', [], rfl, by decide⟩
    · rename_i code
      obtain rfl : c = 'ﬂ' := char_of_toNat code
      exact Or.inr ⟨by decide, 'F', 'L', [], rfl, by decide⟩
    · rename_i code
      obtain rfl : c = 'ﬃ' := char_of_toNat code
      exact Or.inr ⟨by decide, 'F', 'F', ['I'], rfl, by decide⟩
    · rename_i code
      obtain rfl : c = 'ﬄ' := char_of_toNat code
      exact Or.inr ⟨by decide, 'F', 'F', ['L'], rfl, by decide⟩
    · rename_i code
      obtain rfl : c = 'ﬅ' := char_of_toNat code
      exact Or.inr ⟨by decide, 'S', 'T', [], rfl, by decide⟩
    · rename_i code
      obtain rfl : c = 'ﬆ' := char_of_toNat code
      exact Or.inr ⟨by decide, 'S', 'T', [], rfl, by decide⟩
    · rename_i dotless long _ _ _ _ _ _ _
      refine Or.inl ?_
      have long : c ≠ 'ſ' := by rintro rfl; exact long rfl
      have dotless : c ≠ 'ı' := by rintro rfl; exact dotless rfl
      have same : c.toUpper = c := dif_neg large
      simp [capital, long, dotless, same]

/-- A text of capitals without ligatures is what one character after the other is taken to. -/
theorem flatMap_capitals_iff {w : List Char} (upper : ∀ x ∈ w, x.isUpper = true)
    (apart : w.IsChain fun x y => (x, y) ∉ ligatures) (cs : List Char) :
    cs.flatMap capitals = w ↔ cs.map capital = w := by
  induction w generalizing cs with
  | nil =>
    cases cs with
    | nil => simp
    | cons c cs =>
      have some_ : capitals c ≠ [] := by
        rcases capitals_cases c with one | ⟨-, u, v, w, more, -⟩ <;> simp [*]
      simp [some_]
  | cons x w ih =>
    cases cs with
    | nil => simp
    | cons c cs =>
      have rest := ih (fun y mem => upper y (List.mem_cons_of_mem _ mem)) apart.tail cs
      rw [List.flatMap_cons, List.map_cons]
      rcases capitals_cases c with one | ⟨small, u, v, more, image, joined⟩
      · rw [one, List.singleton_append, List.cons.injEq, List.cons.injEq, rest]
      · refine iff_of_false (fun h => ?_) fun h => ?_
        · rw [image] at h
          simp only [List.cons_append, List.cons.injEq] at h
          obtain ⟨rfl, rfl⟩ := h
          exact (List.isChain_cons_cons.mp apart).1 joined
        · have first := upper x List.mem_cons_self
          rw [← (List.cons.inj h).1, small] at first
          contradiction

namespace Currency
variable {s : String} {c : Currency}

/-- The spellings of `USD` with a long s. -/
def lookalikes : List String := ["UſD", "Uſd", "uſD", "uſd"]

def Spelled (s : String) (c : Currency) : Prop := SameLetters s c.code ∨ c = usd ∧ s ∈ lookalikes

instance (s : String) (c : Currency) : Decidable (Spelled s c) :=
  inferInstanceAs (Decidable (_ ∨ _))

theorem ofCode?_eq_some_iff : ofCode? s = some c ↔ s = c.code := by
  constructor
  · intro found
    have same := List.find?_some found
    exact (of_decide_eq_true same).symm
  · rintro rfl
    exact ofCode?_code c

theorem ofText?_iff_capital : ofText? s = some c ↔ s.toList.map capital = c.code.toList := by
  have upper : c.code.toList.all Char.isUpper = true := by cases c <;> decide
  have apart : c.code.toList.IsChain fun x y => (x, y) ∉ ligatures := by cases c <;> decide
  rw [← flatMap_capitals_iff (List.all_eq_true.mp upper) apart, ofText?, ofCode?_eq_some_iff,
    capitalText, ← String.toList_inj, String.toList_ofList]

theorem sameLetters_iff : SameLetters s c.code ↔ s.toList.map Char.toUpper = c.code.toList := by
  have upper : c.code.toList.map Char.toUpper = c.code.toList := by cases c <;> decide
  rw [SameLetters, upper]

theorem capital_map_iff (long : 'ſ' ∉ s.toList) :
    s.toList.map capital = c.code.toList ↔ SameLetters s c.code := by
  rw [sameLetters_iff]
  by_cases dotless : 'ı' ∈ s.toList
  · have image : capital 'ı' ∉ c.code.toList := by cases c <;> decide
    have kept : 'ı'.toUpper ∉ c.code.toList := by cases c <;> decide
    refine iff_of_false (fun h => image ?_) fun h => kept ?_
    all_goals exact h ▸ List.mem_map_of_mem dotless
  · have plain : s.toList.map capital = s.toList.map Char.toUpper := by
      refine List.map_congr_left fun x mem => ?_
      have notLong : x ≠ 'ſ' := fun same => long (same ▸ mem)
      have notDotless : x ≠ 'ı' := fun same => dotless (same ▸ mem)
      rw [capital, if_neg notLong, if_neg notDotless]
    rw [plain]

theorem capital_eq {x y : Char} (plain : y ≠ 'S' ∧ y ≠ 'I') (h : capital x = y) :
    x = y ∨ x.toNat = y.toNat + 32 := by
  unfold capital at h
  split at h
  · exact absurd h.symm plain.1
  split at h
  · exact absurd h.symm plain.2
  · exact toUpper_eq h

theorem long_iff (long : 'ſ' ∈ s.toList) :
    s.toList.map capital = c.code.toList ↔ c = usd ∧ s ∈ lookalikes := by
  constructor
  · intro h
    have has : capital 'ſ' ∈ c.code.toList := h ▸ List.mem_map_of_mem long
    obtain rfl : c = usd := by revert has; cases c <;> decide
    refine ⟨rfl, ?_⟩
    change s.toList.map capital = ['U', 'S', 'D'] at h
    obtain ⟨x, xs, cut, first, h⟩ := List.map_eq_cons_iff.mp h
    obtain ⟨y, ys, rfl, -, h⟩ := List.map_eq_cons_iff.mp h
    obtain ⟨z, zs, rfl, last, h⟩ := List.map_eq_cons_iff.mp h
    obtain rfl := List.map_eq_nil_iff.mp h
    obtain rfl : y = 'ſ' := by
      have notFirst : x ≠ 'ſ' := by rintro rfl; exact absurd first (by decide)
      have notLast : z ≠ 'ſ' := by rintro rfl; exact absurd last (by decide)
      rw [cut] at long
      simpa [notFirst.symm, notLast.symm, eq_comm] using long
    have u : x = 'U' ∨ x = 'u' := (capital_eq (by decide) first).imp_right char_of_toNat
    have d : z = 'D' ∨ z = 'd' := (capital_eq (by decide) last).imp_right char_of_toNat
    obtain rfl : s = String.ofList [x, 'ſ', z] :=
      String.toList_inj.mp (cut.trans String.toList_ofList.symm)
    rcases u with rfl | rfl <;> rcases d with rfl | rfl <;> decide
  · rintro ⟨rfl, mem⟩
    simp only [lookalikes, List.mem_cons, List.not_mem_nil, or_false] at mem
    rcases mem with rfl | rfl | rfl | rfl <;> decide

theorem ofText?_iff : ofText? s = some c ↔ Spelled s c := by
  rw [ofText?_iff_capital, Spelled]
  by_cases long : 'ſ' ∈ s.toList
  · have other : ¬ SameLetters s c.code := by
      have kept : 'ſ'.toUpper ∉ c.code.toList := by cases c <;> decide
      rw [sameLetters_iff]
      exact fun h => kept (h ▸ List.mem_map_of_mem long)
    simp only [long_iff long, other, false_or]
  · have other : ¬ (c = usd ∧ s ∈ lookalikes) := by
      rintro ⟨-, mem⟩
      simp only [lookalikes, List.mem_cons, List.not_mem_nil, or_false] at mem
      rcases mem with rfl | rfl | rfl | rfl <;> exact long (by decide)
    simp only [capital_map_iff long, other, or_false]

theorem not_sameLetters_of_lookalike (mem : s ∈ lookalikes) : ¬ SameLetters s c.code := by
  simp only [lookalikes, List.mem_cons, List.not_mem_nil, or_false] at mem
  rcases mem with rfl | rfl | rfl | rfl <;> cases c <;> decide

theorem sameLetters_decide_iff :
    (∀ c, ofText? s = some c ↔ SameLetters s c.code) ↔ s ∉ lookalikes := by
  constructor
  · intro decides mem
    have read : ofText? s = some usd := ofText?_iff.mpr (Or.inr ⟨rfl, mem⟩)
    exact not_sameLetters_of_lookalike mem ((decides usd).mp read)
  · intro other c
    rw [ofText?_iff, Spelled, or_iff_left fun h => other h.2]

end Currency

/-! The rows. -/

namespace Sql
open Currency

def corruptCurrency (code : String) : StoreError :=
  .backend s!"corrupt currency column: {unknownMessage code}"

theorem currencyOf_spelled {s : String} {c : Currency} (spelled : Spelled s c) :
    currencyOf s = .ok c := by
  rw [currencyOf, ofText?_iff.mpr spelled]

theorem currencyOf_corrupt {s : String} (other : ∀ c, ¬ Spelled s c) :
    currencyOf s = .error (corruptCurrency s) := by
  have unread : ofText? s = none :=
    Option.eq_none_iff_forall_ne_some.mpr fun c read => other c (ofText?_iff.mp read)
  rw [currencyOf, unread, corruptCurrency]

structure Judges {ρ α : Type} (convert : ρ → Except StoreError α) (column : ρ → String)
    (held : α → Currency) (flaw? : ρ → Option StoreError) : Prop where
  flawed : ∀ {r e}, flaw? r = some e → convert r = .error e
  taken : ∀ {r c}, flaw? r = none → Spelled (column r) c → ∃ a, convert r = .ok a ∧ held a = c
  corrupt : ∀ {r}, flaw? r = none → (∀ c, ¬ Spelled (column r) c) →
    convert r = .error (corruptCurrency (column r))

theorem WalletRecord.toWallet_judges :
    Judges toWallet (·.currency) (·.currency) fun _ => none where
  flawed flaw := nomatch flaw
  taken _ spelled := by
    rw [toWallet, currencyOf_spelled spelled]
    exact ⟨_, rfl, rfl⟩
  corrupt _ other := by
    rw [toWallet, currencyOf_corrupt other]
    rfl

theorem EntryRecord.toEntry_judges :
    Judges toEntry (·.currency) (·.currency) fun _ => none where
  flawed flaw := nomatch flaw
  taken _ spelled := by
    rw [toEntry, currencyOf_spelled spelled]
    exact ⟨_, rfl, rfl⟩
  corrupt _ other := by
    rw [toEntry, currencyOf_corrupt other]
    rfl

def TransactionRecord.keyFlaw? (r : TransactionRecord) : Option StoreError :=
  match keyOf r.key with
  | .ok _ => none
  | .error e => some e

theorem TransactionRecord.toTransaction_judges :
    Judges toTransaction (·.currency) (·.currency) keyFlaw? where
  flawed {r e} flaw := by
    unfold keyFlaw? at flaw
    split at flaw
    · contradiction
    · rename_i bad
      cases flaw
      rw [toTransaction, bad]
      rfl
  taken {r c} sound spelled := by
    unfold keyFlaw? at sound
    split at sound
    · rename_i key good
      rw [toTransaction, good, currencyOf_spelled spelled]
      exact ⟨_, rfl, rfl⟩
    · contradiction
  corrupt {r} sound other := by
    unfold keyFlaw? at sound
    split at sound
    · rename_i key good
      rw [toTransaction, good, currencyOf_corrupt other]
      rfl
    · contradiction

end Sql

/-- A text is read as a currency if and only if it spells its code in letters of ASCII, or is one of
the four that spell `USD` with a long s; so those four are the only texts for which letters of ASCII
do not decide. By the same reading all three kinds of rows are judged. -/
theorem Currency.readings (s : String) :
    (∀ c, Currency.ofText? s = some c ↔ Currency.Spelled s c) ∧
    ((∀ c, Currency.ofText? s = some c ↔ SameLetters s c.code) ↔ s ∉ Currency.lookalikes) ∧
    Sql.Judges Sql.WalletRecord.toWallet (·.currency) (·.currency) (fun _ => none) ∧
    Sql.Judges Sql.TransactionRecord.toTransaction (·.currency) (·.currency)
      Sql.TransactionRecord.keyFlaw? ∧
    Sql.Judges Sql.EntryRecord.toEntry (·.currency) (·.currency) (fun _ => none) :=
  ⟨fun _ => Currency.ofText?_iff, Currency.sameLetters_decide_iff,
    Sql.WalletRecord.toWallet_judges, Sql.TransactionRecord.toTransaction_judges,
    Sql.EntryRecord.toEntry_judges⟩

/-- Letters of ASCII are not all it takes: a row whose currency has a long s becomes a wallet. -/
theorem Currency.ascii_alone_fails :
    ¬ (∀ s c, Currency.ofText? s = some c ↔ SameLetters s c.code) ∧
    ∃ r : Sql.WalletRecord, (∀ c : Currency, ¬ SameLetters r.currency c.code) ∧
      ∃ w, r.toWallet = .ok w := by
  have read : Currency.ofText? "uſd" = some .usd := by decide
  constructor
  · intro reads
    exact absurd ((reads "uſd" .usd).mp read) (by decide)
  · refine ⟨⟨.nil, .nil, .savings, "uſd", .zero, ⟨.epoch, 0⟩, ⟨.epoch, 0⟩⟩, ?_, ?_⟩
    · intro c
      cases c <;> decide
    · rw [Sql.WalletRecord.toWallet, Sql.currencyOf, read]
      exact ⟨_, rfl⟩

end WalletLedger
