import WalletLedger.Json.Printer
import WalletLedger.Json.Reader
import WalletLedger.Proofs.Numeral

/-!
Printed JSON. Whatever a value holds between its quotes, brackets and braces, its text is read as
that value and nothing else.
-/
namespace WalletLedger

/-! Strings. -/

namespace Quoted
variable {a b c d : Char} {n : Nat} {tail : List Char}

/-- An escaped number that is no half of a surrogate pair does not care what follows it. -/
theorem decode_unicode (tail : List Char) (word : hexWord? a b c d = some n) (low : n < 0xD800) :
    decode ('\\' :: 'u' :: a :: b :: c :: d :: tail) = (decode tail).map (push (Char.ofNat n)) := by
  have noHigh : ¬ (0xD800 ≤ n ∧ n < 0xDC00) := by omega
  have noLow : ¬ (0xDC00 ≤ n ∧ n < 0xE000) := by omega
  have noHalf : ¬ (0xD800 ≤ n ∧ n < 0xE000) := by omega
  rw [decode.eq_def]
  split
  · contradiction
  · rename_i same
    exact absurd (List.cons.inj same).1 (by decide)
  · rename_i same
    simp only [List.cons.injEq] at same
    obtain ⟨-, -, rfl, rfl, rfl, rfl, rfl⟩ := same
    rw [word]
    simp only [if_neg noHigh, if_neg noLow]
  · rename_i same
    simp only [List.cons.injEq] at same
    obtain ⟨-, -, rfl, rfl, rfl, rfl, rfl⟩ := same
    rw [word]
    simp only [if_neg noHalf]
  · rename_i other same
    obtain ⟨-, same⟩ := List.cons.inj same
    obtain ⟨first, after⟩ := List.cons.inj same
    exact (other a b c d tail first.symm after.symm).elim
  · rename_i other same
    obtain ⟨rfl, rfl⟩ := List.cons.inj same
    exact (other 'u' _ rfl rfl).elim

theorem decode_short {e c : Char} (short : unescape? e = some c) :
    decode ('\\' :: e :: tail) = (decode tail).map (push c) := by
  have other : e ≠ 'u' := by
    rintro rfl
    contradiction
  rw [decode]
  · rw [short]
  all_goals intros; simp_all

theorem decode_plain {c : Char} (quote : c ≠ '"') (slash : c ≠ '\\')
    (printable : ¬ c.toNat < 0x20) :
    decode (c :: tail) = (decode tail).map (push c) := by
  rw [decode, if_neg printable]
  all_goals intros; simp_all

theorem hexWord?_control : ∀ n < 0x20,
    hexWord? '0' '0' (hexChar (n / 16)) (hexChar (n % 16)) = some n := by decide

theorem decode_escape (c : Char) (tail : List Char) :
    decode (escape c ++ tail) = (decode tail).map (push c) := by
  unfold escape
  split
  case h_8 quote slash _ _ _ _ _ =>
    split
    · rename_i control
      have word := decode_unicode tail (hexWord?_control c.toNat control) (by omega)
      rwa [Char.ofNat_toNat] at word
    · rename_i printable
      exact decode_plain quote slash printable
  all_goals exact decode_short rfl

theorem decode_flatMap_escape (cs rest : List Char) :
    decode (cs.flatMap escape ++ '"' :: rest) = some (some cs, rest) := by
  induction cs with
  | nil => rw [List.flatMap_nil, List.nil_append, decode]
  | cons c cs ih =>
    rw [List.flatMap_cons, List.append_assoc, decode_escape, ih]
    rfl

end Quoted

namespace Json
variable {rest : List Char}

/-- Values whose text says what they are: no number with a fraction, whose digits may be written in
other ways, and no string that names no text. -/
inductive Legible : Json → Prop
  | null : Legible null
  | bool (b : Bool) : Legible (bool b)
  | integer (n : Int) : Legible (integer n)
  | text (s : String) : Legible (text s)
  | array {items : List Json} (each : ∀ j ∈ items, Legible j) : Legible (array items)
  | object {members : List (Option String × Json)} (named : ∀ m ∈ members, m.1.isSome = true)
      (each : ∀ m ∈ members, Legible m.2) : Legible (object members)

def Delimited (rest : List Char) : Prop := ∀ c ∈ rest.head?, c = ',' ∨ c = ']' ∨ c = '}'

theorem Delimited.nil : Delimited [] := nofun

theorem Delimited.cons {c : Char} (delimiter : c = ',' ∨ c = ']' ∨ c = '}') :
    Delimited (c :: rest) := by
  intro d mem
  obtain rfl : c = d := Option.some.inj mem
  exact delimiter

theorem skipSpace_cons {c : Char} (solid : isSpace c = false) :
    skipSpace (c :: rest) = c :: rest := by
  simp [skipSpace, solid]

/-! Integers. -/

theorem splitDigits_append {ds : List Char} (digits : ∀ c ∈ ds, c.isDigit = true)
    (ends : Delimited rest) : splitDigits (ds ++ rest) = (ds, rest) := by
  have all : ∀ c ∈ ds, isDigit c = true := fun c mem => by
    simpa [isDigit] using isDigit_iff.mp (digits c mem)
  have stop : rest.takeWhile isDigit = [] ∧ rest.dropWhile isDigit = rest := by
    cases rest with
    | nil => exact ⟨rfl, rfl⟩
    | cons c cs =>
      have no : isDigit c = false := by
        rcases ends c rfl with rfl | rfl | rfl <;> rfl
      exact ⟨List.takeWhile_cons_of_neg (by simp [no]), List.dropWhile_cons_of_neg (by simp [no])⟩
  rw [splitDigits, List.takeWhile_append_of_pos all, List.dropWhile_append_of_pos all, stop.1,
    stop.2, List.append_nil]

theorem head?_digitChars {n : Nat} (zero : (digitChars n).head? = some '0') : n = 0 := by
  induction n using Nat.strongRecOn with
  | ind n ih =>
    rw [digitChars, Nat.toDigits_eq_if (by decide)] at zero
    split at zero
    · rw [List.head?_cons, Option.some.injEq, Nat.digitChar_eq_zero] at zero
      exact zero
    · rename_i large
      rw [List.head?_append, Option.or_of_isSome (by simp [Nat.toDigits_ne_nil])] at zero
      have := ih (n / 10) (by omega) zero
      omega

theorem readNumber?_digitChars (negative : Bool) (n : Nat) (ends : Delimited rest)
    (signed : negative = true → n ≠ 0) :
    readNumber? negative (digitChars n ++ rest) =
      some (integer (if negative then -(n : Int) else n), rest) := by
  have digits : ∀ c ∈ digitChars n, c.isDigit = true := fun _ => isDigit_of_mem_digitChars
  have some_ : digitChars n ≠ [] := Nat.toDigits_ne_nil
  have value : readNat? (digitChars n) = some n := by
    rw [readNat?_of_digits some_ digits]
    exact congrArg some Nat.ofDigitChars_ten_toDigits
  have plainly : ¬ ((digitChars n).head? = some '0' ∧ 1 < (digitChars n).length) := by
    rintro ⟨zero, long⟩
    obtain rfl := head?_digitChars zero
    exact absurd long (by decide)
  have whole : readNumber?.plain negative n (digitChars n) [] false =
      integer (if negative then -(n : Int) else n) := by
    rw [readNumber?.plain, if_neg]
    rintro (point | ⟨minus, zero⟩)
    · contradiction
    · exact signed minus zero
  rw [readNumber?, splitDigits_append digits ends]
  simp only [value, Option.bind_eq_bind, Option.bind_some, if_neg plainly]
  cases rest with
  | nil => simp [whole]
  | cons c cs => rcases ends c rfl with rfl | rfl | rfl <;> simp [whole]

theorem digitChars_eq_cons (n : Nat) : ∃ d ds, digitChars n = d :: ds ∧ d.isDigit = true :=
  exists_digit_cons Nat.toDigits_ne_nil fun _ => isDigit_of_mem_digitChars

theorem isSpace_of_isDigit {d : Char} (digit : d.isDigit = true) : isSpace d = false := by
  simp only [isSpace, Bool.or_eq_false_iff, decide_eq_false_iff_not]
  refine ⟨⟨⟨?_, ?_⟩, ?_⟩, ?_⟩
  all_goals
    rintro rfl
    contradiction

theorem readValue?_digit {fuel : Nat} {d : Char} (digit : d.isDigit = true) :
    readValue? (fuel + 1) (d :: rest) = readNumber? false (d :: rest) := by
  rw [readValue?, skipSpace_cons (isSpace_of_isDigit digit)]
  split
  case h_8 => rfl
  all_goals
    rename_i same
    rw [(List.cons.inj same).1] at digit
    contradiction

theorem readValue?_integer {fuel : Nat} (n : Int) (ends : Delimited rest) :
    readValue? (fuel + 1) (integerChars n ++ rest) = some (integer n, rest) := by
  rw [integerChars]
  split
  · have minus : isSpace '-' = false := rfl
    have signed : -(n.natAbs : Int) = n := by omega
    have number := readNumber?_digitChars true n.natAbs ends fun _ => by omega
    rw [List.cons_append, readValue?, skipSpace_cons minus]
    simp only [number, if_true, signed]
  · have unsigned : (n.natAbs : Int) = n := by omega
    have number := readNumber?_digitChars false n.natAbs ends nofun
    obtain ⟨d, ds, cut, digit⟩ := digitChars_eq_cons n.natAbs
    rw [cut, List.cons_append] at number ⊢
    rw [readValue?_digit digit, number, if_neg Bool.false_ne_true, unsigned]

/-! Values. Their text begins with a character that tells what they are. -/

theorem print_eq_cons {j : Json} (legible : Legible j) :
    ∃ c cs, print j = c :: cs ∧ isSpace c = false ∧ c ≠ ']' := by
  cases legible with
  | null => exact ⟨_, _, rfl, rfl, by decide⟩
  | bool b => cases b <;> exact ⟨_, _, rfl, rfl, by decide⟩
  | integer n =>
    rw [print, integerChars]
    split
    · exact ⟨_, _, rfl, rfl, by decide⟩
    · obtain ⟨d, ds, cut, digit⟩ := digitChars_eq_cons n.natAbs
      refine ⟨d, ds, cut, isSpace_of_isDigit digit, ?_⟩
      rintro rfl
      contradiction
  | text s => exact ⟨_, _, rfl, rfl, by decide⟩
  | array each =>
    rw [print]
    exact ⟨_, _, rfl, rfl, by decide⟩
  | object named each =>
    rw [print]
    exact ⟨_, _, rfl, rfl, by decide⟩

theorem encode_append (cs : List Char) :
    Quoted.encode cs ++ rest = '"' :: (cs.flatMap Quoted.escape ++ '"' :: rest) := by
  simp [Quoted.encode]

theorem readValue?_text {fuel : Nat} (s : String) :
    readValue? (fuel + 1) (Quoted.encode s.toList ++ rest) = some (text s, rest) := by
  have quote : isSpace '"' = false := rfl
  rw [encode_append, readValue?, skipSpace_cons quote]
  simp only [Quoted.decode_flatMap_escape, Option.map_some, String.ofList_toList, Option.getD_some]

structure Reads (fuel : Nat) : Prop where
  value : ∀ {j rest}, Legible j → Delimited rest → 2 * (print j ++ rest).length ≤ fuel →
    readValue? fuel (print j ++ rest) = some (j, rest)
  items : ∀ {items} (rest), items ≠ [] → (∀ j ∈ items, Legible j) →
    2 * (printItems items ++ ']' :: rest).length < fuel →
    readItems? fuel (printItems items ++ ']' :: rest) = some (items, rest)
  members : ∀ {members} (rest), members ≠ [] → (∀ m ∈ members, m.1.isSome = true) →
    (∀ m ∈ members, Legible m.2) → 2 * (printMembers members ++ '}' :: rest).length < fuel →
    readMembers? fuel (printMembers members ++ '}' :: rest) = some (members, rest)

theorem Reads.zero : Reads 0 where
  value legible _ room := by
    obtain ⟨c, cs, cut, -⟩ := print_eq_cons legible
    simp [cut] at room
  items _ _ _ room := absurd room (Nat.not_lt_zero _)
  members _ _ _ _ room := absurd room (Nat.not_lt_zero _)

/-! One item, then the bracket or the rest of the items; and so with members. -/

variable {fuel : Nat} {j : Json}

theorem readItems?_last (read : readValue? fuel (print j ++ ']' :: rest) = some (j, ']' :: rest)) :
    readItems? (fuel + 1) (print j ++ ']' :: rest) = some ([j], rest) := by
  have bracket : isSpace ']' = false := rfl
  rw [readItems?, read]
  simp only [skipSpace_cons bracket]

theorem readItems?_next {js : List Json} {tail : List Char}
    (read : readValue? fuel (print j ++ ',' :: tail) = some (j, ',' :: tail))
    (after : readItems? fuel tail = some (js, rest)) :
    readItems? (fuel + 1) (print j ++ ',' :: tail) = some (j :: js, rest) := by
  have comma : isSpace ',' = false := rfl
  rw [readItems?, read]
  simp only [skipSpace_cons comma, after, Option.map_some]

theorem readMembers?_last {k : String}
    (read : readValue? fuel (print j ++ '}' :: rest) = some (j, '}' :: rest)) :
    readMembers? (fuel + 1) (Quoted.encode k.toList ++ ':' :: (print j ++ '}' :: rest)) =
      some ([(some k, j)], rest) := by
  have quote : isSpace '"' = false := rfl
  have colon : isSpace ':' = false := rfl
  have brace : isSpace '}' = false := rfl
  rw [encode_append, readMembers?, skipSpace_cons quote]
  simp only [Quoted.decode_flatMap_escape, skipSpace_cons colon, read, skipSpace_cons brace,
    Option.map_some, String.ofList_toList]

theorem readMembers?_next {k : String} {ms : List (Option String × Json)} {tail : List Char}
    (read : readValue? fuel (print j ++ ',' :: tail) = some (j, ',' :: tail))
    (after : readMembers? fuel tail = some (ms, rest)) :
    readMembers? (fuel + 1) (Quoted.encode k.toList ++ ':' :: (print j ++ ',' :: tail)) =
      some ((some k, j) :: ms, rest) := by
  have quote : isSpace '"' = false := rfl
  have colon : isSpace ':' = false := rfl
  have comma : isSpace ',' = false := rfl
  rw [encode_append, readMembers?, skipSpace_cons quote]
  simp only [Quoted.decode_flatMap_escape, skipSpace_cons colon, read, skipSpace_cons comma, after,
    Option.map_some, String.ofList_toList]

/-! What is inside of brackets and braces. -/

theorem printItems_cons_cons (j i : Json) (js : List Json) :
    printItems (j :: i :: js) = print j ++ ',' :: printItems (i :: js) := by
  rw [printItems]
  nofun

theorem printMembers_cons_cons (k : String) (j : Json) (m : Option String × Json)
    (ms : List (Option String × Json)) :
    printMembers ((some k, j) :: m :: ms) =
      Quoted.encode k.toList ++ ':' :: (print j ++ ',' :: printMembers (m :: ms)) := by
  rw [printMembers]
  · simp
  · nofun

theorem printItems_eq_cons (js : List Json) (legible : Legible j) :
    ∃ c cs, printItems (j :: js) = c :: cs ∧ isSpace c = false ∧ c ≠ ']' := by
  obtain ⟨c, cs, cut, solid, other⟩ := print_eq_cons legible
  cases js with
  | nil => exact ⟨c, cs, by rw [printItems, cut], solid, other⟩
  | cons i js => exact ⟨c, _, by rw [printItems_cons_cons, cut]; rfl, solid, other⟩

theorem printMembers_eq_cons (m : Option String × Json) (ms : List (Option String × Json)) :
    ∃ cs, printMembers (m :: ms) = '"' :: cs := by
  cases ms <;> exact ⟨_, rfl⟩

theorem readValue?_array {js : List Json} (legible : Legible j) :
    readValue? (fuel + 1) ('[' :: (printItems (j :: js) ++ rest)) =
      (readItems? fuel (printItems (j :: js) ++ rest)).map fun p => (array p.1, p.2) := by
  have bracket : isSpace '[' = false := rfl
  obtain ⟨c, cs, cut, solid, other⟩ := printItems_eq_cons js legible
  rw [cut, List.cons_append, readValue?, skipSpace_cons bracket]
  simp only [skipSpace_cons solid]
  split
  · rename_i same
    exact absurd (List.cons.inj same).1 other
  · rfl

theorem readValue?_object {m : Option String × Json} {ms : List (Option String × Json)} :
    readValue? (fuel + 1) ('{' :: (printMembers (m :: ms) ++ rest)) =
      (readMembers? fuel (printMembers (m :: ms) ++ rest)).map fun p => (object p.1, p.2) := by
  obtain ⟨cs, cut⟩ := printMembers_eq_cons m ms
  rw [cut]
  rfl

/-! One more unit of fuel. -/

theorem Reads.value_succ (ih : Reads fuel) (legible : Legible j) (ends : Delimited rest)
    (room : 2 * (print j ++ rest).length ≤ fuel + 1) :
    readValue? (fuel + 1) (print j ++ rest) = some (j, rest) := by
  cases legible with
  | null => rfl
  | bool b => cases b <;> rfl
  | integer n =>
    rw [print]
    exact readValue?_integer n ends
  | text s =>
    rw [print]
    exact readValue?_text s
  | @array items each =>
    cases items with
    | nil => rfl
    | cons j js =>
      rw [print, List.append_assoc, List.cons_append] at room ⊢
      rw [List.singleton_append] at room ⊢
      have inside := ih.items rest (List.cons_ne_nil j js) each
        (by rw [List.length_cons] at room; omega)
      rw [readValue?_array (each j List.mem_cons_self), inside, Option.map_some]
  | @object members named each =>
    cases members with
    | nil => rfl
    | cons m ms =>
      rw [print, List.append_assoc, List.cons_append] at room ⊢
      rw [List.singleton_append] at room ⊢
      have inside := ih.members rest (List.cons_ne_nil m ms) named each
        (by rw [List.length_cons] at room; omega)
      rw [readValue?_object, inside, Option.map_some]

theorem Reads.items_succ (ih : Reads fuel) {items : List Json} (rest : List Char)
    (some_ : items ≠ []) (each : ∀ j ∈ items, Legible j)
    (room : 2 * (printItems items ++ ']' :: rest).length < fuel + 1) :
    readItems? (fuel + 1) (printItems items ++ ']' :: rest) = some (items, rest) := by
  match items, some_ with
  | [j], _ =>
    rw [printItems] at room ⊢
    have delimited : Delimited (']' :: rest) := .cons (.inr (.inl rfl))
    exact readItems?_last (ih.value (each j List.mem_cons_self) delimited (by omega))
  | j :: j' :: js, _ =>
    rw [printItems_cons_cons, List.append_assoc, List.cons_append] at room ⊢
    refine readItems?_next (ih.value (each j List.mem_cons_self) (.cons (.inl rfl)) (by omega))
      (ih.items rest (List.cons_ne_nil j' js) (fun i mem => each i (List.mem_cons_of_mem _ mem)) ?_)
    simp only [List.length_append, List.length_cons] at room ⊢
    omega

theorem Reads.members_succ (ih : Reads fuel) {members : List (Option String × Json)}
    (rest : List Char) (some_ : members ≠ []) (named : ∀ m ∈ members, m.1.isSome = true)
    (each : ∀ m ∈ members, Legible m.2)
    (room : 2 * (printMembers members ++ '}' :: rest).length < fuel + 1) :
    readMembers? (fuel + 1) (printMembers members ++ '}' :: rest) = some (members, rest) := by
  match members, some_ with
  | [(k, j)], _ =>
    obtain ⟨k, rfl⟩ := Option.isSome_iff_exists.mp (named _ List.mem_cons_self)
    rw [printMembers, List.append_assoc, List.cons_append] at room ⊢
    refine readMembers?_last (ih.value (each _ List.mem_cons_self) (.cons (.inr (.inr rfl))) ?_)
    simp only [List.length_append, List.length_cons] at room ⊢
    omega
  | (k, j) :: m :: ms, _ =>
    obtain ⟨k, rfl⟩ := Option.isSome_iff_exists.mp (named _ List.mem_cons_self)
    rw [printMembers_cons_cons, List.append_assoc, List.cons_append, List.append_assoc,
      List.cons_append] at room ⊢
    refine readMembers?_next (ih.value (each _ List.mem_cons_self) (.cons (.inl rfl)) ?_)
      (ih.members rest (List.cons_ne_nil m ms) (fun i mem => named i (List.mem_cons_of_mem _ mem))
        (fun i mem => each i (List.mem_cons_of_mem _ mem)) ?_)
    all_goals
      simp only [List.length_append, List.length_cons] at room ⊢
      omega

theorem reads (fuel : Nat) : Reads fuel := by
  induction fuel with
  | zero => exact .zero
  | succ fuel ih => exact ⟨ih.value_succ, ih.items_succ, ih.members_succ⟩

/-- Printing loses nothing, and twice the length of the text is fuel enough to see that. -/
theorem ofText?_toText {j : Json} (legible : Legible j) : ofText? j.toText = some j := by
  have read := (reads (2 * (print j).length + 2)).value legible Delimited.nil (by simp)
  rw [List.append_nil] at read
  rw [ofText?, toText, String.toList_ofList, read?, read]
  rfl

end Json

end WalletLedger
