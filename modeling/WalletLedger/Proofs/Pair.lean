import WalletLedger.Proofs.Lookup
import WalletLedger.Proofs.Rules
import WalletLedger.WalletPair

/-! The pair of a transfer, and the two roles read off the locked rows. -/
namespace WalletLedger

theorem Identifier.lt_of_ne_of_not_lt {a b : Identifier} (ne : a ≠ b) (h : ¬a < b) : b < a := by
  have values : a.value ≠ b.value := fun same => ne (Identifier.ext same)
  have h : ¬a.value < b.value := h
  show b.value < a.value
  omega

namespace WalletPair
variable {a b : WalletId} {p : WalletPair} {books : Books}

theorem of_distinct (ne : a ≠ b) :
    ∃ p, WalletPair.of a b = .ok p ∧ (p.ids = [a, b] ∨ p.ids = [b, a]) := by
  unfold WalletPair.of
  by_cases first : a < b
  · exact ⟨⟨a, b, first⟩, by simp [first], Or.inl rfl⟩
  · have second := Identifier.lt_of_ne_of_not_lt ne first
    exact ⟨⟨b, a, second⟩, by simp [first, second], Or.inr rfl⟩

theorem ids_of (ne : a ≠ b) (h : WalletPair.of a b = .ok p) : p.ids = [a, b] ∨ p.ids = [b, a] := by
  obtain ⟨q, made, ids⟩ := of_distinct ne
  cases made.symm.trans h
  exact ids

theorem resolve_rows (ne : a ≠ b) (ids : p.ids = [a, b] ∨ p.ids = [b, a]) :
    p.resolve (p.ids.filterMap books.wallet?) a b =
      match books.wallet? a, books.wallet? b with
      | none, _ => .error (.walletNotFound a)
      | some _, none => .error (.walletNotFound b)
      | some s, some q => .ok (s, q) := by
  have members : p.contains a ∧ p.contains b := by
    simp only [WalletPair.ids] at ids
    rcases ids with ids | ids <;> cases ids <;> simp [contains]
  have ne' : ¬b = a := fun same => ne same.symm
  unfold resolve
  simp only [ne, members.1, members.2, Bool.not_true, Bool.false_eq_true, or_self, if_false]
  cases hs : books.wallet? a with
  | none =>
    cases hq : books.wallet? b with
    | none => rcases ids with ids | ids <;> simp [ids, hs, hq, assign]
    | some q =>
      have idq := Books.wallet?_id hq
      rcases ids with ids | ids <;> simp [ids, hs, hq, assign, idq, ne']
  | some s =>
    have ids' := Books.wallet?_id hs
    cases hq : books.wallet? b with
    | none => rcases ids with ids | ids <;> simp [ids, hs, hq, assign, ids']
    | some q =>
      have idq := Books.wallet?_id hq
      rcases ids with ids | ids <;> simp [ids, hs, hq, assign, ids', idq, ne']

end WalletPair

end WalletLedger
