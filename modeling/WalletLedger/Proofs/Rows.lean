import WalletLedger.Proofs.Course
import WalletLedger.Sql.Database

/-!
Rows and records. What a row is made of is read back from it, and a record that is made from the
ledger's own one means just that one.
-/
namespace WalletLedger.Sql

theorem currencyOf_code (c : Currency) : currencyOf c.code = .ok c := by
  have read : Currency.ofText? c.code = some c := by cases c <;> decide
  rw [currencyOf, read]

theorem UserRecord.ofRow_row (r : UserRecord) : ofRow r.row = .ok r := rfl

namespace WalletRecord

theorem ofRow_row (r : WalletRecord) : ofRow r.row = .ok r := by
  obtain ⟨id, owner, kind, currency, balance, createdAt, updatedAt⟩ := r
  cases kind <;> rfl

theorem toWallet_of (w : Wallet) : (of w).toWallet = .ok w := by
  simp only [toWallet, of, currencyOf_code]
  rfl

end WalletRecord

namespace TransactionRecord

theorem ofRow_row (r : TransactionRecord) : ofRow r.row = .ok r := by
  obtain ⟨id, sender, receiver, amount, currency, kind, description, status, key, createdAt,
    updatedAt⟩ := r
  cases kind <;> cases description <;> cases status <;> rfl

theorem toTransaction_of {t : Transaction} (keyed : IdempotencyKey.check t.key.text = .ok t.key) :
    (of t).toTransaction = .ok t := by
  have key : keyOf t.key.text = .ok t.key := by rw [keyOf, keyed]
  simp only [toTransaction, of, key, currencyOf_code]
  rfl

end TransactionRecord

namespace EntryRecord

theorem ofRow_row (r : EntryRecord) : ofRow r.row = .ok r := by
  obtain ⟨id, wallet, transaction, amount, kind, currency, before, after, createdAt⟩ := r
  cases kind <;> rfl

theorem toEntry_of (e : Entry) : (of e).toEntry = .ok e := by
  simp only [toEntry, of, currencyOf_code]
  rfl

end EntryRecord

/-! What replies come to whose rows are made from records. -/

namespace Reply
variable {ρ α : Type} {ofRow : Row → Except Failure ρ} {convert : ρ → Except StoreError α}
  {row : ρ → Row} {of : α → ρ} {n : Nat}

theorem record_row (reads : ∀ r, ofRow (row r) = .ok r) (found : Option ρ) :
    Reply.record ofRow (.ok ⟨found.toList.map row, n⟩) = .ok found := by
  cases found with
  | none => rfl
  | some r =>
    show ((ofRow (row r)).map some).mapError Failure.classify = _
    rw [reads]
    rfl

theorem first_row (reads : ∀ r, ofRow (row r) = .ok r) (found : Option α)
    (means : ∀ a, found = some a → convert (of a) = .ok a) :
    Reply.first ofRow convert (.ok ⟨(found.map of).toList.map row, n⟩) = .ok found := by
  rw [Reply.first, record_row reads]
  cases found with
  | none => rfl
  | some a => simp only [Option.map_some, means a rfl, Except.map]

theorem given_row (reads : ∀ r, ofRow (row r) = .ok r) {a : α} (means : convert (of a) = .ok a) :
    Reply.given ofRow convert (.ok ⟨[row (of a)], n⟩) = .ok a := by
  have first := first_row (n := n) reads (some a) fun x same => by
    cases same
    exact means
  rw [Reply.given]
  simp only [Option.map_some, Option.toList_some, List.map_cons, List.map_nil] at first
  rw [first]

theorem transactionRow_row (id : TransactionId) (r : TransactionRecord) :
    Reply.transactionRow id (.ok ⟨[r.row], n⟩) = .ok r := by
  have record := record_row (n := n) TransactionRecord.ofRow_row (some r)
  simp only [Option.toList_some, List.map_cons, List.map_nil] at record
  rw [Reply.transactionRow, record]

theorem all_rows (reads : ∀ r, ofRow (row r) = .ok r) (found : List α)
    (means : ∀ a ∈ found, convert (of a) = .ok a) :
    Reply.all ofRow convert (.ok ⟨(found.map of).map row, n⟩) = .ok found := by
  have records : ∀ rs : List ρ, (rs.map row).mapM ofRow = .ok rs := by
    intro rs
    induction rs with
    | nil => rfl
    | cons r rs ih => simp only [List.map_cons, List.mapM_cons, reads, ih]; rfl
  have meant : (found.map of).mapM convert = .ok found := by
    induction found with
    | nil => rfl
    | cons a rest ih =>
      simp only [List.map_cons, List.mapM_cons, means a (List.mem_cons_self ..),
        ih fun b mem => means b (List.mem_cons_of_mem _ mem)]
      rfl
  rw [Reply.all]
  show ((((found.map of).map row).mapM ofRow).mapError Failure.classify).bind _ = _
  rw [records]
  exact meant

end Reply

end WalletLedger.Sql
