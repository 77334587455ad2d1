import WalletLedger.Proofs.Procedure
import WalletLedger.Proofs.Rules

/-!
What is true of books that grew by opening wallets and posting transfers: keys and transactions
belong together one to one, identifiers do not repeat, and nobody owes the ledger.
-/
namespace WalletLedger

namespace Amount

theorem fit_not_negative {c : Int} {s : Nat} {a : Amount} (h : fit c s = some a) (pos : 0 ≤ c) :
    ¬a.IsNegative := by
  obtain ⟨dropped, -, found⟩ := List.exists_of_findSome?_eq_some h
  unfold ofParts? at found
  split at found
  · cases found
    have sign : 0 ≤ c.sign := Int.sign_nonneg_iff.mpr pos
    exact Int.not_lt.mpr (Int.mul_nonneg sign (Int.natCast_nonneg _))
  · contradiction

theorem atScale_nonneg {a : Amount} (owed : ¬a.IsNegative) (s : Nat) : 0 ≤ a.atScale s :=
  Int.mul_nonneg (Int.not_lt.mp owed) (Int.natCast_nonneg _)

theorem add?_not_negative {a b c : Amount} (h : a.add? b = some c) (ha : ¬a.IsNegative)
    (hb : ¬b.IsNegative) : ¬c.IsNegative := by
  unfold add? at h
  split at h
  · cases h; exact hb
  · split at h
    · cases h; exact ha
    · exact fit_not_negative h (Int.add_nonneg (atScale_nonneg ha _) (atScale_nonneg hb _))

end Amount

namespace Books
variable {b : Books} {r : TransferRequest} {d : Draw} {s q w : Wallet} {t : Transaction}
  {p : TransferPlan} {key : IdempotencyKey}

theorem apart_of_valid (valid : r.validate = .ok ()) (sender : b.wallet? r.sender = some s)
    (receiver : b.wallet? r.receiver = some q) : s.id ≠ q.id := by
  rw [wallet?_id sender, wallet?_id receiver]
  exact TransferRequest.distinct_of_valid valid

theorem Postable.apart (h : b.Postable r d s q t p) : s.id ≠ q.id :=
  apart_of_valid h.valid h.sender h.receiver

theorem Postable.posted_sender (h : b.Postable r d s q t p) (now : Timestamp) :
    s.posted p now = { s with balance := p.senderBalance, updatedAt := now } := by
  rw [Wallet.posted, if_pos ((wallet?_id h.sender).trans h.parties.1.symm)]

theorem Postable.posted_receiver (h : b.Postable r d s q t p) (now : Timestamp) :
    q.posted p now = { q with balance := p.receiverBalance, updatedAt := now } := by
  have other : q.id ≠ p.debit.wallet := by
    rw [h.parties.1, ← wallet?_id h.sender]
    exact h.apart.symm
  rw [Wallet.posted, if_neg other, if_pos ((wallet?_id h.receiver).trans h.parties.2.symm)]

theorem Postable.balances_owed (h : b.Postable r d s q t p)
    (owed : ∀ w ∈ b.wallets, ¬w.balance.IsNegative) :
    ¬p.senderBalance.IsNegative ∧ ¬p.receiverBalance.IsNegative := by
  obtain ⟨sent, received, -, sum, left, -, -, rfl⟩ := h.plan_eq
  have positive := TransferRequest.amount_positive h.valid
  exact ⟨left, Amount.add?_not_negative sum (owed q (wallet?_mem h.receiver))
    (Int.not_lt.mpr (Int.le_of_lt positive))⟩

theorem Grown.owed (h : b.Grown) : ∀ w ∈ b.wallets, ¬w.balance.IsNegative := by
  induction h with
  | empty => intro w mem; simp at mem
  | opened old new owed scaled free ih =>
    intro w mem
    rcases List.mem_append.mp mem with mem | mem
    · exact ih w mem
    · rw [List.mem_singleton.mp mem]; exact owed
  | posted old postable new ih =>
    intro w mem
    obtain ⟨x, there, rfl⟩ := List.mem_map.mp mem
    obtain ⟨left, received⟩ := postable.balances_owed ih
    exact Wallet.balance_posted (¬·.IsNegative) left received (ih x there)

theorem Grown.keys_eq (h : b.Grown) : b.keys = b.transactions.map fun t => (t.key, t.id) := by
  induction h with
  | empty => rfl
  | opened old new owed scaled free ih => exact ih
  | posted old postable new ih =>
    simp only [post, List.map_append, ih]
    rfl

theorem Grown.hasKey_iff (grown : b.Grown) :
    b.hasKey key = true ↔ ∃ t ∈ b.transactions, t.key = key := by
  rw [hasKey, grown.keys_eq, Table.has_iff]
  constructor
  · rintro ⟨entry, mem, same⟩
    obtain ⟨t, there, rfl⟩ := List.mem_map.mp mem
    exact ⟨t, there, same⟩
  · rintro ⟨t, there, same⟩
    exact ⟨(t.key, t.id), List.mem_map.mpr ⟨t, there, rfl⟩, same⟩

theorem Grown.hasKey_false_iff (grown : b.Grown) :
    b.hasKey key = false ↔ ∀ t ∈ b.transactions, t.key ≠ key := by
  rw [← Bool.not_eq_true, grown.hasKey_iff]
  simp

theorem Postable.key_eq (h : b.Postable r d s q t p) : t.key = r.key := by
  rw [h.pending]
  rfl

theorem Grown.transactions_distinct (h : b.Grown) : (b.transactions.map (·.id)).Nodup := by
  induction h with
  | empty => exact List.nodup_nil
  | opened old new owed scaled free ih => exact ih
  | posted old postable new ih => exact Table.nodup_append_new ih (Table.find?_none_iff.mp new)

theorem Grown.keys_distinct (h : b.Grown) : (b.transactions.map (·.key)).Nodup := by
  induction h with
  | empty => exact List.nodup_nil
  | opened old new owed scaled free ih => exact ih
  | posted old postable new ih =>
    apply Table.nodup_append_new ih
    intro u mem same
    exact old.hasKey_false_iff.mp postable.absent u mem (same.trans postable.key_eq)

theorem Grown.wallets_distinct (h : b.Grown) : (b.wallets.map (·.id)).Nodup := by
  induction h with
  | empty => exact List.nodup_nil
  | opened old new owed scaled free ih =>
    exact Table.nodup_append_new ih (Table.find?_none_iff.mp new)
  | @posted b r d s q t p old postable new ih =>
    have same : (b.wallets.map (·.posted p d.committed)).map (·.id) = b.wallets.map (·.id) := by
      simp
    simpa only [post, same] using ih

theorem Grown.wallet?_of_mem (grown : b.Grown) (mem : w ∈ b.wallets) : b.wallet? w.id = some w :=
  Table.find?_of_mem grown.wallets_distinct mem

theorem Grown.owners_eq (h : b.Grown) : b.owners = b.wallets.map fun w => (w.owner, w.kind) := by
  induction h with
  | empty => rfl
  | opened old new owed scaled free ih =>
    simp only [withWallet, List.map_append, ih, List.map_cons, List.map_nil]
  | @posted b r d s q t p old postable new ih =>
    simp only [post, List.map_map, ih]
    refine List.map_congr_left fun w _ => ?_
    obtain ⟨balance, updated, posted⟩ := w.posted_eq p d.committed
    simp only [Function.comp_apply, posted]

theorem Postable.posted_cases (h : b.Postable r d s q t p) (grown : b.Grown) (mem : w ∈ b.wallets)
    (now : Timestamp) :
    (w = s ∧ w.posted p now = { s with balance := p.senderBalance, updatedAt := now }) ∨
      (w = q ∧ w.posted p now = { q with balance := p.receiverBalance, updatedAt := now }) ∨
      (w.id ≠ r.sender ∧ w.id ≠ r.receiver ∧ w.posted p now = w) := by
  have found := grown.wallet?_of_mem mem
  obtain ⟨debited, credited⟩ := h.parties
  by_cases sender : w.id = r.sender
  · cases (sender ▸ found).symm.trans h.sender
    exact Or.inl ⟨rfl, h.posted_sender now⟩
  · by_cases receiver : w.id = r.receiver
    · cases (receiver ▸ found).symm.trans h.receiver
      exact Or.inr (Or.inl ⟨rfl, h.posted_receiver now⟩)
    · refine Or.inr (Or.inr ⟨sender, receiver, Wallet.posted_other ?_ ?_⟩)
      · rwa [debited]
      · rwa [credited]

theorem Grown.entries_owned (h : b.Grown) :
    ∀ e ∈ b.entries, ∃ t ∈ b.transactions, t.id = e.transaction := by
  induction h with
  | empty => exact fun _ => List.not_mem_nil.elim
  | opened old new owed scaled free ih => exact ih
  | @posted b r d s q t p old postable new ih =>
    intro e mem
    have here : t.withStatus .completed d.completed ∈
        b.transactions ++ [t.withStatus .completed d.completed] := by simp
    obtain ⟨sent, received, -, -, -, -, -, rfl⟩ := postable.plan_eq
    rcases List.mem_append.mp mem with mem | mem
    · obtain ⟨u, there, same⟩ := ih e mem
      exact ⟨u, List.mem_append_left _ there, same⟩
    · rcases List.mem_cons.mp mem with rfl | mem
      · exact ⟨_, here, rfl⟩
      · rw [List.mem_singleton.mp mem]
        exact ⟨_, here, rfl⟩

theorem Grown.wallets_known (h : b.Grown) : ∀ e ∈ b.entries, ∃ w, b.wallet? e.wallet = some w := by
  induction h with
  | empty => exact fun _ => List.not_mem_nil.elim
  | @opened b w old new owed scaled free ih =>
    intro e mem
    obtain ⟨x, found⟩ := ih e mem
    rw [wallet?_withWallet new]
    split
    · exact ⟨w, rfl⟩
    · exact ⟨x, found⟩
  | @posted b r d s q t p old postable new ih =>
    intro e mem
    have known : ∃ w, b.wallet? e.wallet = some w := by
      obtain ⟨sent, received, -, -, -, -, -, rfl⟩ := postable.plan_eq
      rcases List.mem_append.mp mem with mem | mem
      · exact ih e mem
      · rcases List.mem_cons.mp mem with rfl | mem
        · exact ⟨s, postable.sender⟩
        · rw [List.mem_singleton.mp mem]
          exact ⟨q, postable.receiver⟩
    obtain ⟨w, found⟩ := known
    exact ⟨w.posted p d.committed, by rw [wallet?_post, found, Option.map_some]⟩

theorem Grown.transactionByKey?_mem (grown : b.Grown) (mem : t ∈ b.transactions) :
    b.transactionByKey? t.key = some t := by
  have keys : (b.keys.map Prod.fst).Nodup := by
    rw [grown.keys_eq, List.map_map]
    exact grown.keys_distinct
  have entry : (t.key, t.id) ∈ b.keys := by
    rw [grown.keys_eq]
    exact List.mem_map.mpr ⟨t, mem, rfl⟩
  have found : Table.find? Prod.fst t.key b.keys = some (t.key, t.id) :=
    Table.find?_of_mem keys entry
  have row : b.transaction? t.id = some t := Table.find?_of_mem grown.transactions_distinct mem
  simp [transactionByKey?, found, row]

theorem Grown.transactionByKey?_iff (grown : b.Grown) :
    b.transactionByKey? key = some t ↔ t ∈ b.transactions ∧ t.key = key := by
  constructor
  · intro h
    obtain ⟨⟨k, id⟩, found, row⟩ := Option.bind_eq_some_iff.mp h
    obtain ⟨mem, rfl⟩ := Table.find?_mem found
    rw [grown.keys_eq] at mem
    obtain ⟨u, there, same⟩ := List.mem_map.mp mem
    cases same
    have row : b.transaction? u.id = some t := row
    have here : b.transaction? u.id = some u :=
      Table.find?_of_mem grown.transactions_distinct there
    cases row.symm.trans here
    exact ⟨there, rfl⟩
  · rintro ⟨mem, rfl⟩
    exact grown.transactionByKey?_mem mem

theorem Grown.transactionByKey?_none_iff (grown : b.Grown) :
    b.transactionByKey? key = none ↔ b.hasKey key = false := by
  constructor
  · intro h
    apply grown.hasKey_false_iff.mpr
    intro t mem same
    have found : b.transactionByKey? key = some t := grown.transactionByKey?_iff.mpr ⟨mem, same⟩
    exact absurd (found.symm.trans h) (by simp)
  · exact transactionByKey?_none

/-- A transfer that is posted has everything that posting needs, if a key that leads nowhere is
free. -/
theorem postable_of_settle (free : b.transactionByKey? r.key = none → b.hasKey r.key = false)
    (h : b.settle r d = .post t p) : ∃ s q, b.Postable r d s q t p := by
  unfold settle at h
  split at h
  · contradiction
  · rename_i valid
    split at h
    · contradiction
    · contradiction
    · rename_i s q hs hq
      split at h
      · contradiction
      · rename_i absent
        split at h
        · contradiction
        · rename_i allowed
          dsimp only at h
          split at h
          · contradiction
          · rename_i plan planned
            cases h
            exact ⟨s, q, valid, hs, hq, free absent, allowed, rfl, planned⟩

theorem Grown.postable (grown : b.Grown) (h : b.settle r d = .post t p) :
    ∃ s q, b.Postable r d s q t p :=
  postable_of_settle grown.transactionByKey?_none_iff.mp h

end Books

end WalletLedger
