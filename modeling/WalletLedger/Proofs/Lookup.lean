import WalletLedger.Store

/-!
Looking rows up in tables and in the books. A row under a new key is put at the end of its table,
and changing rows without touching their keys changes what is found and nothing else.
-/
namespace WalletLedger

namespace Table
variable {κ ρ : Type} [DecidableEq κ] {key : ρ → κ} {k : κ} {rows : List ρ} {row : ρ}

theorem find?_mem (h : find? key k rows = some row) : row ∈ rows ∧ key row = k :=
  ⟨List.mem_of_find?_eq_some h, by simpa using List.find?_some h⟩

theorem find?_none_iff : find? key k rows = none ↔ ∀ r ∈ rows, key r ≠ k := by
  simp [find?]

theorem has_iff : has key k rows = true ↔ ∃ r ∈ rows, key r = k := by
  simp [has]

theorem has_false_iff : has key k rows = false ↔ ∀ r ∈ rows, key r ≠ k := by
  simp [has]

theorem put_new (new : ∀ r ∈ rows, key r ≠ key row) : put key row rows = rows ++ [row] := by
  induction rows with
  | nil => rfl
  | cons r rows ih =>
    have differs : key r ≠ key row := new r (by simp)
    simp only [put, differs, if_false, List.cons_append, List.cons.injEq, true_and]
    exact ih fun x hx => new x (by simp [hx])

theorem find?_append_new (new : ∀ r ∈ rows, key r ≠ key row) :
    find? key k (rows ++ [row]) = if key row = k then some row else find? key k rows := by
  rw [← put_new new]
  exact find?_put key row k rows

theorem find?_map {f : ρ → ρ} (same : ∀ r, key (f r) = key r) :
    find? key k (rows.map f) = (find? key k rows).map f := by
  induction rows with
  | nil => rfl
  | cons r rows ih =>
    simp only [find?] at ih
    by_cases h : key r = k <;> simp [find?, same, h, ih]

theorem find?_of_mem (distinct : (rows.map key).Nodup) (mem : row ∈ rows) :
    find? key (key row) rows = some row := by
  induction rows with
  | nil => simp at mem
  | cons r rows ih =>
    obtain ⟨notin, distinct⟩ := List.nodup_cons.mp distinct
    rcases List.mem_cons.mp mem with rfl | mem
    · simp [find?]
    · have differs : key r ≠ key row := fun same =>
        notin (same ▸ List.mem_map.mpr ⟨row, mem, rfl⟩)
      have := ih distinct mem
      simp only [find?] at this ⊢
      simp [differs, this]

theorem find?_perm {rows' : List ρ} (k : κ) (distinct : (rows.map key).Nodup)
    (h : rows'.Perm rows) : find? key k rows' = find? key k rows := by
  cases found : find? key k rows with
  | none => exact find?_none_iff.mpr fun r mem => find?_none_iff.mp found r (h.mem_iff.mp mem)
  | some row =>
    obtain ⟨mem, rfl⟩ := find?_mem found
    exact find?_of_mem ((h.map key).nodup_iff.mpr distinct) (h.mem_iff.mpr mem)

theorem filter_of_mem (distinct : (rows.map key).Nodup) (mem : row ∈ rows) :
    rows.filter (key · = key row) = [row] := by
  induction rows with
  | nil => simp at mem
  | cons r rows ih =>
    obtain ⟨notin, distinct⟩ := List.nodup_cons.mp distinct
    rcases List.mem_cons.mp mem with rfl | mem
    · have others : rows.filter (key · = key row) = [] := by
        refine List.filter_eq_nil_iff.mpr fun x there same => notin ?_
        exact List.mem_map.mpr ⟨x, there, of_decide_eq_true same⟩
      rw [List.filter_cons_of_pos (by simp), others]
    · have differs : key r ≠ key row := fun same =>
        notin (same ▸ List.mem_map.mpr ⟨row, mem, rfl⟩)
      rw [List.filter_cons_of_neg (by simp [differs])]
      exact ih distinct mem

omit [DecidableEq κ] in
theorem nodup_append_new (distinct : (rows.map key).Nodup) (new : ∀ r ∈ rows, key r ≠ key row) :
    ((rows ++ [row]).map key).Nodup := by
  rw [List.map_append]
  refine List.nodup_append.mpr ⟨distinct, by simp, ?_⟩
  rintro x hx y hy rfl
  obtain ⟨r, mem, same⟩ := List.mem_map.mp hx
  exact new r mem (same.trans (by simpa using hy))

end Table

namespace Books
variable {b : Books} {id : WalletId} {w : Wallet} {t : Transaction} {key : IdempotencyKey}

theorem wallet?_id (h : b.wallet? id = some w) : w.id = id := (Table.find?_mem h).2

theorem wallet?_mem (h : b.wallet? id = some w) : w ∈ b.wallets := (Table.find?_mem h).1

theorem transaction?_id {id : TransactionId} (h : b.transaction? id = some t) : t.id = id :=
  (Table.find?_mem h).2

theorem transaction?_mem {id : TransactionId} (h : b.transaction? id = some t) :
    t ∈ b.transactions := (Table.find?_mem h).1

theorem transactionByKey?_none (h : b.hasKey key = false) : b.transactionByKey? key = none := by
  have absent := Table.find?_none_iff.mpr (Table.has_false_iff.mp h)
  simp [transactionByKey?, absent]

end Books

end WalletLedger
