import Mathlib.Data.List.Nodup
import WalletLedger.Proofs.Growth
import WalletLedger.Store.Unit

/-!
Books that any unit of work may have written to. What a unit stages is put into the books in one
go: balances in the place of balances, and each transaction under its identifier and its key, in the
place of what stood there. The books stay coherent as long as the keys are free, or lead to the
transaction already. Whether each key leads to a transaction that carries it is another question;
it does unless a transaction was replaced by one with another key.
-/
namespace WalletLedger

namespace Table
variable {κ ρ : Type} [DecidableEq κ] {key : ρ → κ} {rows : List ρ} {x row : ρ}

theorem mem_put_self (key : ρ → κ) (row : ρ) (rows : List ρ) : row ∈ put key row rows := by
  induction rows with
  | nil => simp [put]
  | cons r rows ih =>
    unfold put
    split
    · simp
    · exact List.mem_cons_of_mem _ ih

theorem mem_put_of_ne (mem : x ∈ rows) (other : key x ≠ key row) : x ∈ put key row rows := by
  induction rows with
  | nil => simp at mem
  | cons r rows ih =>
    unfold put
    split
    · rename_i same
      rcases List.mem_cons.mp mem with rfl | mem
      · exact absurd same other
      · exact List.mem_cons_of_mem _ mem
    · rcases List.mem_cons.mp mem with rfl | mem
      · exact List.mem_cons_self
      · exact List.mem_cons_of_mem _ (ih mem)

theorem mem_of_mem_put (mem : x ∈ put key row rows) : x = row ∨ x ∈ rows := by
  induction rows with
  | nil => simpa [put] using mem
  | cons r rows ih =>
    unfold put at mem
    split at mem
    · rcases List.mem_cons.mp mem with rfl | mem
      · exact Or.inl rfl
      · exact Or.inr (List.mem_cons_of_mem _ mem)
    · rcases List.mem_cons.mp mem with rfl | mem
      · exact Or.inr List.mem_cons_self
      · exact (ih mem).imp_right (List.mem_cons_of_mem _)

theorem exists_mem_put (key : ρ → κ) (row : ρ) (mem : x ∈ rows) :
    ∃ y ∈ put key row rows, key y = key x := by
  by_cases same : key x = key row
  · exact ⟨row, mem_put_self key row rows, same.symm⟩
  · exact ⟨x, mem_put_of_ne mem same, rfl⟩

theorem nodup_put (row : ρ) (distinct : (rows.map key).Nodup) :
    ((put key row rows).map key).Nodup := by
  induction rows with
  | nil => simp [put]
  | cons r rows ih =>
    obtain ⟨notin, distinct⟩ := List.nodup_cons.mp distinct
    unfold put
    split
    · rename_i same
      exact List.nodup_cons.mpr ⟨same ▸ notin, distinct⟩
    · rename_i differs
      refine List.nodup_cons.mpr ⟨fun mem => ?_, ih distinct⟩
      obtain ⟨y, there, same⟩ := List.mem_map.mp mem
      rcases mem_of_mem_put there with rfl | there
      · exact differs same.symm
      · exact notin (List.mem_map.mpr ⟨y, there, same⟩)

theorem mem_put_iff (distinct : (rows.map key).Nodup) :
    x ∈ put key row rows ↔ x = row ∨ x ∈ rows ∧ key x ≠ key row := by
  constructor
  · intro mem
    rcases mem_of_mem_put mem with same | old
    · exact Or.inl same
    · by_cases same : key x = key row
      · have keys := nodup_put row distinct
        exact Or.inl (List.inj_on_of_nodup_map keys mem (mem_put_self key row rows) same)
      · exact Or.inr ⟨old, same⟩
  · rintro (rfl | ⟨old, other⟩)
    · exact mem_put_self key x rows
    · exact mem_put_of_ne old other

end Table

namespace Books

structure Indexed (b : Books) : Prop where
  ids : (b.transactions.map (·.id)).Nodup
  keys : (b.keys.map Prod.fst).Nodup
  found : ∀ t ∈ b.transactions, (t.key, t.id) ∈ b.keys
  led : ∀ p ∈ b.keys, ∃ t ∈ b.transactions, t.id = p.2

/-- A key leads to a transaction that carries it. -/
def Faithful (b : Books) : Prop := ∀ k t, b.transactionByKey? k = some t → t.key = k

def Replaced (b b' : Books) : Prop :=
  ∃ t ∈ b.transactions, ∃ u ∈ b'.transactions, u.id = t.id ∧ u.key ≠ t.key

structure Coherent (b : Books) : Prop extends Indexed b where
  owed : ∀ w ∈ b.wallets, ¬w.balance.IsNegative
  owned : ∀ e ∈ b.entries, ∃ t ∈ b.transactions, t.id = e.transaction

structure Takes (b : Books) (ts : List Transaction) : Prop where
  keyed : ∀ t ∈ ts, b.hasKey t.key = false ∨ (t.key, t.id) ∈ b.keys
  paired : ∀ t ∈ ts, ∀ u ∈ ts, t.key = u.key ↔ t.id = u.id

variable {b b' : Books} {t u : Transaction} {ts : List Transaction} {k : IdempotencyKey}
  {id : TransactionId} {now : Timestamp} {p : WalletId × Amount} {ps : List (WalletId × Amount)}

theorem hasKey_iff_mem : b.hasKey k = true ↔ ∃ id, (k, id) ∈ b.keys := by
  rw [hasKey, Table.has_iff]
  constructor
  · rintro ⟨⟨_, id⟩, mem, rfl⟩
    exact ⟨id, mem⟩
  · rintro ⟨id, mem⟩
    exact ⟨_, mem, rfl⟩

theorem hasKey_false_iff_mem : b.hasKey k = false ↔ ∀ id, (k, id) ∉ b.keys := by
  rw [← Bool.not_eq_true, hasKey_iff_mem, not_exists]

namespace Indexed

theorem id_unique (indexed : b.Indexed) {id id' : TransactionId} (mem : (k, id) ∈ b.keys)
    (mem' : (k, id') ∈ b.keys) : id = id' :=
  congrArg Prod.snd (List.inj_on_of_nodup_map indexed.keys mem mem' rfl)

theorem row_unique (indexed : b.Indexed) (mem : t ∈ b.transactions) (mem' : u ∈ b.transactions)
    (same : t.id = u.id) : t = u :=
  List.inj_on_of_nodup_map indexed.ids mem mem' same

theorem transaction?_iff (indexed : b.Indexed) :
    b.transaction? id = some t ↔ t ∈ b.transactions ∧ t.id = id := by
  constructor
  · exact fun h => ⟨transaction?_mem h, transaction?_id h⟩
  · rintro ⟨mem, rfl⟩
    exact Table.find?_of_mem indexed.ids mem

theorem transactionByKey?_iff (indexed : b.Indexed) :
    b.transactionByKey? k = some t ↔ (k, t.id) ∈ b.keys ∧ t ∈ b.transactions := by
  unfold transactionByKey?
  rw [Option.bind_eq_some_iff]
  constructor
  · rintro ⟨⟨_, id⟩, found, row⟩
    obtain ⟨mem, rfl⟩ := Table.find?_mem found
    obtain ⟨there, rfl⟩ := indexed.transaction?_iff.mp row
    exact ⟨mem, there⟩
  · rintro ⟨mem, there⟩
    exact ⟨_, Table.find?_of_mem indexed.keys mem, indexed.transaction?_iff.mpr ⟨there, rfl⟩⟩

theorem transactionByKey?_some (indexed : b.Indexed) (taken : b.hasKey k = true) :
    ∃ t, b.transactionByKey? k = some t := by
  obtain ⟨id, mem⟩ := hasKey_iff_mem.mp taken
  obtain ⟨t, there, rfl⟩ := indexed.led _ mem
  exact ⟨t, indexed.transactionByKey?_iff.mpr ⟨mem, there⟩⟩

theorem transactionByKey?_none_iff (indexed : b.Indexed) :
    b.transactionByKey? k = none ↔ b.hasKey k = false := by
  refine ⟨fun absent => ?_, transactionByKey?_none⟩
  cases taken : b.hasKey k with
  | false => rfl
  | true =>
    obtain ⟨t, found⟩ := indexed.transactionByKey?_some taken
    rw [absent] at found
    contradiction

theorem faithful_iff (indexed : b.Indexed) :
    b.Faithful ↔ ∀ t ∈ b.transactions, ∀ k, (k, t.id) ∈ b.keys → t.key = k := by
  constructor
  · intro faithful t there k mem
    exact faithful k t (indexed.transactionByKey?_iff.mpr ⟨mem, there⟩)
  · intro faithful k t found
    obtain ⟨mem, there⟩ := indexed.transactionByKey?_iff.mp found
    exact faithful t there k mem

/-- From one state of the books to a later one, keys stay faithful if and only if no transaction is
replaced by one with another key. -/
theorem faithful_next (indexed : b.Indexed) (indexed' : b'.Indexed)
    (kept : ∀ p ∈ b.keys, p ∈ b'.keys)
    (added : ∀ p ∈ b'.keys, p ∈ b.keys ∨ ∃ u ∈ b'.transactions, (u.key, u.id) = p) :
    b'.Faithful ↔ b.Faithful ∧ ¬b.Replaced b' := by
  rw [indexed.faithful_iff, indexed'.faithful_iff]
  constructor
  · intro faithful
    have carried : ∀ t ∈ b.transactions, ∀ k, (k, t.id) ∈ b.keys → ∀ u ∈ b'.transactions,
        u.id = t.id → u.key = k := by
      intro t there k mem u there' same
      exact faithful u there' k (same ▸ kept _ mem)
    refine ⟨fun t there k mem => ?_, ?_⟩
    · obtain ⟨u, there', same⟩ := indexed'.led _ (kept _ mem)
      exact (carried t there _ (indexed.found t there) u there' same).symm.trans
        (carried t there k mem u there' same)
    · rintro ⟨t, there, u, there', same, other⟩
      exact other (carried t there _ (indexed.found t there) u there' same)
  -- A key that was there leads to the identifier of an old row, whose key the new row still has.
  · rintro ⟨faithful, stays⟩ u there k mem
    rcases added _ mem with old | ⟨v, there', same⟩
    · obtain ⟨t, before, same⟩ := indexed.led _ old
      have key : t.key = k := faithful t before k (same ▸ old)
      by_cases other : u.key = t.key
      · exact other.trans key
      · exact absurd ⟨t, before, u, there, same.symm, other⟩ stays
    · obtain ⟨key, id⟩ := Prod.mk.inj same
      rw [indexed'.row_unique there there' id.symm]
      exact key

theorem put (indexed : b.Indexed)
    (keyed : b.hasKey t.key = false ∨ (t.key, t.id) ∈ b.keys) :
    (b.putTransaction t).Indexed ∧
      ∀ p, p ∈ (b.putTransaction t).keys ↔ p ∈ b.keys ∨ p = (t.key, t.id) := by
  have rows : ∀ x, x ∈ (b.putTransaction t).transactions ↔
      x = t ∨ x ∈ b.transactions ∧ x.id ≠ t.id := fun x => Table.mem_put_iff indexed.ids
  have keys : ∀ p, p ∈ (b.putTransaction t).keys ↔ p ∈ b.keys ∨ p = (t.key, t.id) := by
    intro p
    refine (Table.mem_put_iff indexed.keys).trans ?_
    constructor
    · rintro (rfl | ⟨old, -⟩)
      · exact Or.inr rfl
      · exact Or.inl old
    · rintro (old | rfl)
      · by_cases same : p.1 = t.key
        · refine Or.inl ?_
          rcases keyed with free | leads
          · exact absurd (same ▸ old) (hasKey_false_iff_mem.mp free p.2)
          · exact List.inj_on_of_nodup_map indexed.keys old leads same
        · exact Or.inr ⟨old, same⟩
      · exact Or.inl rfl
  refine ⟨⟨Table.nodup_put t indexed.ids, Table.nodup_put _ indexed.keys, fun x mem => ?_,
    fun p mem => ?_⟩, keys⟩
  · rcases (rows x).mp mem with rfl | ⟨old, -⟩
    · exact (keys _).mpr (Or.inr rfl)
    · exact (keys _).mpr (Or.inl (indexed.found x old))
  · rcases (keys p).mp mem with old | rfl
    · obtain ⟨u, there, same⟩ := indexed.led p old
      by_cases here : u.id = t.id
      · exact ⟨t, (rows t).mpr (Or.inl rfl), here.symm.trans same⟩
      · exact ⟨u, (rows u).mpr (Or.inr ⟨there, here⟩), same⟩
    · exact ⟨t, (rows t).mpr (Or.inl rfl), rfl⟩

theorem rest (indexed : b.Indexed) (takes : b.Takes (t :: ts)) :
    (b.putTransaction t).Takes ts := by
  obtain ⟨-, keys⟩ := indexed.put (takes.keyed t (by simp))
  refine ⟨fun u mem => ?_, fun u mem v mem' => takes.paired u (by simp [mem]) v (by simp [mem'])⟩
  have pair := takes.paired u (by simp [mem]) t (by simp)
  by_cases same : u.key = t.key
  · exact Or.inr ((keys _).mpr (Or.inr (Prod.ext same (pair.mp same))))
  · refine (takes.keyed u (by simp [mem])).imp (fun free => ?_)
      fun leads => (keys _).mpr (Or.inl leads)
    refine hasKey_false_iff_mem.mpr fun id there => ?_
    rcases (keys _).mp there with old | new
    · exact hasKey_false_iff_mem.mp free id old
    · exact same (congrArg Prod.fst new)

theorem takes (indexed : b.Indexed) (takes : b.Takes ts) :
    (ts.foldl putTransaction b).Indexed ∧
      (∀ p, p ∈ (ts.foldl putTransaction b).keys ↔
        p ∈ b.keys ∨ ∃ t ∈ ts, p = (t.key, t.id)) ∧
      (∀ x ∈ (ts.foldl putTransaction b).transactions,
        x ∈ ts ∨ x ∈ b.transactions ∧ ∀ t ∈ ts, t.id ≠ x.id) ∧
      ∀ x ∈ b.transactions, ∃ y ∈ (ts.foldl putTransaction b).transactions, y.id = x.id := by
  induction ts generalizing b with
  | nil => exact ⟨indexed, by simp, fun x mem => Or.inr ⟨mem, by simp⟩, fun x mem => ⟨x, mem, rfl⟩⟩
  | cons t ts ih =>
    obtain ⟨next, keys⟩ := indexed.put (takes.keyed t (by simp))
    have rows : ∀ x, x ∈ (b.putTransaction t).transactions ↔
        x = t ∨ x ∈ b.transactions ∧ x.id ≠ t.id := fun x => Table.mem_put_iff indexed.ids
    obtain ⟨last, keys', rows', kept⟩ := ih next (indexed.rest takes)
    refine ⟨last, fun p => ?_, fun x mem => ?_, fun x mem => ?_⟩
    · simp only [List.foldl_cons, List.mem_cons, exists_eq_or_imp, keys', keys, or_assoc]
    · rcases rows' x mem with new | ⟨old, apart⟩
      · exact Or.inl (List.mem_cons_of_mem _ new)
      · rcases (rows x).mp old with rfl | ⟨old, other⟩
        · exact Or.inl List.mem_cons_self
        · refine Or.inr ⟨old, fun v there => ?_⟩
          rcases List.mem_cons.mp there with rfl | there
          · exact other.symm
          · exact apart v there
    · by_cases same : x.id = t.id
      · obtain ⟨y, there, id⟩ := kept t ((rows t).mpr (Or.inl rfl))
        exact ⟨y, there, id.trans same.symm⟩
      · exact kept x ((rows x).mpr (Or.inr ⟨mem, same⟩))

end Indexed

theorem wallet?_setBalance (b : Books) (now : Timestamp) (p : WalletId × Amount) (id : WalletId) :
    (b.setBalance now p).wallet? id = (b.wallet? id).map fun w =>
      if w.id = p.1 then { w with balance := p.2, updatedAt := now } else w := by
  refine Table.find?_map fun w => ?_
  split <;> rfl

theorem setBalances (b : Books) (now : Timestamp) (ps : List (WalletId × Amount)) :
    ∃ wallets, ps.foldl (setBalance · now) b = { b with wallets := wallets } ∧
      (∀ id, (∀ p ∈ ps, p.1 ≠ id) →
        Table.find? Wallet.id id wallets = b.wallet? id) ∧
      (∀ id, (Table.find? Wallet.id id wallets).isSome = (b.wallet? id).isSome) ∧
      ((∀ w ∈ b.wallets, ¬w.balance.IsNegative) → (∀ p ∈ ps, ¬p.2.IsNegative) →
        ∀ w ∈ wallets, ¬w.balance.IsNegative) := by
  induction ps generalizing b with
  | nil => exact ⟨b.wallets, rfl, fun _ _ => rfl, fun _ => rfl, fun owed _ => owed⟩
  | cons p ps ih =>
    obtain ⟨wallets, rest, untouched, present, owed⟩ := ih (b.setBalance now p)
    refine ⟨wallets, rest, fun id apart => ?_, fun id => ?_, fun old new => owed ?_ ?_⟩
    · rw [untouched id fun q mem => apart q (by simp [mem]), wallet?_setBalance]
      cases found : b.wallet? id with
      | none => rfl
      | some w =>
        have other : ¬w.id = p.1 := fun same =>
          apart p (by simp) (same.symm.trans (wallet?_id found))
        simp only [Option.map_some, other, if_false]
    · rw [present id, wallet?_setBalance, Option.isSome_map]
    · intro w mem
      obtain ⟨x, there, rfl⟩ := List.mem_map.mp mem
      split
      · exact new p (by simp)
      · exact old x there
    · exact fun q mem => new q (by simp [mem])

theorem wallets_putTransactions (b : Books) (ts : List Transaction) :
    (ts.foldl putTransaction b).wallets = b.wallets ∧
      (ts.foldl putTransaction b).entries = b.entries := by
  induction ts generalizing b with
  | nil => exact ⟨rfl, rfl⟩
  | cons t ts ih => exact ih (b.putTransaction t)

structure Applied (b b' : Books) (staged : Staged) : Prop where
  keys : ∀ p, p ∈ b'.keys ↔ p ∈ b.keys ∨ ∃ t ∈ staged.transactions, p = (t.key, t.id)
  rows : ∀ x ∈ b'.transactions, x ∈ staged.transactions ∨
    x ∈ b.transactions ∧ ∀ t ∈ staged.transactions, t.id ≠ x.id
  kept : ∀ x ∈ b.transactions, ∃ y ∈ b'.transactions, y.id = x.id
  untouched : ∀ id, (∀ p ∈ staged.balances, p.1 ≠ id) → b'.wallet? id = b.wallet? id
  known : ∀ id, (b'.wallet? id).isSome = (b.wallet? id).isSome

/-- A commit keeps books coherent if it takes in transactions and entries that suit them. -/
theorem Coherent.applied {s : Store} {staged : Staged} (coherent : s.books.Coherent)
    (takes : s.books.Takes staged.transactions) (owed : ∀ p ∈ staged.balances, ¬p.2.IsNegative)
    (owned : ∀ e ∈ staged.entries, (∃ t ∈ staged.transactions, t.id = e.transaction) ∨
      ∃ t ∈ s.books.transactions, t.id = e.transaction) (now : Timestamp) :
    (s.apply staged now).books.Coherent ∧
      Applied s.books (s.apply staged now).books staged := by
  obtain ⟨wallets, balanced, untouched, known, owed'⟩ := s.books.setBalances now staged.balances
  have indexed : ({ s.books with wallets := wallets } : Books).Indexed :=
    ⟨coherent.ids, coherent.keys, coherent.found, coherent.led⟩
  have suits : ({ s.books with wallets := wallets } : Books).Takes staged.transactions :=
    ⟨takes.keyed, takes.paired⟩
  obtain ⟨indexed', keys, rows, kept⟩ := indexed.takes suits
  obtain ⟨same, entries⟩ :=
    wallets_putTransactions { s.books with wallets := wallets } staged.transactions
  simp only [Store.apply, balanced]
  generalize staged.transactions.foldl putTransaction { s.books with wallets := wallets } = b
    at indexed' keys rows kept same entries ⊢
  refine ⟨⟨⟨indexed'.ids, indexed'.keys, indexed'.found, indexed'.led⟩, ?_, fun e mem => ?_⟩,
    keys, rows, kept, ?_, ?_⟩
  · rw [same]
    exact owed' coherent.owed owed
  · have here : (∃ t ∈ staged.transactions, t.id = e.transaction) ∨
        ∃ t ∈ s.books.transactions, t.id = e.transaction := by
      rcases List.mem_append.mp mem with old | new
      · rw [entries] at old
        exact Or.inr (coherent.owned e old)
      · exact owned e new
    rcases here with ⟨t, mem, id⟩ | ⟨t, mem, id⟩
    · obtain ⟨y, there, same⟩ := indexed'.led _ ((keys _).mpr (Or.inr ⟨t, mem, rfl⟩))
      exact ⟨y, there, same.trans id⟩
    · obtain ⟨y, there, same⟩ := kept t mem
      exact ⟨y, there, same.trans id⟩
  · intro id apart
    show Table.find? Wallet.id id b.wallets = s.books.wallet? id
    rw [same]
    exact untouched id apart
  · intro id
    show (Table.find? Wallet.id id b.wallets).isSome = _
    rw [same]
    exact known id

theorem Coherent.post {r : TransferRequest} {d : Draw} {s q : Wallet} {plan : TransferPlan}
    (coherent : b.Coherent) (postable : b.Postable r d s q t plan)
    (new : b.transaction? t.id = none) : (b.post t plan d).Coherent := by
  have unused : ∀ x ∈ b.transactions, x.id ≠ (t.withStatus .completed d.completed).id :=
    Table.find?_none_iff.mp new
  have free : ∀ x ∈ b.keys, Prod.fst x ≠ Prod.fst (t.key, t.id) := by
    have absent := postable.absent
    rw [← postable.key_eq] at absent
    exact Table.has_false_iff.mp absent
  have kept : ∀ {id}, (∃ x ∈ b.transactions, x.id = id) →
      ∃ x ∈ (b.post t plan d).transactions, x.id = id := by
    rintro id ⟨x, old, same⟩
    exact ⟨x, List.mem_append_left _ old, same⟩
  have here : t.withStatus .completed d.completed ∈ (b.post t plan d).transactions :=
    List.mem_append_right _ (List.mem_singleton_self _)
  obtain ⟨left, received⟩ := postable.balances_owed coherent.owed
  refine ⟨⟨Table.nodup_append_new coherent.ids unused, Table.nodup_append_new coherent.keys free,
    fun x mem => ?_, fun x mem => ?_⟩, fun w mem => ?_, fun e mem => ?_⟩
  · rcases List.mem_append.mp mem with old | same
    · exact List.mem_append_left _ (coherent.found x old)
    · rw [List.mem_singleton.mp same]
      exact List.mem_append_right _ (List.mem_singleton_self _)
  · rcases List.mem_append.mp mem with old | same
    · exact kept (coherent.led x old)
    · rw [List.mem_singleton.mp same]
      exact ⟨_, here, rfl⟩
  · obtain ⟨x, there, rfl⟩ := List.mem_map.mp mem
    exact Wallet.balance_posted (¬·.IsNegative) left received (coherent.owed x there)
  · rcases List.mem_append.mp mem with old | fresh
    · exact kept (coherent.owned e old)
    · obtain ⟨sent, gained, -, -, -, -, -, rfl⟩ := postable.plan_eq
      rcases List.mem_cons.mp fresh with rfl | last
      · exact ⟨_, here, rfl⟩
      · rw [List.mem_singleton.mp last]
        exact ⟨_, here, rfl⟩

theorem Grown.coherent (grown : b.Grown) : b.Coherent := by
  have keys : (b.keys.map Prod.fst).Nodup := by
    rw [grown.keys_eq, List.map_map]
    exact grown.keys_distinct
  refine ⟨⟨grown.transactions_distinct, keys, fun t mem => ?_, fun p mem => ?_⟩, grown.owed,
    grown.entries_owned⟩
  · rw [grown.keys_eq]
    exact List.mem_map.mpr ⟨t, mem, rfl⟩
  · rw [grown.keys_eq] at mem
    obtain ⟨t, there, rfl⟩ := List.mem_map.mp mem
    exact ⟨t, there, rfl⟩

end Books

end WalletLedger
