import WalletLedger.Proofs.Clients
import WalletLedger.Proofs.Frame

/-!
What a unit of work has staged suits the books: its keys are free, its transactions stand under
keys of its own or under those that lead to them, balances are written to rows that it has locked.
What the unit writes has been checked for this, and what others write stays clear of it.
-/
namespace WalletLedger

structure Clear (b b' : Books) (u : UnitOfWork) : Prop extends Beside b b' u none where
  keys : ∀ p ∈ b.keys, p ∈ b'.keys
  transactions : ∀ t ∈ b.transactions, ∃ y ∈ b'.transactions, y.id = t.id
  wallets : ∀ id w, b.wallet? id = some w → ∃ x, b'.wallet? id = some x

theorem Clear.refl (b : Books) (u : UnitOfWork) : Clear b b u :=
  ⟨⟨fun _ _ _ h => h, fun _ _ h => h, fun _ h => h, nofun⟩, fun _ h => h, fun t mem => ⟨t, mem, rfl⟩,
    fun _ w h => ⟨w, h⟩⟩

theorem Clear.withWallet {b : Books} {w : Wallet} (new : b.wallet? w.id = none) (u : UnitOfWork) :
    Clear b (b.withWallet w) u := by
  have kept : ∀ id x, b.wallet? id = some x → (b.withWallet w).wallet? id = some x := by
    intro id x found
    have other : w.id ≠ id := by
      rintro rfl
      rw [new] at found
      contradiction
    rw [Books.wallet?_withWallet new, if_neg other, found]
  exact ⟨⟨fun id _ x => kept id x, fun _ _ h => h, fun _ h => h, nofun⟩, fun _ h => h,
    fun t mem => ⟨t, mem, rfl⟩, fun id x found => ⟨x, kept id x found⟩⟩

namespace UnitOfWork

structure Suits (u : UnitOfWork) (b : Books) : Prop where
  free : ∀ k ∈ u.staged.keys, b.hasKey k = false
  keyed : ∀ t ∈ u.staged.transactions, t.key ∈ u.staged.keys ∨ (t.key, t.id) ∈ b.keys
  paired : ∀ t ∈ u.staged.transactions, ∀ x ∈ u.staged.transactions, t.key = x.key ↔ t.id = x.id
  covered : ∀ p ∈ u.staged.balances, p.1 ∈ u.locked
  known : ∀ p ∈ u.staged.balances, ∃ w, b.wallet? p.1 = some w
  owed : ∀ p ∈ u.staged.balances, ¬p.2.IsNegative
  owned : ∀ e ∈ u.staged.entries, (∃ t ∈ u.staged.transactions, t.id = e.transaction) ∨
    ∃ t ∈ b.transactions, t.id = e.transaction

variable {b b' : Books} {u v : UnitOfWork} {t : Transaction} {s : Store} {now : Timestamp}
  {op : UnitOp}

theorem suits_new (id : UnitId) (b : Books) : (⟨id, [], {}⟩ : UnitOfWork).Suits b := by
  constructor <;> exact fun _ mem => absurd mem List.not_mem_nil

theorem Suits.takes (suits : u.Suits b) : b.Takes u.staged.transactions := by
  refine ⟨fun t mem => ?_, suits.paired⟩
  exact (suits.keyed t mem).imp_left (suits.free t.key)

theorem Suits.clear (suits : u.Suits b) (clear : Clear b b' u) : u.Suits b' := by
  refine ⟨fun k mem => ?_, fun t mem => ?_, suits.paired, suits.covered, fun p mem => ?_,
    suits.owed, fun e mem => ?_⟩
  · exact clear.free k mem (suits.free k mem)
  · exact (suits.keyed t mem).imp_right (clear.keys _)
  · obtain ⟨w, found⟩ := suits.known p mem
    exact clear.wallets _ w found
  · refine (suits.owned e mem).imp_right ?_
    rintro ⟨t, there, same⟩
    obtain ⟨y, there', id⟩ := clear.transactions t there
    exact ⟨y, there', id.trans same⟩

theorem Suits.stageTransaction (suits : u.Suits b)
    (keyed : t.key ∈ u.staged.keys ∨ (t.key, t.id) ∈ b.keys)
    (pair : ∀ x ∈ u.staged.transactions, x.key = t.key ↔ x.id = t.id) :
    (u.stageTransaction t).Suits b := by
  refine ⟨suits.free, fun x mem => ?_, fun x mem y mem' => ?_, suits.covered, suits.known,
    suits.owed, fun e mem => ?_⟩
  · rcases Table.mem_of_mem_put mem with rfl | old
    · exact keyed
    · exact suits.keyed x old
  · rcases Table.mem_of_mem_put mem with rfl | old
    · rcases Table.mem_of_mem_put mem' with rfl | old'
      · exact ⟨fun _ => rfl, fun _ => rfl⟩
      · exact eq_comm.trans ((pair y old').trans eq_comm)
    · rcases Table.mem_of_mem_put mem' with rfl | old'
      · exact pair x old
      · exact suits.paired x old y old'
  · refine (suits.owned e mem).imp_left ?_
    rintro ⟨x, there, same⟩
    obtain ⟨y, there', id⟩ := Table.exists_mem_put (·.id) t there
    exact ⟨y, there', id.trans same⟩

theorem Suits.key_new (suits : u.Suits b) (free : b.hasKey t.key = false)
    (unstaged : t.key ∉ u.staged.keys) : ∀ x ∈ u.staged.transactions, x.key ≠ t.key := by
  intro x mem same
  rcases suits.keyed x mem with mine | leads
  · exact unstaged (same ▸ mine)
  · rw [same] at leads
    exact Books.hasKey_false_iff_mem.mp free x.id leads

theorem Suits.id_of_key (suits : u.Suits b) (indexed : b.Indexed) (there : t ∈ b.transactions) :
    ∀ x ∈ u.staged.transactions, x.key = t.key → x.id = t.id := by
  intro x mem same
  have found := indexed.found t there
  rcases suits.keyed x mem with mine | leads
  · exact absurd found (Books.hasKey_false_iff_mem.mp (suits.free _ (same ▸ mine)) t.id)
  · rw [same] at leads
    exact indexed.id_unique leads found

theorem Suits.writes (suits : u.Suits b) (indexed : b.Indexed) (writes : Writes b u v) :
    v.Suits b := by
  cases writes with
  | nothing => exact suits
  | row wallet =>
    exact ⟨suits.free, suits.keyed, suits.paired,
      fun p mem => List.mem_append_left _ (suits.covered p mem), suits.known, suits.owed,
      suits.owned⟩
  | @transaction t free unstaged new =>
    have staged : (u.stageKey t.key).Suits b := by
      refine ⟨fun k mem => ?_, fun x mem => ?_, suits.paired, suits.covered, suits.known,
        suits.owed, suits.owned⟩
      · rcases List.mem_append.mp mem with old | same
        · exact suits.free k old
        · rw [List.mem_singleton.mp same]
          exact free
      · exact (suits.keyed x mem).imp_left (List.mem_append_left _)
    have other := suits.key_new free unstaged
    refine staged.stageTransaction (Or.inl (List.mem_append_right _ (List.mem_singleton_self _)))
      fun x mem => ?_
    exact ⟨fun same => absurd same (other x mem), fun same => absurd same (new x mem)⟩
  | @entry e owned =>
    refine ⟨suits.free, suits.keyed, suits.paired, suits.covered, suits.known, suits.owed,
      fun x mem => ?_⟩
    rcases List.mem_append.mp mem with old | same
    · exact suits.owned x old
    · rw [List.mem_singleton.mp same]
      exact owned
  | @balance wallet balance held owed known =>
    refine ⟨suits.free, suits.keyed, suits.paired, fun p mem => ?_, fun p mem => ?_,
      fun p mem => ?_, suits.owned⟩
    · rcases Table.mem_of_mem_put mem with rfl | old
      · exact held
      · exact suits.covered p old
    · rcases Table.mem_of_mem_put mem with rfl | old
      · exact known
      · exact suits.known p old
    · rcases Table.mem_of_mem_put mem with rfl | old
      · exact owed
      · exact suits.owed p old
  | @status t status now known =>
    rcases known with mem | ⟨there, apart⟩
    · exact suits.stageTransaction (suits.keyed t mem) fun x here => suits.paired x here t mem
    · refine suits.stageTransaction (Or.inr (indexed.found t there)) fun x here => ?_
      exact ⟨suits.id_of_key indexed there x here, fun same => absurd same (apart x here)⟩

theorem Writes.locked (writes : Writes b u v) : ∀ w ∈ u.locked, w ∈ v.locked := by
  intro w mem
  cases writes with
  | row wallet => exact List.mem_append_left _ mem
  | _ => exact mem

end UnitOfWork

end WalletLedger
