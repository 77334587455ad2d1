import WalletLedger.Proofs.Column

/-!
The table of wallets. Wallets come in by being opened, at most one of each kind to an owner, and all
of a wallet but its balance and the time of its last change stays as it was opened. A balance is
changed by the transfers that name the wallet, in the step in which they return, and is never owed
nor finer than the smallest unit of its currency, not even where it is rounded.
-/
namespace WalletLedger

def Request.Names (id : WalletId) : Request → Prop
  | .opening wallet _ _ _ => wallet = id
  | .transfer r => r.sender = id ∨ r.receiver = id

namespace Books
variable {b : Books} {r : TransferRequest} {d : Draw} {s q w x : Wallet} {t : Transaction}
  {p : TransferPlan} {id : WalletId} {owner : UserId} {kind : WalletKind}

/-- The wallet is there as it was opened, except for its balance and the time of its last change. -/
def Holds (b : Books) (w : Wallet) : Prop :=
  ∃ balance updated, b.wallet? w.id = some { w with balance := balance, updatedAt := updated }

theorem Grown.holds (grown : b.Grown) (mem : w ∈ b.wallets) : b.Holds w :=
  ⟨w.balance, w.updatedAt, grown.wallet?_of_mem mem⟩

theorem Holds.withWallet (holds : b.Holds w) (new : b.wallet? x.id = none) :
    (b.withWallet x).Holds w := by
  obtain ⟨balance, updated, found⟩ := holds
  refine ⟨balance, updated, ?_⟩
  rw [wallet?_withWallet new, if_neg]
  · exact found
  · intro same
    rw [same, found] at new
    contradiction

theorem holds_withWallet (new : b.wallet? w.id = none) : (b.withWallet w).Holds w :=
  ⟨w.balance, w.updatedAt, by rw [wallet?_withWallet new, if_pos rfl]⟩

theorem Holds.post (holds : b.Holds w) : (b.post t p d).Holds w := by
  obtain ⟨balance, updated, found⟩ := holds
  obtain ⟨balance', updated', posted⟩ :=
    Wallet.posted_eq { w with balance := balance, updatedAt := updated } p d.committed
  refine ⟨balance', updated', ?_⟩
  rw [wallet?_post, found, Option.map_some, posted]

theorem Postable.wallet?_other (h : b.Postable r d s q t p) (grown : b.Grown)
    (other : ¬(Request.transfer r).Names id) : (b.post t p d).wallet? id = b.wallet? id := by
  obtain ⟨sender, receiver⟩ := not_or.mp other
  rw [wallet?_post]
  cases found : b.wallet? id with
  | none => rfl
  | some w =>
    rw [Option.map_some]
    rcases h.posted_cases grown (wallet?_mem found) d.committed with
      ⟨rfl, -⟩ | ⟨rfl, -⟩ | ⟨-, -, same⟩
    · exact absurd ((wallet?_id h.sender).symm.trans (wallet?_id found)) sender
    · exact absurd ((wallet?_id h.receiver).symm.trans (wallet?_id found)) receiver
    · rw [same]

theorem wallet?_withWallet_other (new : b.wallet? w.id = none) (other : w.id ≠ id) :
    (b.withWallet w).wallet? id = b.wallet? id := by
  rw [wallet?_withWallet new, if_neg other]

theorem Grown.owners_iff (grown : b.Grown) :
    (owner, kind) ∈ b.owners ↔ ∃ w ∈ b.wallets, w.owner = owner ∧ w.kind = kind := by
  simp [grown.owners_eq]

theorem Grown.single (h : b.Grown) : (b.wallets.map fun w => (w.owner, w.kind)).Nodup := by
  induction h with
  | empty => exact List.nodup_nil
  | opened old new owed scaled free ih =>
    refine Table.nodup_append_new ih fun x mem same => free ?_
    rw [old.owners_eq, ← same]
    exact List.mem_map.mpr ⟨x, mem, rfl⟩
  | @posted b r d s q t p old postable new ih =>
    have owners : (b.post t p d).owners = b.owners := rfl
    rw [← (Grown.posted old postable new).owners_eq, owners, old.owners_eq]
    exact ih

end Books

theorem Performed.holds {ds : List Deed} {b : Books} (h : Performed ds b) :
    ∀ d ∈ ds, ∀ w, d.outcome = .opened (.ok w) → b.Holds w := by
  induction h with
  | start => exact fun _ => List.not_mem_nil.elim
  | @next ds b d before suits outcome ih =>
    have effect := before.effect suits outcome
    intro e mem w opened
    generalize (b.perform d.draw d.request).2 = b' at effect
    generalize d.request = request at effect
    rcases List.mem_append.mp mem with mem | mem
    · have there := ih e mem w opened
      generalize d.outcome = o at effect
      cases effect with
      | refused | rejected | replayed => exact there
      | opened new => exact there.withWallet new
      | posted => exact there.post
    · rw [← List.mem_singleton.mp mem, opened] at effect
      cases effect with
      | opened new => exact Books.holds_withWallet new

theorem Store.checkOpening_iff {s : Store} {owner : UserId} {kind : WalletKind} {opening : Money} :
    s.checkOpening owner kind opening = .ok () ↔ ¬opening.amount.IsNegative ∧
      opening.checkScale = .ok () ∧ (owner, kind) ∉ s.books.owners := by
  unfold Store.checkOpening
  split
  · rename_i owed
    simp [owed]
  · rename_i owed
    cases scaled : opening.checkScale with
    | error e => simp
    | ok => simp [owed]

namespace System
variable {S S' : System} {w : Wallet} {id : WalletId}

theorem BooksChange.holds (change : S.BooksChange S') (holds : S.store.books.Holds w) :
    S'.store.books.Holds w := by
  cases change with
  | none same => exact same ▸ holds
  | opened request returns new books => exact books ▸ holds.withWallet new
  | posted request returns postable new books => exact books ▸ holds.post

/-- A row of the table changes in a step in which a call returns that names it and has written. -/
theorem BooksChange.touched (change : S.BooksChange S') (grown : S.store.books.Grown)
    (id : WalletId) : S'.store.books.wallet? id = S.store.books.wallet? id ∨
      ∃ i request o, S'.request? i = some request ∧ request.Names id ∧ S.Returns S' i o ∧
        o.Writes := by
  cases change with
  | none same => exact Or.inl (by rw [same])
  | @opened i owner kind w request returns new books =>
    by_cases named : w.id = id
    · exact Or.inr ⟨i, _, _, request, named, returns, trivial⟩
    · exact Or.inl (by rw [books, Books.wallet?_withWallet_other new named])
  | @posted i r d s q t p request returns postable new books =>
    by_cases named : (Request.transfer r).Names id
    · exact Or.inr ⟨i, _, _, request, named, returns, trivial⟩
    · exact Or.inl (by rw [books, postable.wallet?_other grown named])

structure WalletTable (S : System) : Prop where
  sound : ∀ w ∈ S.store.books.wallets, ¬w.balance.IsNegative ∧ w.money.checkScale = .ok ()
  opened : ∀ i w, S.outcome? i = some (.opened (.ok w)) → S.store.books.Holds w
  kept : ∀ es S', S.run? es = some S' → ∀ w ∈ S.store.books.wallets, S'.store.books.Holds w
  single : (S.store.books.wallets.map fun w => (w.owner, w.kind)).Nodup
  owners : ∀ owner kind, (owner, kind) ∈ S.store.books.owners ↔
    ∃ w ∈ S.store.books.wallets, w.owner = owner ∧ w.kind = kind
  accepts : ∀ supply owner kind opening,
    (∃ w, (S.store.openWallet supply owner kind opening).1 = .ok w) ↔
      ¬opening.amount.IsNegative ∧ opening.checkScale = .ok () ∧
        ¬∃ w ∈ S.store.books.wallets, w.owner = owner ∧ w.kind = kind
  refuses : ∀ supply owner kind opening e,
    (S.store.openWallet supply owner kind opening).1 = .error e →
      (S.store.openWallet supply owner kind opening).2 = S.store
  touched : ∀ e S', S.next? e = some S' → ∀ id,
    S'.store.books.wallet? id = S.store.books.wallet? id ∨
      ∃ i request o, S'.request? i = some request ∧ request.Names id ∧ S.Returns S' i o ∧ o.Writes

/-- In every state of every run, balances are owed to their holders and whole numbers of smallest
units, wallets are what they were opened as, and owners are those of the wallets there are. Nothing
but opening a wallet and moving money from it or to it changes its row. -/
theorem Reachable.wallet_table (h : S.Reachable) : S.WalletTable := by
  have grown := h.safe.grown
  refine ⟨fun w mem => ?_, fun i w returned => ?_, fun es S' ran w mem => ?_, grown.single,
    fun owner kind => grown.owners_iff, fun supply owner kind opening => ?_,
    fun supply owner kind opening e refused => ?_, fun e S' next => ?_⟩
  · exact ⟨grown.owed w mem, Money.checkScale_iff.mpr (grown.whole w mem)⟩
  · obtain ⟨ds, ordered⟩ := h.ordered
    obtain ⟨d, mem, -, outcome⟩ := ordered.deed returned rfl
    exact ordered.performed.holds d mem w outcome
  · exact h.run_keeps ran (·.Holds w) BooksChange.holds (grown.holds mem)
  · rw [← grown.owners_iff, ← Store.checkOpening_iff]
    unfold Store.openWallet
    cases S.store.checkOpening owner kind opening with
    | error e => simp
    | ok => simp
  · unfold Store.openWallet at refused ⊢
    cases checked : S.store.checkOpening owner kind opening with
    | error e => rfl
    | ok => simp [checked] at refused
  · exact (h.safe.changes (step_of_next? next)).touched grown

/-- The balance that was rounded is still a whole number of cents. -/
theorem wallet_table_coarse : ∃ S, ({} : System).run? coarse = some S ∧
    S.store.books.wallets.map (·.balance.coefficient) = [99, 70000000000000000000000000000] ∧
    S.WalletTable := by
  have rows : (({} : System).run? coarse).map (·.store.books.wallets.map (·.balance.coefficient)) =
      some [99, 70000000000000000000000000000] := by
    decide +kernel
  obtain ⟨S, ran, balances⟩ := Option.map_eq_some_iff.mp rows
  exact ⟨S, ran, balances, (reachable_run .start ran).wallet_table⟩

end System

end WalletLedger
