import WalletLedger.Proofs.Asking

/-!
A wallet's history, page by page, while nothing is committed. A page is a window of the listing, and
as many windows stand side by side as it takes to come to its end; so a reader who takes all pages
meets every transaction once. Beyond the last page there is nothing.
-/
namespace WalletLedger

theorem PageRequest.clamped_clamped (r : PageRequest) : r.clamped.clamped = r.clamped := by
  simp only [clamped, maxPerPage, mk.injEq]
  omega

theorem effectiveLimit_clamped {p : Nat} (pos : 0 < p) (small : p ≤ 100) : effectiveLimit p = p := by
  rw [effectiveLimit, if_neg (Nat.ne_of_gt pos)]
  exact Nat.min_eq_left small

namespace Books

/-- The transactions of a wallet, once each and latest first. Every list of transactions that is asked
for is a window of this one. -/
structure Lists (b : Books) (wallet : WalletId) (listing : List Transaction) : Prop where
  whole : listing.Perm (b.transactions.filter (·.involves wallet))
  descends : listing.Pairwise Transaction.Above
  windows : ∀ limit offset, ∃ size window, size = (if limit = 0 then 20 else min limit 100) ∧
    window = (listing.drop offset).take size ∧
    window.length = min size (listing.length - offset) ∧
    (QueryStage.transactions wallet limit offset).Told b (.ok (.transactions window))

/-- A listing in pages of `p` items, the last one with what is left. A page that is not there is shown
as an empty one, and page 0 as page 1. -/
structure Shows (b : Books) (wallet : WalletId) (listing : List Transaction) (perPage p : Nat)
    (pages : Nat) (page : Nat → List Transaction) : Prop where
  told : ∀ n, (QueryStage.historyWallet wallet ⟨n, perPage⟩).Told b
    (.ok (.history ⟨page n, ⟨max n 1, p, listing.length, pages⟩⟩))
  clamped : ∀ n, (QueryStage.historyWallet wallet ⟨max n 1, p⟩).Told b
    (.ok (.history ⟨page n, ⟨max n 1, p, listing.length, pages⟩⟩))
  listed : ∀ n, (QueryStage.transactions wallet p ((max n 1 - 1) * p)).Told b
    (.ok (.transactions (page n)))
  complete : (List.range pages).flatMap (fun i => page (i + 1)) = listing
  full : ∀ n, 1 ≤ n → n < pages → (page n).length = p
  beyond : ∀ n, pages < n → page n = []
  offsets : ∀ n, n < twoTo 32 → (max n 1 - 1) * p < twoTo 64

def pageOf (b : Books) (wallet : WalletId) (r : PageRequest) : PageResponse Transaction :=
  .of (((b.history wallet).drop r.offset).take r.limit) r (b.history wallet).length

def pageAt (b : Books) (wallet : WalletId) (p n : Nat) : List Transaction :=
  ((b.history wallet).drop ((max n 1 - 1) * p)).take p

variable {b : Books} {wallet : WalletId} {w : Wallet} {perPage p n : Nat}

theorem pageOf_eq (size : p = min (max perPage 1) 100) (n : Nat) :
    b.pageOf wallet ⟨n, perPage⟩ = ⟨b.pageAt wallet p n,
      ⟨max n 1, p, (b.history wallet).length, pageCount (b.history wallet).length p⟩⟩ := by
  rw [size]
  rfl

theorem pageOf_clamped (b : Books) (wallet : WalletId) (r : PageRequest) :
    b.pageOf wallet r.clamped = b.pageOf wallet r := by
  simp only [pageOf, PageResponse.of, PageRequest.offset, PageRequest.limit,
    PageRequest.clamped_clamped]

theorem comes_transactions (b : Books) (wallet : WalletId) (limit offset : Nat) :
    (QueryStage.transactions wallet limit offset).Comes b
      (.ok (.transactions (((b.history wallet).drop offset).take (effectiveLimit limit)))) :=
  .here rfl

theorem comes_history (held : b.wallet? wallet = some w) (r : PageRequest) :
    (QueryStage.historyWallet wallet r).Comes b (.ok (.history (b.pageOf wallet r))) := by
  have found : (QueryStage.historyWallet wallet r).next (Store.answer b (.wallet wallet)) =
      .inl (.historyCount wallet r) := by
    rw [Store.answer, held]
    rfl
  rw [pageOf, (b.history_filter wallet).length_eq]
  exact .later found (.later rfl (.here rfl))

theorem lists_history (ids : (b.transactions.map (·.id)).Nodup) (wallet : WalletId) :
    b.Lists wallet (b.history wallet) where
  whole := b.history_filter wallet
  descends := history_above ids wallet
  windows := fun limit offset => ⟨effectiveLimit limit, _, rfl, rfl, by
    rw [List.length_take, List.length_drop], (b.comes_transactions wallet limit offset).told ids⟩

theorem pageAt_succ : b.pageAt wallet p (n + 1) = ((b.history wallet).drop (n * p)).take p := by
  rw [pageAt, Nat.max_eq_left (Nat.le_add_left 1 n), Nat.add_sub_cancel]

theorem length_pageAt (pos : 0 < p) (least : 1 ≤ n)
    (early : n < pageCount (b.history wallet).length p) : (b.pageAt wallet p n).length = p := by
  have enough := mul_le_of_lt_pageCount pos early
  obtain ⟨m, rfl⟩ := Nat.exists_eq_add_of_le' least
  rw [Nat.succ_mul] at enough
  rw [pageAt_succ, List.length_take, List.length_drop]
  omega

theorem pageAt_beyond (pos : 0 < p) (late : pageCount (b.history wallet).length p < n) :
    b.pageAt wallet p n = [] := by
  have covered := pageCount_covers pos (b.history wallet).length
  have before : pageCount (b.history wallet).length p ≤ max n 1 - 1 := by omega
  have behind := covered.trans (Nat.mul_le_mul_right p before)
  rw [pageAt, List.drop_eq_nil_of_le behind, List.take_nil]

theorem flatMap_pageAt (pos : 0 < p) :
    (List.range (pageCount (b.history wallet).length p)).flatMap
      (fun i => b.pageAt wallet p (i + 1)) = b.history wallet := by
  simp only [pageAt_succ]
  rw [flatMap_windows, List.take_of_length_le (pageCount_covers pos _)]

theorem shows_history (ids : (b.transactions.map (·.id)).Nodup) (held : b.wallet? wallet = some w)
    (size : p = min (max perPage 1) 100) :
    b.Shows wallet (b.history wallet) perPage p (pageCount (b.history wallet).length p)
      (b.pageAt wallet p) := by
  have pos : 0 < p := by omega
  have small : p ≤ 100 := by omega
  have told : ∀ n, (QueryStage.historyWallet wallet ⟨n, perPage⟩).Told b _ :=
    fun n => pageOf_eq size n ▸ (comes_history held ⟨n, perPage⟩).told ids
  refine ⟨told, fun n => ?_, fun n => ?_, flatMap_pageAt pos, fun n => length_pageAt pos,
    fun n => pageAt_beyond pos, fun n fits => ?_⟩
  · have clamped : (⟨max n 1, p⟩ : PageRequest) = PageRequest.clamped ⟨n, perPage⟩ := by
      rw [size]
      rfl
    rw [clamped, ← pageOf_eq size, ← pageOf_clamped]
    exact (comes_history held _).told ids
  · have comes := b.comes_transactions wallet p ((max n 1 - 1) * p)
    rw [effectiveLimit_clamped pos small] at comes
    exact comes.told ids
  · have words : twoTo 32 = 2 ^ 32 ∧ twoTo 64 = 2 ^ 64 := ⟨rfl, rfl⟩
    have bound : (max n 1 - 1) * p ≤ 2 ^ 32 * 100 := Nat.mul_le_mul (by omega) small
    omega

/-- Where no two transactions go by one identifier, those of a wallet make up one listing, in whatever
order they are kept. With any number of items to a page, the pages hold all of it, side by side. -/
theorem paginated (ids : (b.transactions.map (·.id)).Nodup) (held : b.wallet? wallet = some w) :
    ∃ listing, b.Lists wallet listing ∧ ∀ perPage, ∃ pages page,
      b.Shows wallet listing perPage (min (max perPage 1) 100) pages page :=
  ⟨_, lists_history ids wallet, fun _ => ⟨_, _, shows_history ids held rfl⟩⟩

/-- A wallet with three transactions, two of them made at one time, beside one of other wallets. -/
def tied : Books where
  wallets := [⟨.ofNat 1, .ofNat 1, .savings, .usd, .zero, .epoch, .epoch⟩]
  transactions :=
    let made (id sender receiver : Nat) : TransactionDraft :=
      ⟨⟨.ofNat sender, .ofNat receiver, .zero, .usd, .transfer, none, ⟨"k"⟩⟩, .ofNat id, .completed⟩
    [(made 1 1 2).recordedAt Timestamp.epoch.tick, (made 2 2 1).recordedAt .epoch,
      (made 3 1 3).recordedAt .epoch, (made 4 2 3).recordedAt .epoch]

theorem paginated_tied : ∃ listing pages page, listing.length = 3 ∧
    tied.Lists (.ofNat 1) listing ∧ tied.Shows (.ofNat 1) listing 2 2 pages page := by
  have ids : (tied.transactions.map (·.id)).Nodup := by decide +kernel
  have held : tied.wallet? (.ofNat 1) = some ⟨.ofNat 1, .ofNat 1, .savings, .usd, .zero, .epoch,
    .epoch⟩ := rfl
  obtain ⟨listing, lists, shows⟩ := paginated ids held
  obtain ⟨pages, page, shown⟩ := shows 2
  have three : listing.length = 3 := lists.whole.length_eq.trans (by decide +kernel)
  exact ⟨listing, pages, page, three, lists, shown⟩

end Books

end WalletLedger
