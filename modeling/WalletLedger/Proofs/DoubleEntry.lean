import WalletLedger.Proofs.Room

/-!
Double entry. Every transfer in the books is completed, keeps the rules that a request has to keep,
and has one debit and one credit that check out against each other. Entries without a transfer do
not exist, so what is listed for a wallet is what moved its balance. Nothing that is in the books
is ever changed or taken out.
-/
namespace WalletLedger

structure Transaction.Proper (t : Transaction) : Prop where
  completed : t.status = .completed
  positive : t.amount.IsPositive
  scaled : t.money.checkScale = .ok ()
  whole : t.amount.Whole t.currency
  keyed : IdempotencyKey.check t.key.text = .ok t.key
  apart : t.sender ≠ t.receiver

theorem Entry.Booked.checkConsistent {e : Entry} (h : e.Booked) :
    e.toEntryDraft.checkConsistent = .ok () := by
  simp [EntryDraft.checkConsistent, EntryDraft.consistent, h.linked]

theorem Transaction.Posting.validateEntries {t : Transaction} {debit credit : Entry}
    (posting : t.Posting debit credit) (positive : t.amount.IsPositive)
    (owner : debit.transaction = credit.transaction) (debited : debit.Booked)
    (credited : credit.Booked) :
    validateEntries [debit.toEntryDraft, credit.toEntryDraft] = .ok () ∧
      validateEntries [credit.toEntryDraft, debit.toEntryDraft] = .ok () := by
  obtain ⟨-, ⟨debits, -, taken, -⟩, ⟨credits, -, given, -⟩⟩ := posting
  have pair : validatePair debit.toEntryDraft credit.toEntryDraft = .ok () := by
    simp [validatePair, taken, given, positive, owner, debited.checkConsistent,
      credited.checkConsistent, bind, Except.bind]
  simp only [WalletLedger.validateEntries, debits, credits, pair, and_self]

/-- What a read is answered, unless a fault strikes it. -/
def Store.Answers (s : Store) (what : StoreRead) (a : what.Answer) : Prop :=
  (s.read what).1 = .ok a ∨ ∃ f ∈ s.faults, (s.read what).1 = .error f.error

theorem Store.answers (s : Store) (what : StoreRead) :
    s.Answers what (Store.answer s.books what) := by
  unfold Store.Answers Store.read
  rcases s.strike_cases .read with ⟨f, mem, left, struck⟩ | ⟨left, struck, -⟩
  · exact Or.inr ⟨f, mem, by rw [struck]⟩
  · exact Or.inl (by rw [struck])

namespace Books
variable {b : Books} {r : TransferRequest} {d : Draw} {s q : Wallet} {t : Transaction}
  {p : TransferPlan}

theorem Postable.proper (h : b.Postable r d s q t p) :
    (t.withStatus .completed d.completed).Proper := by
  obtain ⟨positive, scaled, keyed, apart⟩ := TransferRequest.validate_ok h.valid
  have request : t.toTransferRequest = r := by rw [h.pending]; rfl
  rw [← request] at positive scaled keyed apart
  exact ⟨rfl, positive, scaled, Money.whole_of_checkScale scaled, keyed, apart⟩

theorem currency_post {id : WalletId} {c : Currency}
    (held : ∃ w, b.wallet? id = some w ∧ w.currency = c) :
    ∃ w, (b.post t p d).wallet? id = some w ∧ w.currency = c := by
  obtain ⟨w, found, same⟩ := held
  exact ⟨w.posted p d.committed, by rw [wallet?_post, found, Option.map_some],
    (w.posted_currency p _).trans same⟩

theorem Grown.proper (h : b.Grown) : ∀ t ∈ b.transactions, t.Proper := by
  induction h with
  | empty => exact fun _ => List.not_mem_nil.elim
  | opened old new owed scaled free ih => exact ih
  | posted old postable new ih =>
    intro u mem
    rcases List.mem_append.mp mem with mem | mem
    · exact ih u mem
    · exact List.mem_singleton.mp mem ▸ postable.proper

theorem Grown.parties (h : b.Grown) : ∀ t ∈ b.transactions, ∀ id, t.involves id →
    ∃ w, b.wallet? id = some w ∧ w.currency = t.currency := by
  induction h with
  | empty => exact fun _ => List.not_mem_nil.elim
  | @opened b w old new owed scaled free ih =>
    intro t mem id party
    obtain ⟨x, found, currency⟩ := ih t mem id party
    refine ⟨x, ?_, currency⟩
    have other : w.id ≠ id := by
      rintro rfl
      rw [new] at found
      contradiction
    rw [wallet?_withWallet new, if_neg other, found]
  | @posted b r d s q t p old postable new ih =>
    intro u mem id party
    apply currency_post
    rcases List.mem_append.mp mem with mem | mem
    · exact ih u mem id party
    · rw [List.mem_singleton.mp mem] at party ⊢
      obtain ⟨-, -, -, -, -, sent, received, -⟩ := postable.plan_eq
      have request : t.toTransferRequest = r := by rw [postable.pending]; rfl
      have party : (t.sender = id || t.receiver = id) = true := party
      simp only [Bool.or_eq_true, decide_eq_true_eq] at party
      rcases party with rfl | rfl
      · exact ⟨s, request ▸ postable.sender, request ▸ sent⟩
      · exact ⟨q, request ▸ postable.receiver, request ▸ received⟩

def ownerOf (b : Books) (e : Entry) : Option Transaction := b.transaction? e.transaction

/-- The entries of a wallet belong to its transactions, one to each, in the order of their
commit. -/
theorem Grown.involving (h : b.Grown) (wallet : WalletId) :
    b.transactions.filter (·.involves wallet) = (b.entriesFor wallet).filterMap b.ownerOf := by
  induction h with
  | empty => rfl
  | opened old new owed scaled free ih => exact ih
  | @posted b r d s q t p old postable new ih =>
    have before : (b.entriesFor wallet).filterMap (b.post t p d).ownerOf =
        (b.entriesFor wallet).filterMap b.ownerOf := by
      refine List.filterMap_congr fun e mem => ?_
      obtain ⟨u, there, owner⟩ := old.entries_owned e (List.mem_of_mem_filter mem)
      have other : t.id ≠ e.transaction := fun same =>
        Table.find?_none_iff.mp new u there (owner.trans same.symm)
      rw [ownerOf, transaction?_post new, if_neg other, ownerOf]
    have last : [t.withStatus .completed d.completed].filter (·.involves wallet) =
        ([p.debit.recordedAt d.debited, p.credit.recordedAt d.credited].filter
          (·.wallet = wallet)).filterMap (b.post t p d).ownerOf := by
      obtain ⟨distinct, ⟨-, payer, -⟩, ⟨-, payee, -⟩⟩ := postable.posting
      obtain ⟨debit, credit⟩ := postable.owners
      generalize p.debit.recordedAt d.debited = x at payer debit
      generalize p.credit.recordedAt d.credited = y at payee credit
      have row : (b.post t p d).transaction? t.id = some (t.withStatus .completed d.completed) := by
        rw [transaction?_post new, if_pos rfl]
      have debited : (b.post t p d).ownerOf x = some (t.withStatus .completed d.completed) := by
        rw [ownerOf, debit, row]
      have credited : (b.post t p d).ownerOf y = some (t.withStatus .completed d.completed) := by
        rw [ownerOf, credit, row]
      generalize t.withStatus .completed d.completed = u at *
      by_cases first : u.sender = wallet
      · have second : u.receiver ≠ wallet := fun same => distinct (first.trans same.symm)
        simp [Transaction.involves, payer, payee, first, second, debited]
      · by_cases second : u.receiver = wallet
        · simp [Transaction.involves, payer, payee, first, second, credited]
        · simp [Transaction.involves, payer, payee, first, second]
    have entries : (b.post t p d).entriesFor wallet = b.entriesFor wallet ++
        [p.debit.recordedAt d.debited, p.credit.recordedAt d.credited].filter
          (·.wallet = wallet) := List.filter_append _ _
    rw [entries, List.filterMap_append, before, ← ih, ← last]
    exact List.filter_append _ _

theorem Grown.history_perm (h : b.Grown) (wallet : WalletId) :
    (b.history wallet).Perm ((b.entriesFor wallet).filterMap b.ownerOf) :=
  h.involving wallet ▸ List.mergeSort_perm _ _

end Books

namespace Store

structure Records (s : Store) (t : Transaction) : Prop extends t.Proper where
  parties : ∀ id, t.involves id → ∃ w, s.books.wallet? id = some w ∧ w.currency = t.currency
  paired : ∃ debit credit, s.books.entriesOf t.id = [debit, credit] ∧
    s.Answers (.entries t.id) [debit, credit] ∧ t.Posting debit credit ∧
    validateEntries [debit.toEntryDraft, credit.toEntryDraft] = .ok () ∧
    validateEntries [credit.toEntryDraft, debit.toEntryDraft] = .ok ()

theorem records {s : Store} {t : Transaction} (grown : s.books.Grown)
    (mem : t ∈ s.books.transactions) : s.Records t := by
  have proper := grown.proper t mem
  obtain ⟨debit, credit, entries, posting, debited, credited, -⟩ := grown.pair_balanced mem
  have owned : ∀ e ∈ [debit, credit], e.transaction = t.id := by
    rw [← entries]
    exact fun e there => of_decide_eq_true (List.mem_filter.mp there).2
  have owner : debit.transaction = credit.transaction :=
    (owned debit (by simp)).trans (owned credit (by simp)).symm
  have listed := s.answers (.entries t.id)
  rw [answer, entries] at listed
  exact ⟨proper, grown.parties t mem, debit, credit, entries, listed, posting,
    posting.validateEntries proper.positive owner debited credited⟩

end Store

namespace System
variable {S S' : System} {t : Transaction}

theorem BooksChange.keeps {es : List Entry} (change : S.BooksChange S')
    (there : t ∈ S.store.books.transactions ∧ S.store.books.entriesOf t.id = es) :
    t ∈ S'.store.books.transactions ∧ S'.store.books.entriesOf t.id = es := by
  cases change with
  | none same => rwa [same]
  | opened request returns new books =>
    rw [books]
    exact there
  | @posted i r d s q pending p request returns postable new books =>
    have other : pending.id ≠ t.id := fun same =>
      Table.find?_none_iff.mp new t there.1 same.symm
    rw [books]
    exact ⟨List.mem_append_left _ there.1, (postable.entriesOf_old other).trans there.2⟩

structure DoubleEntry (S : System) : Prop where
  recorded : ∀ t ∈ S.store.books.transactions, S.store.Records t
  owned : ∀ e ∈ S.store.books.entries, ∃ t ∈ S.store.books.transactions,
    S.store.books.ownerOf e = some t ∧ e ∈ S.store.books.entriesOf t.id
  listed : ∀ wallet, ∃ ts : List Transaction,
    ts.Perm ((S.store.books.entriesFor wallet).filterMap S.store.books.ownerOf) ∧
    S.store.Answers (.transactionCount wallet) ts.length ∧
    ∀ limit offset, S.store.Answers (.transactions wallet limit offset) ((ts.drop offset).take limit)
  kept : ∀ es S', S.run? es = some S' → ∀ t ∈ S.store.books.transactions,
    S'.store.books.transaction? t.id = some t ∧
      S'.store.books.entriesOf t.id = S.store.books.entriesOf t.id

/-- In every state of every run the books are in double entry, whatever requests, faults, deadlines
and dropped calls there were. -/
theorem Reachable.double_entry (h : S.Reachable) : S.DoubleEntry := by
  have grown := h.safe.grown
  refine ⟨fun t mem => Store.records grown mem, fun e mem => ?_, fun wallet => ?_,
    fun es S' ran t mem => ?_⟩
  · obtain ⟨t, there, owner⟩ := grown.entries_owned e mem
    refine ⟨t, there, ?_, List.mem_filter.mpr ⟨mem, decide_eq_true owner.symm⟩⟩
    rw [Books.ownerOf, ← owner]
    exact Table.find?_of_mem grown.transactions_distinct there
  · refine ⟨S.store.books.history wallet, grown.history_perm wallet, ?_,
      fun limit offset => S.store.answers (.transactions wallet limit offset)⟩
    have count := S.store.answers (.transactionCount wallet)
    rwa [Store.answer, ← (List.mergeSort_perm _ Books.newestFirst).length_eq] at count
  · obtain ⟨there, entries⟩ := h.run_keeps ran (fun b => t ∈ b.transactions ∧
      b.entriesOf t.id = S.store.books.entriesOf t.id) BooksChange.keeps ⟨mem, rfl⟩
    exact ⟨Table.find?_of_mem (reachable_run h ran).safe.grown.transactions_distinct there, entries⟩

theorem double_entry_race : ∃ S, ({} : System).run? race = some S ∧
    S.store.books.transactions.length = 1 ∧ S.store.books.entries.length = 2 ∧ S.DoubleEntry := by
  obtain ⟨S, ran⟩ := Option.isSome_iff_exists.mp race_runs
  have sizes : (({} : System).run? race).all fun S =>
      S.store.books.transactions.length = 1 ∧ S.store.books.entries.length = 2 := by
    decide +kernel
  have sizes : S.store.books.transactions.length = 1 ∧ S.store.books.entries.length = 2 := by
    simpa [ran] using sizes
  exact ⟨S, ran, sizes.1, sizes.2, (reachable_run .start ran).double_entry⟩

end System

end WalletLedger
