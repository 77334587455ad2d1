import WalletLedger.Proofs.Order

/-!
Reconciliation. The entries of a wallet, in the order of their commit, lead from its opening balance
to the balance that it has: each starts where the one before ended, and each ends where its amount
takes it.
-/
namespace WalletLedger

/-- Entries that lead from one balance to another, without a gap. -/
def Chain (balance : Amount) : List Entry → Amount → Prop
  | [], last => last = balance
  | e :: rest, last =>
    e.before = balance ∧ e.kind.apply e.before e.amount = some e.after ∧ Chain e.after rest last

theorem chain_snoc {a b : Amount} {es : List Entry} {e : Entry} (chain : Chain a es b)
    (before : e.before = b) (link : e.kind.apply e.before e.amount = some e.after) :
    Chain a (es ++ [e]) e.after := by
  induction es generalizing a with
  | nil =>
    have same : b = a := chain
    exact ⟨before.trans same, link, rfl⟩
  | cons x es ih =>
    obtain ⟨starts, applies, rest⟩ := chain
    exact ⟨starts, applies, ih rest⟩

namespace Books
variable {b : Books} {r : TransferRequest} {d : Draw} {s q : Wallet} {t : Transaction}
  {p : TransferPlan}

def entriesFor (b : Books) (wallet : WalletId) : List Entry :=
  b.entries.filter (·.wallet = wallet)

theorem Grown.entriesFor_new {id : WalletId} (grown : b.Grown) (new : b.wallet? id = none) :
    b.entriesFor id = [] := by
  apply List.filter_eq_nil_iff.mpr
  intro e mem same
  obtain ⟨w, found⟩ := grown.wallets_known e mem
  rw [of_decide_eq_true same, new] at found
  contradiction

theorem Postable.moves (h : b.Postable r d s q t p) :
    p.debit.before = s.balance ∧ p.debit.kind.apply p.debit.before p.debit.amount =
        some p.debit.after ∧ (s.posted p d.committed).balance = p.debit.after ∧
      p.credit.before = q.balance ∧ p.credit.kind.apply p.credit.before p.credit.amount =
        some p.credit.after ∧ (q.posted p d.committed).balance = p.credit.after := by
  have sent := congrArg Wallet.balance (h.posted_sender d.committed)
  have received := congrArg Wallet.balance (h.posted_receiver d.committed)
  obtain ⟨left, gained, debit, credit, -, -, -, rfl⟩ := h.plan_eq
  exact ⟨rfl, debit, sent, rfl, credit, received⟩

theorem Postable.chain (postable : b.Postable r d s q t p) {id : WalletId} {w : Wallet} {a : Amount}
    (found : b.wallet? id = some w) (chain : Chain a (b.entriesFor id) w.balance) :
    Chain a ((b.post t p d).entriesFor id) (w.posted p d.committed).balance := by
  have named := wallet?_id found
  have distinct := TransferRequest.distinct_of_valid postable.valid
  obtain ⟨debitFrom, debit, debitTo, creditFrom, credit, creditTo⟩ := postable.moves
  obtain ⟨ofDebit, ofCredit⟩ := postable.parties
  have split : (b.post t p d).entriesFor id = b.entriesFor id ++
      [p.debit.recordedAt d.debited, p.credit.recordedAt d.credited].filter (·.wallet = id) :=
    List.filter_append _ _
  rw [split]
  by_cases sender : r.sender = id
  · have same : w = s := Option.some.inj ((sender ▸ found).symm.trans postable.sender)
    have last : [p.debit.recordedAt d.debited, p.credit.recordedAt d.credited].filter
        (·.wallet = id) = [p.debit.recordedAt d.debited] := by
      simp [EntryDraft.recordedAt, ofDebit, ofCredit, ← sender, Ne.symm distinct]
    rw [same] at chain ⊢
    rw [last, debitTo]
    exact chain_snoc chain debitFrom debit
  · by_cases receiver : r.receiver = id
    · have same : w = q := Option.some.inj ((receiver ▸ found).symm.trans postable.receiver)
      have last : [p.debit.recordedAt d.debited, p.credit.recordedAt d.credited].filter
          (·.wallet = id) = [p.credit.recordedAt d.credited] := by
        simp [EntryDraft.recordedAt, ofDebit, ofCredit, ← receiver, distinct]
      rw [same] at chain ⊢
      rw [last, creditTo]
      exact chain_snoc chain creditFrom credit
    · have none : [p.debit.recordedAt d.debited, p.credit.recordedAt d.credited].filter
          (·.wallet = id) = [] := by
        simp [EntryDraft.recordedAt, ofDebit, ofCredit, sender, receiver]
      have untouched : w.posted p d.committed = w := by
        apply Wallet.posted_other
        · rw [named, ofDebit]
          exact Ne.symm sender
        · rw [named, ofCredit]
          exact Ne.symm receiver
      rw [none, untouched, List.append_nil]
      exact chain

end Books

/-- Every wallet that was opened has a chain from its opening balance to its balance. -/
theorem Performed.chains {ds : List Deed} {b : Books} (h : Performed ds b) :
    ∀ d ∈ ds, ∀ w, d.outcome = .opened (.ok w) →
      ∃ x, b.wallet? w.id = some x ∧ x.currency = w.currency ∧
        Chain w.balance (b.entriesFor w.id) x.balance := by
  induction h with
  | start => exact fun _ => List.not_mem_nil.elim
  | @next ds b d before suits outcome ih =>
    have effect := before.effect suits outcome
    intro e mem w opened
    generalize (b.perform d.draw d.request).2 = b' at effect
    generalize d.request = request at effect
    rcases List.mem_append.mp mem with mem | mem
    · obtain ⟨x, found, currency, chain⟩ := ih e mem w opened
      generalize d.outcome = o at effect
      cases effect with
      | refused | rejected | replayed => exact ⟨x, found, currency, chain⟩
      | @opened y new owed scaled free =>
        refine ⟨x, ?_, currency, chain⟩
        rw [Books.wallet?_withWallet new, if_neg]
        · exact found
        · rintro same
          rw [same, found] at new
          contradiction
      | @posted r s q t p postable new =>
        refine ⟨x.posted p d.draw.committed, ?_, ?_, postable.chain found chain⟩
        · rw [Books.wallet?_post, found, Option.map_some]
        · exact (x.posted_currency p _).trans currency
    · rw [← List.mem_singleton.mp mem, opened] at effect
      cases effect with
      | opened new owed scaled free =>
        refine ⟨w, ?_, rfl, ?_⟩
        · rw [Books.wallet?_withWallet new, if_pos rfl]
        · have none := before.grown.entriesFor_new new
          show Chain w.balance (b.entriesFor w.id) w.balance
          rw [none]
          rfl

theorem Performed.wallets_opened {ds : List Deed} {b : Books} (h : Performed ds b) :
    ∀ w ∈ b.wallets, ∃ d ∈ ds, ∃ x, d.outcome = .opened (.ok x) ∧ x.id = w.id := by
  induction h with
  | start => exact fun _ => List.not_mem_nil.elim
  | @next ds b d before suits outcome ih =>
    have effect := before.effect suits outcome
    have old : ∀ w ∈ b.wallets,
        ∃ e ∈ ds ++ [d], ∃ x, e.outcome = .opened (.ok x) ∧ x.id = w.id := by
      intro w mem
      obtain ⟨e, there, rest⟩ := ih w mem
      exact ⟨e, List.mem_append_left _ there, rest⟩
    generalize (b.perform d.draw d.request).2 = b' at effect
    generalize request : d.request = r at effect
    generalize result : d.outcome = o at effect
    intro w mem
    cases effect with
    | refused | rejected | replayed => exact old w mem
    | @opened y new owed scaled free =>
      rcases List.mem_append.mp mem with mem | mem
      · exact old w mem
      · rw [List.mem_singleton.mp mem]
        exact ⟨d, by simp, y, result, rfl⟩
    | @posted r s q t p postable new =>
      obtain ⟨x, there, rfl⟩ := List.mem_map.mp mem
      rw [Wallet.posted_id]
      exact old x there

namespace System
variable {S : System} {ds : List Deed} {i : CallId} {id : WalletId} {opening : Money}

def Opened (S : System) (i : CallId) (id : WalletId) (opening : Money) : Prop :=
  ∃ owner kind w, S.request? i = some (.opening id owner kind opening) ∧
    S.outcome? i = some (.opened (.ok w))

theorem Ordered.opened_deed (ordered : S.Ordered ds) (opened : S.Opened i id opening) :
    ∃ d ∈ ds, ∃ w, d.outcome = .opened (.ok w) ∧ w.id = id ∧ w.money = opening := by
  obtain ⟨owner, kind, w, request, returned⟩ := opened
  obtain ⟨d, mem, rfl, outcome⟩ := ordered.deed returned rfl
  obtain ⟨before, after, -, effect⟩ := ordered.performed.effects d mem
  rw [outcome] at effect
  have asked := request.symm.trans (ordered.request? mem)
  rw [effect.request_of_opened] at asked
  cases asked
  exact ⟨d, mem, w, outcome, rfl, rfl⟩

/-- In every state of every run, the entries of a wallet lead from its opening balance to its
balance. -/
theorem Reachable.reconciled (h : S.Reachable) : ∀ w ∈ S.store.books.wallets,
    (∃ i opening, S.Opened i w.id opening) ∧
      ∀ i opening, S.Opened i w.id opening → opening.currency = w.currency ∧
        Chain opening.amount (S.store.books.entriesFor w.id) w.balance := by
  obtain ⟨ds, ordered⟩ := h.ordered
  intro w mem
  constructor
  · obtain ⟨d, there, x, outcome, named⟩ := ordered.performed.wallets_opened w mem
    obtain ⟨before, after, -, effect⟩ := ordered.performed.effects d there
    have returned : S.outcome? d.call = some d.outcome :=
      ordered.outcome? there (ordered.counted_of_writes there (by rw [outcome]; trivial))
    have asked := ordered.request? there
    rw [outcome] at effect returned
    rw [effect.request_of_opened, named] at asked
    exact ⟨d.call, x.money, x.owner, x.kind, x, asked, returned⟩
  · intro i opening opened
    obtain ⟨d, there, x, outcome, named, rfl⟩ := ordered.opened_deed opened
    obtain ⟨y, found, currency, chain⟩ := ordered.performed.chains d there x outcome
    have here : S.store.books.wallet? w.id = some w :=
      Table.find?_of_mem ordered.performed.grown.wallets_distinct mem
    rw [named] at found chain
    cases here.symm.trans found
    exact ⟨currency.symm, chain⟩

theorem reconciled_race : ∃ S, ({} : System).run? race = some S ∧
    S.store.books.wallets.length = 2 ∧ S.store.books.entries.length = 2 ∧
    ∀ w ∈ S.store.books.wallets, ∃ i opening, S.Opened i w.id opening ∧
      Chain opening.amount (S.store.books.entriesFor w.id) w.balance := by
  obtain ⟨S, ran⟩ := Option.isSome_iff_exists.mp race_runs
  have size : (({} : System).run? race).all fun S =>
      S.store.books.wallets.length = 2 ∧ S.store.books.entries.length = 2 := by
    decide +kernel
  rw [ran] at size
  obtain ⟨wallets, entries⟩ := of_decide_eq_true size
  refine ⟨S, ran, wallets, entries, fun w mem => ?_⟩
  obtain ⟨⟨i, opening, opened⟩, chains⟩ := (reachable_run .start ran).reconciled w mem
  exact ⟨i, opening, opened, (chains i opening opened).2⟩

end System

end WalletLedger
