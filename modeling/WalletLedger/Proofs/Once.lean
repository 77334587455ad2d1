import Mathlib.Data.List.Pairwise
import WalletLedger.Proofs.Chain

/-!
Exactly once. Among any number of transfers with one key, at most one is made, the others are
answered with it, and its two entries are all that ever moved a balance for it.
-/
namespace WalletLedger

structure Transaction.Posting (t : Transaction) (debit credit : Entry) : Prop where
  apart : t.sender ≠ t.receiver
  debited : debit.kind = .debit ∧ debit.wallet = t.sender ∧ debit.amount = t.amount ∧
    debit.currency = t.currency
  credited : credit.kind = .credit ∧ credit.wallet = t.receiver ∧ credit.amount = t.amount ∧
    credit.currency = t.currency

theorem IdempotencyKey.check_of_domain {text : String} {e : LedgerError}
    (h : IdempotencyKey.check text = .error e) : e.ofDomain := by
  unfold check at h
  repeat' split at h
  all_goals cases h
  all_goals rfl

theorem TransferRequest.validate_of_domain {r : TransferRequest} {e : LedgerError}
    (h : r.validate = .error e) : e.ofDomain := by
  rw [validate_eq] at h
  split at h
  · cases h
    rfl
  · split at h
    · cases h
      rfl
    · split at h
      · rename_i e' check
        cases h
        exact IdempotencyKey.check_of_domain check
      · split at h
        · cases h
          rfl
        · contradiction

theorem TransferRequest.validateAgainst_of_domain {r : TransferRequest} {s q : Wallet}
    {e : LedgerError} (h : r.validateAgainst s q = .error e) : e.ofDomain := by
  rw [validateAgainst_eq] at h
  repeat' split at h
  all_goals cases h
  all_goals rfl

theorem planTransfer_of_domain {debit credit : EntryId} {t : Transaction} {s q : Wallet}
    {e : LedgerError} (h : planTransfer debit credit t s q = .error e) : e.ofDomain := by
  unfold planTransfer at h
  repeat' split at h
  all_goals cases h
  all_goals rfl

namespace Books
variable {b : Books} {r : TransferRequest} {d : Draw} {s q : Wallet} {t : Transaction}
  {p : TransferPlan}

theorem Grown.entriesOf_new (grown : b.Grown) {id : TransactionId}
    (new : b.transaction? id = none) : b.entriesOf id = [] := by
  apply List.filter_eq_nil_iff.mpr
  intro e mem same
  obtain ⟨t, there, owner⟩ := grown.entries_owned e mem
  exact Table.find?_none_iff.mp new t there (owner.trans (of_decide_eq_true same))

theorem Postable.owners (h : b.Postable r d s q t p) :
    (p.debit.recordedAt d.debited).transaction = t.id ∧
      (p.credit.recordedAt d.credited).transaction = t.id := by
  obtain ⟨sent, received, -, -, -, -, -, rfl⟩ := h.plan_eq
  exact ⟨rfl, rfl⟩

theorem Postable.entriesOf_old (h : b.Postable r d s q t p) {id : TransactionId}
    (other : t.id ≠ id) : (b.post t p d).entriesOf id = b.entriesOf id := by
  obtain ⟨debit, credit⟩ := h.owners
  have none : [p.debit.recordedAt d.debited, p.credit.recordedAt d.credited].filter
      (·.transaction = id) = [] := by
    simp [debit, credit, other]
  have split : (b.post t p d).entriesOf id = b.entriesOf id ++ [p.debit.recordedAt d.debited,
      p.credit.recordedAt d.credited].filter (·.transaction = id) := List.filter_append _ _
  rw [split, none, List.append_nil]

theorem Postable.entriesOf_new (h : b.Postable r d s q t p) (grown : b.Grown)
    (new : b.transaction? t.id = none) : (b.post t p d).entriesOf t.id =
      [p.debit.recordedAt d.debited, p.credit.recordedAt d.credited] := by
  obtain ⟨debit, credit⟩ := h.owners
  have both : [p.debit.recordedAt d.debited, p.credit.recordedAt d.credited].filter
      (·.transaction = t.id) = [p.debit.recordedAt d.debited, p.credit.recordedAt d.credited] := by
    simp [debit, credit]
  have split : (b.post t p d).entriesOf t.id = b.entriesOf t.id ++ [p.debit.recordedAt d.debited,
      p.credit.recordedAt d.credited].filter (·.transaction = t.id) := List.filter_append _ _
  rw [split, both, grown.entriesOf_new new, List.nil_append]

theorem Postable.posting (h : b.Postable r d s q t p) :
    (t.withStatus .completed d.completed).Posting (p.debit.recordedAt d.debited)
      (p.credit.recordedAt d.credited) := by
  have distinct := TransferRequest.distinct_of_valid h.valid
  have request : t.toTransferRequest = r := by rw [h.pending]; rfl
  obtain ⟨sent, received, -, -, -, -, -, rfl⟩ := h.plan_eq
  rw [← request] at distinct ⊢
  exact ⟨distinct, ⟨rfl, rfl, rfl, rfl⟩, ⟨rfl, rfl, rfl, rfl⟩⟩

theorem Grown.postings (h : b.Grown) :
    ∀ t ∈ b.transactions, ∃ debit credit, b.entriesOf t.id = [debit, credit] ∧
      t.Posting debit credit := by
  induction h with
  | empty => exact fun _ => List.not_mem_nil.elim
  | opened old new owed scaled free ih => exact ih
  | @posted b r d s q t p old postable new ih =>
    intro u mem
    rcases List.mem_append.mp mem with mem | mem
    · obtain ⟨debit, credit, entries, posting⟩ := ih u mem
      have other : t.id ≠ u.id := fun same => Table.find?_none_iff.mp new u mem same.symm
      exact ⟨debit, credit, (postable.entriesOf_old other).trans entries, posting⟩
    · rw [List.mem_singleton.mp mem]
      exact ⟨_, _, postable.entriesOf_new old new, postable.posting⟩

theorem Grown.replayed (grown : b.Grown) (h : b.settle r d = .replay t) :
    t ∈ b.transactions ∧ t.key = r.key := by
  unfold settle at h
  split at h
  · contradiction
  · split at h
    · contradiction
    · contradiction
    · split at h
      · rename_i found
        cases h
        exact grown.transactionByKey?_iff.mp found
      · split at h
        · contradiction
        · dsimp only at h
          split at h <;> contradiction

/-- The ledger turns transfers down for what lies with the request, and never because it finds its
own rules broken. -/
theorem settle_of_domain {e : LedgerError} (h : b.settle r d = .reject e) : e.ofDomain := by
  unfold settle at h
  split at h
  · rename_i invalid
    cases h
    exact TransferRequest.validate_of_domain invalid
  · split at h
    · cases h; rfl
    · cases h; rfl
    · split at h
      · contradiction
      · split at h
        · rename_i refused
          cases h
          exact TransferRequest.validateAgainst_of_domain refused
        · dsimp only at h
          split at h
          · rename_i unplanned
            cases h
            exact planTransfer_of_domain unplanned
          · contradiction

end Books

section
variable {b : Books} {d : Draw} {request : Request} {o : Outcome} {b' : Books} {ds : List Deed}

theorem Effect.answered {r : TransferRequest} {x : TransferOutcome} (grown : b.Grown)
    (effect : Effect b d (.transfer r) (.transferred (.ok x)) b') :
    x.transaction ∈ b'.transactions ∧ x.transaction.key = r.key := by
  cases effect with
  | replayed settled => exact grown.replayed settled
  | posted postable new =>
    exact ⟨by simp [Books.post, TransferOutcome.transaction], postable.key_eq⟩

theorem Effect.keeps (effect : Effect b d request o b') {t : Transaction}
    (mem : t ∈ b.transactions) : t ∈ b'.transactions := by
  cases effect with
  | refused | rejected | replayed => exact mem
  | opened => exact mem
  | posted => exact List.mem_append_left _ mem

theorem Performed.answered (h : Performed ds b) : ∀ e ∈ ds, ∀ r x, e.request = .transfer r →
    e.outcome = .transferred (.ok x) →
    x.transaction ∈ b.transactions ∧ x.transaction.key = r.key := by
  induction h with
  | start => exact fun _ => List.not_mem_nil.elim
  | @next ds b d before suits outcome ih =>
    have effect := before.effect suits outcome
    generalize (b.perform d.draw d.request).2 = b' at effect
    intro e mem r x asked answer
    rcases List.mem_append.mp mem with mem | mem
    · obtain ⟨there, key⟩ := ih e mem r x asked answer
      exact ⟨effect.keeps there, key⟩
    · rw [← List.mem_singleton.mp mem, asked, answer] at effect
      exact effect.answered before.grown

theorem Effect.request_of_transferred {x : TransferResult}
    (effect : Effect b d request (.transferred x) b') : ∃ r, request = .transfer r := by
  cases effect <;> exact ⟨_, rfl⟩

def Deed.Apart (e f : Deed) : Prop :=
  ∀ t u, e.outcome = .transferred (.ok (.created t)) → f.outcome = .transferred (.ok (.created u)) →
    t.key ≠ u.key

instance : Std.Symm Deed.Apart :=
  ⟨fun _ _ apart t u created created' clash => apart u t created' created clash.symm⟩

theorem Performed.created_apart (h : Performed ds b) : ds.Pairwise Deed.Apart := by
  induction h with
  | start => exact .nil
  | @next ds b d before suits outcome ih =>
    refine List.pairwise_append.mpr ⟨ih, List.pairwise_singleton _ _, ?_⟩
    intro e mem f last t u created created'
    obtain ⟨b₁, b₂, -, earlier⟩ := before.effects e mem
    rw [created] at earlier
    obtain ⟨r, asked⟩ := earlier.request_of_transferred
    have there : t ∈ b.transactions := (before.answered e mem r _ asked created).1
    have effect := before.effect suits outcome
    rw [← List.mem_singleton.mp last, created'] at effect
    generalize (b.perform f.draw f.request).2 = b' at effect
    generalize f.request = request at effect
    cases effect with
    | posted postable new =>
      intro same
      exact before.grown.hasKey_false_iff.mp postable.absent t there (same.trans postable.key_eq)

end

namespace System
variable {S : System} {ds : List Deed} {key : IdempotencyKey}

structure Once (S : System) (key : IdempotencyKey) : Prop where
  committed : (S.store.books.transactions.filter (·.key = key)).length ≤ 1
  created : ∀ i j r q t u, S.request? i = some (.transfer r) → S.request? j = some (.transfer q) →
    r.key = key → q.key = key → S.outcome? i = some (.transferred (.ok (.created t))) →
    S.outcome? j = some (.transferred (.ok (.created u))) → i = j
  answered : ∀ i r x, S.request? i = some (.transfer r) → r.key = key →
    S.outcome? i = some (.transferred (.ok x)) →
    S.store.books.transactions.filter (·.key = key) = [x.transaction]
  posted : ∀ t ∈ S.store.books.transactions, t.key = key →
    ∃ debit credit, S.store.books.entriesOf t.id = [debit, credit] ∧ t.Posting debit credit
  moved : ∀ i id opening, S.Opened i id opening → ∃ w, S.store.books.wallet? id = some w ∧
    Chain opening.amount (S.store.books.entriesFor id) w.balance
  unviolated : ∀ i c m, S.transfer? i = some c → c.decided? ≠ some (.error (.invariantViolation m))

/-- In every state of every run, whatever faults, deadlines and dropped calls there were, at most
one transfer with a key was made, and everyone who got an answer got that one. -/
theorem Reachable.exactly_once (h : S.Reachable) (key : IdempotencyKey) : S.Once key := by
  obtain ⟨ds, ordered⟩ := h.ordered
  have grown := ordered.performed.grown
  have answered : ∀ i r x, S.request? i = some (.transfer r) →
      S.outcome? i = some (.transferred (.ok x)) →
      x.transaction ∈ S.store.books.transactions ∧ x.transaction.key = r.key := by
    intro i r x asked returned
    obtain ⟨d, mem, rfl, outcome⟩ := ordered.deed returned rfl
    have request : d.request = .transfer r :=
      Option.some.inj ((ordered.request? mem).symm.trans asked)
    exact ordered.performed.answered d mem r x request outcome
  have one : ∀ t ∈ S.store.books.transactions,
      S.store.books.transactions.filter (·.key = t.key) = [t] :=
    fun t mem => Table.filter_of_mem grown.keys_distinct mem
  refine ⟨?_, ?_, ?_, fun t mem _ => grown.postings t mem, ?_, ?_⟩
  · by_cases used : ∃ t ∈ S.store.books.transactions, t.key = key
    · obtain ⟨t, mem, rfl⟩ := used
      rw [one t mem]
      exact Nat.le_refl _
    · have none : S.store.books.transactions.filter (·.key = key) = [] :=
        List.filter_eq_nil_iff.mpr fun t mem same => used ⟨t, mem, of_decide_eq_true same⟩
      rw [none]
      exact Nat.zero_le _
  · intro i j r q t u asked asked' mine yours created created'
    have keys : t.key = u.key :=
      (answered i r _ asked created).2.trans
        (mine.trans (yours.symm.trans (answered j q _ asked' created').2.symm))
    obtain ⟨d, memd, rfl, outcome⟩ := ordered.deed created rfl
    obtain ⟨e, meme, rfl, outcome'⟩ := ordered.deed created' rfl
    by_cases same : d = e
    · rw [same]
    · have apart := ordered.performed.created_apart.forall memd meme same
      exact absurd keys (apart t u outcome outcome')
  · rintro i r x asked rfl returned
    obtain ⟨mem, same⟩ := answered i r x asked returned
    exact same ▸ one _ mem
  · intro i id opening opened
    obtain ⟨d, there, w, outcome, rfl, rfl⟩ := ordered.opened_deed opened
    obtain ⟨x, found, -, chain⟩ := ordered.performed.chains d there w outcome
    exact ⟨x, found, chain⟩
  · intro i c m here decided
    obtain ⟨call, found, running⟩ := call_of_transfer? here
    have decides : call.state.decided? = some (.transferred (.error (.invariantViolation m))) := by
      simp only [running, CallState.decided?, decided, Option.map_some]
    obtain ⟨d, mem, rfl⟩ := ordered.covers i call _ found decides rfl
    obtain ⟨x, there, -, answers⟩ := ordered.answers d mem
    cases found.symm.trans there
    rcases answers with ⟨outcome, -⟩ | ⟨-, r, dropped | ⟨limit, expired⟩⟩
    · obtain ⟨b, b', -, effect⟩ := ordered.performed.effects d mem
      rw [Option.some.inj (outcome.symm.trans decides)] at effect
      generalize d.request = request at effect
      cases effect with
      | rejected settled => exact Bool.noConfusion (Books.settle_of_domain settled)
    · rw [dropped] at decides
      contradiction
    · rw [expired] at decides
      cases decides

theorem exactly_once_race : ∃ S, ({} : System).run? race = some S ∧
    S.store.books.transactions.length = 1 ∧ S.Once ⟨"rent"⟩ := by
  obtain ⟨S, ran⟩ := Option.isSome_iff_exists.mp race_runs
  have size : (({} : System).run? race).all (·.store.books.transactions.length = 1) := by
    decide +kernel
  have single : S.store.books.transactions.length = 1 := by simpa [ran] using size
  exact ⟨S, ran, single, (reachable_run .start ran).exactly_once ⟨"rent"⟩⟩

end System

end WalletLedger
