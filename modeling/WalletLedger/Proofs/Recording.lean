import WalletLedger.Proofs.Serving

/-!
A transfer on a database that nobody else uses, from its first statement to its last. It comes to
what the books in the tables make of it, and a transfer that is made stands in the tables
afterwards.
-/
namespace WalletLedger

def Draw.inDatabase (supply : Supply) (clock : Timestamp) : Draw :=
  let inserting := (supply.after 0).after 1
  let crediting := (inserting.after 2).after 0
  let completing := ((crediting.after 0).after 0).after 0
  ⟨(supply.after 0).id, inserting.id, inserting.secondId, inserting.now, (inserting.after 2).now,
    crediting.now, completing.now, clock⟩

namespace Sql

structure Recordable (b : Books) (r kept : TransferRequest) (d : Draw) (s q : Wallet)
    (t : Transaction) (p : TransferPlan) : Prop where
  grown : b.Grown
  postable : b.Postable kept d s q t p
  allows : b.Allows r s q
  column : r.amount.column? = some kept.amount
  same : kept = { r with amount := kept.amount }
  amount : kept.amount.Stored
  sender : s.balance.Stored
  receiver : q.balance.Stored
  sent : p.senderBalance.Stored
  received : p.receiverBalance.Stored
  new : b.transaction? d.transaction = none
  debit : ∀ e ∈ b.entries, e.id ≠ d.debit
  credit : ∀ e ∈ b.entries, e.id ≠ d.credit
  apart : d.debit ≠ d.credit

section
variable {b : Books} {r kept : TransferRequest} {d : Draw} {s q : Wallet} {t : Transaction}
  {p : TransferPlan}

namespace Recordable

theorem named (h : Recordable b r kept d s q t p) : t.id = d.transaction := by
  rw [h.postable.pending]
  rfl

theorem unnamed (h : Recordable b r kept d s q t p) : b.transaction? t.id = none :=
  h.named ▸ h.new

theorem elsewhere (h : Recordable b r kept d s q t p) : ∀ e ∈ b.entries, e.transaction ≠ t.id := by
  intro e mem same
  obtain ⟨u, there, owner⟩ := h.grown.entries_owned e mem
  exact Table.find?_none_iff.mp h.unnamed u there (owner.trans same)

theorem inserts {users : List UserRecord} (h : Recordable b r kept d s q t p) :
    (Tables.of users b).insertTransaction (r.draft d.transaction) d.inserted =
      .ok (1, .of users (b.withTransaction t)) := by
  have valid := TransferRequest.validate_ok h.postable.valid
  have sender : r.sender = kept.sender := by rw [h.same]
  have receiver : r.receiver = kept.receiver := by rw [h.same]
  have key : r.key = kept.key := by rw [h.same]
  refine Tables.insertTransaction_of h.column ?_ valid.1 ?_ ?_ h.new ?_ ?_
  · rw [h.postable.pending, h.same]
    rfl
  · show r.sender ≠ r.receiver
    rw [sender, receiver]
    exact valid.2.2.2
  · show ∀ t ∈ b.transactions, t.key ≠ r.key
    rw [key]
    exact h.grown.hasKey_false_iff.mp h.postable.absent
  · show (b.wallet? r.sender).isSome
    rw [sender, h.postable.sender]
    rfl
  · show (b.wallet? r.receiver).isSome
    rw [receiver, h.postable.receiver]
    rfl

theorem keyed (h : Recordable b r kept d s q t p) :
    IdempotencyKey.check t.key.text = .ok t.key := by
  rw [h.postable.key_eq]
  exact (TransferRequest.validate_ok h.postable.valid).2.2.1

theorem found (h : Recordable b r kept d s q t p) :
    (b.withTransaction t).transaction? t.id = some t :=
  (Table.find?_append_new (Table.find?_none_iff.mp h.unnamed)).trans (if_pos rfl)

theorem accepts_debit (h : Recordable b r kept d s q t p) :
    Tables.Accepts (b.withTransaction t) p.debit := by
  obtain ⟨sent, received, taken, -, -, -, -, plan⟩ := h.postable.plan_eq
  have stored := h.sent
  rw [plan] at stored ⊢
  refine ⟨h.amount, h.sender, stored, TransferRequest.amount_positive h.postable.valid, ?_, h.debit,
    fun e mem same => absurd same (h.elsewhere e mem), ?_, ?_⟩
  · simp [EntryDraft.consistent, EntryKind.apply, taken]
  · show (b.wallet? kept.sender).isSome
    rw [h.postable.sender]
    rfl
  · show ((b.withTransaction t).transaction? t.id).isSome
    rw [h.found]
    rfl

theorem accepts_credit (h : Recordable b r kept d s q t p) :
    Tables.Accepts ((b.withTransaction t).withEntry (p.debit.recordedAt d.debited)) p.credit := by
  obtain ⟨sent, received, -, given, -, -, -, plan⟩ := h.postable.plan_eq
  have stored := h.received
  rw [plan] at stored ⊢
  refine ⟨h.amount, h.receiver, stored, TransferRequest.amount_positive h.postable.valid, ?_, ?_,
    ?_, ?_, ?_⟩
  · simp [EntryDraft.consistent, EntryKind.apply, given]
  · intro e mem
    rcases List.mem_append.mp mem with mem | mem
    · exact h.credit e mem
    · rw [List.mem_singleton.mp mem]
      exact h.apart
  · intro e mem same
    rcases List.mem_append.mp mem with mem | mem
    · exact absurd same (h.elsewhere e mem)
    · rw [List.mem_singleton.mp mem]
      exact fun kinds => by cases kinds
  · show (b.wallet? kept.receiver).isSome
    rw [h.postable.receiver]
    rfl
  · show ((b.withTransaction t).transaction? t.id).isSome
    rw [h.found]
    rfl

theorem parties (h : Recordable b r kept d s q t p) :
    (p.debit.wallet = r.sender ∧ b.wallet? p.debit.wallet = some s) ∧
      p.credit.wallet = r.receiver ∧ b.wallet? p.credit.wallet = some q := by
  have sender : kept.sender = r.sender := by rw [h.same]
  have receiver : kept.receiver = r.receiver := by rw [h.same]
  rw [h.postable.parties.1, h.postable.parties.2]
  exact ⟨⟨sender, h.postable.sender⟩, receiver, h.postable.receiver⟩

theorem written {users : List UserRecord} (h : Recordable b r kept d s q t p) :
    Tables.of users { ((((b.withTransaction t).withEntry (p.debit.recordedAt d.debited)).withEntry
      (p.credit.recordedAt d.credited)).setBalance d.committed
      (p.debit.wallet, p.senderBalance)).setBalance d.committed
      (p.credit.wallet, p.receiverBalance) with
        transactions := b.transactions ++ [t.withStatus .completed d.completed] } =
      .of users (b.post t p d) := by
  have apart : p.debit.wallet ≠ p.credit.wallet := by
    rw [h.postable.parties.1, h.postable.parties.2]
    exact TransferRequest.distinct_of_valid h.postable.valid
  simp only [Tables.of, Books.post, Books.setBalance, Books.withEntry, Books.withTransaction,
    List.map_map, List.append_assoc, List.cons_append, List.nil_append]
  congr 2
  exact funext fun w => congrArg WalletRecord.of (Wallet.posted_of_set apart w)

end Recordable

end

namespace Database

variable {committed : Tables} {users : List UserRecord} {b : Books} {clock : Timestamp}
  {u : DatabaseUnit} {r kept : TransferRequest} {supply : Supply} {s q : Wallet} {t : Transaction}
  {p : TransferPlan} {db db' : Database}

theorem run_leads {w next : Work} {a : (w.op r).Answer}
    (said : (u.dialogue supply.now (w.op r)).run answer db = (.ok a, db'))
    (leads : w.next r supply a = .inl next) :
    (work r u supply w).run answer db =
      (work r (u.after (w.op r) (.ok a)) (supply.after w.draws) next).run answer db' := by
  rw [work_eq, Dialogue.run_bind, said]
  simp only [Work.after, leads]

theorem run_ends {w : Work} {c : Conclusion} {a : (w.op r).Answer}
    (said : (u.dialogue supply.now (w.op r)).run answer db = (.ok a, db'))
    (ends : w.next r supply a = .inr c) :
    (work r u supply w).run answer db = ((c, supply.after w.draws), db') := by
  rw [work_eq, Dialogue.run_bind, said]
  simp only [Work.after, ends]
  rfl

theorem run_settling (h : Recordable b r kept d s q t p) (payer : r.sender ∈ u.locked)
    (payee : r.receiver ∈ u.locked) (b' : Books) (rows : b'.wallets = b.wallets)
    (sending : Supply) :
    (work r u sending (.settingSender t.id p)).run answer (writing committed users b' clock) =
      (work r u ((sending.after 0).after 0) (.completing t.id)).run answer
        (writing committed users ((b'.setBalance clock (p.debit.wallet, p.senderBalance)).setBalance
          clock (p.credit.wallet, p.receiverBalance)) clock) := by
  let sent := b'.setBalance clock (p.debit.wallet, p.senderBalance)
  obtain ⟨senderOwed, receiverOwed⟩ := h.postable.balances_owed h.grown.owed
  obtain ⟨sender, receiver⟩ := h.parties
  have payer : p.debit.wallet ∈ u.locked := by rw [sender.1]; exact payer
  have payee : p.credit.wallet ∈ u.locked := by rw [receiver.1]; exact payee
  have same : ∀ id, b'.wallet? id = b.wallet? id := fun id => by
    rw [Books.wallet?, rows, Books.wallet?]
  have senderKnown : (b'.wallet? p.debit.wallet).isSome := by
    rw [same, sender.2]
    rfl
  have receiverKnown : (sent.wallet? p.credit.wallet).isSome := by
    have found : sent.wallet? p.credit.wallet = (b'.wallet? p.credit.wallet).map _ :=
      Table.find?_map fun w => by split <;> rfl
    rw [found, same, receiver.2]
    rfl
  have sends : (work r u sending (.settingSender t.id p)).run answer
      (writing committed users b' clock) =
      (work r u (sending.after 0) (.settingReceiver t.id p)).run answer
        (writing committed users sent clock) :=
    run_leads (run_setBalance payer h.sent senderOwed senderKnown) rfl
  exact sends.trans (run_leads (run_setBalance payee h.received receiverOwed receiverKnown) rfl)

theorem run_inserting (committed : Tables) (users : List UserRecord)
    (h : Recordable b r kept (.inDatabase supply clock) s q t p) (payer : r.sender ∈ u.locked)
    (payee : r.receiver ∈ u.locked) :
    ∃ later, (work r u ((supply.after 0).after 1)
        (.inserting s q (r.draft (supply.after 0).id))).run answer
          (writing committed users b clock) =
      ((.create (t.withStatus .completed (Draw.inDatabase supply clock).completed), later),
        writing committed users (b.post t p (.inDatabase supply clock)) clock) := by
  let d := Draw.inDatabase supply clock
  let inserting := (supply.after 0).after 1
  let debiting := inserting.after 2
  let crediting := debiting.after 0
  let sending := crediting.after 0
  let completing := (sending.after 0).after 0
  let recorded := b.withTransaction t
  let debited := recorded.withEntry (p.debit.recordedAt d.debited)
  let credited := debited.withEntry (p.credit.recordedAt d.credited)
  let received := (credited.setBalance clock (p.debit.wallet, p.senderBalance)).setBalance clock
    (p.credit.wallet, p.receiverBalance)
  have planned : planTransfer inserting.id inserting.secondId t s q = .ok p := h.postable.planned
  have pending : t.status = .pending := by
    rw [h.postable.pending]
    rfl
  have inserts : (work r u inserting (.inserting s q (r.draft d.transaction))).run answer
      (writing committed users b clock) =
      (work r u debiting (.debiting t.id p)).run answer (writing committed users recorded clock) :=
    run_leads (run_insertTransaction h.inserts h.named h.unnamed h.keyed)
      (by simp only [Work.next, planned])
  have debits : (work r u debiting (.debiting t.id p)).run answer
      (writing committed users recorded clock) =
      (work r u crediting (.crediting t.id p)).run answer (writing committed users debited clock) :=
    run_leads (run_insertEntry h.accepts_debit) rfl
  have credits : (work r u crediting (.crediting t.id p)).run answer
      (writing committed users debited clock) =
      (work r u sending (.settingSender t.id p)).run answer
        (writing committed users credited clock) :=
    run_leads (run_insertEntry h.accepts_credit) rfl
  have settles : (work r u sending (.settingSender t.id p)).run answer
      (writing committed users credited clock) =
      (work r u completing (.completing t.id)).run answer
        (writing committed users received clock) :=
    run_settling h payer payee credited rfl sending
  have last : received.transactions = b.transactions ++ [t] := rfl
  have said : (u.dialogue completing.now (.setStatus t.id .completed)).run answer
      (writing committed users received clock) =
      (.ok (t.withStatus .completed completing.now), writing committed users
        { received with transactions := b.transactions ++ [t.withStatus .completed completing.now] }
        clock) :=
    run_setStatus .completed last (Table.find?_none_iff.mp h.unnamed) pending h.keyed
  have completes : (work r u completing (.completing t.id)).run answer
      (writing committed users received clock) =
      ((.create (t.withStatus .completed completing.now), completing.after 0),
        writing committed users { received with
          transactions := b.transactions ++ [t.withStatus .completed completing.now] } clock) :=
    run_ends said rfl
  -- Left to unification, this equation would unfold the clock once for every stage.
  have time : completing.now = d.completed := by
    simp only [d, Draw.inDatabase, completing, sending, crediting, debiting, inserting]
  have posted : writing committed users
      { received with transactions := b.transactions ++ [t.withStatus .completed d.completed] }
      clock = writing committed users (b.post t p d) clock :=
    congrArg (fun tables => (⟨committed, some tables, clock⟩ : Database)) h.written
  rw [time, posted] at completes
  exact ⟨completing.after 0,
    inserts.trans (debits.trans (credits.trans (settles.trans completes)))⟩

section
variable {wait : TimeSpan} {pair : WalletPair} {c : Conclusion} {later : Supply} {b' : Books}
  {x : TransferResult}

theorem run_replay (t : Transaction) :
    (conclude (.replay t)).run answer (writing committed users b clock) =
      (.ok (.replayed t), ⟨committed, none, clock⟩) := rfl

theorem run_fail (e : LedgerError) :
    (conclude (.fail e)).run answer (writing committed users b clock) =
      (.error e, ⟨committed, none, clock⟩) := rfl

theorem run_create (grown : b.Grown) (t : Transaction) :
    (conclude (.create t)).run answer (writing committed users b clock) =
      (.ok (.created t), holding users b clock) := by
  have commits : (writing committed users b clock).answer .commit =
      (.ok { affected := 0 }, holding users b clock) :=
    if_pos (Tables.balanced_of grown)
  rw [conclude, Dialogue.run, commits]
  rfl

theorem run_transfer {db : Database} (valid : r.validate = .ok ())
    (ordered : WalletPair.of r.sender r.receiver = .ok pair)
    (worked : (work r {} supply (.locking pair)).run answer
      (writing (.of users b) users b clock) = ((c, later), db'))
    (concluded : (conclude c).run answer db' = (x, db)) :
    (transfer wait r supply).run answer (holding users b clock) = ((x, later), db) := by
  have first : r.work = .inl (.locking pair) := by simp only [TransferRequest.work, ordered]
  have rest : (workAndConclude r {} supply).run answer (writing (.of users b) users b clock) =
      ((x, later), db) := by
    simp only [workAndConclude, first]
    refine (Dialogue.run_bind answer _ _ _).trans ?_
    rw [worked]
    refine (Dialogue.run_bind answer _ _ _).trans ?_
    rw [concluded]
    rfl
  simp only [transfer, valid]
  exact rest

theorem run_locking (apart : r.sender ≠ r.receiver)
    (ordered : WalletPair.of r.sender r.receiver = .ok pair) (sender : b.wallet? r.sender = some s)
    (receiver : b.wallet? r.receiver = some q) :
    (work r u supply (.locking pair)).run answer (writing committed users b clock) =
      (work r ⟨u.locked ++ (pair.ids.filterMap b.wallet?).map (·.id)⟩ (supply.after 0)
        (.lookingUp s q)).run answer (writing committed users b clock) := by
  refine run_leads (run_lockWallets pair) ?_
  simp only [Work.next, WalletPair.resolve_rows apart (WalletPair.ids_of apart ordered), sender,
    receiver]

variable (users clock supply wait) in
theorem run_answers (grown : b.Grown) (answers : b.Answers r x) :
    ∃ later, (transfer wait r supply).run answer (holding users b clock) =
      ((x, later), holding users b clock) := by
  have pairs : r.validate = .ok () → ∃ pair, r.sender ≠ r.receiver ∧
      WalletPair.of r.sender r.receiver = .ok pair ∧
      (pair.ids = [r.sender, r.receiver] ∨ pair.ids = [r.receiver, r.sender]) := by
    intro valid
    have apart := TransferRequest.distinct_of_valid valid
    obtain ⟨pair, ordered, ids⟩ := WalletPair.of_distinct apart
    exact ⟨pair, apart, ordered, ids⟩
  cases answers with
  | invalid invalid =>
    refine ⟨supply, ?_⟩
    simp only [transfer, invalid]
    rfl
  | noSender valid unknown =>
    obtain ⟨pair, apart, ordered, ids⟩ := pairs valid
    refine ⟨_, run_transfer valid ordered (run_ends (run_lockWallets pair) ?_) (run_fail _)⟩
    simp only [Work.next, WalletPair.resolve_rows apart ids, unknown]
  | noReceiver valid sender unknown =>
    obtain ⟨pair, apart, ordered, ids⟩ := pairs valid
    refine ⟨_, run_transfer valid ordered (run_ends (run_lockWallets pair) ?_) (run_fail _)⟩
    simp only [Work.next, WalletPair.resolve_rows apart ids, sender, unknown]
  | replayed valid sender receiver found =>
    obtain ⟨pair, apart, ordered, ids⟩ := pairs valid
    refine ⟨_, run_transfer valid ordered ((run_locking apart ordered sender receiver).trans
      (run_ends (run_findByKey grown r.key) ?_)) (run_replay _)⟩
    simp only [Work.next, found]
  | refused valid sender receiver absent refused =>
    obtain ⟨pair, apart, ordered, ids⟩ := pairs valid
    refine ⟨_, run_transfer valid ordered ((run_locking apart ordered sender receiver).trans
      (run_ends (run_findByKey grown r.key) ?_)) (run_fail _)⟩
    simp only [Work.next, absent, refused]

variable (users wait) in
theorem run_posts (h : Recordable b r kept (.inDatabase supply clock) s q t p) :
    ∃ later, (transfer wait r supply).run answer (holding users b clock) =
      ((.ok (.created (t.withStatus .completed (Draw.inDatabase supply clock).completed)), later),
        holding users (b.post t p (.inDatabase supply clock)) clock) := by
  have allows := h.allows
  have apart := TransferRequest.distinct_of_valid allows.valid
  obtain ⟨pair, ordered, ids⟩ := WalletPair.of_distinct apart
  have locked : r.sender ∈ (pair.ids.filterMap b.wallet?).map (·.id) ∧
      r.receiver ∈ (pair.ids.filterMap b.wallet?).map (·.id) := by
    have sender := Books.wallet?_id allows.sender
    have receiver := Books.wallet?_id allows.receiver
    rcases ids with ids | ids <;>
      simp [ids, allows.sender, allows.receiver, sender, receiver]
  have posted := Books.Grown.posted h.grown h.postable h.unnamed
  let unit : DatabaseUnit := ⟨[] ++ (pair.ids.filterMap b.wallet?).map (·.id)⟩
  have looks : (work r unit (supply.after 0) (.lookingUp s q)).run answer
      (writing (.of users b) users b clock) =
      (work r unit ((supply.after 0).after 1)
        (.inserting s q (r.draft (supply.after 0).id))).run answer
        (writing (.of users b) users b clock) :=
    run_leads (run_findByKey h.grown r.key)
      (by simp only [Work.next, allows.absent, allows.allowed])
  obtain ⟨later, inserts⟩ := run_inserting (.of users b) users h locked.1 locked.2
  exact ⟨later, run_transfer allows.valid ordered
    ((run_locking apart ordered allows.sender allows.receiver).trans (looks.trans inserts))
    (run_create posted _)⟩

end

end Database

end Sql

end WalletLedger
