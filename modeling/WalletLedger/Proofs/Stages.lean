import WalletLedger.Proofs.Coherence
import WalletLedger.Proofs.Pair
import WalletLedger.Transfer.Call

/-!
What a transfer under way has seen and staged so far. Each stage of its work keeps what it knows
about the books true as long as nobody else touches the rows and the key that it has locked, and
leads to a stage, or to a conclusion, that again says the truth about the books.
-/
namespace WalletLedger

structure Rows (b : Books) (r : TransferRequest) (locked : List WalletId) (s q : Wallet) :
    Prop where
  sender : b.wallet? r.sender = some s
  receiver : b.wallet? r.receiver = some q
  heldSender : r.sender ∈ locked
  heldReceiver : r.receiver ∈ locked

structure Writing (b : Books) (r : TransferRequest) (locked : List WalletId) (d : Draw)
    (t : Transaction) (p : TransferPlan) : Prop where
  postable : ∃ s q, b.Postable r d s q t p
  heldSender : r.sender ∈ locked
  heldReceiver : r.receiver ∈ locked
  unused : b.transaction? t.id = none

namespace Staged

def pending (t : Transaction) : Staged := { transactions := [t], keys := [t.key] }

def debited (t : Transaction) (p : TransferPlan) (d : Draw) : Staged :=
  { pending t with entries := [p.debit.recordedAt d.debited] }

def credited (t : Transaction) (p : TransferPlan) (d : Draw) : Staged :=
  { pending t with entries := [p.debit.recordedAt d.debited, p.credit.recordedAt d.credited] }

def paid (t : Transaction) (p : TransferPlan) (d : Draw) : Staged :=
  { credited t p d with balances := [(p.debit.wallet, p.senderBalance)] }

def settled (t : Transaction) (p : TransferPlan) (d : Draw) : Staged :=
  { credited t p d with
    balances := [(p.debit.wallet, p.senderBalance), (p.credit.wallet, p.receiverBalance)] }

def complete (t : Transaction) (p : TransferPlan) (d : Draw) : Staged :=
  { settled t p d with transactions := [t.withStatus .completed d.completed] }

end Staged

def Work.Sound (b : Books) (r : TransferRequest) (u : UnitOfWork) (entered : Bool) : Work → Prop
  | locking pair =>
    WalletPair.of r.sender r.receiver = .ok pair ∧ u.staged = {} ∧
      (u.locked = [] ∨ entered ∧ u.locked = [pair.first])
  | lookingUp s q => Rows b r u.locked s q ∧ u.staged = {}
  | inserting s q draft =>
    Rows b r u.locked s q ∧ u.staged = {} ∧ r.validateAgainst s q = .ok () ∧
      draft.toTransferRequest = r ∧ draft.status = .pending ∧ b.transaction? draft.id = none
  | lookingUpWinner => (∃ s q, Rows b r u.locked s q) ∧ u.staged = {} ∧ b.hasKey r.key = true
  | debiting id p => ∃ d t, Writing b r u.locked d t p ∧ t.id = id ∧ u.staged = .pending t
  | crediting id p => ∃ d t, Writing b r u.locked d t p ∧ t.id = id ∧ u.staged = .debited t p d
  | settingSender id p => ∃ d t, Writing b r u.locked d t p ∧ t.id = id ∧ u.staged = .credited t p d
  | settingReceiver id p => ∃ d t, Writing b r u.locked d t p ∧ t.id = id ∧ u.staged = .paid t p d
  | completing id => ∃ d t p, Writing b r u.locked d t p ∧ t.id = id ∧ u.staged = .settled t p d

def Completed (b : Books) (r : TransferRequest) (u : UnitOfWork) (t : Transaction) : Prop :=
  ∃ d pending p, Writing b r u.locked d pending p ∧ u.staged = .complete pending p d ∧
    t = pending.withStatus .completed d.completed

def Leads (b : Books) (r : TransferRequest) (u : UnitOfWork) : Work ⊕ Conclusion → Prop
  | .inl w => w.Sound b r u false
  | .inr (.create t) => Completed b r u t
  | .inr (.replay t) => ∃ d, b.settle r d = .replay t
  | .inr (.fail e) => ∃ d, b.settle r d = .reject e

/-- A step of an operation that no fault meets leaves the books alone; it waits, or its answer
leads on. -/
def Works (s : Store) (r : TransferRequest) (supply : Supply) (w : Work)
    (st : UnitOfWork.Step (w.op r).Answer) : Prop :=
  st.store.books = s.books ∧ st.store.faults = s.faults ∧
    (st.progress = .waiting ∧ w.Sound s.books r st.unit true ∨
      ∃ a, st.progress = .replied (.ok a) ∧ Leads s.books r st.unit (w.next r supply a))

section
variable {b : Books} {r : TransferRequest} {locked : List WalletId} {s q : Wallet} {d : Draw}
  {t : Transaction} {p : TransferPlan}

theorem Writing.wallets_eq (h : Writing b r locked d t p) :
    p.debit.wallet = r.sender ∧ p.credit.wallet = r.receiver := by
  obtain ⟨s, q, postable⟩ := h.postable
  exact postable.parties

theorem Writing.entries_eq (h : Writing b r locked d t p) :
    p.debit.amount = r.amount ∧ p.credit.amount = r.amount ∧ p.debit.transaction = t.id ∧
      p.credit.transaction = t.id := by
  obtain ⟨s, q, postable⟩ := h.postable
  obtain ⟨sent, received, -, -, -, -, -, rfl⟩ := postable.plan_eq
  exact ⟨rfl, rfl, rfl, rfl⟩

theorem Writing.at_times (h : Writing b r locked d t p)
    (debited credited completed committed : Timestamp) :
    Writing b r locked { d with debited, credited, completed, committed } t p := by
  obtain ⟨s, q, x⟩ := h.postable
  have postable : b.Postable r { d with debited, credited, completed, committed } s q t p :=
    ⟨x.valid, x.sender, x.receiver, x.absent, x.allowed, x.pending, x.planned⟩
  exact ⟨⟨s, q, postable⟩, h.heldSender, h.heldReceiver, h.unused⟩

end

namespace Work
variable {s : Store} {r : TransferRequest} {u : UnitOfWork} {supply : Supply}

theorem locking_starts {pair : WalletPair} (sound : (locking pair).Sound s.books r u false) :
    Works s r supply (locking pair) (u.start s supply.now (.lockWallets pair)) := by
  obtain ⟨pairOf, staged, locked⟩ := sound
  have free : u.locked = [] := by simpa using locked
  simp only [UnitOfWork.start, free, List.isEmpty_nil, if_true, UnitOfWork.await]
  exact ⟨rfl, rfl, Or.inl ⟨rfl, pairOf, staged, Or.inl free⟩⟩

theorem lookingUp_starts {x q : Wallet} (valid : r.validate = .ok ())
    (fresh : s.books.transaction? supply.id = none)
    (sound : (lookingUp x q).Sound s.books r u false) :
    Works s r supply (lookingUp x q) (u.start s supply.now (.findByKey r.key)) := by
  obtain ⟨rows, staged⟩ := sound
  refine ⟨rfl, rfl, Or.inr ⟨u.findByKey s r.key, rfl, ?_⟩⟩
  have found : u.findByKey s r.key = s.books.transactionByKey? r.key := by
    simp [UnitOfWork.findByKey, staged]
  have draw := Draw.of supply.id supply
  rw [found]
  show Leads s.books r u _
  simp only [next]
  cases earlier : s.books.transactionByKey? r.key with
  | some t => exact ⟨draw, Books.settle_replay valid rows.sender rows.receiver earlier⟩
  | none =>
    cases rule : r.validateAgainst x q with
    | error e => exact ⟨draw, Books.settle_refused valid rows.sender rows.receiver earlier rule⟩
    | ok => exact ⟨rows, staged, rule, rfl, rfl, fresh⟩

theorem inserting_starts {x q : Wallet} {draft : TransactionDraft}
    (sound : (inserting x q draft).Sound s.books r u false) :
    Works s r supply (inserting x q draft) (u.start s supply.now (.insertTransaction draft)) := by
  have staged := sound.2.1
  simp only [UnitOfWork.start, staged, List.not_mem_nil, if_false, UnitOfWork.await]
  exact ⟨rfl, rfl, Or.inl ⟨rfl, sound⟩⟩

theorem lookingUpWinner_starts (coherent : s.books.Coherent) (valid : r.validate = .ok ())
    (sound : lookingUpWinner.Sound s.books r u false) :
    Works s r supply lookingUpWinner (u.start s supply.now (.findByKey r.key)) := by
  obtain ⟨⟨x, q, rows⟩, staged, taken⟩ := sound
  obtain ⟨t, earlier⟩ := coherent.transactionByKey?_some taken
  have found : u.findByKey s r.key = some t := by
    simp [UnitOfWork.findByKey, staged, earlier]
  have draw := Draw.of supply.id supply
  refine ⟨rfl, rfl, Or.inr ⟨some t, ?_, ?_⟩⟩
  · exact congrArg (fun x => Progress.replied (.ok x)) found
  · exact ⟨draw, Books.settle_replay valid rows.sender rows.receiver earlier⟩

theorem entry_starts {d : Draw} {t : Transaction} {p : TransferPlan} {e : EntryDraft}
    (writing : Writing s.books r u.locked d t p) (transactions : u.staged.transactions = [t])
    (mem : e = p.debit ∨ e = p.credit) :
    u.start s supply.now (.insertEntry e) =
      UnitOfWork.reply (.ok (e.recordedAt supply.now))
        (u.stageEntry (e.recordedAt supply.now)) s := by
  obtain ⟨x, q, postable⟩ := writing.postable
  obtain ⟨debited, credited, ofDebit, ofCredit⟩ := writing.entries_eq
  obtain ⟨sender, receiver⟩ := writing.wallets_eq
  have positive := TransferRequest.amount_positive postable.valid
  have owner : e.amount = r.amount ∧ e.transaction = t.id ∧ (s.books.wallet? e.wallet).isSome := by
    rcases mem with rfl | rfl
    · exact ⟨debited, ofDebit, by rw [sender, postable.sender]; rfl⟩
    · exact ⟨credited, ofCredit, by rw [receiver, postable.receiver]; rfl⟩
  obtain ⟨amount, transaction, wallet⟩ := owner
  have passes : u.checkEntry s e = .ok () := by
    have present : Table.has (·.id) e.transaction u.staged.transactions = true := by
      simp [Table.has, transactions, transaction]
    have known : (s.books.wallet? e.wallet).isNone = false := by
      simpa using wallet
    have payable : e.amount.IsPositive := amount ▸ positive
    simp only [UnitOfWork.checkEntry, payable, not_true, present, known, Bool.not_true,
      Bool.false_eq_true, false_and, if_false]
  simp only [UnitOfWork.start, passes]

theorem debiting_starts {id : TransactionId} {p : TransferPlan}
    (sound : (debiting id p).Sound s.books r u false) :
    Works s r supply (debiting id p) (u.start s supply.now (.insertEntry p.debit)) := by
  obtain ⟨d, t, writing, rfl, staged⟩ := sound
  rw [entry_starts writing (by rw [staged]; rfl) (Or.inl rfl)]
  refine ⟨rfl, rfl, Or.inr ⟨_, rfl, { d with debited := supply.now }, t, ?_, rfl, ?_⟩⟩
  · exact writing.at_times supply.now d.credited d.completed d.committed
  · simp only [UnitOfWork.reply, UnitOfWork.stageEntry, staged]
    rfl

theorem crediting_starts {id : TransactionId} {p : TransferPlan}
    (sound : (crediting id p).Sound s.books r u false) :
    Works s r supply (crediting id p) (u.start s supply.now (.insertEntry p.credit)) := by
  obtain ⟨d, t, writing, rfl, staged⟩ := sound
  rw [entry_starts writing (by rw [staged]; rfl) (Or.inr rfl)]
  refine ⟨rfl, rfl, Or.inr ⟨_, rfl, { d with credited := supply.now }, t, ?_, rfl, ?_⟩⟩
  · exact writing.at_times d.debited supply.now d.completed d.committed
  · simp only [UnitOfWork.reply, UnitOfWork.stageEntry, staged]
    rfl

theorem balance_starts {wallet : WalletId} {balance : Amount} (held : wallet ∈ u.locked)
    (owed : ¬balance.IsNegative) (known : (s.books.wallet? wallet).isSome) :
    u.start s supply.now (.setBalance wallet balance) =
      UnitOfWork.reply (.ok ()) (u.stageBalance wallet balance) s := by
  have known : (s.books.wallet? wallet).isNone = false := by simpa using known
  have passes : u.checkBalance s wallet balance = .ok () := by
    simp only [UnitOfWork.checkBalance, held, not_true, owed, known, Bool.false_eq_true, if_false]
  simp only [UnitOfWork.start, passes]

theorem settingSender_starts {id : TransactionId} {p : TransferPlan} (coherent : s.books.Coherent)
    (sound : (settingSender id p).Sound s.books r u false) :
    Works s r supply (settingSender id p)
      (u.start s supply.now (.setBalance p.debit.wallet p.senderBalance)) := by
  obtain ⟨d, t, writing, rfl, staged⟩ := sound
  obtain ⟨x, q, postable⟩ := writing.postable
  have sender := writing.wallets_eq.1
  rw [balance_starts (sender ▸ writing.heldSender) (postable.balances_owed coherent.owed).1
    (by rw [sender, postable.sender]; rfl)]
  refine ⟨rfl, rfl, Or.inr ⟨(), rfl, d, t, ?_, rfl, ?_⟩⟩
  · exact writing
  · simp only [UnitOfWork.reply, UnitOfWork.stageBalance, staged]
    rfl

theorem settingReceiver_starts {id : TransactionId} {p : TransferPlan} (coherent : s.books.Coherent)
    (sound : (settingReceiver id p).Sound s.books r u false) :
    Works s r supply (settingReceiver id p)
      (u.start s supply.now (.setBalance p.credit.wallet p.receiverBalance)) := by
  obtain ⟨d, t, writing, rfl, staged⟩ := sound
  obtain ⟨x, q, postable⟩ := writing.postable
  obtain ⟨sender, receiver⟩ := writing.wallets_eq
  have distinct := TransferRequest.distinct_of_valid postable.valid
  rw [balance_starts (receiver ▸ writing.heldReceiver) (postable.balances_owed coherent.owed).2
    (by rw [receiver, postable.receiver]; rfl)]
  refine ⟨rfl, rfl, Or.inr ⟨(), rfl, d, t, p, ?_, rfl, ?_⟩⟩
  · exact writing
  · have differs : p.debit.wallet ≠ p.credit.wallet := by rw [sender, receiver]; exact distinct
    simp only [UnitOfWork.reply, UnitOfWork.stageBalance, staged, Staged.paid, Table.put, differs,
      if_false]
    rfl

theorem completing_starts {id : TransactionId}
    (sound : (completing id).Sound s.books r u false) :
    Works s r supply (completing id) (u.start s supply.now (.setStatus id .completed)) := by
  obtain ⟨d, t, p, writing, rfl, staged⟩ := sound
  have found : Table.find? (·.id) t.id u.staged.transactions = some t := by
    simp [staged, Table.find?, Staged.settled, Staged.credited, Staged.pending]
  have start : u.start s supply.now (.setStatus t.id .completed) =
      UnitOfWork.reply (.ok (t.withStatus .completed supply.now))
        (u.stageTransaction (t.withStatus .completed supply.now)) s := by
    simp only [UnitOfWork.start, found]
    rfl
  rw [start]
  refine ⟨rfl, rfl, Or.inr ⟨_, rfl, { d with completed := supply.now }, t, p, ?_, ?_, rfl⟩⟩
  · exact writing.at_times d.debited d.credited supply.now d.committed
  · have put : Table.put (·.id) (t.withStatus .completed supply.now) [t] =
        [t.withStatus .completed supply.now] := by
      simp [Table.put, Transaction.withStatus]
    simp only [UnitOfWork.reply, UnitOfWork.stageTransaction, staged]
    show Staged.mk _ (Table.put _ _ [t]) _ _ = _
    rw [put]
    rfl

/-- With the second lock the rows are read: both are there, or the one that is missing ends the
transfer. -/
theorem locking_proceeds {pair : WalletPair} {st : UnitOfWork.Step (List Wallet)}
    (valid : r.validate = .ok ()) (sound : (locking pair).Sound s.books r u true)
    (h : u.proceed s supply.now (.lockWallets pair) = some st) :
    Works s r supply (locking pair) st := by
  obtain ⟨pairOf, staged, free | first⟩ := sound
  · simp only [UnitOfWork.proceed, free] at h
    cases h
    exact ⟨rfl, rfl, Or.inl ⟨rfl, pairOf, staged, Or.inr ⟨rfl, rfl⟩⟩⟩
  · simp only [UnitOfWork.proceed, first.2] at h
    cases h
    have distinct := TransferRequest.distinct_of_valid valid
    have ids := WalletPair.ids_of distinct pairOf
    have unstaged : ∀ rows : List Wallet,
        rows.map { u with locked := [pair.first] ++ [pair.second] }.view = rows := by
      intro rows
      refine (List.map_congr_left fun w _ => ?_).trans (List.map_id rows)
      simp [UnitOfWork.view, staged, Table.find?]
    have held : r.sender ∈ pair.ids ∧ r.receiver ∈ pair.ids := by
      rcases ids with ids | ids <;> simp [ids]
    have draw := Draw.of supply.id supply
    refine ⟨rfl, rfl, Or.inr ⟨pair.ids.filterMap s.books.wallet?, ?_, ?_⟩⟩
    · exact congrArg (fun x => Progress.replied (.ok x)) (unstaged _)
    · simp only [next, WalletPair.resolve_rows distinct ids]
      cases sender : s.books.wallet? r.sender with
      | none => exact ⟨draw, Books.settle_no_sender valid sender⟩
      | some x =>
        cases receiver : s.books.wallet? r.receiver with
        | none => exact ⟨draw, Books.settle_no_receiver valid sender receiver⟩
        | some q => exact ⟨⟨sender, receiver, held.1, held.2⟩, staged⟩

/-- With the key lock it is decided whether the transfer is the first with its key. -/
theorem inserting_proceeds {x q : Wallet} {draft : TransactionDraft}
    {st : UnitOfWork.Step InsertOutcome} (valid : r.validate = .ok ())
    (sound : (inserting x q draft).Sound s.books r u true)
    (h : u.proceed s supply.now (.insertTransaction draft) = some st) :
    Works s r supply (inserting x q draft) st := by
  obtain ⟨rows, staged, allowed, same, status, unused⟩ := sound
  have key : draft.key = r.key := by rw [same]
  simp only [UnitOfWork.proceed] at h
  split at h
  · rename_i taken
    cases h
    exact ⟨rfl, rfl, Or.inr ⟨.duplicateKey, rfl, ⟨x, q, rows⟩, staged, key ▸ taken⟩⟩
  · rename_i free
    have absent : s.books.hasKey r.key = false := by simpa [key] using free
    have passes : u.checkTransaction s draft = .ok () := by
      have unstaged : Table.has (·.id) draft.id u.staged.transactions = false := by
        simp [staged, Table.has]
      simp [UnitOfWork.checkTransaction, same, rows.sender, rows.receiver, unused, unstaged]
    rw [passes] at h
    cases h
    let d : Draw := Draw.of draft.id supply
    have pending : draft.recordedAt supply.now = (r.draft d.transaction).recordedAt d.inserted := by
      cases draft
      cases same
      cases status
      rfl
    refine ⟨rfl, rfl, Or.inr ⟨.inserted (draft.recordedAt supply.now), rfl, ?_⟩⟩
    simp only [next]
    cases planned : planTransfer supply.id supply.secondId (draft.recordedAt supply.now) x q with
    | error e =>
      have unplanned : planTransfer d.debit d.credit ((r.draft d.transaction).recordedAt d.inserted)
          x q = .error e := pending ▸ planned
      exact ⟨d, Books.settle_unplanned valid rows.sender rows.receiver
        (Books.transactionByKey?_none absent) allowed unplanned⟩
    | ok p =>
      have postable : s.books.Postable r d x q (draft.recordedAt supply.now) p :=
        ⟨valid, rows.sender, rows.receiver, absent, allowed, pending, planned⟩
      refine ⟨d, _, ⟨⟨x, q, postable⟩, rows.heldSender, rows.heldReceiver, unused⟩, rfl, ?_⟩
      simp only [UnitOfWork.reply, UnitOfWork.stageTransaction, UnitOfWork.stageKey, staged]
      rfl

end Work

end WalletLedger
