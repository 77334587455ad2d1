import WalletLedger.Proofs.Lookup
import WalletLedger.Transfer.Work

/-!
Calls in one step: what opening a wallet and making a transfer do to the books when nothing
happens beside them. A transfer is settled on what the books hold at one moment; it is turned
down, answered with an earlier transfer, or posted, and only posting changes the books.
-/
namespace WalletLedger

inductive Request where
  | opening (wallet : WalletId) (owner : UserId) (kind : WalletKind) (opening : Money)
  | transfer (request : TransferRequest)
  deriving DecidableEq, Repr

inductive Outcome where
  | opened (result : Except StoreError Wallet)
  | transferred (result : TransferResult)

structure Draw where
  transaction : TransactionId
  debit : EntryId
  credit : EntryId
  inserted : Timestamp
  debited : Timestamp
  credited : Timestamp
  completed : Timestamp
  committed : Timestamp
  deriving DecidableEq, Repr

def Draw.of (transaction : TransactionId) (supply : Supply) : Draw :=
  ⟨transaction, supply.id, supply.secondId, supply.now, supply.now, supply.now, supply.now,
    supply.now⟩

inductive Decision where
  | reject (error : LedgerError)
  | replay (transaction : Transaction)
  | post (pending : Transaction) (plan : TransferPlan)
  deriving DecidableEq, Repr

def Wallet.posted (w : Wallet) (p : TransferPlan) (now : Timestamp) : Wallet :=
  if w.id = p.debit.wallet then { w with balance := p.senderBalance, updatedAt := now }
  else if w.id = p.credit.wallet then { w with balance := p.receiverBalance, updatedAt := now }
  else w

namespace Books

/-- What becomes of a transfer. The rows come before the key, the key before the rules. -/
def settle (b : Books) (r : TransferRequest) (d : Draw) : Decision :=
  match r.validate with
  | .error e => .reject e
  | .ok () =>
    match b.wallet? r.sender, b.wallet? r.receiver with
    | none, _ => .reject (.walletNotFound r.sender)
    | some _, none => .reject (.walletNotFound r.receiver)
    | some s, some q =>
      match b.transactionByKey? r.key with
      | some t => .replay t
      | none =>
        match r.validateAgainst s q with
        | .error e => .reject e
        | .ok () =>
          let pending := (r.draft d.transaction).recordedAt d.inserted
          match planTransfer d.debit d.credit pending s q with
          | .error e => .reject e
          | .ok plan => .post pending plan

def post (b : Books) (t : Transaction) (p : TransferPlan) (d : Draw) : Books :=
  { b with
    wallets := b.wallets.map (·.posted p d.committed)
    transactions := b.transactions ++ [t.withStatus .completed d.completed]
    keys := b.keys ++ [(t.key, t.id)]
    entries := b.entries ++ [p.debit.recordedAt d.debited, p.credit.recordedAt d.credited] }

def transfer (b : Books) (r : TransferRequest) (d : Draw) : TransferResult × Books :=
  match b.settle r d with
  | .reject e => (.error e, b)
  | .replay t => (.ok (.replayed t), b)
  | .post t p => (.ok (.created (t.withStatus .completed d.completed)), b.post t p d)

def openWallet (b : Books) (id : WalletId) (now : Timestamp) (owner : UserId) (kind : WalletKind)
    (opening : Money) : Except StoreError Wallet × Books :=
  let (r, s) := ({ books := b } : Store).openWallet ⟨id.value, now⟩ owner kind opening
  (r, s.books)

def perform (b : Books) (d : Draw) : Request → Outcome × Books
  | .opening id owner kind opening =>
    let (r, b) := b.openWallet id d.committed owner kind opening
    (.opened r, b)
  | .transfer r =>
    let (x, b) := b.transfer r d
    (.transferred x, b)

def withWallet (b : Books) (w : Wallet) : Books :=
  { b with wallets := b.wallets ++ [w], owners := b.owners ++ [(w.owner, w.kind)] }

structure Postable (b : Books) (r : TransferRequest) (d : Draw) (s q : Wallet) (t : Transaction)
    (p : TransferPlan) : Prop where
  valid : r.validate = .ok ()
  sender : b.wallet? r.sender = some s
  receiver : b.wallet? r.receiver = some q
  absent : b.hasKey r.key = false
  allowed : r.validateAgainst s q = .ok ()
  pending : t = (r.draft d.transaction).recordedAt d.inserted
  planned : planTransfer d.debit d.credit t s q = .ok p

/-- Books that come about by opening wallets and posting transfers, one after the other. -/
inductive Grown : Books → Prop where
  | empty : Grown {}
  | opened {b : Books} {w : Wallet} (old : Grown b) (new : b.wallet? w.id = none)
      (owed : ¬w.balance.IsNegative) (scaled : w.money.checkScale = .ok ())
      (free : (w.owner, w.kind) ∉ b.owners) : Grown (b.withWallet w)
  | posted {b : Books} {r : TransferRequest} {d : Draw} {s q : Wallet} {t : Transaction}
      {p : TransferPlan} (old : Grown b) (postable : b.Postable r d s q t p)
      (new : b.transaction? t.id = none) : Grown (b.post t p d)

end Books

theorem planTransfer_ok {debit credit : EntryId} {t : Transaction} {s q : Wallet}
    {p : TransferPlan} (h : planTransfer debit credit t s q = .ok p) :
    ∃ sent received, s.balance.sub? t.amount = some sent ∧ q.balance.add? t.amount = some received ∧
      ¬sent.IsNegative ∧ s.currency = t.currency ∧ q.currency = t.currency ∧
      p = ⟨⟨debit, s.id, t.id, t.amount, .debit, s.currency, s.balance, sent⟩,
        ⟨credit, q.id, t.id, t.amount, .credit, q.currency, q.balance, received⟩,
        sent, received⟩ := by
  have sum : ∀ {op : Amount → Amount → Option Amount} {a b c : Money},
      Money.combine op a b = .ok c →
      a.currency = b.currency ∧ op a.amount b.amount = some c.amount := by
    intro op a b c h
    unfold Money.combine at h
    split at h
    · contradiction
    · rename_i same
      split at h
      · rename_i amount found
        cases h
        exact ⟨by simpa using same, found⟩
      · contradiction
  unfold planTransfer at h
  split at h
  · contradiction
  · rename_i sent hsent
    split at h
    · contradiction
    · rename_i owed
      split at h
      · contradiction
      · rename_i received hreceived
        cases h
        obtain ⟨cs, ds⟩ := sum hsent
        obtain ⟨cq, dq⟩ := sum hreceived
        exact ⟨sent.amount, received.amount, ds, dq, owed, cs, cq, rfl⟩

section
variable {debit credit : EntryId} {t : Transaction} {s q : Wallet} {sent received : Amount}

theorem planTransfer_overdrawn (inS : s.currency = t.currency)
    (taken : s.balance.sub? t.amount = some sent) (owed : sent.IsNegative) :
    planTransfer debit credit t s q = .error (.insufficientFunds s.id s.balance t.amount) := by
  simp [planTransfer, Money.sub, Money.combine, Wallet.money, TransferRequest.money, inS, taken,
    owed]

theorem planTransfer_full (inS : s.currency = t.currency) (inQ : q.currency = t.currency)
    (taken : s.balance.sub? t.amount = some sent) (covered : ¬sent.IsNegative)
    (full : q.balance.add? t.amount = none) :
    planTransfer debit credit t s q = .error (.invalidAmount .overflow) := by
  simp [planTransfer, Money.sub, Money.add, Money.combine, Wallet.money, TransferRequest.money, inS,
    inQ, taken, covered, full]

theorem planTransfer_made (inS : s.currency = t.currency) (inQ : q.currency = t.currency)
    (taken : s.balance.sub? t.amount = some sent) (covered : ¬sent.IsNegative)
    (given : q.balance.add? t.amount = some received) :
    planTransfer debit credit t s q = .ok
      ⟨⟨debit, s.id, t.id, t.amount, .debit, t.currency, s.balance, sent⟩,
        ⟨credit, q.id, t.id, t.amount, .credit, t.currency, q.balance, received⟩,
        sent, received⟩ := by
  simp [planTransfer, Money.sub, Money.add, Money.combine, Wallet.money, TransferRequest.money, inS,
    inQ, taken, covered, given]

end

namespace Wallet
variable {p : TransferPlan} {now : Timestamp}

theorem posted_eq (w : Wallet) (p : TransferPlan) (now : Timestamp) :
    ∃ balance updated, w.posted p now = { w with balance := balance, updatedAt := updated } := by
  unfold posted
  split
  · exact ⟨_, _, rfl⟩
  · split <;> exact ⟨_, _, rfl⟩

@[simp] theorem posted_id (w : Wallet) (p : TransferPlan) (now : Timestamp) :
    (w.posted p now).id = w.id := by
  obtain ⟨balance, updated, posted⟩ := w.posted_eq p now
  rw [posted]

theorem posted_currency (w : Wallet) (p : TransferPlan) (now : Timestamp) :
    (w.posted p now).currency = w.currency := by
  obtain ⟨balance, updated, posted⟩ := w.posted_eq p now
  rw [posted]

theorem posted_other {w : Wallet} (sender : w.id ≠ p.debit.wallet)
    (receiver : w.id ≠ p.credit.wallet) : w.posted p now = w := by
  simp [posted, sender, receiver]

theorem balance_posted (P : Amount → Prop) {w : Wallet} (sender : P p.senderBalance)
    (receiver : P p.receiverBalance) (old : P w.balance) : P (w.posted p now).balance := by
  unfold posted
  split
  · exact sender
  · split
    · exact receiver
    · exact old

theorem posted_of_set (apart : p.debit.wallet ≠ p.credit.wallet) (w : Wallet) :
    (fun w : Wallet => if w.id = p.credit.wallet then
        { w with balance := p.receiverBalance, updatedAt := now } else w)
      (if w.id = p.debit.wallet then { w with balance := p.senderBalance, updatedAt := now }
        else w) = w.posted p now := by
  unfold posted
  by_cases sender : w.id = p.debit.wallet
  · simp [sender, apart]
  · simp [sender]

end Wallet

theorem Identifier.ofNat_value (id : Identifier) : Identifier.ofNat id.value = id :=
  Identifier.ext (Nat.mod_eq_of_lt id.value_lt)

namespace Books
variable {b : Books} {r : TransferRequest} {d : Draw} {s q w : Wallet} {t u : Transaction}
  {p : TransferPlan} {id : WalletId} {now : Timestamp} {owner : UserId} {kind : WalletKind}
  {opening : Money}

theorem settle_invalid {e : LedgerError} (h : r.validate = .error e) :
    b.settle r d = .reject e := by
  simp only [settle, h]

theorem settle_no_sender (valid : r.validate = .ok ()) (sender : b.wallet? r.sender = none) :
    b.settle r d = .reject (.walletNotFound r.sender) := by
  simp only [settle, valid, sender]

theorem settle_no_receiver (valid : r.validate = .ok ()) (sender : b.wallet? r.sender = some s)
    (receiver : b.wallet? r.receiver = none) :
    b.settle r d = .reject (.walletNotFound r.receiver) := by
  simp only [settle, valid, sender, receiver]

theorem settle_replay (valid : r.validate = .ok ()) (sender : b.wallet? r.sender = some s)
    (receiver : b.wallet? r.receiver = some q) (found : b.transactionByKey? r.key = some t) :
    b.settle r d = .replay t := by
  simp only [settle, valid, sender, receiver, found]

theorem settle_refused {e : LedgerError} (valid : r.validate = .ok ())
    (sender : b.wallet? r.sender = some s) (receiver : b.wallet? r.receiver = some q)
    (absent : b.transactionByKey? r.key = none) (refused : r.validateAgainst s q = .error e) :
    b.settle r d = .reject e := by
  simp only [settle, valid, sender, receiver, absent, refused]

theorem settle_unplanned {e : LedgerError} (valid : r.validate = .ok ())
    (sender : b.wallet? r.sender = some s) (receiver : b.wallet? r.receiver = some q)
    (absent : b.transactionByKey? r.key = none) (allowed : r.validateAgainst s q = .ok ())
    (unplanned : planTransfer d.debit d.credit ((r.draft d.transaction).recordedAt d.inserted) s q =
      .error e) :
    b.settle r d = .reject e := by
  simp only [settle, valid, sender, receiver, absent, allowed, unplanned]

theorem settle_postable (h : b.Postable r d s q t p) : b.settle r d = .post t p := by
  have planned := h.planned
  rw [h.pending] at planned
  simp only [settle, h.valid, h.sender, h.receiver, transactionByKey?_none h.absent, h.allowed,
    planned, h.pending]

theorem transfer_postable (h : b.Postable r d s q t p) :
    b.transfer r d = (.ok (.created (t.withStatus .completed d.completed)), b.post t p d) := by
  simp only [transfer, settle_postable h]

theorem Postable.plan_eq (h : b.Postable r d s q t p) :
    ∃ sent received, s.balance.sub? r.amount = some sent ∧ q.balance.add? r.amount = some received ∧
      ¬sent.IsNegative ∧ s.currency = r.currency ∧ q.currency = r.currency ∧
      p = ⟨⟨d.debit, r.sender, t.id, r.amount, .debit, r.currency, s.balance, sent⟩,
        ⟨d.credit, r.receiver, t.id, r.amount, .credit, r.currency, q.balance, received⟩,
        sent, received⟩ := by
  obtain ⟨sent, received, hs, hq, owed, cs, cq, plan⟩ := planTransfer_ok h.planned
  have ids := wallet?_id h.sender
  have idq := wallet?_id h.receiver
  rw [h.pending] at hs hq cs cq
  refine ⟨sent, received, hs, hq, owed, cs, cq, ?_⟩
  rw [plan, ids, idq, cs, cq, h.pending]
  rfl

theorem Postable.parties (h : b.Postable r d s q t p) :
    p.debit.wallet = r.sender ∧ p.credit.wallet = r.receiver := by
  obtain ⟨sent, received, -, -, -, -, -, rfl⟩ := h.plan_eq
  exact ⟨rfl, rfl⟩

theorem wallet?_post :
    (b.post t p d).wallet? id = (b.wallet? id).map (·.posted p d.committed) :=
  Table.find?_map fun w => w.posted_id p d.committed

theorem wallet?_withWallet (new : b.wallet? w.id = none) :
    (b.withWallet w).wallet? id = if w.id = id then some w else b.wallet? id :=
  Table.find?_append_new (Table.find?_none_iff.mp new)

theorem transaction?_post {id : TransactionId} (new : b.transaction? t.id = none) :
    (b.post t p d).transaction? id =
      if t.id = id then some (t.withStatus .completed d.completed) else b.transaction? id := by
  have absent : ∀ x ∈ b.transactions, x.id ≠ (t.withStatus .completed d.completed).id :=
    Table.find?_none_iff.mp new
  exact Table.find?_append_new absent

theorem hasKey_post (key : IdempotencyKey) :
    (b.post t p d).hasKey key = (b.hasKey key || decide (t.key = key)) := by
  simp [hasKey, post, Table.has]

theorem openWallet_refused {e : StoreError}
    (broken : Store.checkOpening { books := b } owner kind opening = .error e) (id : WalletId)
    (now : Timestamp) : b.openWallet id now owner kind opening = (.error e, b) := by
  simp only [openWallet, Store.openWallet, broken]

theorem openWallet_cases (new : b.wallet? id = none) (now : Timestamp) (owner : UserId)
    (kind : WalletKind) (opening : Money) :
    (∃ e, Store.checkOpening { books := b } owner kind opening = .error e ∧
      b.openWallet id now owner kind opening = (.error e, b)) ∨
    Store.checkOpening { books := b } owner kind opening = .ok () ∧
      ∃ w, w = ⟨id, owner, kind, opening.currency, opening.amount, now, now⟩ ∧
        b.openWallet id now owner kind opening = (.ok w, b.withWallet w) ∧
        ¬w.balance.IsNegative ∧ w.money.checkScale = .ok () ∧ (w.owner, w.kind) ∉ b.owners := by
  have same : (Supply.id ⟨id.value, now⟩ : Identifier) = id := id.ofNat_value
  cases check : Store.checkOpening { books := b } owner kind opening with
  | error e => exact Or.inl ⟨e, rfl, openWallet_refused check id now⟩
  | ok =>
    refine Or.inr ⟨rfl, _, rfl, ?_, ?_⟩
    · simp only [openWallet, Store.openWallet, check]
      have absent : ∀ x ∈ b.wallets, x.id ≠ id := Table.find?_none_iff.mp new
      simp only [same]
      rw [Table.put_new absent]
      rfl
    · unfold Store.checkOpening at check
      split at check
      · contradiction
      · rename_i owed
        split at check
        · contradiction
        · rename_i scaled
          split at check
          · contradiction
          · rename_i free
            exact ⟨owed, scaled, free⟩

inductive Answers (b : Books) (r : TransferRequest) : TransferResult → Prop where
  | invalid {e : LedgerError} (invalid : r.validate = .error e) : Answers b r (.error e)
  | noSender (valid : r.validate = .ok ()) (unknown : b.wallet? r.sender = none) :
      Answers b r (.error (.walletNotFound r.sender))
  | noReceiver {s : Wallet} (valid : r.validate = .ok ()) (sender : b.wallet? r.sender = some s)
      (unknown : b.wallet? r.receiver = none) : Answers b r (.error (.walletNotFound r.receiver))
  | replayed {s q : Wallet} {t : Transaction} (valid : r.validate = .ok ())
      (sender : b.wallet? r.sender = some s) (receiver : b.wallet? r.receiver = some q)
      (found : b.transactionByKey? r.key = some t) : Answers b r (.ok (.replayed t))
  | refused {s q : Wallet} {e : LedgerError} (valid : r.validate = .ok ())
      (sender : b.wallet? r.sender = some s) (receiver : b.wallet? r.receiver = some q)
      (absent : b.transactionByKey? r.key = none) (refused : r.validateAgainst s q = .error e) :
      Answers b r (.error e)

structure Allows (b : Books) (r : TransferRequest) (s q : Wallet) : Prop where
  valid : r.validate = .ok ()
  sender : b.wallet? r.sender = some s
  receiver : b.wallet? r.receiver = some q
  absent : b.transactionByKey? r.key = none
  allowed : r.validateAgainst s q = .ok ()

theorem answers_or_allows (b : Books) (r : TransferRequest) :
    (∃ x, b.Answers r x) ∨ ∃ s q, b.Allows r s q := by
  cases valid : r.validate with
  | error e => exact Or.inl ⟨_, .invalid valid⟩
  | ok =>
    cases sender : b.wallet? r.sender with
    | none => exact Or.inl ⟨_, .noSender valid sender⟩
    | some s =>
      cases receiver : b.wallet? r.receiver with
      | none => exact Or.inl ⟨_, .noReceiver valid sender receiver⟩
      | some q =>
        cases found : b.transactionByKey? r.key with
        | some t => exact Or.inl ⟨_, .replayed valid sender receiver found⟩
        | none =>
          cases allowed : r.validateAgainst s q with
          | error e => exact Or.inl ⟨_, .refused valid sender receiver found allowed⟩
          | ok => exact Or.inr ⟨s, q, valid, sender, receiver, found, allowed⟩

theorem Answers.transfer {x : TransferResult} (h : b.Answers r x) (d : Draw) :
    b.transfer r d = (x, b) := by
  cases h with
  | invalid invalid => simp only [Books.transfer, settle_invalid invalid]
  | noSender valid unknown => simp only [Books.transfer, settle_no_sender valid unknown]
  | noReceiver valid sender unknown =>
    simp only [Books.transfer, settle_no_receiver valid sender unknown]
  | replayed valid sender receiver found =>
    simp only [Books.transfer, settle_replay valid sender receiver found]
  | refused valid sender receiver absent refused =>
    simp only [Books.transfer, settle_refused valid sender receiver absent refused]

end Books

theorem Store.openWallet_eq (s : Store) (supply : Supply) (owner : UserId) (kind : WalletKind)
    (opening : Money) :
    s.openWallet supply owner kind opening =
      ((s.books.openWallet supply.id supply.now owner kind opening).1,
        { s with books := (s.books.openWallet supply.id supply.now owner kind opening).2 }) := by
  have same : (Supply.id ⟨supply.id.value, supply.now⟩ : Identifier) = supply.id :=
    supply.id.ofNat_value
  simp only [Books.openWallet, Store.openWallet]
  have check : Store.checkOpening { books := s.books } owner kind opening =
      s.checkOpening owner kind opening := rfl
  rw [check]
  cases s.checkOpening owner kind opening with
  | error e => rfl
  | ok => simp only [same]

end WalletLedger
