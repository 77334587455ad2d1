import WalletLedger.Proofs.Coherence
import WalletLedger.Proofs.Deeds

/-!
What books and outcomes say once the identifiers that a ledger makes up and its times are taken
away. Wallets keep their identifiers, as transfers name them. Keys and entries are told by the
transfer that they belong to. What a call does to the contents follows from the contents.
-/
namespace WalletLedger

structure Account where
  wallet : WalletId
  owner : UserId
  kind : WalletKind
  balance : Money
  deriving DecidableEq, Repr

structure Movement where
  wallet : WalletId
  amount : Amount
  kind : EntryKind
  currency : Currency
  before : Amount
  after : Amount
  deriving DecidableEq, Repr

structure TransferRecord where
  request : TransferRequest
  status : TransactionStatus
  deriving DecidableEq, Repr

structure Contents where
  accounts : List Account
  owners : List (UserId × WalletKind)
  transfers : List TransferRecord
  keys : List (IdempotencyKey × Option TransferRecord)
  movements : List (Option IdempotencyKey × Movement)
  deriving DecidableEq, Repr

def Wallet.account (w : Wallet) : Account := ⟨w.id, w.owner, w.kind, w.money⟩

def Transaction.transferRecord (t : Transaction) : TransferRecord := ⟨t.toTransferRequest, t.status⟩

def EntryDraft.movement (e : EntryDraft) : Movement :=
  ⟨e.wallet, e.amount, e.kind, e.currency, e.before, e.after⟩

def TransferPlan.movements (p : TransferPlan) : Movement × Movement :=
  (p.debit.movement, p.credit.movement)

namespace Books

def keyOf? (b : Books) (id : TransactionId) : Option IdempotencyKey :=
  (b.transaction? id).map (·.key)

def contents (b : Books) : Contents where
  accounts := b.wallets.map (·.account)
  owners := b.owners
  transfers := b.transactions.map (·.transferRecord)
  keys := b.keys.map fun entry => (entry.1, (b.transaction? entry.2).map (·.transferRecord))
  movements := b.entries.map fun e => (b.keyOf? e.transaction, e.movement)

end Books

def Outcome.contents :
    Outcome → Except StoreError Account ⊕ Except LedgerError (Bool × TransferRecord)
  | opened r => .inl (r.map (·.account))
  | transferred r => .inr (r.map fun x => (x.isReplay, x.transaction.transferRecord))

def Account.posted (a : Account) (m : Movement × Movement) : Account :=
  if a.wallet = m.1.wallet then { a with balance := ⟨m.1.after, a.balance.currency⟩ }
  else if a.wallet = m.2.wallet then { a with balance := ⟨m.2.after, a.balance.currency⟩ }
  else a

namespace Contents

def withAccount (c : Contents) (a : Account) : Contents :=
  { c with accounts := c.accounts ++ [a], owners := c.owners ++ [(a.owner, a.kind)] }

def post (c : Contents) (r : TransferRequest) (m : Movement × Movement) : Contents :=
  { c with
    accounts := c.accounts.map (·.posted m)
    transfers := c.transfers ++ [⟨r, .completed⟩]
    keys := c.keys ++ [(r.key, some ⟨r, .completed⟩)]
    movements := c.movements ++ [(some r.key, m.1), (some r.key, m.2)] }

end Contents

def Decision.Alike : Decision → Decision → Prop
  | reject e, reject e' => e = e'
  | replay t, replay t' => t.transferRecord = t'.transferRecord
  | post _ p, post _ p' => p.movements = p'.movements
  | _, _ => False

theorem Wallet.account_eq {w w' : Wallet} (h : w.account = w'.account) :
    w.id = w'.id ∧ w.currency = w'.currency ∧ w.balance = w'.balance := by
  simp only [account, money, Account.mk.injEq, Money.mk.injEq] at h
  exact ⟨h.1, h.2.2.2.2, h.2.2.2.1⟩

theorem validateAgainst_alike {r : TransferRequest} {s q s' q' : Wallet}
    (sender : s.account = s'.account) (receiver : q.account = q'.account) :
    r.validateAgainst s q = r.validateAgainst s' q' := by
  cases s
  cases q
  cases s'
  cases q'
  obtain ⟨rfl, rfl, rfl⟩ := Wallet.account_eq sender
  obtain ⟨rfl, rfl, rfl⟩ := Wallet.account_eq receiver
  rfl

theorem planTransfer_alike {t t' : Transaction} {s q s' q' : Wallet}
    (request : t.toTransferRequest = t'.toTransferRequest) (sender : s.account = s'.account)
    (receiver : q.account = q'.account) (debit credit debit' credit' : EntryId) :
    (planTransfer debit credit t s q).map (·.movements) =
      (planTransfer debit' credit' t' s' q').map (·.movements) := by
  obtain ⟨ids, cs, bs⟩ := Wallet.account_eq sender
  obtain ⟨idq, cq, bq⟩ := Wallet.account_eq receiver
  simp only [planTransfer, Wallet.money, TransferRequest.money, ids, cs, bs, idq, cq, bq, request]
  split
  · rfl
  · split
    · rfl
    · split <;> rfl

namespace Books
variable {b b' : Books} {r : TransferRequest} {d d' : Draw} {s q w : Wallet} {t : Transaction}
  {p : TransferPlan}

theorem contents_wallet? (b : Books) (id : WalletId) :
    (b.wallet? id).map (·.account) = b.contents.accounts.find? (·.wallet = id) := by
  simp only [wallet?, Table.find?, contents, List.find?_map]
  rfl

theorem contents_transactionByKey? (b : Books) (key : IdempotencyKey) :
    (b.transactionByKey? key).map (·.transferRecord) =
      (Table.find? Prod.fst key b.contents.keys).bind Prod.snd := by
  have found : b.contents.keys.find? (fun entry => decide (entry.1 = key)) =
      (b.keys.find? fun entry => decide (entry.1 = key)).map
        fun entry => (entry.1, (b.transaction? entry.2).map (·.transferRecord)) := by
    simp only [contents, List.find?_map]
    rfl
  simp only [transactionByKey?, Table.find?, found]
  cases b.keys.find? fun entry => decide (entry.1 = key) with
  | none => rfl
  | some entry => rfl

theorem wallet?_alike (same : b.contents = b'.contents) (id : WalletId) :
    (b.wallet? id).map (·.account) = (b'.wallet? id).map (·.account) := by
  rw [contents_wallet?, contents_wallet?, same]

theorem wallet?_none_alike (same : b.contents = b'.contents) {id : WalletId}
    (new : b.wallet? id = none) : b'.wallet? id = none := by
  have found := wallet?_alike same id
  rw [new] at found
  exact Option.map_eq_none_iff.mp found.symm

theorem settle_alike (same : b.contents = b'.contents) (r : TransferRequest) (d d' : Draw) :
    (b.settle r d).Alike (b'.settle r d') := by
  have sender := wallet?_alike same r.sender
  have receiver := wallet?_alike same r.receiver
  have earlier : (b.transactionByKey? r.key).map (·.transferRecord) =
      (b'.transactionByKey? r.key).map (·.transferRecord) := by
    rw [contents_transactionByKey?, contents_transactionByKey?, same]
  unfold settle
  cases r.validate with
  | error e => rfl
  | ok =>
    cases hs : b.wallet? r.sender <;> cases hs' : b'.wallet? r.sender <;>
      simp only [hs, hs', Option.map_none, Option.map_some, reduceCtorEq, Option.some.injEq]
        at sender
    · rfl
    · cases hq : b.wallet? r.receiver <;> cases hq' : b'.wallet? r.receiver <;>
        simp only [hq, hq', Option.map_none, Option.map_some, reduceCtorEq, Option.some.injEq]
          at receiver
      · rfl
      · rename_i s s' q q'
        cases hk : b.transactionByKey? r.key <;> cases hk' : b'.transactionByKey? r.key <;>
          simp only [hk, hk', Option.map_none, Option.map_some, reduceCtorEq, Option.some.injEq]
            at earlier
        · dsimp only
          rw [validateAgainst_alike sender receiver]
          cases r.validateAgainst s' q' with
          | error e => rfl
          | ok =>
            let t := (r.draft d.transaction).recordedAt d.inserted
            let t' := (r.draft d'.transaction).recordedAt d'.inserted
            have request : t.toTransferRequest = t'.toTransferRequest := rfl
            have planned :=
              planTransfer_alike request sender receiver d.debit d.credit d'.debit d'.credit
            dsimp only
            cases hp : planTransfer d.debit d.credit t s q <;>
            cases hp' : planTransfer d'.debit d'.credit t' s' q' <;>
            simp only [hp, hp', Except.map, reduceCtorEq, Except.error.injEq, Except.ok.injEq]
              at planned
            · exact planned
            · exact planned
        · exact earlier

theorem contents_withWallet : (b.withWallet w).contents = b.contents.withAccount w.account := by
  simp only [contents, withWallet, Contents.withAccount, List.map_append, List.map_cons,
    List.map_nil]
  rfl

theorem account_posted (w : Wallet) (p : TransferPlan) (now : Timestamp)
    (sent : p.senderBalance = p.debit.after) (received : p.receiverBalance = p.credit.after) :
    (w.posted p now).account = w.account.posted p.movements := by
  unfold Wallet.posted
  split
  · rename_i same
    simp only [Account.posted, Wallet.account, same, TransferPlan.movements, EntryDraft.movement,
      if_true, sent]
    rfl
  · rename_i other
    split
    · rename_i same
      have other : ¬p.credit.wallet = p.debit.wallet := same ▸ other
      simp only [Account.posted, Wallet.account, same, other, TransferPlan.movements,
        EntryDraft.movement, if_true, if_false, received]
      rfl
    · rename_i another
      simp only [Account.posted, Wallet.account, other, another, TransferPlan.movements,
        EntryDraft.movement, if_false]

theorem contents_post (coherent : b.Coherent) (postable : b.Postable r d s q t p)
    (new : b.transaction? t.id = none) :
    (b.post t p d).contents = b.contents.post r p.movements := by
  have record : (t.withStatus .completed d.completed).transferRecord = ⟨r, .completed⟩ := by
    rw [postable.pending]
    rfl
  have old : ∀ u ∈ b.transactions, t.id ≠ u.id := fun u mem same =>
    Table.find?_none_iff.mp new u mem same.symm
  have here : (b.post t p d).transaction? t.id = some (t.withStatus .completed d.completed) := by
    rw [transaction?_post new, if_pos rfl]
  have there : ∀ u ∈ b.transactions, (b.post t p d).transaction? u.id = b.transaction? u.id := by
    intro u mem
    rw [transaction?_post new, if_neg (old u mem)]
  have keys : b.keys.map (fun entry =>
      (entry.1, ((b.post t p d).transaction? entry.2).map (·.transferRecord))) =
      b.contents.keys := by
    apply List.map_congr_left
    intro entry mem
    obtain ⟨u, known, same⟩ := coherent.led entry mem
    rw [← same, there u known]
  have movements : b.entries.map (fun e => ((b.post t p d).keyOf? e.transaction, e.movement)) =
      b.contents.movements := by
    apply List.map_congr_left
    intro e mem
    obtain ⟨u, mem, same⟩ := coherent.owned e mem
    simp only [keyOf?, ← same, there u mem]
  have key : (b.post t p d).keyOf? t.id = some r.key := by
    rw [keyOf?, here]
    exact congrArg some postable.key_eq
  obtain ⟨sent, received, -, -, -, -, -, plan⟩ := postable.plan_eq
  have debit : p.debit.transaction = t.id := by rw [plan]
  have credit : p.credit.transaction = t.id := by rw [plan]
  have accounts : ∀ w : Wallet, (w.posted p d.committed).account = w.account.posted p.movements :=
    fun w => account_posted w p d.committed (by rw [plan]) (by rw [plan])
  have transfers : b.transactions.map (·.transferRecord) = b.contents.transfers := rfl
  simp only [Contents.post, TransferPlan.movements, ← keys, ← movements, ← transfers]
  simp only [contents, Contents.mk.injEq]
  refine ⟨?_, rfl, ?_, ?_, ?_⟩
  · show (b.wallets.map _).map _ = (b.wallets.map _).map _
    simp only [List.map_map]
    exact List.map_congr_left fun w _ => accounts w
  · show (b.transactions ++ [_]).map _ = _
    rw [List.map_append, List.map_singleton, record]
  · show (b.keys ++ [_]).map _ = _
    rw [List.map_append, List.map_singleton, here, Option.map_some, record, postable.key_eq]
  · show (b.entries ++ [_, _]).map _ = _
    rw [List.map_append]
    simp only [List.map_cons, List.map_nil, EntryDraft.recordedAt, debit, credit, key]

theorem openWallet_alike {id : WalletId} (same : b.contents = b'.contents)
    (new : b.wallet? id = none) (now now' : Timestamp) (owner : UserId) (kind : WalletKind)
    (opening : Money) :
    (b.openWallet id now owner kind opening).1.map (·.account) =
        (b'.openWallet id now' owner kind opening).1.map (·.account) ∧
      (b.openWallet id now owner kind opening).2.contents =
        (b'.openWallet id now' owner kind opening).2.contents := by
  have owners : b.owners = b'.owners := congrArg Contents.owners same
  have checks : Store.checkOpening { books := b } owner kind opening =
      Store.checkOpening { books := b' } owner kind opening := by
    simp only [Store.checkOpening, owners]
  have new' := wallet?_none_alike same new
  rcases openWallet_cases new now owner kind opening with
    ⟨e, check, failed⟩ | ⟨check, w, made, opened, -⟩
  · rcases openWallet_cases new' now' owner kind opening with ⟨e', check', failed'⟩ | ⟨check', -⟩
    · cases check.symm.trans (checks.trans check')
      rw [failed, failed']
      exact ⟨rfl, same⟩
    · cases check.symm.trans (checks.trans check')
  · rcases openWallet_cases new' now' owner kind opening with
      ⟨e', check', -⟩ | ⟨-, w', made', opened', -⟩
    · cases check.symm.trans (checks.trans check')
    · have accounts : w.account = w'.account := by rw [made, made']; rfl
      rw [opened, opened']
      refine ⟨congrArg Except.ok accounts, ?_⟩
      rw [contents_withWallet, contents_withWallet, same, accounts]

theorem Coherent.transfer_alike (coherent : b.Coherent) (coherent' : b'.Coherent)
    (same : b.contents = b'.contents) (suits : (Request.transfer r).Suits b d)
    (suits' : (Request.transfer r).Suits b' d') :
    (b.transfer r d).1.map (fun x => (x.isReplay, x.transaction.transferRecord)) =
        (b'.transfer r d').1.map (fun x => (x.isReplay, x.transaction.transferRecord)) ∧
      (b.transfer r d).2.contents = (b'.transfer r d').2.contents := by
  have decisions := settle_alike same r d d'
  unfold transfer
  cases settled : b.settle r d with
  | reject e =>
    cases settled' : b'.settle r d' with
    | reject e' =>
      rw [settled, settled'] at decisions
      exact ⟨congrArg Except.error decisions, same⟩
    | replay t' | post t' p' =>
      rw [settled, settled'] at decisions
      exact decisions.elim
  | replay t =>
    cases settled' : b'.settle r d' with
    | replay t' =>
      rw [settled, settled'] at decisions
      exact ⟨congrArg (fun x => Except.ok (true, x)) decisions, same⟩
    | reject e' | post t' p' =>
      rw [settled, settled'] at decisions
      exact decisions.elim
  | post t p =>
    cases settled' : b'.settle r d' with
    | post t' p' =>
      rw [settled, settled'] at decisions
      obtain ⟨s, q, postable⟩ :=
        postable_of_settle coherent.transactionByKey?_none_iff.mp settled
      obtain ⟨s', q', postable'⟩ :=
        postable_of_settle coherent'.transactionByKey?_none_iff.mp settled'
      constructor
      · rw [postable.pending, postable'.pending]
        rfl
      · have movements : p.movements = p'.movements := decisions
        show (b.post t p d).contents = (b'.post t' p' d').contents
        rw [contents_post coherent postable (suits t p settled),
          contents_post coherent' postable' (suits' t' p' settled'), same, movements]
    | reject e' | replay t' =>
      rw [settled, settled'] at decisions
      exact decisions.elim

/-- Books with the same contents answer alike and have the same contents afterwards. -/
theorem Grown.perform_alike (grown : b.Grown) (grown' : b'.Grown) (same : b.contents = b'.contents)
    {request : Request} (suits : request.Suits b d) (suits' : request.Suits b' d') :
    (b.perform d request).1.contents = (b'.perform d' request).1.contents ∧
      (b.perform d request).2.contents = (b'.perform d' request).2.contents := by
  cases request with
  | opening id owner kind opening =>
    obtain ⟨results, books⟩ :=
      openWallet_alike same suits d.committed d'.committed owner kind opening
    exact ⟨congrArg Sum.inl results, books⟩
  | transfer r =>
    obtain ⟨results, books⟩ :=
      grown.coherent.transfer_alike grown'.coherent same suits suits'
    exact ⟨congrArg Sum.inr results, books⟩

end Books

end WalletLedger
