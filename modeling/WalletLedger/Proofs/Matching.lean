import Mathlib.Data.List.Forall2
import WalletLedger.Proofs.Column
import WalletLedger.Proofs.Contents

/-!
Ledgers that match. One of them has other names for its wallets, and may write amounts in another
scale; otherwise they say the same. What matching ledgers answer to a call matches, and so do the
ledgers afterwards.
-/
namespace WalletLedger

def Corresponding {ε ε' α α' : Type} (fails : ε → ε' → Prop) (gives : α → α' → Prop) :
    Except ε α → Except ε' α' → Prop
  | .ok a, .ok a' => gives a a'
  | .error e, .error e' => fails e e'
  | _, _ => False

namespace Corresponding
variable {ε ε' α α' : Type} {fails : ε → ε' → Prop} {gives : α → α' → Prop} {y : Except ε' α'}

theorem of_ok {a : α} (h : Corresponding fails gives (.ok a) y) :
    ∃ a', y = .ok a' ∧ gives a a' := by
  cases y with
  | error e => exact h.elim
  | ok a' => exact ⟨a', rfl, h⟩

theorem of_error {e : ε} (h : Corresponding fails gives (.error e) y) :
    ∃ e', y = .error e' ∧ fails e e' := by
  cases y with
  | error e' => exact ⟨e', rfl, h⟩
  | ok a => exact h.elim

theorem to_ok {x : Except ε α} {a' : α'} (h : Corresponding fails gives x (.ok a')) :
    ∃ a, x = .ok a ∧ gives a a' := by
  cases x with
  | error e => exact h.elim
  | ok a => exact ⟨a, rfl, h⟩

end Corresponding

section
variable (σ : WalletId → WalletId)

structure Account.Matches (a a' : Account) : Prop where
  wallet : a'.wallet = σ a.wallet
  owner : a'.owner = a.owner
  kind : a'.kind = a.kind
  currency : a'.balance.currency = a.balance.currency
  value : a'.balance.amount.value = a.balance.amount.value

structure TransferRequest.Matches (r r' : TransferRequest) : Prop where
  sender : r'.sender = σ r.sender
  receiver : r'.receiver = σ r.receiver
  value : r'.amount.value = r.amount.value
  currency : r'.currency = r.currency
  kind : r'.kind = r.kind
  description : r'.description = r.description
  key : r'.key = r.key

structure TransferRecord.Matches (x x' : TransferRecord) : Prop where
  request : x.request.Matches σ x'.request
  status : x'.status = x.status

structure Movement.Matches (m m' : Movement) : Prop where
  wallet : m'.wallet = σ m.wallet
  amount : m'.amount.value = m.amount.value
  kind : m'.kind = m.kind
  currency : m'.currency = m.currency
  before : m'.before.value = m.before.value
  after : m'.after.value = m.after.value

structure Contents.Matches (c c' : Contents) : Prop where
  accounts : List.Forall₂ (Account.Matches σ) c.accounts c'.accounts
  owners : c'.owners = c.owners
  transfers : List.Forall₂ (TransferRecord.Matches σ) c.transfers c'.transfers
  keys : List.Forall₂ (fun k k' => k'.1 = k.1 ∧ Option.Rel (TransferRecord.Matches σ) k.2 k'.2)
    c.keys c'.keys
  movements : List.Forall₂ (fun m m' => m'.1 = m.1 ∧ m.2.Matches σ m'.2) c.movements c'.movements

def LedgerError.Matches : LedgerError → LedgerError → Prop
  | .nonPositiveAmount amount, .nonPositiveAmount amount' => amount'.value = amount.value
  | .sameWallet wallet, .sameWallet wallet' => wallet' = σ wallet
  | .currencyMismatch wallet expected actual, .currencyMismatch wallet' expected' actual' =>
    wallet' = σ wallet ∧ expected' = expected ∧ actual' = actual
  | .insufficientFunds wallet available requested,
      .insufficientFunds wallet' available' requested' =>
    wallet' = σ wallet ∧ available'.value = available.value ∧ requested'.value = requested.value
  | .walletNotFound wallet, .walletNotFound wallet' => wallet' = σ wallet
  | e, e' => e' = e

/-- Both made the transfer, or both give the earlier one back, or both fail. -/
def TransferResult.Matches : TransferResult → TransferResult → Prop :=
  Corresponding (LedgerError.Matches σ) fun x x' =>
    x'.isReplay = x.isReplay ∧ x.transaction.transferRecord.Matches σ x'.transaction.transferRecord

def TransferRequest.renamed (r : TransferRequest) : TransferRequest :=
  { r with sender := σ r.sender, receiver := σ r.receiver }

end

section
variable {σ : WalletId → WalletId} {r r' : TransferRequest} {s q s' q' : Wallet}

theorem TransferRequest.matches_renamed (r : TransferRequest) : r.Matches σ (r.renamed σ) :=
  ⟨rfl, rfl, rfl, rfl, rfl, rfl, rfl⟩

theorem IdempotencyKey.matches_of_check {text : String} {e : LedgerError}
    (h : IdempotencyKey.check text = .error e) : e.Matches σ e := by
  unfold check at h
  repeat' split at h
  all_goals cases h
  all_goals rfl

theorem TransferRequest.validate_renamed (injective : Function.Injective σ) (r : TransferRequest) :
    Corresponding (LedgerError.Matches σ) (fun _ _ => True) r.validate (r.renamed σ).validate := by
  have money : (r.renamed σ).money = r.money := rfl
  have key : (r.renamed σ).key = r.key := rfl
  have amount : (r.renamed σ).amount = r.amount := rfl
  have same : (r.renamed σ).sender = (r.renamed σ).receiver ↔ r.sender = r.receiver :=
    injective.eq_iff
  rw [validate_eq, validate_eq, money, key, amount]
  simp only [same]
  split
  · rfl
  · cases r.money.checkScale with
    | error e => rfl
    | ok =>
      cases checked : IdempotencyKey.check r.key.text with
      | error e => exact IdempotencyKey.matches_of_check checked
      | ok key =>
        dsimp only
        split
        · rfl
        · trivial

theorem TransferRequest.valid_renamed (injective : Function.Injective σ)
    (valid : r.validate = .ok ()) : (r.renamed σ).validate = .ok () := by
  have rules := validate_renamed injective r
  rw [valid] at rules
  obtain ⟨⟨⟩, valid', -⟩ := rules.of_ok
  exact valid'

theorem TransferRequest.validate_amount {a : Amount} (valid : r.validate = .ok ())
    (same : a.value = r.amount.value) :
    ({ r with amount := a } : TransferRequest).validate = .ok () := by
  obtain ⟨positive, scaled, keyed, apart⟩ := validate_ok valid
  have positive : a.IsPositive := by
    rw [Amount.isPositive_iff, same]
    exact Amount.isPositive_iff.mp positive
  have scaled : Money.checkScale ⟨a, r.currency⟩ = .ok () := by
    rw [Money.checkScale_iff] at scaled ⊢
    exact scaled.imp fun n whole => same.trans whole
  rw [validate_eq]
  simp only [money, positive, not_true, if_false, scaled, keyed, apart]

theorem TransferRequest.validateAgainst_matches (injective : Function.Injective σ)
    (request : r.Matches σ r') (sender : s.account.Matches σ s'.account)
    (receiver : q.account.Matches σ q'.account) :
    Corresponding (LedgerError.Matches σ) (fun _ _ => True) (r.validateAgainst s q)
      (r'.validateAgainst s' q') := by
  have ids : s'.id = σ s.id := sender.wallet
  have idq : q'.id = σ q.id := receiver.wallet
  have cs : s'.currency = s.currency := sender.currency
  have cq : q'.currency = q.currency := receiver.currency
  have balance : s'.balance.value = s.balance.value := sender.value
  have covers : r'.amount ≤ s'.balance ↔ r.amount ≤ s.balance := by
    rw [Amount.le_iff_value, Amount.le_iff_value, balance, request.value]
  rw [validateAgainst_eq, validateAgainst_eq]
  simp only [ids, idq, cs, cq, covers, request.currency, injective.eq_iff]
  split
  · rfl
  · split
    · exact ⟨rfl, rfl, rfl⟩
    · split
      · exact ⟨rfl, rfl, rfl⟩
      · split
        · trivial
        · exact ⟨rfl, balance, request.value⟩

theorem Money.combine_matches {op : Amount → Amount → Option Amount} {a b a' b' : Money}
    (left : a'.currency = a.currency) (right : b'.currency = b.currency)
    (value : (op a'.amount b'.amount).map Amount.value = (op a.amount b.amount).map Amount.value) :
    Corresponding (fun e e' => e' = e) (fun m m' => m'.amount.value = m.amount.value)
      (combine op a b) (combine op a' b') := by
  unfold combine
  rw [left, right]
  split
  · rfl
  · cases found : op a.amount b.amount <;> cases found' : op a'.amount b'.amount <;>
      rw [found, found'] at value
    · rfl
    · contradiction
    · contradiction
    · exact Option.some.inj value

theorem planTransfer_matches (t t' : Transaction) (amount : t'.amount.value = t.amount.value)
    (currency : t'.currency = t.currency) (sender : s.account.Matches σ s'.account)
    (receiver : q.account.Matches σ q'.account) (debit credit debit' credit' : EntryId) :
    Corresponding (LedgerError.Matches σ)
      (fun p p' => p.debit.movement.Matches σ p'.debit.movement ∧
        p.credit.movement.Matches σ p'.credit.movement)
      (planTransfer debit credit t s q) (planTransfer debit' credit' t' s' q') := by
  have taken : Corresponding (fun e e' => e' = e) (fun m m' => m'.amount.value = m.amount.value)
      (Money.combine Amount.sub? s.money t.money)
      (Money.combine Amount.sub? s'.money t'.money) := by
    refine Money.combine_matches sender.currency currency (Amount.add?_congr ?_)
    show _ + (-t'.amount).value = _ + (-t.amount).value
    rw [Amount.value_neg, Amount.value_neg, amount]
    exact congrArg (· + _) sender.value
  have given : Corresponding (fun e e' => e' = e) (fun m m' => m'.amount.value = m.amount.value)
      (Money.combine Amount.add? q.money t.money)
      (Money.combine Amount.add? q'.money t'.money) := by
    refine Money.combine_matches receiver.currency currency (Amount.add?_congr ?_)
    show _ + t'.amount.value = _ + t.amount.value
    rw [amount]
    exact congrArg (· + _) receiver.value
  unfold planTransfer Money.sub Money.add
  cases less : Money.combine Amount.sub? s.money t.money <;>
    cases less' : Money.combine Amount.sub? s'.money t'.money <;> rw [less, less'] at taken
  · exact congrArg _ taken
  · contradiction
  · contradiction
  · rename_i sent sent'
    have owed : sent'.amount.IsNegative ↔ sent.amount.IsNegative := by
      rw [Amount.isNegative_iff, Amount.isNegative_iff, taken]
    simp only [owed]
    split
    · exact ⟨sender.wallet, sender.value, amount⟩
    · cases more : Money.combine Amount.add? q.money t.money <;>
        cases more' : Money.combine Amount.add? q'.money t'.money <;> rw [more, more'] at given
      · exact congrArg _ given
      · contradiction
      · contradiction
      · exact ⟨⟨sender.wallet, amount, rfl, sender.currency, sender.value, taken⟩,
          ⟨receiver.wallet, amount, rfl, receiver.currency, receiver.value, given⟩⟩

theorem rel_none {α β : Type} {R : α → β → Prop} {y : Option β} (h : Option.Rel R none y) :
    y = none := by
  cases h
  rfl

theorem rel_some {α β : Type} {R : α → β → Prop} {a : α} {y : Option β}
    (h : Option.Rel R (some a) y) : ∃ b, y = some b ∧ R a b := by
  cases h with
  | some related => exact ⟨_, rfl, related⟩

theorem find?_matches {α β : Type} {R : α → β → Prop} {xs : List α} {ys : List β} {p : α → Bool}
    {p' : β → Bool} (related : List.Forall₂ R xs ys) (same : ∀ x y, R x y → p' y = p x) :
    Option.Rel R (xs.find? p) (ys.find? p') := by
  induction related with
  | nil => exact .none
  | @cons x y xs ys first rest ih =>
    rw [List.find?_cons, List.find?_cons, same x y first]
    cases p x with
    | true => exact .some first
    | false => exact ih

theorem rel_of_map {α α' β β' : Type} {R : β → β' → Prop} {f : α → β} {g : α' → β'}
    {x : Option α} {y : Option α'} (h : Option.Rel R (x.map f) (y.map g)) :
    Option.Rel (fun a a' => R (f a) (g a')) x y := by
  cases x <;> cases y <;> cases h
  · exact .none
  · rename_i related
    exact .some related

theorem forall_matches {α β : Type} {R : α → β → Prop} {P : α → Prop} {Q : β → Prop} {xs : List α}
    {ys : List β} (related : List.Forall₂ R xs ys) (all : ∀ x ∈ xs, P x)
    (carries : ∀ x y, R x y → P x → Q y) : ∀ y ∈ ys, Q y := by
  induction related with
  | nil => exact fun _ => List.not_mem_nil.elim
  | @cons x y xs ys first rest ih =>
    obtain ⟨here, there⟩ := List.forall_mem_cons.mp all
    exact List.forall_mem_cons.mpr ⟨carries x y first here, ih there⟩

namespace Books
variable {b b' : Books}

theorem transactionByKey?_matches (same : b.contents.Matches σ b'.contents) (key : IdempotencyKey) :
    Option.Rel (fun t t' => t.transferRecord.Matches σ t'.transferRecord)
      (b.transactionByKey? key) (b'.transactionByKey? key) := by
  apply rel_of_map
  rw [contents_transactionByKey?, contents_transactionByKey?]
  have entries : Option.Rel
      (fun k k' => k'.1 = k.1 ∧ Option.Rel (TransferRecord.Matches σ) k.2 k'.2)
      (Table.find? Prod.fst key b.contents.keys) (Table.find? Prod.fst key b'.contents.keys) :=
    find?_matches same.keys fun k k' related => decide_eq_decide.mpr (by rw [related.1])
  cases found : Table.find? Prod.fst key b.contents.keys with
  | none =>
    rw [found] at entries
    rw [rel_none entries]
    exact .none
  | some k =>
    rw [found] at entries
    obtain ⟨k', found', -, related⟩ := rel_some entries
    rw [found']
    exact related

section
variable (injective : Function.Injective σ) (same : b.contents.Matches σ b'.contents)
  {id : WalletId} {w : Wallet}
include injective same

theorem wallet?_matches (id : WalletId) :
    Option.Rel (fun w w' => w.account.Matches σ w'.account) (b.wallet? id) (b'.wallet? (σ id)) := by
  apply rel_of_map
  rw [contents_wallet?, contents_wallet?]
  refine find?_matches same.accounts fun a a' related => decide_eq_decide.mpr ?_
  rw [related.wallet, injective.eq_iff]

theorem wallet?_some_matches (found : b.wallet? id = some w) :
    ∃ w', b'.wallet? (σ id) = some w' ∧ w.account.Matches σ w'.account :=
  rel_some (found ▸ wallet?_matches injective same id)

theorem wallet?_none_matches : b.wallet? id = none ↔ b'.wallet? (σ id) = none := by
  have wallets := wallet?_matches injective same id
  constructor
  · intro unknown
    exact rel_none (unknown ▸ wallets)
  · intro unknown
    cases known : b.wallet? id with
    | none => rfl
    | some w =>
      obtain ⟨w', found, -⟩ := wallet?_some_matches injective same known
      rw [unknown] at found
      contradiction

theorem Answers.matches {x : TransferResult} (answers : b.Answers r x) :
    ∃ x', b'.Answers (r.renamed σ) x' ∧ x.Matches σ x' := by
  have earlier := transactionByKey?_matches same r.key
  cases answers with
  | invalid invalid =>
    have rules := TransferRequest.validate_renamed injective r
    rw [invalid] at rules
    obtain ⟨e', invalid', failed⟩ := rules.of_error
    exact ⟨_, .invalid invalid', failed⟩
  | noSender valid unknown =>
    have valid' := TransferRequest.valid_renamed injective valid
    exact ⟨_, .noSender valid' ((wallet?_none_matches injective same).mp unknown), rfl⟩
  | noReceiver valid sender unknown =>
    have valid' := TransferRequest.valid_renamed injective valid
    obtain ⟨s', sender', -⟩ := wallet?_some_matches injective same sender
    exact ⟨_, .noReceiver valid' sender' ((wallet?_none_matches injective same).mp unknown), rfl⟩
  | replayed valid sender receiver found =>
    have valid' := TransferRequest.valid_renamed injective valid
    obtain ⟨s', sender', -⟩ := wallet?_some_matches injective same sender
    obtain ⟨q', receiver', -⟩ := wallet?_some_matches injective same receiver
    rw [found] at earlier
    obtain ⟨t', found', related⟩ := rel_some earlier
    exact ⟨_, .replayed valid' sender' receiver' found', rfl, related⟩
  | refused valid sender receiver absent refused =>
    have valid' := TransferRequest.valid_renamed injective valid
    obtain ⟨s', sender', payer⟩ := wallet?_some_matches injective same sender
    obtain ⟨q', receiver', payee⟩ := wallet?_some_matches injective same receiver
    rw [absent] at earlier
    have checks := TransferRequest.validateAgainst_matches injective r.matches_renamed payer payee
    rw [refused] at checks
    obtain ⟨e', refused', failed⟩ := checks.of_error
    exact ⟨_, .refused valid' sender' receiver' (rel_none earlier) refused', failed⟩

theorem Allows.matches (allows : b.Allows r s q) :
    ∃ s' q', b'.Allows (r.renamed σ) s' q' ∧ s.account.Matches σ s'.account ∧
      q.account.Matches σ q'.account := by
  have valid' := TransferRequest.valid_renamed injective allows.valid
  obtain ⟨s', sender', payer⟩ := wallet?_some_matches injective same allows.sender
  obtain ⟨q', receiver', payee⟩ := wallet?_some_matches injective same allows.receiver
  have earlier := transactionByKey?_matches same r.key
  rw [allows.absent] at earlier
  have checks := TransferRequest.validateAgainst_matches injective r.matches_renamed payer payee
  rw [allows.allowed] at checks
  obtain ⟨⟨⟩, allowed', -⟩ := checks.of_ok
  exact ⟨s', q', ⟨valid', sender', receiver', rel_none earlier, allowed'⟩, payer, payee⟩

end

end Books

/-! Matching ledgers that grow in the same way match again. -/

theorem Account.Matches.posted {a a' : Account} {m m' : Movement × Movement}
    (injective : Function.Injective σ) (same : a.Matches σ a') (debit : m.1.Matches σ m'.1)
    (credit : m.2.Matches σ m'.2) : (a.posted m).Matches σ (a'.posted m') := by
  unfold Account.posted
  simp only [same.wallet, debit.wallet, credit.wallet, injective.eq_iff]
  split
  · exact ⟨rfl, same.owner, same.kind, same.currency, debit.after⟩
  · split
    · exact ⟨rfl, same.owner, same.kind, same.currency, credit.after⟩
    · exact same

namespace Contents.Matches
variable {c c' : Contents}

theorem withAccount {a a' : Account} (same : c.Matches σ c') (opened : a.Matches σ a') :
    (c.withAccount a).Matches σ (c'.withAccount a') := by
  refine ⟨List.rel_append same.accounts (.cons opened .nil), ?_, same.transfers, same.keys,
    same.movements⟩
  simp only [Contents.withAccount, same.owners, opened.owner, opened.kind]

theorem post {m m' : Movement × Movement} (injective : Function.Injective σ) (same : c.Matches σ c')
    (request : r.Matches σ r') (debit : m.1.Matches σ m'.1) (credit : m.2.Matches σ m'.2) :
    (c.post r m).Matches σ (c'.post r' m') := by
  have key : r'.key = r.key := request.key
  refine ⟨?_, same.owners, List.rel_append same.transfers (.cons ⟨request, rfl⟩ .nil),
    List.rel_append same.keys (.cons ⟨key, .some ⟨request, rfl⟩⟩ .nil),
    List.rel_append same.movements
      (.cons ⟨congrArg some key, debit⟩ (.cons ⟨congrArg some key, credit⟩ .nil))⟩
  refine List.forall₂_map_left_iff.mpr (List.forall₂_map_right_iff.mpr ?_)
  exact same.accounts.imp fun a a' related => related.posted injective debit credit

end Contents.Matches

end

end WalletLedger
