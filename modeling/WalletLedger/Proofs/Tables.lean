import WalletLedger.Proofs.Column

/-!
Books in tables. What the tables find is what the books find, and what is written to the tables, if
no rule of the schema is in the way, is what comes to stand in the books.
-/
namespace WalletLedger

namespace Books

def withTransaction (b : Books) (t : Transaction) : Books :=
  { b with transactions := b.transactions ++ [t] }

def withEntry (b : Books) (e : Entry) : Books := { b with entries := b.entries ++ [e] }

end Books

namespace Sql

namespace Tables
variable {users : List UserRecord} {b : Books}

def of (users : List UserRecord) (b : Books) : Tables :=
  ⟨users, b.wallets.map .of, b.transactions.map .of, b.entries.map .of⟩

theorem wallet?_of (id : WalletId) :
    (of users b).wallet? id = (b.wallet? id).map WalletRecord.of := by
  simp only [wallet?, of, Table.find?, List.find?_map]
  rfl

variable (users b) in
theorem transaction?_of (id : TransactionId) :
    (of users b).transaction? id = (b.transaction? id).map TransactionRecord.of := by
  simp only [transaction?, of, Table.find?, List.find?_map]
  rfl

theorem transactionByKey?_of (grown : b.Grown) (key : IdempotencyKey) :
    (of users b).transactionByKey? key.text =
      (b.transactionByKey? key).map TransactionRecord.of := by
  have found : (of users b).transactionByKey? key.text =
      (b.transactions.find? (·.key = key)).map TransactionRecord.of := by
    have same : ∀ t : Transaction, t.key.text = key.text ↔ t.key = key := by
      intro t
      rw [← IdempotencyKey.mk.injEq]
    simp only [transactionByKey?, of, Table.find?, List.find?_map]
    simp only [TransactionRecord.of, Function.comp_def, same]
  rw [found]
  congr 1
  cases row : b.transactions.find? (·.key = key) with
  | some t =>
    have there : t.key = key := by simpa using List.find?_some row
    rw [grown.transactionByKey?_iff.mpr ⟨List.mem_of_find?_eq_some row, there⟩]
  | none =>
    have absent : b.hasKey key = false := by
      refine grown.hasKey_false_iff.mpr fun t mem => ?_
      simpa using List.find?_eq_none.mp row t mem
    rw [grown.transactionByKey?_none_iff.mpr absent]

end Tables

theorem require_ok {holds : Bool} (h : holds = true) (state rule : String) :
    require holds state rule = .ok () := by
  rw [require, h]
  rfl

theorem numeric_ok {a x : Amount} (h : a.column? = some x) : numeric a = .ok x := by
  rw [numeric, h]

namespace Tables
variable {users : List UserRecord} {b : Books} {now : Timestamp}

theorem of_withWallet (w : Wallet) : of users (b.withWallet w) =
    { of users b with wallets := (of users b).wallets ++ [.of w] } := by
  simp only [of, Books.withWallet, List.map_append, List.map_cons, List.map_nil]

theorem of_withTransaction (t : Transaction) : of users (b.withTransaction t) =
    { of users b with transactions := (of users b).transactions ++ [.of t] } := by
  simp only [of, Books.withTransaction, List.map_append, List.map_cons, List.map_nil]

theorem of_withEntry (e : Entry) : of users (b.withEntry e) =
    { of users b with entries := (of users b).entries ++ [.of e] } := by
  simp only [of, Books.withEntry, List.map_append, List.map_cons, List.map_nil]

theorem wallet?_isSome {id : WalletId} (known : (b.wallet? id).isSome) :
    ((of users b).wallet? id).isSome = true := by
  rw [wallet?_of, Option.isSome_map, known]

theorem insertWallet_of {w v : Wallet} {balance : Amount} (kept : w.balance.column? = some balance)
    (row : v = { w with balance := balance }) (owed : ¬balance.IsNegative)
    (new : b.wallet? w.id = none) (free : ∀ x ∈ b.wallets, (x.owner, x.kind) ≠ (w.owner, w.kind))
    (owner : ((of users b).user? w.owner).isSome) :
    (of users b).insertWallet w = .ok (.of v, of users (b.withWallet v)) := by
  have unnamed : Table.has WalletRecord.id w.id (of users b).wallets = false := by
    refine Table.has_false_iff.mpr fun x mem same => ?_
    obtain ⟨y, there, rfl⟩ := List.mem_map.mp mem
    exact Table.find?_none_iff.mp new y there same
  have single : (of users b).wallets.any (fun x => x.owner = w.owner && x.kind = w.kind) =
      false := by
    refine List.any_eq_false.mpr fun x mem same => ?_
    obtain ⟨y, there, rfl⟩ := List.mem_map.mp mem
    simp only [Bool.and_eq_true, decide_eq_true_eq] at same
    exact free y there (Prod.ext same.1 same.2)
  have positive : (!decide balance.IsNegative) = true := by simpa using owed
  simp only [insertWallet, numeric_ok kept, require_ok positive, unnamed, single, Bool.not_false,
    require_ok rfl, require_ok owner, bind, Except.bind, pure, Except.pure]
  rw [row, of_withWallet]

theorem insertTransaction_of {draft : TransactionDraft} {t : Transaction} {amount : Amount}
    (kept : draft.amount.column? = some amount)
    (row : t = { draft with amount := amount }.recordedAt now) (positive : amount.IsPositive)
    (apart : draft.sender ≠ draft.receiver) (absent : ∀ t ∈ b.transactions, t.key ≠ draft.key)
    (new : b.transaction? draft.id = none) (sender : (b.wallet? draft.sender).isSome)
    (receiver : (b.wallet? draft.receiver).isSome) :
    (of users b).insertTransaction draft now =
      .ok (1, of users (b.withTransaction t)) := by
  have unkeyed : Table.has TransactionRecord.key draft.key.text (of users b).transactions =
      false := by
    refine Table.has_false_iff.mpr fun x mem same => ?_
    obtain ⟨t, there, rfl⟩ := List.mem_map.mp mem
    exact absent t there (congrArg IdempotencyKey.mk same)
  have unnamed : Table.has TransactionRecord.id draft.id (of users b).transactions = false := by
    refine Table.has_false_iff.mpr fun x mem same => ?_
    obtain ⟨t, there, rfl⟩ := List.mem_map.mp mem
    exact Table.find?_none_iff.mp new t there same
  simp only [insertTransaction, numeric_ok kept, require_ok (decide_eq_true positive),
    require_ok (decide_eq_true apart), unkeyed, unnamed, Bool.false_eq_true, if_false,
    Bool.not_false, require_ok rfl, require_ok (wallet?_isSome sender),
    require_ok (wallet?_isSome receiver), bind, Except.bind, pure, Except.pure]
  rw [row, of_withTransaction]

structure Accepts (b : Books) (e : EntryDraft) : Prop where
  amount : e.amount.Stored
  before : e.before.Stored
  after : e.after.Stored
  positive : e.amount.IsPositive
  consistent : e.consistent = true
  new : ∀ x ∈ b.entries, x.id ≠ e.id
  side : ∀ x ∈ b.entries, x.transaction = e.transaction → x.kind ≠ e.kind
  wallet : (b.wallet? e.wallet).isSome
  transaction : (b.transaction? e.transaction).isSome

theorem insertEntry_of {e : EntryDraft} (accepts : Accepts b e) :
    (of users b).insertEntry e now =
      .ok (.of (e.recordedAt now), of users (b.withEntry (e.recordedAt now))) := by
  have unnamed : Table.has EntryRecord.id e.id (of users b).entries = false := by
    refine Table.has_false_iff.mpr fun x mem same => ?_
    obtain ⟨y, there, rfl⟩ := List.mem_map.mp mem
    exact accepts.new y there same
  have single : (of users b).entries.any
      (fun x => x.transaction = e.transaction && x.kind = e.kind) = false := by
    refine List.any_eq_false.mpr fun x mem same => ?_
    obtain ⟨y, there, rfl⟩ := List.mem_map.mp mem
    simp only [Bool.and_eq_true, decide_eq_true_eq] at same
    exact accepts.side y there same.1 same.2
  have transaction : ((of users b).transaction? e.transaction).isSome = true := by
    rw [transaction?_of, Option.isSome_map, accepts.transaction]
  simp only [insertEntry, numeric_ok accepts.amount.column?, numeric_ok accepts.before.column?,
    numeric_ok accepts.after.column?, require_ok (decide_eq_true accepts.positive),
    require_ok accepts.consistent, unnamed, single, Bool.not_false, require_ok rfl,
    require_ok (wallet?_isSome accepts.wallet), require_ok transaction, bind, Except.bind, pure,
    Except.pure]
  rw [of_withEntry]

variable (users now) in
theorem updateBalance_of {id : WalletId} {balance : Amount} (stored : balance.Stored)
    (owed : ¬balance.IsNegative) (known : (b.wallet? id).isSome) :
    ∃ n, (of users b).updateBalance now id balance =
      .ok (n + 1, of users (b.setBalance now (id, balance))) := by
  have hit : ((of users b).wallets.filter (·.id = id)) ≠ [] := by
    obtain ⟨w, found⟩ := Option.isSome_iff_exists.mp known
    refine List.ne_nil_of_mem (List.mem_filter.mpr
      ⟨List.mem_map.mpr ⟨w, Books.wallet?_mem found, rfl⟩, ?_⟩)
    exact decide_eq_true (Books.wallet?_id found)
  obtain ⟨n, hits⟩ := Nat.exists_eq_add_one_of_ne_zero (List.length_pos_iff.mpr hit).ne'
  have positive : (decide (n + 1 = 0) || !decide balance.IsNegative) = true := by
    rw [decide_eq_false owed, Bool.not_false, Bool.or_true]
  refine ⟨n, ?_⟩
  simp only [updateBalance, numeric_ok stored.column?, hits, require_ok positive, bind, Except.bind,
    pure, Except.pure]
  have wallets : ((of users b).wallets.map fun w =>
      if w.id = id then { w with balance := balance, updatedAt := .ofUtc now } else w) =
      (b.setBalance now (id, balance)).wallets.map WalletRecord.of := by
    simp only [of, Books.setBalance, List.map_map]
    refine List.map_congr_left fun w _ => ?_
    by_cases same : w.id = id <;> simp [WalletRecord.of, same]
  rw [wallets]
  rfl

theorem updateStatus_of {ts : List Transaction} {t : Transaction} (status : TransactionStatus)
    (last : b.transactions = ts ++ [t]) (old : ∀ x ∈ ts, x.id ≠ t.id)
    (pending : t.status = .pending) :
    (of users b).updateStatus t.id status now = .ok ([.of (t.withStatus status now)],
      of users { b with transactions := ts ++ [t.withStatus status now] }) := by
  have free : (of users b).transactions.all (fun x =>
      !(x.id = t.id) || !x.status.terminal || x.status = status) = true := by
    refine List.all_eq_true.mpr fun x mem => ?_
    obtain ⟨y, there, rfl⟩ := List.mem_map.mp mem
    rw [last] at there
    rcases List.mem_append.mp there with there | there
    · simp [TransactionRecord.of, old y there]
    · simp [TransactionRecord.of, List.mem_singleton.mp there, pending, TransactionStatus.terminal]
  have rows : ((of users b).transactions.map fun x =>
      if x.id = t.id then { x with status := status, updatedAt := .ofUtc now } else x) =
      ts.map TransactionRecord.of ++ [.of (t.withStatus status now)] := by
    rw [of, last, List.map_append, List.map_append, List.map_map]
    congr 1
    · refine List.map_congr_left fun x mem => ?_
      exact if_neg (old x mem)
    · exact congrArg (fun x => [x]) (if_pos rfl)
  have hits : (ts.map TransactionRecord.of ++
      [TransactionRecord.of (t.withStatus status now)]).filter (·.id = t.id) =
      [TransactionRecord.of (t.withStatus status now)] := by
    rw [List.filter_append, List.filter_eq_nil_iff.mpr, List.nil_append]
    · exact List.filter_cons_of_pos (decide_eq_true rfl)
    · intro x mem same
      obtain ⟨y, there, rfl⟩ := List.mem_map.mp mem
      exact old y there (of_decide_eq_true same)
  simp only [updateStatus, require_ok free, rows, hits, bind, Except.bind, pure, Except.pure]
  simp only [of, List.map_append, List.map_cons, List.map_nil]

variable (users) in
theorem entriesOf_of {t : Transaction} {debit credit : Entry}
    (pair : b.entriesOf t.id = [debit, credit]) (posting : t.Posting debit credit) :
    (of users b).entriesOf t.id = [.of debit, .of credit] := by
  have side : ∀ kind, (of users b).entries.filter (fun e => e.transaction = t.id && e.kind = kind) =
      ((b.entriesOf t.id).filter (·.kind = kind)).map EntryRecord.of := by
    intro kind
    simp only [of, Books.entriesOf, List.filter_map, List.filter_filter]
    refine congrArg (List.map EntryRecord.of) (List.filter_congr fun e _ => ?_)
    exact Bool.and_comm _ _
  simp only [entriesOf, side, pair, List.filter_cons, List.filter_nil, posting.debited.1,
    posting.credited.1]
  rfl

theorem balanced_of (grown : b.Grown) : (of users b).balanced = true := by
  refine List.all_eq_true.mpr fun x mem => ?_
  obtain ⟨e, -, rfl⟩ := List.mem_map.mp mem
  have found := transaction?_of users b e.transaction
  cases row : b.transaction? e.transaction with
  | none =>
    rw [row] at found
    simp only [EntryRecord.of, found, Option.map_none]
  | some t =>
    rw [row] at found
    obtain ⟨debit, credit, pair, posting⟩ := grown.postings t (Table.find?_mem row).1
    have listed := entriesOf_of users pair posting
    have single : ∀ a : Amount, Amount.sum? [a] = some a := fun a => rfl
    simp only [EntryRecord.of, found, Option.map_some]
    refine Bool.or_eq_true_iff.mpr (Or.inr (List.all_eq_true.mpr fun kind _ => ?_))
    dsimp only [TransactionRecord.of]
    cases kind <;> simp [listed, EntryRecord.of, posting.debited, posting.credited, single]

end Tables

end Sql

end WalletLedger
