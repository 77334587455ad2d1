import WalletLedger.Operation
import WalletLedger.Store.Books
import WalletLedger.Store.Fault
import WalletLedger.Store.Lock

/-!
The store in memory and its units of work. A unit stages its writes and shows them to nobody until
it commits. An operation is entered once, where a fault or a check can end it; those that need a
lock then claim it and go on by `resume`, one lock at a time, as soon as the claim holds. Rows and
keys stay locked until the unit ends.
-/
namespace WalletLedger

structure Store where
  books : Books := {}
  faults : List Fault := []
  claims : Claims := []
  nextUnit : UnitId := 0
  deriving DecidableEq, Repr

structure Staged where
  balances : List (WalletId × Amount) := []
  transactions : List Transaction := []
  keys : List IdempotencyKey := []
  entries : List Entry := []
  deriving DecidableEq, Repr

structure UnitOfWork where
  id : UnitId
  locked : List WalletId := []
  staged : Staged := {}
  deriving DecidableEq, Repr

inductive Progress (α : Type) where
  | replied (reply : Except StoreError α)
  | waiting

namespace Progress

def isWaiting {α : Type} : Progress α → Bool
  | waiting => true
  | replied _ => false

end Progress

namespace Store

def strike (s : Store) (point : StorePoint) : Option StoreError × Store :=
  let (struck, left) := WalletLedger.strike point s.faults
  (struck, { s with faults := left })

def begin (s : Store) : Except StoreError UnitOfWork × Store :=
  match s.strike .begin with
  | (some e, s) => (.error e, s)
  | (none, s) => (.ok { id := s.nextUnit }, { s with nextUnit := s.nextUnit + 1 })

def discard (s : Store) (u : UnitOfWork) : Store := { s with claims := s.claims.release u.id }

def apply (s : Store) (staged : Staged) (now : Timestamp) : Store :=
  let b := staged.balances.foldl (Books.setBalance · now) s.books
  let b := staged.transactions.foldl Books.putTransaction b
  { s with books := { b with entries := b.entries ++ staged.entries } }

def commit (s : Store) (u : UnitOfWork) (now : Timestamp) : Except StoreError Unit × Store :=
  match s.strike .commit with
  | (some e, s) => (.error e, s.discard u)
  | (none, s) => (.ok (), (s.apply u.staged now).discard u)

end Store

namespace UnitOfWork

def view (u : UnitOfWork) (w : Wallet) : Wallet :=
  match Table.find? Prod.fst w.id u.staged.balances with
  | some p => { w with balance := p.2 }
  | none => w

def point : UnitOp → StorePoint
  | .lockWallets _ => .lockWallets
  | .findByKey _ => .findByKey
  | .insertTransaction _ => .insertTransaction
  | .insertEntry _ => .insertEntry
  | .setBalance _ _ => .setBalance
  | .setStatus _ _ => .setStatus

def awaited (u : UnitOfWork) : UnitOp → Option Resource
  | .lockWallets pair =>
    match u.locked with
    | [] => some (.row pair.first)
    | [_] => some (.row pair.second)
    | _ => none
  | .insertTransaction draft => some (.key draft.key)
  | _ => none

def findByKey (u : UnitOfWork) (s : Store) (key : IdempotencyKey) : Option Transaction :=
  (u.staged.transactions.find? (·.key = key)).orElse fun _ => s.books.transactionByKey? key

def checkTransaction (u : UnitOfWork) (s : Store) (d : TransactionDraft) : Except StoreError Unit :=
  if (s.books.wallet? d.sender).isNone ∨ (s.books.wallet? d.receiver).isNone then
    .error (.constraint "transactions_wallet_id_fkey")
  else if (s.books.transaction? d.id).isSome ∨ Table.has (·.id) d.id u.staged.transactions then
    .error (.constraint "transactions_pkey")
  else .ok ()

def checkEntry (u : UnitOfWork) (s : Store) (d : EntryDraft) : Except StoreError Unit :=
  if ¬d.amount.IsPositive then .error (.constraint "chk_entry_amount_positive")
  else if !Table.has (·.id) d.transaction u.staged.transactions
      ∧ (s.books.transaction? d.transaction).isNone then
    .error (.constraint "ledger_entries_transaction_id_fkey")
  else if (s.books.wallet? d.wallet).isNone then
    .error (.constraint "ledger_entries_wallet_id_fkey")
  else .ok ()

def checkBalance (u : UnitOfWork) (s : Store) (wallet : WalletId) (balance : Amount) :
    Except StoreError Unit :=
  if wallet ∉ u.locked then
    .error (.backend s!"wallet {wallet.text} updated without holding its row lock")
  else if balance.IsNegative then .error (.constraint "chk_wallet_balance_non_negative")
  else if (s.books.wallet? wallet).isNone then .error (.rowMissing .wallet wallet)
  else .ok ()

def stageTransaction (u : UnitOfWork) (t : Transaction) : UnitOfWork :=
  { u with staged := { u.staged with
      transactions := Table.put (·.id) t u.staged.transactions } }

def stageEntry (u : UnitOfWork) (e : Entry) : UnitOfWork :=
  { u with staged := { u.staged with entries := u.staged.entries ++ [e] } }

def stageBalance (u : UnitOfWork) (wallet : WalletId) (balance : Amount) : UnitOfWork :=
  { u with staged := { u.staged with
      balances := Table.put Prod.fst (wallet, balance) u.staged.balances } }

def stageKey (u : UnitOfWork) (key : IdempotencyKey) : UnitOfWork :=
  { u with staged := { u.staged with keys := u.staged.keys ++ [key] } }

structure Step (α : Type) where
  progress : Progress α
  unit : UnitOfWork
  store : Store

def reply {α : Type} (r : Except StoreError α) (u : UnitOfWork) (s : Store) : Step α :=
  ⟨.replied r, u, s⟩

def await {α : Type} (r : Resource) (u : UnitOfWork) (s : Store) : Step α :=
  ⟨.waiting, u, { s with claims := s.claims.claim u.id r }⟩

def start (u : UnitOfWork) (s : Store) (now : Timestamp) : (op : UnitOp) → Step op.Answer
  | .lockWallets pair =>
    if u.locked.isEmpty then await (.row pair.first) u s
    else reply (.error (.backend "wallets already locked in this unit of work")) u s
  | .findByKey key => reply (.ok (u.findByKey s key)) u s
  | .insertTransaction draft =>
    if draft.key ∈ u.staged.keys then reply (.ok .duplicateKey) u s
    else await (.key draft.key) u s
  | .insertEntry draft =>
    match u.checkEntry s draft with
    | .error e => reply (.error e) u s
    | .ok () =>
      let entry := draft.recordedAt now
      reply (.ok entry) (u.stageEntry entry) s
  | .setBalance wallet balance =>
    match u.checkBalance s wallet balance with
    | .error e => reply (.error e) u s
    | .ok () => reply (.ok ()) (u.stageBalance wallet balance) s
  | .setStatus id status =>
    match (Table.find? (·.id) id u.staged.transactions).orElse fun _ => s.books.transaction? id with
    | none => reply (.error (.rowMissing .transaction id)) u s
    | some t =>
      let t := t.withStatus status now
      reply (.ok t) (u.stageTransaction t) s

def enter (u : UnitOfWork) (s : Store) (now : Timestamp) (op : UnitOp) : Step op.Answer :=
  match s.strike (point op) with
  | (some e, s) => reply (.error e) u s
  | (none, s) => u.start s now op

/-- Gives a key back that an insertion has claimed in vain. -/
def dropKey (u : UnitOfWork) (s : Store) (key : IdempotencyKey) : Store :=
  { s with claims := s.claims.withdraw u.id (.key key) }

def proceed (u : UnitOfWork) (s : Store) (now : Timestamp) : (op : UnitOp) → Option (Step op.Answer)
  | .lockWallets pair =>
    match u.locked with
    | [] => some (await (.row pair.second) { u with locked := [pair.first] } s)
    | [_] =>
      let u := { u with locked := u.locked ++ [pair.second] }
      some (reply (.ok ((pair.ids.filterMap s.books.wallet?).map u.view)) u s)
    | _ => none
  | .insertTransaction draft =>
    if s.books.hasKey draft.key then some (reply (.ok .duplicateKey) u (u.dropKey s draft.key))
    else match u.checkTransaction s draft with
      | .error e => some (reply (.error e) u (u.dropKey s draft.key))
      | .ok () =>
        let t := draft.recordedAt now
        some (reply (.ok (.inserted t)) ((u.stageKey draft.key).stageTransaction t) s)
  | _ => none

/-- Goes on with a waiting operation; none as long as its lock is held by another unit. -/
def resume (u : UnitOfWork) (s : Store) (now : Timestamp) (op : UnitOp) : Option (Step op.Answer) :=
  match u.awaited op with
  | some r => if s.claims.holds u.id r then u.proceed s now op else none
  | none => none

/-- Going on ends in another wait only between the two locks of a pair. -/
theorem resume_waiting {u : UnitOfWork} {s : Store} {now : Timestamp} {op : UnitOp}
    {st : Step op.Answer} (h : u.resume s now op = some st) (waits : st.progress = .waiting) :
    u.locked = [] ∧ st.unit.locked.length = 1 := by
  unfold resume at h
  split at h <;> try contradiction
  split at h <;> try contradiction
  cases op <;> simp only [proceed] at h <;> try contradiction
  all_goals (repeat' split at h) <;> cases h <;> simp_all [await, reply]

/-- Gives up a waiting operation; locks that it got before stay with the unit. -/
def abandon (u : UnitOfWork) (s : Store) (op : UnitOp) : Store :=
  match u.awaited op with
  | some r => { s with claims := s.claims.withdraw u.id r }
  | none => s

end UnitOfWork

end WalletLedger
