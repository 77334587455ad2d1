import WalletLedger.Page
import WalletLedger.Retry
import WalletLedger.Store

/-!
Queries over committed records. Each is a chain of reads, and every read is repeated after passing
failures under the retry policy, with a deadline of its own.
-/
namespace WalletLedger

inductive QueryAnswer where
  | wallet (w : Wallet)
  | transaction (t : Transaction)
  | transactions (ts : List Transaction)
  | history (page : PageResponse Transaction)
  | entries (es : List Entry)

abbrev QueryResult := Except LedgerError QueryAnswer

/-- The read that a query is at, with what it has learnt before. An entry list that is empty is
followed by a look for the transaction itself. -/
inductive QueryStage where
  | wallet (id : WalletId)
  | transaction (id : TransactionId)
  | transactions (wallet : WalletId) (limit offset : Nat)
  | historyWallet (wallet : WalletId) (page : PageRequest)
  | historyCount (wallet : WalletId) (page : PageRequest)
  | historyPage (wallet : WalletId) (page : PageRequest) (total : Nat)
  | entries (transaction : TransactionId)
  | entriesOwner (transaction : TransactionId)
  deriving DecidableEq, Repr

namespace QueryStage

def read : QueryStage → StoreRead
  | wallet id => .wallet id
  | transaction id => .transaction id
  | transactions w limit offset => .transactions w (effectiveLimit limit) offset
  | historyWallet w _ => .wallet w
  | historyCount w _ => .transactionCount w
  | historyPage w page _ => .transactions w page.limit page.offset
  | entries t => .entries t
  | entriesOwner t => .transaction t

def next : (q : QueryStage) → q.read.Answer → QueryStage ⊕ QueryResult
  | wallet id, found =>
    match found with
    | some w => .inr (.ok (.wallet w))
    | none => .inr (.error (.walletNotFound id))
  | transaction id, found =>
    match found with
    | some t => .inr (.ok (.transaction t))
    | none => .inr (.error (.transactionNotFound id))
  | transactions _ _ _, ts => .inr (.ok (.transactions ts))
  | historyWallet w page, found =>
    match found with
    | some _ => .inl (historyCount w page)
    | none => .inr (.error (.walletNotFound w))
  | historyCount w page, total => .inl (historyPage w page total)
  | historyPage _ page total, ts => .inr (.ok (.history (PageResponse.of ts page total)))
  | entries t, es => if es.isEmpty then .inl (entriesOwner t) else .inr (.ok (.entries es))
  | entriesOwner t, found =>
    match found with
    | some _ => .inr (.ok (.entries []))
    | none => .inr (.error (.transactionNotFound t))

end QueryStage

def QueryStage.rank : QueryStage → Nat
  | historyWallet _ _ => 3
  | historyCount _ _ | entries _ => 2
  | _ => 1

theorem QueryStage.rank_pos (q : QueryStage) : 0 < q.rank := by cases q <;> simp [rank]

theorem QueryStage.rank_next_lt {q q' : QueryStage} {a : q.read.Answer}
    (h : q.next a = .inl q') : q'.rank < q.rank := by
  cases q <;> simp only [next] at h <;> (repeat' split at h) <;> cases h <;> simp [rank]

inductive QueryPhase where
  | reading (stage : QueryStage) (attempt deadline : Nat)
  | pausing (stage : QueryStage) (attempt deadline wake : Nat)
  | done (result : QueryResult)

structure QueryCall where
  policy : RetryPolicy
  phase : QueryPhase

namespace QueryCall

/-- The deadline of a read counts from the moment of its first attempt. -/
def readFrom (p : RetryPolicy) (stage : QueryStage) (clock : Nat) : QueryPhase :=
  .reading stage 0 (clock + p.deadline.nanos)

def start (p : RetryPolicy) (stage : QueryStage) (clock : Nat) : QueryCall :=
  ⟨p, readFrom p stage clock⟩

def result? (c : QueryCall) : Option QueryResult :=
  match c.phase with
  | .done r => some r
  | _ => none

def afterRead (p : RetryPolicy) (stage : QueryStage) (attempt deadline clock draw : Nat)
    (reply : Except StoreError stage.read.Answer) : QueryPhase :=
  match reply with
  | .ok a =>
    match stage.next a with
    | .inl stage => readFrom p stage clock
    | .inr result => .done result
  | .error e =>
    if p.goesOn attempt e.retryable then
      .pausing stage attempt deadline (clock + (p.delay attempt draw).nanos)
    else .done (.error (.store e))

def step (c : QueryCall) (s : Store) (clock draw : Nat) : Option (QueryCall × Store) :=
  match c.phase with
  | .reading stage attempt deadline =>
    let (reply, s) := s.read stage.read
    some (⟨c.policy, afterRead c.policy stage attempt deadline clock draw reply⟩, s)
  | .pausing stage attempt deadline wake =>
    if wake ≤ clock then some (⟨c.policy, .reading stage (attempt + 1) deadline⟩, s) else none
  | .done _ => none

def timer? (c : QueryCall) : Option Nat :=
  match c.phase with
  | .pausing _ _ deadline wake => some (min deadline wake)
  | _ => none

/-- A query that pauses when the deadline of its read has come is over. -/
def expiredAt (c : QueryCall) (clock : Nat) : Bool :=
  match c.phase with
  | .pausing _ _ deadline _ => deadline ≤ clock
  | _ => false

def expired (c : QueryCall) : QueryResult := .error (.deadlineExceeded c.policy.deadline)

def left (c : QueryCall) (s : Store) : Nat :=
  match c.phase with
  | .reading stage _ _ => 7 * s.faults.length + 2 * stage.rank
  | .pausing stage _ _ _ => 7 * s.faults.length + 2 * stage.rank + 1
  | .done _ => 0

theorem left_step_lt {c c' : QueryCall} {s s' : Store} {clock draw : Nat}
    (h : c.step s clock draw = some (c', s')) : c'.left s' < c.left s := by
  unfold step at h
  split at h <;> rename_i hp
  · next stage attempt deadline =>
    have pos := stage.rank_pos
    have used := length_strike .read s.faults
    cases h
    simp only [left, hp, Store.strike]
    cases hs : WalletLedger.strike .read s.faults with
    | mk struck faults =>
      rw [hs] at used
      cases struck with
      | some e =>
        simp only [Option.toList_some, List.length_singleton] at used
        simp only [afterRead]
        cases c.policy.goesOn attempt e.retryable <;>
          simp only [Bool.false_eq_true, if_true, if_false] <;> omega
      | none =>
        simp only [Option.toList_none, List.length_nil] at used
        simp only [afterRead]
        cases hn : stage.next (Store.answer s.books stage.read) with
        | inl stage' =>
          have := QueryStage.rank_next_lt hn
          simp only [readFrom]; omega
        | inr result => simp only; omega
  · split at h <;> cases h
    simp [left, hp]
  · cases h

def drive (c : QueryCall) (s : Store) (clock draw : Nat) : QueryCall × Store :=
  match _h : c.step s clock draw with
  | none => (c, s)
  | some (c', s') => drive c' s' clock draw
termination_by c.left s
decreasing_by exact left_step_lt _h

end QueryCall

end WalletLedger
