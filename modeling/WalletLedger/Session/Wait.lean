import WalletLedger.Session

/-!
Waiting in a session. The clock stands still while the caller or a task can go on. When all of them
wait, it moves to the next time at which one of them is to be polled again; the caller comes first
then, and the tasks whose deadline has come follow.
-/
namespace WalletLedger

/-- Something with a state `σ` that a caller waits for until it yields an `α`. -/
structure Awaitable (σ α : Type) where
  poll : σ → Session → (σ ⊕ α) × Session
  /-- It can go on although the clock has not moved. -/
  goesOn : σ → Session → Bool
  timer : σ → Option Nat

namespace Session

def nextTimer (s : Session) (own : Option Nat) : Option Nat :=
  ((s.tasks.filter (·.result?.isNone)).map (·.transfer.expires) ++ own.toList).min?

def moveClock (s : Session) (time : Nat) : Session :=
  let s := { s with clock := max s.clock time }
  ((s.tasks.filter (·.expiredAt s.clock)).map (·.id)).foldl enqueue s

variable {σ α : Type}

def awaitWithin (a : Awaitable σ α) : Nat → σ → Session → Option α × Session
  | 0, _, s => (none, s)
  | n + 1, x, s =>
    match a.poll x s with
    | (.inr result, s) => (some result, s.settle)
    | (.inl x, s) =>
      let s := s.settle
      if a.goesOn x s then awaitWithin a n x s
      else match s.nextTimer (a.timer x) with
        | none => (none, s)
        | some time => awaitWithin a n x (s.moveClock time)

/-- Polls at most. Each move of the clock ends a task or is for the caller, who is polled again at
most as often as a call has steps, and twice for each fault. -/
def patience (s : Session) : Nat :=
  s.tasks.length + 2 * s.store.faults.length + TransferPhase.opening.left

def await (s : Session) (a : Awaitable σ α) (x : σ) : Option α × Session :=
  awaitWithin a s.patience x s

end Session

namespace Awaitable

def clock : Awaitable Nat Unit where
  poll time s := if time ≤ s.clock then (.inr (), s) else (.inl time, s)
  goesOn time s := time ≤ s.clock
  timer := some

def task : Awaitable TaskId TransferResult where
  poll id s :=
    match (s.task? id).bind Task.result? with
    | some r => (.inr r, s.forget id)
    | none => (.inl id, s)
  goesOn id s := s.finished id
  timer _ := none

def transfer : Awaitable TimedTransfer TransferResult where
  poll t s :=
    let (t, s) := s.poll t
    match t.call.result? with
    | some r => (.inr r, s)
    | none => (.inl t, s)
  goesOn t s := (t.call.step s.store s.supply).isSome
  timer t := some t.expires

def query : Awaitable QueryCall QueryResult where
  poll q s :=
    let (q, store) := q.drive s.store s.clock 0
    let s := s.withStore store
    match q.result? with
    | some r => (.inr r, s)
    | none => if q.expiredAt s.clock then (.inr q.expired, s) else (.inl q, s)
  goesOn _ _ := false
  timer := QueryCall.timer?

end Awaitable

structure TimedOperation (op : UnitOp) where
  unit : UnitOfWork
  entered : Bool
  expires : Nat

structure OperationEnd (op : UnitOp) where
  reply : Option (Except StoreError op.Answer)
  unit : UnitOfWork

namespace TimedOperation

variable {op : UnitOp}

def step (t : TimedOperation op) (s : Session) : Option (UnitOfWork.Step op.Answer) :=
  if t.entered then t.unit.resume s.store s.supply.now op
  else some (t.unit.enter s.store s.supply.now op)

end TimedOperation

def Awaitable.operation (op : UnitOp) : Awaitable (TimedOperation op) (OperationEnd op) where
  poll t s :=
    match t.step s with
    | some st =>
      let s := { s.withStore st.store with supply := s.supply.after 0 }
      match st.progress with
      | .replied r => (.inr ⟨some r, st.unit⟩, s)
      | .waiting => (.inl { t with unit := st.unit, entered := true }, s)
    | none =>
      if t.expires ≤ s.clock then (.inr ⟨none, t.unit⟩, s.withStore (t.unit.abandon s.store op))
      else (.inl t, s)
  goesOn t s := (t.step s).isSome || t.expires ≤ s.clock
  timer t := some t.expires

end WalletLedger
