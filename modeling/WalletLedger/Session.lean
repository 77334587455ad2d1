import WalletLedger.Query
import WalletLedger.Transfer.Call

/-!
A session: one store, a clock, and transfers that run as tasks beside the caller. A task that is
polled runs until it waits for a lock. It is polled again once its unit has got the lock, and at
its deadline. Tasks that may go on stand in a queue and are polled in turn.
-/
namespace WalletLedger

structure TimedTransfer where
  call : TransferCall
  limit : TimeSpan
  expires : Nat

abbrev TaskId := Nat

structure Task where
  id : TaskId
  transfer : TimedTransfer

structure Session where
  supply : Supply
  store : Store := {}
  clock : Nat := 0
  tasks : List Task := []
  ready : List TaskId := []
  nextTask : TaskId := 0

def TimedTransfer.start (r : TransferRequest) (limit : TimeSpan) (clock : Nat) : TimedTransfer :=
  ⟨.start r, limit, clock + limit.nanos⟩

namespace Task

def result? (t : Task) : Option TransferResult := t.transfer.call.result?

def runs (t : Task) (u : UnitId) : Bool := t.transfer.call.unit?.any (·.id = u)

def expiredAt (t : Task) (clock : Nat) : Bool := t.result?.isNone && t.transfer.expires ≤ clock

end Task

namespace Session

def task? (s : Session) (id : TaskId) : Option Task := s.tasks.find? (·.id = id)

def enqueue (s : Session) (id : TaskId) : Session :=
  if id ∈ s.ready then s else { s with ready := s.ready ++ [id] }

/-- The session with a store that has moved on. Tasks whose units got a lock thereby may go on. -/
def withStore (s : Session) (store : Store) : Session :=
  let units := Claims.granted s.store.claims store.claims
  let woken := units.flatMap fun u => (s.tasks.filter (·.runs u)).map (·.id)
  woken.foldl enqueue { s with store := store }

def drive (s : Session) (c : TransferCall) : TransferCall × Session :=
  match _h : c.step s.store s.supply with
  | none => (c, s)
  | some (c', store, supply) => drive { s.withStore store with supply := supply } c'
termination_by c.phase.left
decreasing_by exact TransferCall.left_step_lt _h

/-- Runs a transfer as far as it goes. One that waits at its deadline is over. -/
def poll (s : Session) (t : TimedTransfer) : TimedTransfer × Session :=
  let (call, s) := s.drive t.call
  if call.result?.isNone ∧ t.expires ≤ s.clock then
    ({ t with call := { call with phase := .done (.error (.deadlineExceeded t.limit)) } },
      s.withStore (call.abandon s.store))
  else ({ t with call := call }, s)

def runTask (s : Session) (id : TaskId) : Session :=
  match s.task? id with
  | none => s
  | some t =>
    let (transfer, s) := s.poll t.transfer
    { s with tasks := Table.put Task.id { t with transfer := transfer } s.tasks }

/-- Turns left at most. Every step of a call can put all tasks into the queue again. -/
def turns (s : Session) : Nat :=
  let steps := s.tasks.foldr (fun t n => t.transfer.call.phase.left + n) 0
  steps * s.tasks.length + s.ready.length

def settleWithin : Nat → Session → Session
  | 0, s => s
  | n + 1, s =>
    match s.ready with
    | [] => s
    | id :: rest => settleWithin n ({ s with ready := rest }.runTask id)

def settle (s : Session) : Session := s.settleWithin s.turns

def spawn (s : Session) (r : TransferRequest) (limit : TimeSpan) : TaskId × Session :=
  let task : Task := ⟨s.nextTask, .start r limit s.clock⟩
  (task.id, { s with tasks := s.tasks ++ [task], nextTask := s.nextTask + 1 }.enqueue task.id)

def finished (s : Session) (id : TaskId) : Bool := (s.task? id).any (·.result?.isSome)

def forget (s : Session) (id : TaskId) : Session :=
  { s with tasks := s.tasks.filter (·.id ≠ id) }

def cancel (s : Session) (id : TaskId) : Bool × Session :=
  match s.task? id with
  | none => (false, s)
  | some t => (t.result?.isNone, ((s.forget id).withStore (t.transfer.call.abandon s.store)).settle)

end Session

end WalletLedger
