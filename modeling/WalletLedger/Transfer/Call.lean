import WalletLedger.Store.Unit
import WalletLedger.Transfer.Work

/-!
A transfer running on the store in memory, one step of the store at a time. Between two steps other
calls may run, and the call may be abandoned, which ends its unit without its writes.
-/
namespace WalletLedger

/-- Where a transfer stands. `entered` tells that the operation of the stage is under way and
waits for a lock. -/
inductive TransferPhase where
  | opening
  | working (unit : UnitOfWork) (work : Work) (entered : Bool)
  | committing (unit : UnitOfWork) (transaction : Transaction)
  | undoing (unit : UnitOfWork) (result : TransferResult)
  | done (result : TransferResult)

structure TransferCall where
  request : TransferRequest
  phase : TransferPhase

namespace TransferCall

/-- A call whose request breaks a rule of its own is over before it reaches the store. -/
def start (r : TransferRequest) : TransferCall :=
  match r.validate with
  | .error e => ⟨r, .done (.error e)⟩
  | .ok () => ⟨r, .opening⟩

def result? (c : TransferCall) : Option TransferResult :=
  match c.phase with
  | .done r => some r
  | _ => none

def unit? (c : TransferCall) : Option UnitOfWork :=
  match c.phase with
  | .working u _ _ | .committing u _ | .undoing u _ => some u
  | .opening | .done _ => none

def conclude (u : UnitOfWork) : Conclusion → TransferPhase
  | .create t => .committing u t
  | .replay t => .undoing u (.ok (.replayed t))
  | .fail e => .undoing u (.error e)

def enterPhase (u : UnitOfWork) : Work ⊕ Conclusion → TransferPhase
  | .inl w => .working u w false
  | .inr c => conclude u c

def afterStep (r : TransferRequest) (supply : Supply) (w : Work)
    (st : UnitOfWork.Step (w.op r).Answer) : TransferPhase :=
  match st.progress with
  | .waiting => .working st.unit w true
  | .replied reply => enterPhase st.unit (w.after r supply reply)

/-- The next step of the call; none if it is over or waits for a lock that another unit holds. -/
def step (c : TransferCall) (s : Store) (supply : Supply) :
    Option (TransferCall × Store × Supply) :=
  match c.phase with
  | .opening =>
    match s.begin with
    | (.error e, s) => some (⟨c.request, .done (.error (.store e))⟩, s, supply.after 0)
    | (.ok u, s) => some (⟨c.request, enterPhase u c.request.work⟩, s, supply.after 0)
  | .working u w false =>
    let st := u.enter s supply.now (w.op c.request)
    some (⟨c.request, afterStep c.request supply w st⟩, st.store, supply.after w.draws)
  | .working u w true =>
    (u.resume s supply.now (w.op c.request)).map fun st =>
      (⟨c.request, afterStep c.request supply w st⟩, st.store, supply.after w.draws)
  | .committing u t =>
    let (r, s) := s.commit u supply.now
    let result : TransferResult := match r with
      | .ok () => .ok (.created t)
      | .error e => .error (.store e)
    some (⟨c.request, .done result⟩, s, supply.after 0)
  | .undoing u result => some (⟨c.request, .done result⟩, s.discard u, supply.after 0)
  | .done _ => none

def abandon (c : TransferCall) (s : Store) : Store :=
  match c.unit? with
  | some u => s.discard u
  | none => s

end TransferCall

/-- Steps left at most. Stages take four: one to enter, two to get locks, one to spare. -/
def TransferPhase.left : TransferPhase → Nat
  | opening => 40
  | working _ w false => 4 * w.rank + 3
  | working u w true => 4 * w.rank + (2 - u.locked.length)
  | committing _ _ | undoing _ _ => 1
  | done _ => 0

namespace TransferCall

theorem left_conclude (u : UnitOfWork) (c : Conclusion) : (conclude u c).left = 1 := by
  cases c <;> rfl

theorem left_afterStep_lt (r : TransferRequest) (supply : Supply) (w : Work)
    (st : UnitOfWork.Step (w.op r).Answer) {n : Nat}
    (waits : st.progress = .waiting → 4 * w.rank + (2 - st.unit.locked.length) < n)
    (bound : 4 * w.rank ≤ n) : (afterStep r supply w st).left < n := by
  have pos := w.rank_pos
  unfold afterStep
  split
  · next h => simpa [TransferPhase.left] using waits h
  · cases h : w.after r supply _ with
    | inl w' =>
      have := w.rank_next_lt r supply w' _ h
      simp only [enterPhase, TransferPhase.left]; omega
    | inr c => simp only [enterPhase, left_conclude]; omega

theorem left_step_lt {c c' : TransferCall} {s s' : Store} {supply supply' : Supply}
    (h : c.step s supply = some (c', s', supply')) : c'.phase.left < c.phase.left := by
  unfold step at h
  split at h <;> rename_i hp <;> rw [hp]
  · split at h <;> cases h
    · simp [TransferPhase.left]
    · unfold TransferRequest.work
      cases WalletPair.of c.request.sender c.request.receiver with
      | error e => simp [enterPhase, conclude, TransferPhase.left]
      | ok pair => simp [enterPhase, TransferPhase.left, Work.rank]
  · cases h
    exact left_afterStep_lt _ _ _ _ (fun _ => by simp only [TransferPhase.left]; omega)
      (by simp only [TransferPhase.left]; omega)
  · obtain ⟨st, hst, h⟩ := Option.map_eq_some_iff.1 h
    cases h
    refine left_afterStep_lt _ _ _ _ (fun waits => ?_) (by simp only [TransferPhase.left]; omega)
    obtain ⟨h0, h1⟩ := UnitOfWork.resume_waiting hst waits
    simp only [TransferPhase.left, h0, h1, List.length_nil]; omega
  · cases h; simp [TransferPhase.left]
  · cases h; simp [TransferPhase.left]
  · cases h

end TransferCall

end WalletLedger
