import Mathlib.Data.Stream.Init
import WalletLedger.Proofs.Procedure
import WalletLedger.Store

/-!
Faults in their turn. All faults that are arranged stand in one list, whatever calls they wait for,
and every call changes the list in place. Yet the calls of each kind have a stream of their own:
every fault that waits for them adds the calls that it lets pass and the one that it makes fail, in
the order in which the faults were arranged, and behind the last fault no call fails. A call takes
the head off the stream of its kind and leaves the streams of the other kinds as they are.
-/
namespace WalletLedger

/-- What a fault means to the calls that it waits for: so many pass, and then one fails. -/
def Fault.course (f : Fault) : List (Option StoreError) :=
  List.replicate f.skip none ++ [some f.error]

/-- What the calls at `point` come to, one after the other. -/
def due (point : StorePoint) (fs : List Fault) : Stream' (Option StoreError) :=
  (fs.filter (·.point = point)).flatMap Fault.course ++ₛ Stream'.const none

def Store.facing (s : Store) (fs : List Fault) : Store := { s with faults := fs }

inductive StoreCall where
  | begin
  | read (what : StoreRead)
  | enter (unit : UnitOfWork) (now : Timestamp) (op : UnitOp)
  | commit (unit : UnitOfWork) (now : Timestamp)

namespace StoreCall

def point : StoreCall → StorePoint
  | begin => .begin
  | read _ => .read
  | enter _ _ op => UnitOfWork.point op
  | commit _ _ => .commit

abbrev Reply : StoreCall → Type
  | begin => Except StoreError UnitOfWork
  | read what => Except StoreError what.Answer
  | enter _ _ op => Progress op.Answer × UnitOfWork
  | commit _ _ => Except StoreError Unit

def on (s : Store) : (c : StoreCall) → c.Reply × Store
  | begin => s.begin
  | read what => s.read what
  | enter unit now op =>
    let st := unit.enter s now op
    ((st.progress, st.unit), st.store)
  | commit unit now => s.commit unit now

def failing (s : Store) (e : StoreError) : (c : StoreCall) → c.Reply × Store
  | begin | read _ => (.error e, s)
  | enter unit _ _ => ((.replied (.error e), unit), s)
  | commit unit _ => (.error e, s.discard unit)

def meeting (s : Store) (c : StoreCall) : Option StoreError → c.Reply × Store
  | some e => c.failing s.clearFaults e
  | none => c.on s.clearFaults

/-- But for the faults that are left, the call does what it does without faults when it meets
`outcome`. -/
def ComesTo (c : StoreCall) (s : Store) (outcome : Option StoreError) : Prop :=
  ∃ left, c.on s = ((c.meeting s outcome).1, (c.meeting s outcome).2.facing left)

end StoreCall

/-- What happens to a store while no fault is arranged. Faults are met in calls alone, and not by
operations that go on after a wait. -/
inductive StoreEvent where
  | call (c : StoreCall)
  | openWallet (supply : Supply) (owner : UserId) (kind : WalletKind) (opening : Money)
  | resume (unit : UnitOfWork) (now : Timestamp) (op : UnitOp)
  | abandon (unit : UnitOfWork) (op : UnitOp)
  | discard (unit : UnitOfWork)

def StoreEvent.isAt (point : StorePoint) : StoreEvent → Bool
  | call c => c.point = point
  | _ => false

namespace Store

def arranged (s : Store) (fs : List Fault) : Store := fs.foldl inject s.clearFaults

def after (s : Store) : StoreEvent → Store
  | .call c => (c.on s).2
  | .openWallet supply owner kind opening => (s.openWallet supply owner kind opening).2
  | .resume unit now op => ((unit.resume s now op).map (·.store)).getD s
  | .abandon unit op => unit.abandon s op
  | .discard unit => s.discard unit

def run (s : Store) (es : List StoreEvent) : Store := es.foldl after s

/-- What the calls at `point` among some events come to: the failure that each one meets, if any. -/
def outcomes (point : StorePoint) (s : Store) : List StoreEvent → List (Option StoreError)
  | [] => []
  | e :: es =>
    if e.isAt point then (s.strike point).1 :: outcomes point (s.after e) es
    else outcomes point (s.after e) es

end Store

variable {point other : StorePoint} {s : Store} {fs : List Fault}

theorem due_cons (f : Fault) : due point (f :: fs) =
    if f.point = point then f.course ++ₛ due point fs else due point fs := by
  by_cases here : f.point = point
  · simp only [due, here, List.filter_cons, decide_true, if_true, List.flatMap_cons,
      Stream'.append_append_stream]
  · simp only [due, here, List.filter_cons, decide_false, Bool.false_eq_true, if_false]

theorem due_strike (point : StorePoint) (fs : List Fault) :
    (strike point fs).1 = (due point fs).head ∧
      due point (strike point fs).2 = (due point fs).tail := by
  induction fs with
  | nil => exact ⟨rfl, rfl⟩
  | cons f rest ih =>
    by_cases here : f.point = point
    · rw [strike, if_pos here, due_cons, if_pos here]
      cases skip : f.skip with
      | zero =>
        have course : f.course = [some f.error] := by simp [Fault.course, skip]
        rw [course]
        exact ⟨rfl, rfl⟩
      | succ n =>
        -- The fault keeps its place in the list and lets one call less pass.
        have course : f.course = none :: Fault.course { f with skip := n } := by
          simp [Fault.course, skip, List.replicate_succ]
        rw [course]
        refine ⟨rfl, ?_⟩
        rw [due_cons, if_pos here]
        rfl
    · rw [strike, if_neg here, due_cons, if_neg here]
      refine ⟨ih.1, ?_⟩
      rw [due_cons, if_neg here]
      exact ih.2

theorem due_strike_other (elsewhere : other ≠ point) :
    due point (strike other fs).2 = due point fs := by
  induction fs with
  | nil => rfl
  | cons f rest ih =>
    by_cases here : f.point = other
    · have apart : f.point ≠ point := here ▸ elsewhere
      rw [strike, if_pos here, due_cons, if_neg apart]
      cases f.skip with
      | zero => rfl
      | succ n => rw [due_cons, if_neg apart]
    · rw [strike, if_neg here, due_cons, due_cons, ih]

namespace UnitOfWork
variable {u : UnitOfWork} {now : Timestamp} {op : UnitOp}

/-- Behind its fault check an operation takes no notice of the faults. -/
theorem start_facing : u.start (s.facing fs) now op =
    ⟨(u.start s now op).progress, (u.start s now op).unit, (u.start s now op).store.facing fs⟩ := by
  cases op with
  | findByKey key => rfl
  | lockWallets pair | insertTransaction draft =>
    simp only [start]
    split <;> rfl
  | insertEntry draft =>
    have same : u.checkEntry (s.facing fs) draft = u.checkEntry s draft := rfl
    simp only [start, same]
    split <;> rfl
  | setBalance wallet balance =>
    have same : u.checkBalance (s.facing fs) wallet balance = u.checkBalance s wallet balance := rfl
    simp only [start, same]
    split <;> rfl
  | setStatus id status =>
    have same : (s.facing fs).books = s.books := rfl
    simp only [start, same]
    split <;> rfl

theorem resume_faults {st : Step op.Answer} (h : u.resume s now op = some st) :
    st.store.faults = s.faults := by
  unfold resume at h
  split at h <;> try contradiction
  split at h <;> try contradiction
  cases op <;> simp only [proceed] at h <;> try contradiction
  all_goals (repeat' split at h) <;> cases h <;> rfl

end UnitOfWork

theorem Store.strike_eq (s : Store) (point : StorePoint) : s.strike point =
    ((WalletLedger.strike point s.faults).1, s.facing (WalletLedger.strike point s.faults).2) := rfl

namespace StoreCall

/-- A call goes by the faults in its outcome only, and uses them up as its fault check does. -/
theorem on_eq (c : StoreCall) (s : Store) :
    c.on s = ((c.meeting s (strike c.point s.faults).1).1,
      (c.meeting s (strike c.point s.faults).1).2.facing (strike c.point s.faults).2) := by
  cases c with
  | begin =>
    simp only [point, on, Store.begin, s.strike_eq]
    cases (strike .begin s.faults).1 <;> rfl
  | read what =>
    simp only [point, on, Store.read, s.strike_eq]
    cases (strike .read s.faults).1 <;> rfl
  | enter unit now op =>
    simp only [point, on, UnitOfWork.enter, s.strike_eq]
    cases (strike (UnitOfWork.point op) s.faults).1 with
    | some e => rfl
    | none =>
      have calm : s.clearFaults.strike (UnitOfWork.point op) = (none, s.facing []) := rfl
      simp only [meeting, on, UnitOfWork.enter, calm, UnitOfWork.start_facing]
      rfl
  | commit unit now =>
    simp only [point, on, Store.commit, s.strike_eq]
    cases (strike .commit s.faults).1 <;> rfl

theorem on_faults (c : StoreCall) (s : Store) :
    (c.on s).2.faults = (strike c.point s.faults).2 := by
  rw [on_eq]
  rfl

theorem comesTo (c : StoreCall) (s : Store) : c.ComesTo s (due c.point s.faults).head :=
  ⟨_, (due_strike c.point s.faults).1 ▸ c.on_eq s⟩

end StoreCall

theorem due_filter : due point (fs.filter (·.point = point)) = due point fs := by
  simp only [due, List.filter_filter, Bool.and_self]

namespace Store

theorem after_faults (s : Store) (e : StoreEvent) : (s.after e).faults =
    match e with
    | .call c => (WalletLedger.strike c.point s.faults).2
    | _ => s.faults := by
  cases e with
  | call c => exact c.on_faults s
  | openWallet supply owner kind opening =>
    simp only [after]
    rw [openWallet_eq]
  | resume unit now op =>
    simp only [after]
    cases step : unit.resume s now op with
    | none => rfl
    | some st => exact UnitOfWork.resume_faults step
  | abandon unit op =>
    simp only [after, UnitOfWork.abandon]
    split <;> rfl
  | discard unit => rfl

theorem due_after (s : Store) (e : StoreEvent) : due point (s.after e).faults =
    if e.isAt point then (due point s.faults).tail else due point s.faults := by
  rw [after_faults]
  cases e with
  | call c =>
    by_cases here : c.point = point
    · have taken := (due_strike point s.faults).2
      simpa [StoreEvent.isAt, here] using taken
    · have kept : due point (WalletLedger.strike c.point s.faults).2 = due point s.faults :=
        due_strike_other here
      simpa [StoreEvent.isAt, here] using kept
  | _ => rfl

theorem due_run (s : Store) (es : List StoreEvent) :
    due point (s.run es).faults = (due point s.faults).drop (es.countP (·.isAt point)) := by
  induction es generalizing s with
  | nil => rfl
  | cons e es ih =>
    have rest : due point (s.run (e :: es)).faults = _ := ih (s.after e)
    rw [rest, due_after]
    by_cases here : e.isAt point
    · rw [if_pos here, List.countP_cons_of_pos here]
      rfl
    · rw [if_neg here, List.countP_cons_of_neg here]

theorem outcomes_eq (s : Store) (es : List StoreEvent) :
    s.outcomes point es = (due point s.faults).take (es.countP (·.isAt point)) := by
  induction es generalizing s with
  | nil => rfl
  | cons e es ih =>
    rw [outcomes, ih (s.after e), due_after]
    by_cases here : e.isAt point
    · rw [if_pos here, if_pos here, List.countP_cons_of_pos here, s.strike_eq,
        (due_strike point s.faults).1]
      rfl
    · rw [if_neg here, if_neg here, List.countP_cons_of_neg here]

theorem faults_inject (s : Store) (fs : List Fault) :
    (fs.foldl inject s).faults = s.faults ++ fs := by
  induction fs generalizing s with
  | nil => exact (List.append_nil s.faults).symm
  | cons f fs ih =>
    have rest : ((f :: fs).foldl inject s).faults = _ := ih (s.inject f)
    rw [rest, inject, List.append_assoc]
    rfl

theorem arranged_faults (s : Store) (fs : List Fault) : (s.arranged fs).faults = fs :=
  s.clearFaults.faults_inject fs

/-- Whatever happens to a store once faults have been arranged: the calls at a point come to what
is due there, in turn; a call behind them comes to what is due next, and does nothing else if that
is a failure; and without the faults and the events at other points, and on any other store, the
calls at the point come to the same. -/
theorem faults_take_turns (s : Store) (fs : List Fault) (es : List StoreEvent)
    (point : StorePoint) :
    (s.arranged fs).outcomes point es = (due point fs).take (es.countP (·.isAt point)) ∧
    (∀ c : StoreCall, c.ComesTo ((s.arranged fs).run es)
      ((due c.point fs).get (es.countP (·.isAt c.point)))) ∧
    ∀ t : Store, (t.arranged (fs.filter (·.point = point))).outcomes point
      (es.filter (·.isAt point)) = (s.arranged fs).outcomes point es := by
  refine ⟨?_, fun c => ?_, fun t => ?_⟩
  · rw [outcomes_eq, arranged_faults]
  · have next := c.comesTo ((s.arranged fs).run es)
    rw [due_run, arranged_faults, Stream'.head_drop] at next
    exact next
  · rw [outcomes_eq, outcomes_eq, arranged_faults, arranged_faults, due_filter, List.countP_filter]
    simp only [Bool.and_self]

/-- Two faults wait for reads. The one between them waits for another call and does not count. -/
example : (due .read [⟨.read, 1, .contention "busy"⟩, ⟨.begin, 0, .connection "reset"⟩,
    ⟨.read, 0, .backend "gone"⟩]).take 4 =
      [none, some (.contention "busy"), some (.backend "gone"), none] := by decide

end Store

end WalletLedger
