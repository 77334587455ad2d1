import WalletLedger.Proofs.DoubleEntry
import WalletLedger.Query
import WalletLedger.Settings

/-!
A query for the entries of a transaction, beside transfers under way. The query reads the entries
and, if there are none, looks for the transaction itself, so it can be told both that there are no
entries and that there is a transaction: when the commit comes between the two reads. In every other
case it answers with the debit and the credit, or fails.
-/
namespace WalletLedger

namespace QueryCall

def reading? (c : QueryCall) : Option QueryStage :=
  match c.phase with
  | .reading stage _ _ => some stage
  | _ => none

def stage? (c : QueryCall) : Option QueryStage :=
  match c.phase with
  | .reading stage _ _ | .pausing stage _ _ _ => some stage
  | .done _ => none

inductive Moved (b : Books) (c c' : QueryCall) : Prop where
  | stays (after : c'.stage? = c.stage?)
  | reads {stage later : QueryStage} (reading : c.reading? = some stage)
      (more : stage.next (Store.answer b stage.read) = .inl later) (after : c'.stage? = some later)
  | answers {stage : QueryStage} {r : QueryResult} (reading : c.reading? = some stage)
      (last : stage.next (Store.answer b stage.read) = .inr r) (after : c'.result? = some r)
  | fails (e : StoreError) (after : c'.result? = some (.error (.store e)))

variable {c c' : QueryCall} {s s' : Store} {clock draw : Nat} {stage : QueryStage} {r : QueryResult}

theorem stage_of_reading (h : c.reading? = some stage) : c.stage? = some stage := by
  unfold reading? at h
  unfold stage?
  split at h
  · rename_i phase
    rw [phase]
    exact h
  · contradiction

theorem phase_of_result (h : c.result? = some r) : c.phase = .done r := by
  unfold result? at h
  split at h
  · rename_i phase
    rw [phase, Option.some.inj h]
  · contradiction

theorem stage_of_result (h : c.result? = some r) : c.stage? = none := by
  rw [stage?, phase_of_result h]

def entries? (c : QueryCall) : Option (List Entry) :=
  match c.phase with
  | .done (.ok (.entries es)) => some es
  | _ => none

theorem result_of_entries {es : List Entry} (h : c.entries? = some es) :
    c.result? = some (.ok (.entries es)) := by
  unfold entries? at h
  unfold result?
  split at h
  · rename_i phase
    rw [phase, Option.some.inj h]
  · contradiction

theorem step_cases (h : c.step s clock draw = some (c', s')) :
    c'.policy = c.policy ∧ (∃ left, s' = { s with faults := left }) ∧ Moved s.books c c' := by
  obtain ⟨p, phase⟩ := c
  cases phase with
  | reading stage attempt deadline =>
    simp only [step, Store.read] at h
    rcases s.strike_cases .read with ⟨f, -, left, struck⟩ | ⟨left, struck, -⟩
    · rw [struck] at h
      simp only [afterRead] at h
      split at h
      · cases h
        exact ⟨rfl, ⟨left, rfl⟩, .stays rfl⟩
      · cases h
        exact ⟨rfl, ⟨left, rfl⟩, .fails f.error rfl⟩
    · rw [struck] at h
      simp only [afterRead] at h
      split at h
      · rename_i later more
        cases h
        exact ⟨rfl, ⟨left, rfl⟩, .reads rfl more rfl⟩
      · rename_i r last
        cases h
        exact ⟨rfl, ⟨left, rfl⟩, .answers rfl last rfl⟩
  | pausing stage attempt deadline wake =>
    simp only [step] at h
    split at h
    · cases h
      exact ⟨rfl, ⟨s.faults, rfl⟩, .stays rfl⟩
    · contradiction
  | done r => contradiction

end QueryCall

structure Reader where
  system : System
  query : QueryCall
  clock : Nat

inductive ReaderEvent where
  | elsewhere (e : Event)
  | step (draw : Nat)
  | pass (span : Nat)
  | expire

namespace Reader

def start (S : System) (p : RetryPolicy) (id : TransactionId) (clock : Nat) : Reader :=
  ⟨S, .start p (.entries id) clock, clock⟩

def next? (R : Reader) : ReaderEvent → Option Reader
  | .elsewhere e => (R.system.next? e).map fun S => { R with system := S }
  | .step draw =>
    (R.query.step R.system.store R.clock draw).map fun (q, store) =>
      { R with system := R.system.withStore store, query := q }
  | .pass span => some { R with clock := R.clock + span }
  | .expire =>
    if R.query.expiredAt R.clock then
      some { R with query := { R.query with phase := .done R.query.expired } }
    else none

def run? (R : Reader) : List ReaderEvent → Option Reader
  | [] => some R
  | e :: es => (R.next? e).bind (run? · es)

def committed? (R : Reader) (id : TransactionId) : Option Transaction :=
  R.system.store.books.transaction? id

def LookedUp (R : Reader) (id : TransactionId) (es : List ReaderEvent) : Prop :=
  ∃ before after T t, es = before ++ after ∧ R.run? before = some T ∧
    T.query.reading? = some (.entriesOwner id) ∧ T.committed? id = some t

/-- The transaction is not in the books when the query reads its entries, and is there when the
query looks for it. -/
def Straddled (R : Reader) (id : TransactionId) (es : List ReaderEvent) : Prop :=
  ∃ before after T, es = before ++ after ∧ R.run? before = some T ∧
    T.query.reading? = some (.entries id) ∧ T.committed? id = none ∧ T.LookedUp id after

/-- How a query for the entries of a transaction that was started in `R` ends in `R'`. An empty
answer needs a reason. -/
inductive Answered (R R' : Reader) (id : TransactionId) (reason : Prop) : QueryResult → Prop where
  | pair {t : Transaction} {debit credit : Entry} (found : R'.committed? id = some t)
      (posting : t.Posting debit credit)
      (entries : R'.system.store.books.entriesOf id = [debit, credit]) :
      Answered R R' id reason (.ok (.entries [debit, credit]))
  | empty {t : Transaction} (found : R'.committed? id = some t) (because : reason) :
      Answered R R' id reason (.ok (.entries []))
  | missing (before : R.committed? id = none) :
      Answered R R' id reason (.error (.transactionNotFound id))
  | failed (e : StoreError) : Answered R R' id reason (.error (.store e))
  | late : Answered R R' id reason (.error (.deadlineExceeded R.query.policy.deadline))

variable {R R' T : Reader} {e : ReaderEvent} {es : List ReaderEvent} {id : TransactionId}
  {t : Transaction} {r : QueryResult} {reason reason' : Prop}

/-- An event beside the query leaves it as it is; the query moves by itself or runs out of time. -/
theorem next_cases (h : R.next? e = some R') :
    R'.query.policy = R.query.policy ∧
      (R'.system = R.system ∨ R.system.Step R'.system) ∧
      (QueryCall.Moved R.system.store.books R.query R'.query ∨
        R'.query.result? = some (.error (.deadlineExceeded R.query.policy.deadline))) := by
  cases e with
  | elsewhere e =>
    obtain ⟨S, next, rfl⟩ := Option.map_eq_some_iff.mp h
    exact ⟨rfl, Or.inr (System.step_of_next? next), Or.inl (.stays rfl)⟩
  | step draw =>
    obtain ⟨⟨q, store⟩, step, rfl⟩ := Option.map_eq_some_iff.mp h
    obtain ⟨policy, ⟨left, rfl⟩, moved⟩ := QueryCall.step_cases step
    exact ⟨policy, Or.inr (.arranged left), Or.inl moved⟩
  | pass span =>
    cases h
    exact ⟨rfl, Or.inl rfl, Or.inl (.stays rfl)⟩
  | expire =>
    simp only [next?] at h
    split at h
    · cases h
      exact ⟨rfl, Or.inl rfl, Or.inr rfl⟩
    · contradiction

theorem safe_next (safe : R.system.Safe) (h : R.next? e = some R') : R'.system.Safe := by
  rcases (next_cases h).2.1 with same | step
  · exact same ▸ safe
  · exact safe.step step

theorem kept_next (safe : R.system.Safe) (h : R.next? e = some R')
    (found : R.committed? id = some t) : R'.committed? id = some t ∧
      R'.system.store.books.entriesOf id = R.system.store.books.entriesOf id := by
  rcases (next_cases h).2.1 with same | step
  · rw [committed?, same]
    exact ⟨found, rfl⟩
  · obtain ⟨there, entries⟩ :=
      (safe.changes step).keeps ⟨Books.transaction?_mem found, rfl⟩
    have distinct := (safe.step step).grown.transactions_distinct
    rw [← Books.transaction?_id found]
    exact ⟨Table.find?_of_mem distinct there, entries⟩

theorem kept_run (safe : R.system.Safe) (ran : R.run? es = some R')
    (found : R.committed? id = some t) : R'.committed? id = some t ∧
      R'.system.store.books.entriesOf id = R.system.store.books.entriesOf id := by
  induction es generalizing R with
  | nil =>
    cases ran
    exact ⟨found, rfl⟩
  | cons e es ih =>
    obtain ⟨T, first, rest⟩ := Option.bind_eq_some_iff.mp ran
    obtain ⟨next, entries⟩ := kept_next safe first found
    obtain ⟨last, entries'⟩ := ih (safe_next safe first) rest next
    exact ⟨last, entries'.trans entries⟩

theorem uncommitted_before (safe : R.system.Safe) (ran : R.run? es = some R')
    (absent : R'.committed? id = none) : R.committed? id = none := by
  cases found : R.committed? id with
  | none => rfl
  | some t =>
    rw [(kept_run safe ran found).1] at absent
    contradiction

theorem result_next (ended : R.query.result? = some r) (h : R.next? e = some R') :
    R'.query.result? = some r := by
  have phase := QueryCall.phase_of_result ended
  cases e with
  | elsewhere e =>
    obtain ⟨S, next, rfl⟩ := Option.map_eq_some_iff.mp h
    exact ended
  | step draw =>
    obtain ⟨q, step, -⟩ := Option.map_eq_some_iff.mp h
    simp only [QueryCall.step, phase] at step
    contradiction
  | pass span =>
    cases h
    exact ended
  | expire =>
    simp only [next?, QueryCall.expiredAt, phase] at h
    contradiction

theorem result_run (ended : R.query.result? = some r) (ran : R.run? es = some R') :
    R'.query.result? = some r := by
  induction es generalizing R with
  | nil =>
    cases ran
    exact ended
  | cons e es ih =>
    obtain ⟨T, first, rest⟩ := Option.bind_eq_some_iff.mp ran
    exact ih (result_next ended first) rest

theorem LookedUp.cons (first : R.next? e = some T) (h : T.LookedUp id es) :
    R.LookedUp id (e :: es) := by
  obtain ⟨before, after, X, t, rfl, ran, reading, found⟩ := h
  exact ⟨e :: before, after, X, t, rfl, by rw [run?, first]; exact ran, reading, found⟩

theorem Straddled.cons (first : R.next? e = some T) (h : T.Straddled id es) :
    R.Straddled id (e :: es) := by
  obtain ⟨before, after, X, rfl, ran, reading, absent, later⟩ := h
  exact ⟨e :: before, after, X, rfl, by rw [run?, first]; exact ran, reading, absent, later⟩

/-- A query that is answered from a later state on is answered from the one before. -/
theorem Answered.back (safe : R.system.Safe) (first : R.next? e = some T)
    (h : T.Answered R' id reason r) (reasons : reason → reason') : R.Answered R' id reason' r := by
  cases h with
  | pair found posting entries => exact .pair found posting entries
  | empty found because => exact .empty found (reasons because)
  | missing before =>
    have one : R.run? [e] = some T := by rw [run?, first]; rfl
    exact .missing (uncommitted_before safe one before)
  | failed e => exact .failed e
  | late =>
    rw [(next_cases first).1]
    exact .late

/-- The second read: the transaction is there, and the answer is empty, or it is missing. -/
theorem answered_looking (safe : R.system.Safe) (stage : R.query.stage? = some (.entriesOwner id))
    (ran : R.run? es = some R') (ended : R'.query.result? = some r) :
    R.Answered R' id (R.LookedUp id es) r := by
  induction es generalizing R with
  | nil =>
    cases ran
    rw [QueryCall.stage_of_result ended] at stage
    contradiction
  | cons e es ih =>
    obtain ⟨T, first, rest⟩ := Option.bind_eq_some_iff.mp ran
    obtain ⟨-, -, moved | late⟩ := next_cases first
    · cases moved with
      | stays after =>
        exact (ih (safe_next safe first) (after.trans stage) rest).back safe first (.cons first)
      | reads reading more after =>
        cases (QueryCall.stage_of_reading reading).symm.trans stage
        simp only [QueryStage.next] at more
        split at more <;> contradiction
      | answers reading last after =>
        cases (QueryCall.stage_of_reading reading).symm.trans stage
        cases (result_run after rest).symm.trans ended
        simp only [QueryStage.next] at last
        split at last
        · rename_i t found
          cases last
          exact .empty (kept_run safe ran found).1 ⟨[], e :: es, R, t, rfl, rfl, reading, found⟩
        · rename_i absent
          cases last
          exact .missing absent
      | fails f after =>
        cases (result_run after rest).symm.trans ended
        exact .failed f
    · cases (result_run late rest).symm.trans ended
      exact .late

theorem next_entries (b : Books) (id : TransactionId) :
    (QueryStage.entries id).next (Store.answer b (QueryStage.entries id).read) =
      if (b.entriesOf id).isEmpty then .inl (.entriesOwner id)
      else .inr (.ok (.entries (b.entriesOf id))) := rfl

theorem pair_of_listed (safe : R.system.Safe)
    (listed : R.system.store.books.entriesOf id ≠ []) : ∃ t debit credit,
    R.committed? id = some t ∧ t.Posting debit credit ∧
      R.system.store.books.entriesOf id = [debit, credit] := by
  obtain ⟨e, mem⟩ := List.exists_mem_of_ne_nil _ listed
  obtain ⟨mem, owner⟩ := List.mem_filter.mp mem
  obtain ⟨t, there, same⟩ := safe.grown.entries_owned e mem
  obtain ⟨debit, credit, entries, posting⟩ := safe.grown.postings t there
  have named : t.id = id := same.trans (of_decide_eq_true owner)
  refine ⟨t, debit, credit, ?_, posting, named ▸ entries⟩
  rw [← named]
  exact Table.find?_of_mem safe.grown.transactions_distinct there

theorem uncommitted_of_unlisted (safe : R.system.Safe)
    (unlisted : R.system.store.books.entriesOf id = []) : R.committed? id = none := by
  cases found : R.committed? id with
  | none => rfl
  | some t =>
    obtain ⟨debit, credit, entries, -⟩ := safe.grown.postings t (Books.transaction?_mem found)
    rw [Books.transaction?_id found, unlisted] at entries
    contradiction

/-- The first read: both entries are there, or none and the transaction is not committed yet. -/
theorem answered_listing (safe : R.system.Safe) (stage : R.query.stage? = some (.entries id))
    (ran : R.run? es = some R') (ended : R'.query.result? = some r) :
    R.Answered R' id (R.Straddled id es) r := by
  induction es generalizing R with
  | nil =>
    cases ran
    rw [QueryCall.stage_of_result ended] at stage
    contradiction
  | cons e es ih =>
    obtain ⟨T, first, rest⟩ := Option.bind_eq_some_iff.mp ran
    obtain ⟨-, -, moved | late⟩ := next_cases first
    · cases moved with
      | stays after =>
        exact (ih (safe_next safe first) (after.trans stage) rest).back safe first (.cons first)
      | reads reading more after =>
        cases (QueryCall.stage_of_reading reading).symm.trans stage
        rw [next_entries] at more
        split at more
        · rename_i unlisted
          cases more
          have absent := uncommitted_of_unlisted safe (List.isEmpty_iff.mp unlisted)
          -- From here on the second read decides, in whatever state it is made.
          have later := answered_looking (safe_next safe first) after rest ended
          refine later.back safe first fun looked => ?_
          exact ⟨[], e :: es, R, rfl, rfl, reading, absent, looked.cons first⟩
        · contradiction
      | answers reading last after =>
        cases (QueryCall.stage_of_reading reading).symm.trans stage
        cases (result_run after rest).symm.trans ended
        rw [next_entries] at last
        split at last
        · contradiction
        · rename_i listed
          cases last
          obtain ⟨t, debit, credit, found, posting, entries⟩ :=
            pair_of_listed safe (mt List.isEmpty_iff.mpr listed)
          obtain ⟨kept, same⟩ := kept_run safe ran found
          rw [entries] at same ⊢
          exact .pair kept posting same
      | fails f after =>
        cases (result_run after rest).symm.trans ended
        exact .failed f
    · cases (result_run late rest).symm.trans ended
      exact .late

theorem Straddled.uncommitted (safe : R.system.Safe) (h : R.Straddled id es) :
    R.committed? id = none := by
  obtain ⟨before, after, T, -, ran, -, absent, -⟩ := h
  exact uncommitted_before safe ran absent

/-- However a query for the entries of a transaction runs beside transfers: it answers with the
debit and the credit of a committed transaction, or it fails, or the transaction was committed
between its two reads and the answer is empty. -/
theorem entries_answered {S : System} {p : RetryPolicy} {clock : Nat} (h : S.Reachable)
    (ran : (start S p id clock).run? es = some R') (ended : R'.query.result? = some r) :
    (start S p id clock).Answered R' id ((start S p id clock).Straddled id es) r ∧
      (S.store.books.transaction? id ≠ none → r ≠ .ok (.entries [])) ∧
      (R'.committed? id = none → r = .error (.transactionNotFound id) ∨
        (∃ e, r = .error (.store e)) ∨ r = .error (.deadlineExceeded p.deadline)) := by
  have answered := answered_listing (R := start S p id clock) h.safe rfl ran ended
  refine ⟨answered, fun committed empty => ?_, fun absent => ?_⟩
  · rw [empty] at answered
    cases answered with
    | empty found straddled => exact committed (straddled.uncommitted h.safe)
  · cases answered with
    | pair found | empty found =>
      rw [found] at absent
      contradiction
    | missing => exact Or.inl rfl
    | failed e => exact Or.inr (Or.inl ⟨e, rfl⟩)
    | late => exact Or.inr (Or.inr rfl)

def raced : Reader := start {} .standard (.ofNat 3) 0

/-- Asked after the race, the query answers with two entries. -/
theorem entries_answered_race : ∃ R es,
    raced.run? (System.race.map .elsewhere ++ [.step 0]) = some R ∧
    R.query.result? = some (.ok (.entries es)) ∧ es.length = 2 ∧
    raced.Answered R (.ofNat 3)
      (raced.Straddled (.ofNat 3) (System.race.map .elsewhere ++ [.step 0])) (.ok (.entries es)) := by
  have facts : (raced.run? (System.race.map .elsewhere ++ [.step 0])).bind (fun R =>
      R.query.entries?.map (·.length)) = some 2 := by
    decide +kernel
  obtain ⟨R, ran, found⟩ := Option.bind_eq_some_iff.mp facts
  obtain ⟨es, listed, two⟩ := Option.map_eq_some_iff.mp found
  have ended := QueryCall.result_of_entries listed
  exact ⟨R, es, ran, ended, two, (entries_answered .start ran ended).1⟩

/-- Asked before the race, the query reads no entries; looking for the transaction after the race, it
finds it, and answers that there are no entries while there are two. -/
theorem entries_half_seen : ∃ R,
    raced.run? (.step 0 :: System.race.map .elsewhere ++ [.step 0]) = some R ∧
    R.query.result? = some (.ok (.entries [])) ∧
    (R.system.store.books.entriesOf (.ofNat 3)).length = 2 := by
  have facts : (raced.run? (.step 0 :: System.race.map .elsewhere ++ [.step 0])).bind (fun R =>
      R.query.entries?.map fun es =>
        (es, (R.system.store.books.entriesOf (.ofNat 3)).length)) = some ([], 2) := by
    decide +kernel
  obtain ⟨R, ran, found⟩ := Option.bind_eq_some_iff.mp facts
  obtain ⟨es, listed, found⟩ := Option.map_eq_some_iff.mp found
  obtain ⟨rfl, two⟩ := Prod.mk.inj found
  exact ⟨R, ran, QueryCall.result_of_entries listed, two⟩

end Reader

end WalletLedger
