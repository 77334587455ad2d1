import WalletLedger.Proofs.Listing
import WalletLedger.Proofs.Readers

/-!
Queries while nothing is committed. What a read gives is decided by the books, and not by the order
in which it comes across the transactions. So a query comes to one result, read after read, and is
told that or nothing: the store fails, or the time is up.
-/
namespace WalletLedger

def Books.Reordered (b b' : Books) : Prop :=
  ∃ order, order.Perm b.transactions ∧ b' = { b with transactions := order }

theorem Store.answer_reordered {b b' : Books} (ids : (b.transactions.map (·.id)).Nodup)
    (same : b.Reordered b') (r : StoreRead) : answer b' r = answer b r := by
  obtain ⟨order, perm, rfl⟩ := same
  have found : ∀ id, Books.transaction? { b with transactions := order } id = b.transaction? id :=
    fun id => Table.find?_perm id ids perm
  cases r with
  | wallet id => rfl
  | transaction id => exact found id
  | transactionByKey key => simp only [answer, Books.transactionByKey?, found]
  | transactions wallet limit offset => simp only [answer, Books.history_reordered ids perm]
  | transactionCount wallet => exact (perm.filter _).length_eq
  | entries transaction => rfl

theorem strike_spared {point : StorePoint} {faults : List Fault}
    (spared : ∀ f ∈ faults, f.point ≠ point) : strike point faults = (none, faults) := by
  induction faults with
  | nil => rfl
  | cons f rest ih =>
    have later : ∀ g ∈ rest, g.point ≠ point := fun g mem => spared g (List.mem_cons_of_mem f mem)
    rw [strike, if_neg (spared f List.mem_cons_self), ih later]

theorem Store.read_spared {s : Store} (spared : ∀ f ∈ s.faults, f.point ≠ .read) (r : StoreRead) :
    s.read r = (.ok (answer s.books r), s) := by
  have struck : s.strike .read = (none, s) := by rw [strike, strike_spared spared]
  rw [read, struck]

inductive QueryStage.Comes (b : Books) : QueryStage → QueryResult → Prop where
  | here {q : QueryStage} {r : QueryResult} (last : q.next (Store.answer b q.read) = .inr r) :
      Comes b q r
  | later {q q' : QueryStage} {r : QueryResult}
      (more : q.next (Store.answer b q.read) = .inl q') (rest : Comes b q' r) : Comes b q r

namespace QueryCall

inductive Goes (b : Books) (c : QueryCall) : QueryCall → Prop where
  | step {s s' : Store} {clock draw : Nat} {c' : QueryCall} (books : b.Reordered s.books)
      (step : c.step s clock draw = some (c', s')) : Goes b c c'
  | expire {clock : Nat} (due : c.expiredAt clock = true) :
      Goes b c { c with phase := .done c.expired }

end QueryCall

/-- While nothing is committed, the query is told `r`: at once, where no read is made to fail; and if
reads fail, it is told `r` or that the store failed or that its time is up. -/
structure QueryStage.Told (b : Books) (q : QueryStage) (r : QueryResult) : Prop where
  atOnce : ∀ (p : RetryPolicy) (s : Store) (clock draw : Nat), b.Reordered s.books →
    (∀ f ∈ s.faults, f.point ≠ .read) →
    ((QueryCall.start p q clock).drive s clock draw).1.result? = some r
  only : ∀ (p : RetryPolicy) (clock : Nat) (c : QueryCall) (x : QueryResult),
    Relation.ReflTransGen (QueryCall.Goes b) (.start p q clock) c → c.result? = some x →
    x = r ∨ (∃ e, x = .error (.store e)) ∨ x = .error (.deadlineExceeded p.deadline)

namespace QueryCall
variable {b b' : Books} {c c' : QueryCall} {s s' : Store} {q q' : QueryStage} {r x : QueryResult}
  {p : RetryPolicy} {clock draw attempt deadline : Nat}

theorem drive_step (h : c.step s clock draw = some (c', s')) :
    c.drive s clock draw = c'.drive s' clock draw := by
  rw [drive]
  split
  · rename_i closed
    rw [closed] at h
    contradiction
  · rename_i again
    cases again.symm.trans h
    rfl

theorem drive_done : (⟨p, .done r⟩ : QueryCall).drive s clock draw = (⟨p, .done r⟩, s) := by
  rw [drive]
  rfl

theorem step_spared (ids : (b.transactions.map (·.id)).Nodup) (books : b.Reordered s.books)
    (spared : ∀ f ∈ s.faults, f.point ≠ .read) :
    (⟨p, .reading q attempt deadline⟩ : QueryCall).step s clock draw =
      some (⟨p, (q.next (Store.answer b q.read)).elim (readFrom p · clock) .done⟩, s) := by
  rw [step]
  simp only [Store.read_spared spared, afterRead, Store.answer_reordered ids books]
  cases q.next (Store.answer b q.read) <;> rfl

theorem drive_comes (ids : (b.transactions.map (·.id)).Nodup) (books : b.Reordered s.books)
    (spared : ∀ f ∈ s.faults, f.point ≠ .read) (comes : q.Comes b r) (attempt deadline : Nat) :
    (drive ⟨p, .reading q attempt deadline⟩ s clock draw).1.result? = some r := by
  induction comes generalizing attempt deadline with
  | here last =>
    rw [drive_step (step_spared ids books spared), last, Sum.elim_inr, drive_done]
    rfl
  | later more rest ih =>
    rw [drive_step (step_spared ids books spared), more, Sum.elim_inl]
    exact ih _ _

inductive Headed (b : Books) (r : QueryResult) (c : QueryCall) : Prop where
  | under {q : QueryStage} (stage : c.stage? = some q) (comes : q.Comes b r)
  | told (result : c.result? = some r)
  | failed {e : StoreError} (result : c.result? = some (.error (.store e)))
  | late (result : c.result? = some (.error (.deadlineExceeded c.policy.deadline)))

theorem Headed.ended (h : c.Headed b r) (result : c.result? = some x) :
    x = r ∨ (∃ e, x = .error (.store e)) ∨ x = .error (.deadlineExceeded c.policy.deadline) := by
  cases h with
  | under stage =>
    rw [stage_of_result result] at stage
    contradiction
  | told same => exact Or.inl (Option.some.inj (result.symm.trans same))
  | failed same => exact Or.inr (Or.inl ⟨_, Option.some.inj (result.symm.trans same)⟩)
  | late same => exact Or.inr (Or.inr (Option.some.inj (result.symm.trans same)))

theorem Goes.open (goes : c.Goes b c') : c.result? = none := by
  cases result : c.result? with
  | none => rfl
  | some x =>
    have phase := phase_of_result result
    cases goes with
    | step _ step =>
      rw [QueryCall.step, phase] at step
      contradiction
    | expire due =>
      rw [expiredAt, phase] at due
      contradiction

theorem Headed.moved (stage : c.stage? = some q) (comes : q.Comes b r) (moved : Moved b c c') :
    c'.Headed b r := by
  cases moved with
  | stays after => exact .under (after.trans stage) comes
  | reads reading more after =>
    cases (stage_of_reading reading).symm.trans stage
    cases comes with
    | here last =>
      rw [last] at more
      contradiction
    | later again rest =>
      cases again.symm.trans more
      exact .under after rest
  | answers reading last after =>
    cases (stage_of_reading reading).symm.trans stage
    cases comes with
    | here again =>
      cases again.symm.trans last
      exact .told after
    | later more =>
      rw [last] at more
      contradiction
  | fails e after => exact .failed after

theorem Moved.reordered (ids : (b.transactions.map (·.id)).Nodup) (same : b.Reordered b')
    (moved : Moved b' c c') : Moved b c c' := by
  cases moved with
  | stays after => exact .stays after
  | reads reading more after =>
    rw [Store.answer_reordered ids same] at more
    exact .reads reading more after
  | answers reading last after =>
    rw [Store.answer_reordered ids same] at last
    exact .answers reading last after
  | fails e after => exact .fails e after

/-- One event leaves the query on its way to what it comes to. -/
theorem Headed.next (ids : (b.transactions.map (·.id)).Nodup) (goes : c.Goes b c')
    (h : c.Headed b r) : c'.policy = c.policy ∧ c'.Headed b r := by
  have going := goes.open
  cases h with
  | under stage comes =>
    cases goes with
    | step books step =>
      obtain ⟨policy, -, moved⟩ := step_cases step
      exact ⟨policy, .moved stage comes (moved.reordered ids books)⟩
    | expire due => exact ⟨rfl, .late rfl⟩
  | told result | failed result | late result =>
    rw [result] at going
    contradiction

theorem Headed.run (ids : (b.transactions.map (·.id)).Nodup)
    (run : Relation.ReflTransGen (Goes b) c c') (h : c.Headed b r) :
    c'.policy = c.policy ∧ c'.Headed b r := by
  induction run with
  | refl => exact ⟨rfl, h⟩
  | tail _ goes ih =>
    obtain ⟨policy, headed⟩ := ih
    obtain ⟨same, next⟩ := headed.next ids goes
    exact ⟨same.trans policy, next⟩

end QueryCall

theorem QueryStage.Comes.told {b : Books} {q : QueryStage} {r : QueryResult} (comes : q.Comes b r)
    (ids : (b.transactions.map (·.id)).Nodup) : q.Told b r where
  atOnce := fun _ _ _ _ books spared => QueryCall.drive_comes ids books spared comes _ _
  only := by
    intro p clock c x run result
    obtain ⟨policy, headed⟩ := QueryCall.Headed.run ids run (.under rfl comes)
    have ended := headed.ended result
    rw [policy] at ended
    exact ended

end WalletLedger
