import WalletLedger.Proofs.Course
import WalletLedger.Proofs.Pair
import WalletLedger.Proofs.Procedure

/-!
All or nothing, as a database sees it. Whatever it replies, a transfer commits at most once, as the
last thing it says, and only after every statement of the transfer in its order; in every other
case the unit ends without its writes.
-/
namespace WalletLedger

namespace Sql

def Statement.inner : Statement → Bool
  | begin | setLockTimeout _ | commit | rollback | abandon => false
  | _ => true

/-- A transfer that was not committed: it opened no unit, or its unit was undone at the end. -/
inductive Undone (wait : TimeSpan) (r : TransferRequest) : List Exchange → TransferResult → Prop where
  | unopened (f : Failure) : Undone wait r [(.begin, .error f)] (.error (.store f.classify))
  | unlimited {opened : Outcome} {f : Failure} {ending : Reply} :
      Undone wait r [(.begin, .ok opened), (.setLockTimeout wait, .error f), (.abandon, ending)]
        (.error (.store f.classify))
  | failed {opened limited : Outcome} {body : List Exchange} {ending : Reply} {e : LedgerError}
      (inner : ∀ x ∈ body, x.1.inner) :
      Undone wait r ((.begin, .ok opened) :: (.setLockTimeout wait, .ok limited) :: body ++
        [(.rollback, ending)]) (.error e)
  | replayed {opened limited : Outcome} {locked looked ending : Reply} {pair : WalletPair}
      {t : Transaction}
      (found : looked.first TransactionRecord.ofRow TransactionRecord.toTransaction = .ok (some t)) :
      Undone wait r
        [(.begin, .ok opened), (.setLockTimeout wait, .ok limited), (.lockWallets pair, locked),
          (.selectTransactionByKey r.key, looked), (.rollback, ending)] (.ok (.replayed t))
  | collided {opened limited : Outcome} {locked looked insertion winner ending : Reply}
      {pair : WalletPair} {id : TransactionId} {insertedAt : Timestamp} {t : Transaction}
      (absent : looked.first TransactionRecord.ofRow TransactionRecord.toTransaction = .ok none)
      (taken : insertion.affected = .ok 0)
      (found : winner.first TransactionRecord.ofRow TransactionRecord.toTransaction = .ok (some t)) :
      Undone wait r
        [(.begin, .ok opened), (.setLockTimeout wait, .ok limited), (.lockWallets pair, locked),
          (.selectTransactionByKey r.key, looked),
          (.insertTransaction (r.draft id) insertedAt, insertion),
          (.selectTransactionByKey r.key, winner), (.rollback, ending)] (.ok (.replayed t))

section
variable {r : TransferRequest} {u : DatabaseUnit} {supply supply' : Supply} {w : Work}
  {es : List Exchange} {c : Conclusion}

/-- The work from a stage on is the operation of the stage and what its answer leads to. -/
theorem work_eq (r : TransferRequest) (u : DatabaseUnit) (supply : Supply) (w : Work) :
    work r u supply w = (u.dialogue supply.now (w.op r)).bind fun reply =>
      match w.after r supply reply with
      | .inl next => work r (u.after (w.op r) reply) (supply.after w.draws) next
      | .inr c => .done (c, supply.after w.draws) := by
  rw [work, DatabaseUnit.perform_eq]
  refine congrArg _ (funext fun reply => ?_)
  cases w.after r supply reply <;> rfl

def Leads (r : TransferRequest) (u : DatabaseUnit) (supply : Supply) (es : List Exchange)
    (x : Conclusion × Supply) : Work ⊕ Conclusion → Prop
  | .inl next => (work r u supply next).Course es x
  | .inr c => es = [] ∧ x = (c, supply)

theorem course_work {x : Conclusion × Supply} (h : (work r u supply w).Course es x) :
    ∃ first reply rest, es = first ++ rest ∧ (u.dialogue supply.now (w.op r)).Course first reply ∧
      Leads r (u.after (w.op r) reply) (supply.after w.draws) rest x (w.after r supply reply) := by
  rw [work_eq] at h
  obtain ⟨first, reply, rest, rfl, said, later⟩ := Dialogue.course_bind h
  refine ⟨first, reply, rest, rfl, said, ?_⟩
  cases leads : w.after r supply reply with
  | inl next =>
    simp only [leads] at later
    exact later
  | inr c =>
    simp only [leads] at later
    exact Dialogue.course_done later

def Broken (es : List Exchange) (c : Conclusion) : Prop :=
  (∃ e, c = .fail e) ∧ ∀ x ∈ es, x.1.inner

theorem Broken.cons {s : Statement} {reply : Reply} (h : Broken es c) (inner : s.inner) :
    Broken ((s, reply) :: es) c := by
  refine ⟨h.1, fun x mem => ?_⟩
  rcases List.mem_cons.mp mem with rfl | mem
  · exact inner
  · exact h.2 x mem

end

variable {wait : TimeSpan} {r : TransferRequest} {supply supply' : Supply} {es : List Exchange}
  {result : TransferResult}

/-- The course of a transfer in an open unit, up to the end of the unit. -/
theorem course_workAndConclude {pair : WalletPair} {u : DatabaseUnit}
    (work : r.work = .inl (.locking pair))
    (h : (workAndConclude r u supply).Course es (result, supply')) :
    ∃ body x ending, (Sql.work r u supply (.locking pair)).Course body x ∧
      (conclude x.1).Course ending result ∧ es = body ++ ending := by
  simp only [workAndConclude, work] at h
  obtain ⟨body, x, rest, rfl, worked, later⟩ := Dialogue.course_bind h
  obtain ⟨ending, y, ended, rfl, concluded, last⟩ := Dialogue.course_bind later
  obtain ⟨rfl, same⟩ := Dialogue.course_done last
  cases same
  exact ⟨body, x, ending, worked, concluded, by rw [List.append_nil]⟩

theorem course_commit {t : Transaction} (h : (conclude (.create t)).Course es result) :
    ∃ ending, es = [(.commit, ending)] ∧ result = match ending with
      | .ok _ => .ok (.created t)
      | .error f => .error (.store f.classify) := by
  obtain ⟨ending, rest, rfl, ended⟩ := Dialogue.course_say h
  cases ending with
  | ok o =>
    obtain ⟨rfl, rfl⟩ := Dialogue.course_done ended
    exact ⟨.ok o, rfl, rfl⟩
  | error f =>
    obtain ⟨rfl, rfl⟩ := Dialogue.course_done ended
    exact ⟨.error f, rfl, rfl⟩

theorem course_rollback {c : Conclusion} {x : TransferResult}
    (undoes : conclude c = .say .rollback fun _ => .done x) (h : (conclude c).Course es result) :
    ∃ ending, es = [(.rollback, ending)] ∧ result = x := by
  rw [undoes] at h
  obtain ⟨ending, rest, rfl, ended⟩ := Dialogue.course_say h
  obtain ⟨rfl, rfl⟩ := Dialogue.course_done ended
  exact ⟨ending, rfl, rfl⟩

/-- A unit whose work comes to nothing is rolled back. -/
theorem Broken.undone {opened limited : Outcome} {body ending : List Exchange} {c : Conclusion}
    (broken : Broken body c) (concluded : (conclude c).Course ending result) :
    Undone wait r ((.begin, .ok opened) :: (.setLockTimeout wait, .ok limited) :: (body ++ ending))
      result := by
  obtain ⟨⟨e, rfl⟩, inner⟩ := broken
  obtain ⟨reply, rfl, rfl⟩ := course_rollback rfl concluded
  exact .failed inner

theorem Undone.uncommitted (h : Undone wait r es result) :
    .commit ∉ es.map Prod.fst ∧ ∀ t, result ≠ .ok (.created t) := by
  cases h with
  | failed inner =>
    refine ⟨fun mem => ?_, fun t same => by cases same⟩
    obtain ⟨x, there, said⟩ := List.mem_map.mp mem
    simp only [List.cons_append, List.mem_cons, List.mem_append, List.not_mem_nil, or_false] at there
    rcases there with rfl | rfl | there | rfl
    · cases said
    · cases said
    · have within := inner x there
      rw [said] at within
      contradiction
    · cases said
  | _ => exact ⟨by simp, fun t same => by cases same⟩

end Sql

end WalletLedger
