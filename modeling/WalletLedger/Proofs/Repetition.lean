import Mathlib.Data.Nat.Find
import Mathlib.Order.Monotone.Basic
import Mathlib.Tactic.ByContra
import WalletLedger.Retry

/-!
What repeating an operation comes to. Without a deadline the calls follow a timetable: the first is
started at once, and every other one as soon as the pause behind the call before it is over, until a
call succeeds, fails for good or is the last one allowed. The deadline cuts the timetable off: calls
that it has for a later time are not started, and the end is the deadline's if the sequence still
waits then, in a call or in a pause.
-/
namespace WalletLedger.RetryPolicy

variable {ε α : Type} (p : RetryPolicy) (retryable : ε → Bool) (calls : Nat → TimedCall ε α)
  (draws : Nat → Nat)

def pauseAfter (n : Nat) : Nat := (p.delay n (draws n)).nanos

def startOf : Nat → Nat
  | 0 => 0
  | n + 1 => startOf n + (calls n).takes + p.pauseAfter draws n

def endOf (n : Nat) : Nat := p.startOf calls draws n + (calls n).takes

inductive Closes (n : Nat) : Prop where
  | succeeds {a : α} (result : (calls n).result = .ok a)
  | failsForGood {e : ε} (result : (calls n).result = .error e) (permanent : retryable e = false)
  | exhausts (used : max p.attempts 1 ≤ n + 1)

structure EndsWith (n : Nat) : Prop where
  closes : p.Closes retryable calls n
  first : ∀ m < n, ¬p.Closes retryable calls m

inductive Waiting (last t : Nat) : Prop where
  | inCall {n : Nat} (made : n ≤ last) (since : p.startOf calls draws n ≤ t)
      (before : t < p.endOf calls draws n)
  | inPause {n : Nat} (more : n < last) (since : p.endOf calls draws n ≤ t)
      (before : t < p.startOf calls draws (n + 1))

def handedOn (r : Except ε α) : Except (RetryError ε) α := r.mapError .operation

variable {p retryable calls draws} {n m last : Nat}

theorem startOf_succ : p.startOf calls draws (n + 1) =
    p.endOf calls draws n + p.pauseAfter draws n := rfl

theorem startOf_le_endOf : p.startOf calls draws n ≤ p.endOf calls draws n := Nat.le_add_right _ _

theorem endOf_le_startOf : p.endOf calls draws n ≤ p.startOf calls draws (n + 1) :=
  Nat.le_add_right _ _

theorem startOf_mono : Monotone (p.startOf calls draws) :=
  monotone_nat_of_le_succ fun _ => startOf_le_endOf.trans endOf_le_startOf

theorem endOf_mono : Monotone (p.endOf calls draws) :=
  monotone_nat_of_le_succ fun _ => endOf_le_startOf.trans startOf_le_endOf

theorem exists_endsWith (p : RetryPolicy) (retryable : ε → Bool) (calls : Nat → TimedCall ε α) :
    ∃ n < max p.attempts 1, p.EndsWith retryable calls n := by
  classical
  have last : p.Closes retryable calls (max p.attempts 1 - 1) := .exhausts (by omega)
  have allowed : ∃ n, p.Closes retryable calls n := ⟨_, last⟩
  refine ⟨Nat.find allowed, ?_, Nat.find_spec allowed, fun m before => Nat.find_min allowed before⟩
  have least := Nat.find_min' allowed last
  omega

theorem repeats (goes : ¬p.Closes retryable calls n) : ∃ e, (calls n).result = .error e ∧
    retryable e = true ∧ n + 1 < max p.attempts 1 := by
  have more : n + 1 < max p.attempts 1 := by
    by_contra! used
    exact goes (.exhausts used)
  cases result : (calls n).result with
  | ok a => exact absurd (.succeeds result) goes
  | error e =>
    cases passing : retryable e with
    | false => exact absurd (.failsForGood result passing) goes
    | true => exact ⟨e, rfl, passing, more⟩

theorem Waiting.later {t : Nat} (h : p.Waiting calls draws n t) :
    p.Waiting calls draws (n + 1) t := by
  cases h with
  | inCall made since before => exact .inCall (Nat.le_succ_of_le made) since before
  | inPause more since before => exact .inPause (Nat.lt_succ_of_lt more) since before

theorem waiting_iff {t : Nat} :
    p.Waiting calls draws last t ↔ t < p.endOf calls draws last := by
  constructor
  · rintro (⟨made, -, before⟩ | ⟨more, -, before⟩)
    · exact before.trans_le (endOf_mono made)
    · exact before.trans_le ((startOf_mono more).trans startOf_le_endOf)
  · intro before
    induction last with
    | zero => exact .inCall (Nat.le_refl 0) (Nat.zero_le t) before
    | succ n ih =>
      by_cases begun : p.startOf calls draws (n + 1) ≤ t
      · exact .inCall (Nat.le_refl _) begun before
      · by_cases ended : p.endOf calls draws n ≤ t
        · exact .inPause (Nat.lt_succ_self n) ended (Nat.not_le.mp begun)
        · exact (ih (Nat.not_le.mp ended)).later

def latest (p : RetryPolicy) (calls : Nat → TimedCall ε α) (draws : Nat → Nat) (n : Nat) :
    List Nat :=
  ((List.range n).map (p.startOf calls draws)).reverse

theorem latest_succ : p.startOf calls draws n :: p.latest calls draws n =
    p.latest calls draws (n + 1) := by
  simp [latest, List.range_succ]

theorem reverse_latest : (p.latest calls draws n).reverse =
    (List.range n).map (p.startOf calls draws) := List.reverse_reverse _

/-- The run once it is the turn of call `n`, with all calls before it on the timetable. -/
def runAt (p : RetryPolicy) (retryable : ε → Bool) (calls : Nat → TimedCall ε α)
    (draws : Nat → Nat) (n : Nat) : RetryRun ε α :=
  p.runFrom retryable calls draws n (p.startOf calls draws n) (p.latest calls draws n)

def cut (p : RetryPolicy) (calls : Nat → TimedCall ε α) (draws : Nat → Nat) (k : Nat)
    (result : Except (RetryError ε) α) : RetryRun ε α :=
  ⟨result, (List.range k).map (p.startOf calls draws)⟩

theorem run_eq_runAt : p.run retryable calls draws = p.runAt retryable calls draws 0 := rfl

theorem not_late (inTime : p.endOf calls draws n ≤ p.deadline.nanos) : ¬(0 < (calls n).takes ∧
    p.deadline.nanos < p.startOf calls draws n + (calls n).takes) := by
  rintro ⟨-, late⟩
  exact Nat.not_lt.mpr inTime late

theorem runAt_inCall (begun : p.startOf calls draws n ≤ p.deadline.nanos)
    (late : p.deadline.nanos < p.endOf calls draws n) : p.runAt retryable calls draws n =
      p.cut calls draws (n + 1) (.error (.deadlineExceeded p.deadline)) := by
  have takes : 0 < (calls n).takes := by
    unfold endOf at late
    omega
  unfold runAt runFrom
  rw [latest_succ, reverse_latest]
  exact if_pos ⟨takes, late⟩

theorem runAt_closes (inTime : p.endOf calls draws n ≤ p.deadline.nanos)
    (closes : p.Closes retryable calls n) : p.runAt retryable calls draws n =
      p.cut calls draws (n + 1) (handedOn (calls n).result) := by
  rw [runAt, runFrom, latest_succ, reverse_latest]
  simp only [not_late inTime, if_false]
  cases result : (calls n).result with
  | ok a => rfl
  | error e =>
    have stops : p.goesOn n (retryable e) = false := by
      cases closes with
      | succeeds done =>
        rw [result] at done
        contradiction
      | failsForGood failed permanent =>
        rw [result] at failed
        cases failed
        rw [goesOn, permanent, Bool.and_false]
      | exhausts used => simp only [goesOn, Nat.not_lt.mpr used, decide_false, Bool.false_and]
    simp only [stops, Bool.false_eq_true, dite_false]
    rfl

theorem runAt_repeats (inTime : p.endOf calls draws n ≤ p.deadline.nanos)
    (goes : ¬p.Closes retryable calls n) : p.runAt retryable calls draws n =
      if p.deadline.nanos < p.startOf calls draws (n + 1) then
        p.cut calls draws (n + 1) (.error (.deadlineExceeded p.deadline))
      else p.runAt retryable calls draws (n + 1) := by
  obtain ⟨e, result, passing, more⟩ := repeats goes
  have goesOn : p.goesOn n (retryable e) = true := by
    rw [RetryPolicy.goesOn, passing, decide_eq_true more, Bool.and_true]
  rw [runAt, runFrom, latest_succ, reverse_latest]
  simp only [not_late inTime, if_false, result, goesOn, dite_true]
  by_cases late : p.deadline.nanos < p.startOf calls draws (n + 1)
  · have pauses : 0 < p.pauseAfter draws n := by
      rw [startOf_succ] at late
      omega
    rw [if_pos late]
    exact if_pos ⟨pauses, late⟩
  · rw [if_neg late]
    exact if_neg fun cut => late cut.2

theorem lt_succ_iff_begun {t : Nat} (begun : p.startOf calls draws n ≤ t)
    (next : t < p.startOf calls draws (n + 1)) : m < n + 1 ↔ p.startOf calls draws m ≤ t := by
  constructor
  · intro early
    exact (startOf_mono (Nat.lt_succ_iff.mp early)).trans begun
  · intro started
    by_contra! later
    exact Nat.not_lt.mpr started (next.trans_le (startOf_mono later))

def verdict (p : RetryPolicy) (calls : Nat → TimedCall ε α) (draws : Nat → Nat) (last : Nat) :
    Except (RetryError ε) α :=
  if p.deadline.nanos < p.endOf calls draws last then .error (.deadlineExceeded p.deadline)
  else handedOn (calls last).result

/-- From a call that is started in time on, the run follows the timetable up to the deadline. -/
theorem runAt_eq (ends : p.EndsWith retryable calls last) (le : n ≤ last)
    (begun : p.startOf calls draws n ≤ p.deadline.nanos) :
    ∃ k, k ≤ last + 1 ∧
      (∀ m ≤ last, m < k ↔ p.startOf calls draws m ≤ p.deadline.nanos) ∧
      p.runAt retryable calls draws n = p.cut calls draws k (p.verdict calls draws last) := by
  induction left : last - n generalizing n with
  | zero =>
    obtain rfl : n = last := by omega
    refine ⟨n + 1, Nat.le_refl _, fun m earlier => ?_, ?_⟩
    · exact iff_of_true (Nat.lt_succ_of_le earlier) ((startOf_mono earlier).trans begun)
    · by_cases late : p.deadline.nanos < p.endOf calls draws n
      · rw [runAt_inCall begun late, verdict, if_pos late]
      · rw [runAt_closes (Nat.not_lt.mp late) ends.closes, verdict, if_neg late]
  | succ left ih =>
    have more : n < last := by omega
    have goes := ends.first n more
    have rest : p.startOf calls draws (n + 1) ≤ p.endOf calls draws last :=
      (startOf_mono more).trans startOf_le_endOf
    by_cases next : p.deadline.nanos < p.startOf calls draws (n + 1)
    · refine ⟨n + 1, by omega, fun m _ => lt_succ_iff_begun begun next, ?_⟩
      rw [verdict, if_pos (next.trans_le rest)]
      by_cases late : p.deadline.nanos < p.endOf calls draws n
      · exact runAt_inCall begun late
      · rw [runAt_repeats (Nat.not_lt.mp late) goes, if_pos next]
    · have inTime := endOf_le_startOf.trans (Nat.not_lt.mp next)
      rw [runAt_repeats inTime goes, if_neg next]
      exact ih more (Nat.not_lt.mp next) (by omega)

/-- The first calls of the timetable are made, as many as it has up to the deadline. -/
theorem run_eq (draws : Nat → Nat) (ends : p.EndsWith retryable calls last) :
    ∃ k, k ≤ last + 1 ∧
      (∀ m ≤ last, m < k ↔ p.startOf calls draws m ≤ p.deadline.nanos) ∧
      p.run retryable calls draws = p.cut calls draws k (p.verdict calls draws last) := by
  rw [run_eq_runAt]
  exact runAt_eq ends (Nat.zero_le last) (Nat.zero_le _)

theorem endOf_of_idle (quick : ∀ n ≤ last, (calls n).takes = 0)
    (gapless : ∀ n < last, (p.delay n (draws n)).nanos = 0) : p.endOf calls draws last = 0 := by
  have start : ∀ n ≤ last, p.startOf calls draws n = 0 := by
    intro n le
    induction n with
    | zero => rfl
    | succ n ih =>
      have pause : p.pauseAfter draws n = 0 := gapless n le
      rw [startOf_succ, endOf, ih (Nat.le_of_succ_le le), quick n (Nat.le_of_succ_le le), pause]
  rw [endOf, start last (Nat.le_refl last), quick last (Nat.le_refl last)]

theorem verdict_late_iff : p.verdict calls draws last = .error (.deadlineExceeded p.deadline) ↔
    p.Waiting calls draws last p.deadline.nanos := by
  rw [waiting_iff, verdict]
  split
  · rename_i late
    exact iff_of_true rfl late
  · rename_i inTime
    refine iff_of_false ?_ inTime
    cases (calls last).result <;> simp [handedOn, Except.mapError]

theorem verdict_of_punctual (inTime : p.endOf calls draws last ≤ p.deadline.nanos) :
    p.verdict calls draws last = handedOn (calls last).result :=
  if_neg (Nat.not_lt.mpr inTime)

structure Promised (p : RetryPolicy) (retryable : ε → Bool) (calls : Nat → TimedCall ε α)
    (draws : Nat → Nat) (last : Nat) (run : RetryRun ε α) : Prop where
  ends : p.EndsWith retryable calls last
  called : 1 ≤ run.calls
  allowed : run.calls ≤ max p.attempts 1
  atOnce : run.started[0]? = some 0
  spaced : ∀ n t, run.started[n + 1]? = some t →
    ∃ e s, (calls n).result = .error e ∧ retryable e = true ∧ run.started[n]? = some s ∧
      t = s + (calls n).takes + (p.delay n (draws n)).nanos
  punctual : p.endOf calls draws last ≤ p.deadline.nanos →
    run.calls = last + 1 ∧ run.result = handedOn (calls last).result
  late : run.result = .error (.deadlineExceeded p.deadline) ↔
    p.Waiting calls draws last p.deadline.nanos
  startedInTime : ∀ n ≤ last, n < run.calls ↔ p.startOf calls draws n ≤ p.deadline.nanos
  unhindered : (∀ n ≤ last, (calls n).takes = 0) →
    (∀ n < last, (p.delay n (draws n)).nanos = 0) → run.result = handedOn (calls last).result
  counter : p.attempts < twoTo 32 → ∀ n < run.calls, n + 1 < twoTo 32

/-- Every run keeps to its timetable until the deadline: it has a call that ends it, and makes the
calls up to that one, each behind a failure that may pass and the pause that is due after it. -/
theorem run_promised (p : RetryPolicy) (retryable : ε → Bool) (calls : Nat → TimedCall ε α)
    (draws : Nat → Nat) :
    ∃ last, p.Promised retryable calls draws last (p.run retryable calls draws) := by
  obtain ⟨last, bound, ends⟩ := exists_endsWith p retryable calls
  obtain ⟨k, within, begun, run⟩ := run_eq draws ends
  rw [run]
  have count : (p.cut calls draws k (p.verdict calls draws last)).calls = k := by
    simp [cut, RetryRun.calls]
  have called : 0 < k := (begun 0 (Nat.zero_le last)).mpr (Nat.zero_le _)
  have listing : ∀ n < k, (p.cut calls draws k (p.verdict calls draws last)).started[n]? =
      some (p.startOf calls draws n) := by
    intro n early
    simp [cut, early]
  refine ⟨last, ends, ?_, ?_, listing 0 called, fun n t listed => ?_, fun inTime => ⟨?_, ?_⟩,
    verdict_late_iff, ?_, fun quick gapless => ?_, fun fits n made => ?_⟩
  · rw [count]
    exact called
  · rw [count]
    omega
  · have made : n + 1 < k := by
      obtain ⟨there, -⟩ := List.getElem?_eq_some_iff.mp listed
      simpa [cut] using there
    obtain ⟨e, result, passing, -⟩ := repeats (ends.first n (by omega))
    rw [listing (n + 1) made] at listed
    cases listed
    exact ⟨e, _, result, passing, listing n (Nat.lt_of_succ_lt made), rfl⟩
  · rw [count]
    have all := (begun last (Nat.le_refl last)).mpr (startOf_le_endOf.trans inTime)
    omega
  · exact verdict_of_punctual inTime
  · rw [count]
    exact begun
  · have idle := endOf_of_idle quick gapless
    exact verdict_of_punctual (idle ▸ Nat.zero_le _)
  · have word : twoTo 32 = 2 ^ 32 := rfl
    rw [count] at made
    omega

/-- Calls that fail in no time, beside a deadline that cuts off the second pause. -/
example : (run ⟨10, .ofMillis 100, .ofMillis 250⟩ (fun _ => true)
    (fun _ => (⟨0, .error ()⟩ : TimedCall Unit Unit)) fun _ => 0).started = [0, 100000000] := by
  decide +kernel

end WalletLedger.RetryPolicy
