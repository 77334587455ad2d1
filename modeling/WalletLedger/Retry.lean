import WalletLedger.TimeSpan

/-!
Repeating an operation after passing failures. Delays double from the base, each lengthened by a
random part shorter than itself, and the whole sequence ends at a deadline counted from its start.
-/
namespace WalletLedger

structure RetryPolicy where
  attempts : Nat
  base : TimeSpan
  deadline : TimeSpan
  deriving DecidableEq, Repr

inductive RetryError (ε : Type) where
  | operation (error : ε)
  | deadlineExceeded (deadline : TimeSpan)
  deriving DecidableEq, Repr

def retryDeadlineMessage (deadline : TimeSpan) : String :=
  s!"Retry deadline of {deadline.text} exceeded"

def RetryError.message {ε : Type} (text : ε → String) : RetryError ε → String
  | operation error => text error
  | deadlineExceeded deadline => retryDeadlineMessage deadline

namespace RetryPolicy

/-- The delay after failure number `attempt`, counted from 0: the base times `2 ^ attempt`, as
long as the factor has 32 bits and the product is a span. -/
def backoff (p : RetryPolicy) (attempt : Nat) : TimeSpan :=
  if attempt < 32 then (p.base.scale? (twoTo attempt)).getD TimeSpan.longest else TimeSpan.longest

def jitter (bound : TimeSpan) (draw : Nat) : TimeSpan :=
  let n := min bound.nanos (twoTo 64 - 1)
  if n = 0 then TimeSpan.zero else TimeSpan.clamp (draw % n)

def delay (p : RetryPolicy) (attempt draw : Nat) : TimeSpan :=
  (p.backoff attempt).addClamped (jitter (p.backoff attempt) draw)

def jitterWithin (p : RetryPolicy) (attempt draw : Nat) : Bool :=
  let backoff := p.backoff attempt
  let delay := p.delay attempt draw
  backoff.nanos ≤ delay.nanos &&
    (delay.nanos < 2 * backoff.nanos || delay = backoff || delay = TimeSpan.longest)

def goesOn (p : RetryPolicy) (attempt : Nat) (retryable : Bool) : Bool :=
  attempt + 1 < max p.attempts 1 && retryable

end RetryPolicy

structure TimedCall (ε α : Type) where
  takes : Nat
  result : Except ε α

structure RetryRun (ε α : Type) where
  result : Except (RetryError ε) α
  started : List Nat

def RetryRun.calls {ε α : Type} (r : RetryRun ε α) : Nat := r.started.length

namespace RetryPolicy

variable {ε α : Type}

/-- Runs from call number `attempt` at time `now`, both counted from the start, after calls that were
started at the times `past`, the latest first. A wait that ends on the deadline itself still ends in
time. -/
def runFrom (p : RetryPolicy) (retryable : ε → Bool) (calls : Nat → TimedCall ε α)
    (draws : Nat → Nat) (attempt now : Nat) (past : List Nat) : RetryRun ε α :=
  let call := calls attempt
  let ended := now + call.takes
  let endsWith (result : Except (RetryError ε) α) : RetryRun ε α := ⟨result, (now :: past).reverse⟩
  if 0 < call.takes ∧ p.deadline.nanos < ended then
    endsWith (.error (.deadlineExceeded p.deadline))
  else match call.result with
    | .ok a => endsWith (.ok a)
    | .error e =>
      if _more : p.goesOn attempt (retryable e) then
        let pause := (p.delay attempt (draws attempt)).nanos
        if 0 < pause ∧ p.deadline.nanos < ended + pause then
          endsWith (.error (.deadlineExceeded p.deadline))
        else runFrom p retryable calls draws (attempt + 1) (ended + pause) (now :: past)
      else endsWith (.error (.operation e))
termination_by max p.attempts 1 - attempt
decreasing_by
  simp only [goesOn, Bool.and_eq_true, decide_eq_true_eq] at _more
  omega

def run (p : RetryPolicy) (retryable : ε → Bool) (calls : Nat → TimedCall ε α)
    (draws : Nat → Nat) : RetryRun ε α :=
  p.runFrom retryable calls draws 0 0 []

end RetryPolicy

end WalletLedger
