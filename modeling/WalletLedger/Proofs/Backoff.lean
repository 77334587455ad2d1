import Mathlib.Data.Nat.ModEq
import WalletLedger.Retry

/-!
Delays between repeated calls. A delay doubles as long as its factor has 32 bits and the product is
a span, gets a random part that is shorter than itself, and is cut off at the longest span. Worked
out as a clock does it, with seconds and nanoseconds in words of fixed width, it comes to the same,
and no number on the way is lost.
-/
namespace WalletLedger

def word? (bits n : Nat) : Option Nat := if n < twoTo bits then some n else none

theorem word?_fits {bits n : Nat} (fits : n < twoTo bits) : word? bits n = some n := if_pos fits

theorem word?_add (bits a b : Nat) :
    ((word? bits a).bind fun x => word? bits (x + b)) = word? bits (a + b) := by
  by_cases fits : a < twoTo bits
  · rw [word?_fits fits, Option.bind_some]
  · have long : ¬a + b < twoTo bits := fun short =>
      fits (Nat.lt_of_le_of_lt (Nat.le_add_right a b) short)
    rw [word?, word?, if_neg fits, if_neg long, Option.bind_none]

structure ClockSpan where
  seconds : Nat
  nanos : Nat
  deriving DecidableEq, Repr

/-! An operation on words is none if a number leaves its word unnoticed. Where it notices by itself
that there is no result, the result is none. -/

namespace ClockSpan

def ofNanos (n : Nat) : ClockSpan := ⟨n / tenTo 9, n % tenTo 9⟩

def scale? (t : ClockSpan) (k : Nat) : Option (Option ClockSpan) := do
  let total ← word? 64 (t.nanos * k)
  let nanos ← word? 32 (total % tenTo 9)
  return do
    let seconds ← word? 64 (t.seconds * k)
    let seconds ← word? 64 (seconds + total / tenTo 9)
    return ⟨seconds, nanos⟩

def add? (a b : ClockSpan) : Option (Option ClockSpan) := do
  let nanos ← word? 32 (a.nanos + b.nanos)
  return do
    let seconds ← word? 64 (a.seconds + b.seconds)
    if nanos < tenTo 9 then return ⟨seconds, nanos⟩
    let seconds ← word? 64 (seconds + 1)
    return ⟨seconds, nanos - tenTo 9⟩

def inNanos? (t : ClockSpan) : Option Nat := do
  let seconds ← word? 128 (t.seconds * tenTo 9)
  word? 128 (seconds + t.nanos)

end ClockSpan

namespace TimeSpan

def clock (t : TimeSpan) : ClockSpan := .ofNanos t.nanos

theorem eq_of_nanos {s t : TimeSpan} (same : s.nanos = t.nanos) : s = t := by
  cases s
  cases t
  cases same
  rfl

theorem nanos_le_longest (t : TimeSpan) : t.nanos ≤ longest.nanos := Nat.le_pred_of_lt t.nanos_lt

theorem clamp_nanos (n : Nat) : (clamp n).nanos = min n longest.nanos := by
  have last : longest.nanos = twoTo 64 * tenTo 9 - 1 := rfl
  unfold clamp ofNanos?
  split
  · rename_i fits
    exact (Nat.min_eq_left (last ▸ Nat.le_pred_of_lt fits)).symm
  · rename_i long
    have beyond : longest.nanos ≤ n := by omega
    exact (Nat.min_eq_right beyond).symm

theorem scale?_getD_nanos (t : TimeSpan) (k : Nat) :
    ((t.scale? k).getD longest).nanos = min (t.nanos * k) longest.nanos := clamp_nanos _

theorem addClamped_nanos (a b : TimeSpan) :
    (a.addClamped b).nanos = min (a.nanos + b.nanos) longest.nanos := clamp_nanos _

theorem ofNanos?_map_clock (n : Nat) : (ofNanos? n).map clock =
    (word? 64 (n / tenTo 9)).map (⟨·, n % tenTo 9⟩) := by
  have limit : n / tenTo 9 < twoTo 64 ↔ n < twoTo 64 * tenTo 9 :=
    Nat.div_lt_iff_lt_mul (by decide)
  unfold ofNanos? word?
  by_cases fits : n < twoTo 64 * tenTo 9
  · rw [dif_pos fits, if_pos (limit.mpr fits)]
    rfl
  · rw [dif_neg fits, if_neg (mt limit.mp fits)]
    rfl

theorem clock_scale? (t : TimeSpan) {k : Nat} (fits : k < twoTo 32) :
    t.clock.scale? k = some ((t.scale? k).map clock) := by
  have short : t.nanos % tenTo 9 < tenTo 9 := Nat.mod_lt _ (by decide)
  have product : t.nanos % tenTo 9 * k < twoTo 64 := by
    have bound : t.nanos % tenTo 9 * k ≤ tenTo 9 * twoTo 32 :=
      Nat.mul_le_mul (Nat.le_of_lt short) (Nat.le_of_lt fits)
    exact Nat.lt_of_le_of_lt bound (by decide)
  have rest : t.nanos % tenTo 9 * k % tenTo 9 < twoTo 32 :=
    Nat.lt_trans (Nat.mod_lt _ (by decide)) (by decide)
  -- The product of the nanoseconds carries whole seconds, which are added to those of the seconds.
  have parts : t.nanos * k = tenTo 9 * (t.nanos / tenTo 9 * k) + t.nanos % tenTo 9 * k := by
    rw [← Nat.mul_assoc, ← Nat.add_mul, Nat.div_add_mod]
  have whole : t.nanos * k / tenTo 9 =
      t.nanos / tenTo 9 * k + t.nanos % tenTo 9 * k / tenTo 9 := by
    rw [parts, Nat.mul_add_div (by decide)]
  have left : t.nanos * k % tenTo 9 = t.nanos % tenTo 9 * k % tenTo 9 := by
    rw [parts, Nat.mul_add_mod]
  rw [scale?, ofNanos?_map_clock, whole, left, ← word?_add]
  simp only [ClockSpan.scale?, clock, ClockSpan.ofNanos, Option.bind_eq_bind, Option.pure_def,
    Option.bind_some, word?_fits product, word?_fits rest, Option.map_eq_bind, Option.bind_assoc]
  rfl

theorem clock_add? (a b : TimeSpan) :
    a.clock.add? b.clock = some ((ofNanos? (a.nanos + b.nanos)).map clock) := by
  have short := Nat.mod_lt a.nanos (show 0 < tenTo 9 by decide)
  have short' := Nat.mod_lt b.nanos (show 0 < tenTo 9 by decide)
  have fits : a.nanos % tenTo 9 + b.nanos % tenTo 9 < twoTo 32 :=
    Nat.lt_trans (Nat.add_lt_add short short') (by decide)
  rw [ofNanos?_map_clock]
  simp only [ClockSpan.add?, clock, ClockSpan.ofNanos, Option.bind_eq_bind, Option.pure_def,
    Option.bind_some, word?_fits fits, Option.map_eq_bind]
  by_cases carry : a.nanos % tenTo 9 + b.nanos % tenTo 9 < tenTo 9
  · have left := Nat.add_mod_of_add_mod_lt carry
    have whole := Nat.add_div_eq_of_add_mod_lt carry
    rw [whole, left]
    simp only [if_pos carry]
    rfl
  · have carries := Nat.not_lt.mp carry
    have left := Nat.add_mod_add_of_le_add_mod carries
    have whole := Nat.add_div_eq_of_le_mod_add_mod carries (by decide)
    rw [whole, Nat.eq_sub_of_add_eq left,
      ← word?_add 64 (a.nanos / tenTo 9 + b.nanos / tenTo 9) 1]
    simp only [if_neg carry, Option.bind_assoc]
    rfl

theorem clock_inNanos? (t : TimeSpan) : t.clock.inNanos? = some t.nanos := by
  have fits : t.nanos < twoTo 128 := Nat.lt_trans t.nanos_lt (by decide)
  show ((word? 128 (t.nanos / tenTo 9 * tenTo 9)).bind
    fun seconds => word? 128 (seconds + t.nanos % tenTo 9)) = _
  rw [word?_add, Nat.div_add_mod', word?_fits fits]

theorem clock_clamp (n : Nat) : (clamp n).clock = ((ofNanos? n).map clock).getD longest.clock := by
  unfold clamp
  cases ofNanos? n <;> rfl

end TimeSpan

def drawBelow? (bound draw : Nat) : Option Nat := if bound = 0 then none else some (draw % bound)

namespace RetryPolicy

/-- Two to the power of a number, by a shift in 32 bits, which notices that it goes too far. -/
def shifted? (attempt : Nat) : Option (Option Nat) :=
  if attempt < 32 then (word? 32 (twoTo attempt)).map some else some none

def clockBackoff? (p : RetryPolicy) (attempt : Nat) : Option ClockSpan := do
  match ← shifted? attempt with
  | none => return TimeSpan.longest.clock
  | some factor => (p.base.clock.scale? factor).map (·.getD TimeSpan.longest.clock)

def clockJitter? (bound : ClockSpan) (draw : Nat) : Option ClockSpan := do
  let nanos := (word? 64 (← bound.inNanos?)).getD (twoTo 64 - 1)
  if nanos = 0 then return TimeSpan.zero.clock
  (drawBelow? nanos draw).map .ofNanos

def clockDelay? (p : RetryPolicy) (attempt draw : Nat) : Option ClockSpan := do
  let backoff ← p.clockBackoff? attempt
  let jitter ← clockJitter? backoff draw
  (backoff.add? jitter).map (·.getD TimeSpan.longest.clock)

variable {p : RetryPolicy} {attempt draw : Nat}

theorem clockBackoff?_eq (p : RetryPolicy) (attempt : Nat) :
    p.clockBackoff? attempt = some (p.backoff attempt).clock := by
  unfold clockBackoff? shifted? backoff
  by_cases near : attempt < 32
  · have fits : twoTo attempt < twoTo 32 := Nat.pow_lt_pow_right (by decide) near
    rw [if_pos near, if_pos near, word?_fits fits]
    show (p.base.clock.scale? (twoTo attempt)).map _ = _
    rw [TimeSpan.clock_scale? _ fits, Option.map_some]
    cases p.base.scale? (twoTo attempt) <;> rfl
  · rw [if_neg near, if_neg near]
    rfl

theorem clockJitter?_eq (bound : TimeSpan) (draw : Nat) :
    clockJitter? bound.clock draw = some (jitter bound draw).clock := by
  have range : (word? 64 bound.nanos).getD (twoTo 64 - 1) = min bound.nanos (twoTo 64 - 1) := by
    unfold word?
    split
    · rename_i fits
      exact (Nat.min_eq_left (Nat.le_pred_of_lt fits)).symm
    · rename_i long
      have beyond : twoTo 64 - 1 ≤ bound.nanos := by omega
      exact (Nat.min_eq_right beyond).symm
  simp only [clockJitter?, TimeSpan.clock_inNanos?, Option.bind_eq_bind, Option.bind_some, range,
    jitter]
  split
  · rfl
  · rename_i possible
    have drawn : draw % min bound.nanos (twoTo 64 - 1) ≤ TimeSpan.longest.nanos :=
      Nat.le_trans (Nat.mod_lt _ (Nat.pos_of_ne_zero possible)).le
        (Nat.le_trans (Nat.min_le_left _ _) bound.nanos_le_longest)
    rw [drawBelow?, if_neg possible, Option.map_some, TimeSpan.clock, TimeSpan.clamp_nanos,
      Nat.min_eq_left drawn]

/-- Worked out with words, a delay is the delay: no word is left, and no number is drawn from an
empty range. -/
theorem clockDelay?_eq (p : RetryPolicy) (attempt draw : Nat) :
    p.clockDelay? attempt draw = some (p.delay attempt draw).clock := by
  have steps : p.clockDelay? attempt draw = (p.clockBackoff? attempt).bind fun backoff =>
      (clockJitter? backoff draw).bind fun jitter =>
        (backoff.add? jitter).map (·.getD TimeSpan.longest.clock) := rfl
  rw [steps, clockBackoff?_eq, Option.bind_some, clockJitter?_eq, Option.bind_some,
    TimeSpan.clock_add?, Option.map_some, delay, TimeSpan.addClamped, TimeSpan.clock_clamp]

theorem backoff_near (near : attempt ≤ 31) : (p.backoff attempt).nanos =
    min (p.base.nanos * 2 ^ attempt) TimeSpan.longest.nanos := by
  rw [backoff, if_pos (Nat.lt_succ_of_le near)]
  exact p.base.scale?_getD_nanos (twoTo attempt)

theorem backoff_far (far : 31 < attempt) : p.backoff attempt = TimeSpan.longest :=
  if_neg (Nat.not_lt.mpr far)

theorem backoff_le_backoff {m n : Nat} (le : m ≤ n) :
    (p.backoff m).nanos ≤ (p.backoff n).nanos := by
  by_cases near : n ≤ 31
  · have doubled : p.base.nanos * 2 ^ m ≤ p.base.nanos * 2 ^ n :=
      Nat.mul_le_mul_left _ (Nat.pow_le_pow_right (by decide) le)
    rw [backoff_near near, backoff_near (Nat.le_trans le near)]
    omega
  · rw [backoff_far (Nat.not_le.mp near)]
    exact TimeSpan.nanos_le_longest _

theorem jitter_lt {bound : TimeSpan} (some : bound ≠ .zero) (draw : Nat) :
    (jitter bound draw).nanos < bound.nanos := by
  have positive : bound.nanos ≠ 0 := fun none => some (TimeSpan.eq_of_nanos none)
  have range : min bound.nanos (twoTo 64 - 1) ≠ 0 := by
    have word : 1 ≤ twoTo 64 - 1 := by decide
    omega
  have drawn := Nat.mod_lt draw (Nat.pos_of_ne_zero range)
  have limit := bound.nanos_le_longest
  rw [jitter, if_neg range, TimeSpan.clamp_nanos]
  omega

theorem jitter_reaches {bound : TimeSpan} {j : Nat} (below : j < min bound.nanos (twoTo 64 - 1)) :
    (jitter bound j).nanos = j := by
  have range : min bound.nanos (twoTo 64 - 1) ≠ 0 := Nat.ne_zero_of_lt below
  have limit := bound.nanos_le_longest
  rw [jitter, if_neg range, TimeSpan.clamp_nanos, Nat.mod_eq_of_lt below]
  omega

structure Delays (p : RetryPolicy) : Prop where
  doubled : ∀ attempt ≤ 31, p.base.nanos * 2 ^ attempt ≤ TimeSpan.longest.nanos →
    (p.backoff attempt).nanos = p.base.nanos * 2 ^ attempt
  cutOff : ∀ attempt, 31 < attempt ∨ TimeSpan.longest.nanos < p.base.nanos * 2 ^ attempt →
    p.backoff attempt = .longest
  rises : ∀ m n, m ≤ n → (p.backoff m).nanos ≤ (p.backoff n).nanos
  enough : ∀ attempt,
    min (p.base.nanos * 2 ^ attempt) TimeSpan.longest.nanos ≤ (p.backoff attempt).nanos
  lengthened : ∀ attempt draw, (p.backoff attempt).nanos ≤ (p.delay attempt draw).nanos
  within : ∀ attempt draw, p.backoff attempt ≠ .zero →
    (p.backoff attempt).nanos + (jitter (p.backoff attempt) draw).nanos ≤ TimeSpan.longest.nanos →
    (p.delay attempt draw).nanos < 2 * (p.backoff attempt).nanos
  atOnce : ∀ attempt draw, p.backoff attempt = .zero → p.delay attempt draw = .zero
  saturated : ∀ attempt draw, TimeSpan.longest.nanos <
    (p.backoff attempt).nanos + (jitter (p.backoff attempt) draw).nanos →
    p.delay attempt draw = .longest
  drawn : ∀ attempt j, j < min (p.backoff attempt).nanos (twoTo 64 - 1) →
    ∃ draw, (jitter (p.backoff attempt) draw).nanos = j
  worked : ∀ attempt draw, p.clockBackoff? attempt = some (p.backoff attempt).clock ∧
    p.clockDelay? attempt draw = some (p.delay attempt draw).clock

/-- Delays double until they are cut off, their random parts are shorter than themselves, and words
of fixed width are enough to work them out, whatever the base, the attempt and the draw. -/
theorem delays_bounded (p : RetryPolicy) : p.Delays := by
  have sum : ∀ attempt draw, (p.delay attempt draw).nanos = min ((p.backoff attempt).nanos +
      (jitter (p.backoff attempt) draw).nanos) TimeSpan.longest.nanos := by
    intro attempt draw
    exact TimeSpan.addClamped_nanos _ _
  refine ⟨fun attempt near fits => ?_, fun attempt beyond => ?_, fun m n => backoff_le_backoff,
    fun attempt => ?_, fun attempt draw => ?_, fun attempt draw some fits => ?_,
    fun attempt draw none => ?_, fun attempt draw long => ?_,
    fun attempt j below => ⟨j, jitter_reaches below⟩,
    fun attempt draw => ⟨clockBackoff?_eq p attempt, clockDelay?_eq p attempt draw⟩⟩
  · rw [backoff_near near, Nat.min_eq_left fits]
  · by_cases near : attempt ≤ 31
    · have long := beyond.resolve_left (Nat.not_lt.mpr near)
      apply TimeSpan.eq_of_nanos
      rw [backoff_near near, Nat.min_eq_right (Nat.le_of_lt long)]
    · exact backoff_far (Nat.not_le.mp near)
  · by_cases near : attempt ≤ 31
    · rw [backoff_near near]
    · rw [backoff_far (Nat.not_le.mp near)]
      exact Nat.min_le_right _ _
  · have limit := (p.backoff attempt).nanos_le_longest
    rw [sum]
    omega
  · have shorter := jitter_lt some draw
    rw [sum, Nat.min_eq_left fits]
    omega
  · rw [delay, none]
    rfl
  · apply TimeSpan.eq_of_nanos
    rw [sum, Nat.min_eq_right (Nat.le_of_lt long)]

example : (backoff ⟨3, .ofMillis 100, .ofMillis 8000⟩ 2).nanos = 400000000 ∧
    backoff ⟨3, .zero, .zero⟩ 31 = .zero ∧ backoff ⟨3, .zero, .zero⟩ 32 = .longest := by
  decide +kernel

end RetryPolicy

end WalletLedger
