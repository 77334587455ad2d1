import WalletLedger.Power

/-!
Points in time: a day of the Gregorian calendar, a second of that day and nanoseconds, all in UTC.
A leap second is the 59th second of its minute with a second or more of nanoseconds.
-/
namespace WalletLedger

def leapYear (year : Int) : Bool :=
  year % 4 = 0 && (year % 100 ≠ 0 || year % 400 = 0)

def daysInMonth (year : Int) (month : Nat) : Nat :=
  match month with
  | 2 => if leapYear year then 29 else 28
  | 4 | 6 | 9 | 11 => 30
  | _ => 31

theorem daysInMonth_pos (year : Int) (month : Nat) : 1 ≤ daysInMonth year month := by
  unfold daysInMonth
  split <;> (try split) <;> decide

structure Date where
  year : Int
  month : Nat
  day : Nat
  month_pos : 1 ≤ month
  month_le : month ≤ 12
  day_pos : 1 ≤ day
  day_le : day ≤ daysInMonth year month
  deriving DecidableEq, Repr

namespace Date

def of? (year : Int) (month day : Nat) : Option Date :=
  if h : (1 ≤ month ∧ month ≤ 12) ∧ (1 ≤ day ∧ day ≤ daysInMonth year month) then
    some ⟨year, month, day, h.1.1, h.1.2, h.2.1, h.2.2⟩
  else none

def next (d : Date) : Date :=
  if h : d.day + 1 ≤ daysInMonth d.year d.month then
    ⟨d.year, d.month, d.day + 1, d.month_pos, d.month_le, Nat.le_add_left _ _, h⟩
  else if hm : d.month + 1 ≤ 12 then
    ⟨d.year, d.month + 1, 1, Nat.le_add_left _ _, hm, Nat.le_refl _, daysInMonth_pos _ _⟩
  else
    ⟨d.year + 1, 1, 1, Nat.le_refl _, by decide, Nat.le_refl _, daysInMonth_pos _ _⟩

def previous (d : Date) : Date :=
  if h : 2 ≤ d.day then
    ⟨d.year, d.month, d.day - 1, d.month_pos, d.month_le, by omega, by have := d.day_le; omega⟩
  else if hm : 2 ≤ d.month then
    ⟨d.year, d.month - 1, daysInMonth d.year (d.month - 1), by omega,
      by have := d.month_le; omega, daysInMonth_pos _ _, Nat.le_refl _⟩
  else
    ⟨d.year - 1, 12, 31, by decide, by decide, by decide, Nat.le_refl 31⟩

end Date

structure Timestamp where
  date : Date
  second : Nat
  nano : Nat
  second_lt : second < 86400
  nano_lt : nano < 2 * tenTo 9
  deriving DecidableEq, Repr

namespace Timestamp

/-- A number that grows with time and tells any two points apart. -/
def rank (t : Timestamp) : Int :=
  let day := (t.date.year * 13 + t.date.month) * 32 + t.date.day
  (day * 86400 + t.second) * (2 * tenTo 9) + t.nano

def order (a b : Timestamp) : Ordering := compare a.rank b.rank

def of? (date : Date) (second nano : Nat) : Option Timestamp :=
  if h : second < 86400 ∧ nano < 2 * tenTo 9 then some ⟨date, second, nano, h.1, h.2⟩ else none

def epoch : Timestamp :=
  ⟨⟨1970, 1, 1, by decide, by decide, by decide, by decide⟩, 0, 0, by decide, by decide⟩

/-- The point in UTC that a clock `offset` seconds ahead of UTC shows as `t`; the offset is less
than a day either way. -/
def toUtc (t : Timestamp) (offset : Int) : Timestamp :=
  let s : Int := t.second - offset
  if s < 0 then
    ⟨t.date.previous, (s + 86400).toNat % 86400, t.nano, Nat.mod_lt _ (by decide), t.nano_lt⟩
  else if s < 86400 then
    ⟨t.date, s.toNat % 86400, t.nano, Nat.mod_lt _ (by decide), t.nano_lt⟩
  else ⟨t.date.next, (s - 86400).toNat % 86400, t.nano, Nat.mod_lt _ (by decide), t.nano_lt⟩

def tick (t : Timestamp) : Timestamp :=
  if h : t.nano + 1 < tenTo 9 then ⟨t.date, t.second, t.nano + 1, t.second_lt, by omega⟩
  else if h : t.second + 1 < 86400 then ⟨t.date, t.second + 1, 0, h, by decide⟩
  else ⟨t.date.next, 0, 0, by decide, by decide⟩

end Timestamp

end WalletLedger
