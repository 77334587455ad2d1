import Mathlib.Data.List.Sort
import Mathlib.Tactic.Linarith
import WalletLedger.Page
import WalletLedger.Store.Books

/-!
The listing of a wallet: its transactions, latest first. Points in time compare as year, month, day,
second and nanosecond do, and transactions of one point by their identifiers, so that any two are
told apart and the listing does not depend on the order in which the transactions are kept. Windows of
a listing that stand side by side make up the whole.
-/
namespace WalletLedger

theorem daysInMonth_le (year : Int) (month : Nat) : daysInMonth year month ≤ 31 := by
  unfold daysInMonth
  split <;> (try split) <;> decide

theorem digits_lt_iff {q q' r r' k : Int} (low : 0 ≤ r) (high : r < k) (low' : 0 ≤ r')
    (high' : r' < k) : q * k + r < q' * k + r' ↔ q < q' ∨ q = q' ∧ r < r' := by
  constructor
  · intro less
    rcases lt_trichotomy q q' with before | same | after
    · exact Or.inl before
    · exact Or.inr ⟨same, by rw [same] at less; linarith⟩
    · have : (q' + 1) * k ≤ q * k := Int.mul_le_mul_of_nonneg_right after (by linarith)
      linarith
  · rintro (before | ⟨rfl, less⟩)
    · have : (q + 1) * k ≤ q' * k := Int.mul_le_mul_of_nonneg_right before (by linarith)
      linarith
    · linarith

def Date.Before (a b : Date) : Prop :=
  a.year < b.year ∨ a.year = b.year ∧ (a.month < b.month ∨ a.month = b.month ∧ a.day < b.day)

def Timestamp.Before (a b : Timestamp) : Prop :=
  a.date.Before b.date ∨
    a.date = b.date ∧ (a.second < b.second ∨ a.second = b.second ∧ a.nano < b.nano)

def Date.rank (d : Date) : Int := (d.year * 13 + d.month) * 32 + d.day

theorem Date.parts_lt (d : Date) : d.month < 13 ∧ d.day < 32 :=
  ⟨Nat.lt_succ_of_le d.month_le, Nat.lt_succ_of_le (d.day_le.trans (daysInMonth_le _ _))⟩

theorem Date.rank_lt_iff {a b : Date} : a.rank < b.rank ↔ a.Before b := by
  have := a.parts_lt
  have := b.parts_lt
  unfold rank Before
  rw [digits_lt_iff (by omega) (by omega) (by omega) (by omega),
    digits_lt_iff (by omega) (by omega) (by omega) (by omega)]
  omega

theorem Date.rank_inj {a b : Date} : a.rank = b.rank ↔ a = b := by
  refine ⟨fun same => ?_, congrArg rank⟩
  have := a.parts_lt
  have := b.parts_lt
  have parts : a.year = b.year ∧ a.month = b.month ∧ a.day = b.day := by
    unfold rank at same
    omega
  cases a
  cases b
  simpa using parts

namespace Timestamp
variable {a b : Timestamp}

theorem rank_eq (t : Timestamp) :
    t.rank = (t.date.rank * 86400 + t.second) * 2000000000 + t.nano := rfl

theorem parts_lt (t : Timestamp) : t.second < 86400 ∧ t.nano < 2000000000 :=
  ⟨t.second_lt, t.nano_lt⟩

theorem rank_lt_iff : a.rank < b.rank ↔ a.Before b := by
  have := a.parts_lt
  have := b.parts_lt
  rw [rank_eq, rank_eq, digits_lt_iff (by omega) (by omega) (by omega) (by omega),
    digits_lt_iff (by omega) (by omega) (by omega) (by omega), Before, ← Date.rank_lt_iff,
    ← Date.rank_inj]
  omega

theorem rank_inj : a.rank = b.rank ↔ a = b := by
  refine ⟨fun same => ?_, congrArg rank⟩
  have := a.parts_lt
  have := b.parts_lt
  have parts : a.date.rank = b.date.rank ∧ a.second = b.second ∧ a.nano = b.nano := by
    rw [rank_eq, rank_eq] at same
    omega
  rw [Date.rank_inj] at parts
  cases a
  cases b
  simpa using parts

end Timestamp

def Transaction.Above (s t : Transaction) : Prop :=
  t.createdAt.Before s.createdAt ∨ t.createdAt = s.createdAt ∧ t.id < s.id

namespace Books
variable {b : Books} {s t u : Transaction} {wallet : WalletId}

theorem newestFirst_iff : newestFirst s t = true ↔ t.createdAt.rank < s.createdAt.rank ∨
    s.createdAt.rank = t.createdAt.rank ∧ t.id.value ≤ s.id.value := by
  simp only [newestFirst, Bool.or_eq_true, Bool.and_eq_true, decide_eq_true_eq]
  rfl

theorem newestFirst_trans (h : newestFirst s t = true) (h' : newestFirst t u = true) :
    newestFirst s u = true := by
  rw [newestFirst_iff] at *
  omega

theorem newestFirst_total (s t : Transaction) : (newestFirst s t || newestFirst t s) = true := by
  rw [Bool.or_eq_true, newestFirst_iff, newestFirst_iff]
  omega

theorem above_of (first : newestFirst s t = true) (other : s.id ≠ t.id) : s.Above t := by
  have values : s.id.value ≠ t.id.value := fun same => other (Identifier.ext same)
  have less : t.id < s.id ↔ t.id.value < s.id.value := Iff.rfl
  rw [newestFirst_iff] at first
  rw [Transaction.Above, ← Timestamp.rank_lt_iff, ← Timestamp.rank_inj, less]
  omega

theorem above_asymm (h : s.Above t) : ¬t.Above s := by
  have less : ∀ x y : Transaction, x.id < y.id ↔ x.id.value < y.id.value := fun _ _ => Iff.rfl
  rw [Transaction.Above, ← Timestamp.rank_lt_iff, ← Timestamp.rank_inj, less] at h ⊢
  omega

theorem history_filter (b : Books) (wallet : WalletId) :
    (b.history wallet).Perm (b.transactions.filter (·.involves wallet)) :=
  List.mergeSort_perm _ _

theorem history_sorted (b : Books) (wallet : WalletId) :
    (b.history wallet).Pairwise fun s t => newestFirst s t = true := by
  unfold history
  exact List.pairwise_mergeSort (fun s t u h h' => newestFirst_trans (s := s) (t := t) (u := u) h h')
    newestFirst_total (b.transactions.filter (·.involves wallet))

theorem history_above (ids : (b.transactions.map (·.id)).Nodup) (wallet : WalletId) :
    (b.history wallet).Pairwise Transaction.Above := by
  have kept : ((b.transactions.filter (·.involves wallet)).map (·.id)).Nodup :=
    ids.sublist (List.filter_sublist.map _)
  have distinct : ((b.history wallet).map (·.id)).Nodup :=
    ((b.history_filter wallet).map _).nodup_iff.mpr kept
  rw [List.Nodup, List.pairwise_map] at distinct
  exact (b.history_sorted wallet).imp₂ (fun _ _ first other => above_of first other) distinct

theorem history_reordered {order : List Transaction} (ids : (b.transactions.map (·.id)).Nodup)
    (same : order.Perm b.transactions) (wallet : WalletId) :
    { b with transactions := order }.history wallet = b.history wallet := by
  have ids' : (order.map (·.id)).Nodup := (same.map _).nodup_iff.mpr ids
  have perm : ({ b with transactions := order }.history wallet).Perm (b.history wallet) :=
    (history_filter _ wallet).trans ((same.filter _).trans (b.history_filter wallet).symm)
  exact perm.eq_of_pairwise (fun _ _ _ _ above below => absurd below (above_asymm above))
    (history_above ids' wallet) (history_above ids wallet)

end Books

section Windows
variable {α : Type} {p n total : Nat}

theorem flatMap_windows (xs : List α) (p n : Nat) :
    (List.range n).flatMap (fun i => (xs.drop (i * p)).take p) = xs.take (n * p) := by
  induction n with
  | zero => simp
  | succ n ih => simp [List.range_succ, ih, Nat.succ_mul, List.take_add]

theorem pageCount_covers (pos : 0 < p) (total : Nat) : total ≤ pageCount total p * p := by
  unfold pageCount
  split
  · omega
  · have parts := Nat.div_add_mod (total + p - 1) p
    have rest := Nat.mod_lt (total + p - 1) pos
    rw [Nat.mul_comm] at parts
    omega

theorem mul_le_of_lt_pageCount (pos : 0 < p) (early : n < pageCount total p) : n * p ≤ total := by
  unfold pageCount at early
  split at early
  · obtain rfl : n = 0 := by omega
    omega
  · have above := (Nat.le_div_iff_mul_le pos).mp early
    rw [Nat.succ_mul] at above
    omega

end Windows

end WalletLedger
