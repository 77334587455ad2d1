import Mathlib.Algebra.Order.BigOperators.Group.List
import WalletLedger.Proofs.Changes
import WalletLedger.Proofs.Conservation

/-!
Room for every balance. Amounts that the ledger takes are whole numbers of the smallest unit of
their currency, and so are all balances, even those that are rounded. As long as fewer than `2 ^ 96`
such units were brought in, no wallet can hold more than an amount can write, so no balance is ever
rounded and money is conserved.
-/
namespace WalletLedger

namespace Amount
variable {a b : Amount} {c : Currency}

def Whole (a : Amount) (c : Currency) : Prop := ∃ n : Int, a.value = n / 10 ^ c.minorUnits

theorem stripZeros_value (n : Int) (s : Nat) :
    ((stripZeros n s).1 : ℚ) / 10 ^ (stripZeros n s).2 = n / 10 ^ s := by
  induction s generalizing n with
  | zero => rfl
  | succ s ih =>
    unfold stripZeros
    split
    · rename_i zero
      have digits : n = n / 10 * 10 := by omega
      have cast : (n : ℚ) = (n / 10 : Int) * 10 := by exact_mod_cast digits
      rw [ih, cast, pow_succ]
      field_simp
    · rfl

theorem normalize_value (a : Amount) : a.normalize.value = a.value :=
  stripZeros_value a.coefficient a.scale

theorem whole_of_scale (h : a.normalize.scale ≤ c.minorUnits) : a.Whole c := by
  refine ⟨a.normalize.atScale c.minorUnits, ?_⟩
  rw [atScale_value h, normalize_value]

theorem whole_of_scale_le (h : a.scale ≤ c.minorUnits) : a.Whole c :=
  whole_of_scale (Nat.le_trans (stripZeros_bounds a.coefficient a.scale).2 h)

theorem Whole.neg (whole : a.Whole c) : (-a).Whole c := by
  obtain ⟨n, same⟩ := whole
  exact ⟨-n, by rw [value_neg, same, Int.cast_neg, neg_div]⟩

theorem factor_of_div_eq {n m : Int} {k s : Nat} (le : k ≤ s)
    (same : (n : ℚ) / 10 ^ s = m / 10 ^ k) : n = m * 10 ^ (s - k) := by
  have powers : (10 : ℚ) ^ s = 10 ^ (s - k) * 10 ^ k := by rw [← pow_add, Nat.sub_add_cancel le]
  rw [powers] at same
  field_simp at same
  rw [mul_comm]
  exact_mod_cast same

/-- A whole number of smallest units stays one when it has to give up digits: either all digits that
are finer go, or the digits that go are zeros. -/
theorem fit_whole {n m : Int} {s : Nat} (bound : s ≤ 28) (h : fit n s = some a)
    (units : (n : ℚ) / 10 ^ s = m / 10 ^ c.minorUnits) : a.Whole c := by
  obtain ⟨le, there⟩ := fit_excess bound h
  by_cases coarse : s - excess n s ≤ c.minorUnits
  · refine whole_of_scale_le ?_
    rw [(ofParts?_eq_some there).2]
    exact coarse
  · have factor : n = m * 10 ^ (s - c.minorUnits) := factor_of_div_eq (by omega) units
    have zeros : a.value = n / 10 ^ s :=
      value_of_dropping (by omega) (Nat.sub_le s c.minorUnits) factor there
    exact ⟨m, zeros.trans units⟩

theorem Whole.add? {r : Amount} (ha : a.Whole c) (hb : b.Whole c) (h : a.add? b = some r) :
    r.Whole c := by
  unfold Amount.add? at h
  split at h
  · cases h
    exact hb
  · split at h
    · cases h
      exact ha
    · obtain ⟨m, left⟩ := ha
      obtain ⟨n, right⟩ := hb
      refine fit_whole (m := m + n) (max_scale_le a b) h ?_
      rw [atScale_add, left, right, Int.cast_add, add_div]

theorem representable_of_short {n : Int} (short : n.natAbs < twoTo 96) :
    Representable (n / 10 ^ c.minorUnits) := by
  have bound : c.minorUnits ≤ 28 := by cases c <;> decide
  exact ⟨⟨n, c.minorUnits, short, bound⟩, rfl⟩

theorem value_nonneg (owed : ¬a.IsNegative) : 0 ≤ a.value := by
  have coefficient : (0 : ℚ) ≤ a.coefficient := by exact_mod_cast Int.not_lt.mp owed
  exact div_nonneg coefficient (pow_nonneg (by norm_num) _)

theorem le_iff_value : a ≤ b ↔ a.value ≤ b.value := by
  have positive : ∀ n : Nat, (0 : ℚ) < 10 ^ n := fun n => pow_pos (by norm_num) n
  have cast : ∀ n : Nat, ((tenTo n : Int) : ℚ) = 10 ^ n := by
    intro n
    simp [tenTo]
  rw [value, value, div_le_div_iff₀ (positive a.scale) (positive b.scale), ← cast, ← cast]
  norm_cast

theorem drift_of_short {n : Int} {r : Amount} (sum : a.add? b = some r)
    (exact : a.value + b.value = n / 10 ^ c.minorUnits) (short : n.natAbs < twoTo 96) :
    a.drift b = 0 := by
  rw [drift_eq_zero_iff sum, exact]
  exact representable_of_short short

end Amount

theorem Money.whole_of_checkScale {m : Money} (h : m.checkScale = .ok ()) :
    m.amount.Whole m.currency := by
  unfold checkScale at h
  dsimp only at h
  split at h
  · contradiction
  · rename_i fine
    exact Amount.whole_of_scale (Nat.not_lt.mp fine)

theorem TransferRequest.amount_whole {r : TransferRequest} (h : r.validate = .ok ()) :
    r.amount.Whole r.currency :=
  Money.whole_of_checkScale (validate_ok h).2.1

namespace Books
variable {b : Books} {r : TransferRequest} {d : Draw} {s q w : Wallet} {t : Transaction}
  {p : TransferPlan}

theorem Postable.balances_whole (h : b.Postable r d s q t p)
    (whole : ∀ w ∈ b.wallets, w.balance.Whole w.currency) :
    p.senderBalance.Whole s.currency ∧ p.receiverBalance.Whole q.currency := by
  have amount := TransferRequest.amount_whole h.valid
  have sender := whole s (wallet?_mem h.sender)
  have receiver := whole q (wallet?_mem h.receiver)
  obtain ⟨sent, received, taken, given, -, inS, inQ, rfl⟩ := h.plan_eq
  rw [inS] at sender ⊢
  rw [inQ] at receiver ⊢
  exact ⟨sender.add? amount.neg taken, receiver.add? amount given⟩

theorem Grown.whole (h : b.Grown) : ∀ w ∈ b.wallets, w.balance.Whole w.currency := by
  induction h with
  | empty => exact fun _ => List.not_mem_nil.elim
  | opened old new owed scaled free ih =>
    intro w mem
    rcases List.mem_append.mp mem with mem | mem
    · exact ih w mem
    · rw [List.mem_singleton.mp mem]
      exact Money.whole_of_checkScale scaled
  | @posted b r d s q t p old postable new ih =>
    intro w mem
    obtain ⟨x, there, rfl⟩ := List.mem_map.mp mem
    obtain ⟨sent, received⟩ := postable.balances_whole ih
    rcases postable.posted_cases old there d.committed with
      ⟨-, same⟩ | ⟨-, same⟩ | ⟨-, -, same⟩ <;> rw [same]
    · exact sent
    · exact received
    · exact ih x there

theorem holds_nonneg (owed : ∀ w ∈ b.wallets, ¬w.balance.IsNegative) (c : Currency) :
    ∀ w ∈ b.wallets, 0 ≤ w.holds c := by
  intro w mem
  unfold Wallet.holds
  split
  · exact Amount.value_nonneg (owed w mem)
  · exact le_refl 0

theorem Grown.pair_le_total (grown : b.Grown) (hs : s ∈ b.wallets) (hq : q ∈ b.wallets)
    (apart : s.id ≠ q.id) (c : Currency) : s.holds c + q.holds c ≤ b.total c := by
  have distinct := grown.wallets_distinct
  have nonneg := holds_nonneg grown.owed c
  have each : ∀ w ∈ b.wallets, (if w.id = s.id then s.holds c else 0) +
      (if w.id = q.id then q.holds c else 0) ≤ w.holds c := by
    intro w mem
    by_cases first : w.id = s.id
    · rw [List.inj_on_of_nodup_map distinct mem hs first, if_pos rfl, if_neg apart, add_zero]
    · by_cases second : w.id = q.id
      · rw [List.inj_on_of_nodup_map distinct mem hq second, if_pos rfl, if_neg (Ne.symm apart),
          zero_add]
      · rw [if_neg first, if_neg second, add_zero]
        exact nonneg w mem
  have sums := List.sum_le_sum each
  rw [List.sum_map_add, Table.sum_single distinct hs, Table.sum_single distinct hq] at sums
  exact sums

theorem Postable.unrounded (h : b.Postable r d s q t p) (grown : b.Grown)
    (room : b.total r.currency * 10 ^ r.currency.minorUnits < (twoTo 96 : Nat)) :
    p.debit.rounding = 0 ∧ p.credit.rounding = 0 := by
  have hs := wallet?_mem h.sender
  have hq := wallet?_mem h.receiver
  have both := grown.pair_le_total hs hq h.apart r.currency
  have covered :=
    Amount.le_iff_value.mp (TransferRequest.validateAgainst_ok_iff.mp h.allowed).2.2.2
  have positive := Amount.value_nonneg
    (Int.not_lt.mpr (Int.le_of_lt (TransferRequest.amount_positive h.valid)))
  have received := Amount.value_nonneg (grown.owed q hq)
  obtain ⟨x, amount⟩ := TransferRequest.amount_whole h.valid
  obtain ⟨y, sender⟩ := grown.whole s hs
  obtain ⟨z, receiver⟩ := grown.whole q hq
  obtain ⟨sent, gained, debit, credit, -, inS, inQ, rfl⟩ := h.plan_eq
  rw [inS] at sender
  rw [inQ] at receiver
  simp only [Wallet.holds, inS, inQ, if_true] at both
  have units : (0 : ℚ) < 10 ^ r.currency.minorUnits := pow_pos (by norm_num) _
  rw [sender, receiver, ← add_div, div_le_iff₀ units] at both
  rw [sender, amount, div_le_div_iff_of_pos_right units] at covered
  rw [amount, le_div_iff₀ units, zero_mul] at positive
  rw [receiver, le_div_iff₀ units, zero_mul] at received
  have below : ((y + z : Int) : ℚ) < (twoTo 96 : Nat) := by
    push_cast
    exact lt_of_le_of_lt both room
  -- In smallest units everything is a matter of integers.
  have sum : y + z < (twoTo 96 : Nat) := by exact_mod_cast below
  have covered : x ≤ y := by exact_mod_cast covered
  have positive : 0 ≤ x := by exact_mod_cast positive
  have received : 0 ≤ z := by exact_mod_cast received
  have left : s.balance.value + (-r.amount).value =
      ((y - x : Int) : ℚ) / 10 ^ r.currency.minorUnits := by
    rw [sender, Amount.value_neg, amount, Int.cast_sub, sub_div, sub_eq_add_neg]
  have right : q.balance.value + r.amount.value =
      ((z + x : Int) : ℚ) / 10 ^ r.currency.minorUnits := by
    rw [receiver, amount, Int.cast_add, add_div]
  exact ⟨Amount.drift_of_short debit left (by omega), Amount.drift_of_short credit right (by omega)⟩

structure Exact (b : Books) : Prop where
  whole : ∀ w ∈ b.wallets, w.balance.Whole w.currency
  unrounded : ∀ e ∈ b.entries, e.rounding = 0

theorem Postable.unrounded_post (h : b.Postable r d s q t p) (grown : b.Grown)
    (room : b.total r.currency * 10 ^ r.currency.minorUnits < (twoTo 96 : Nat))
    (old : ∀ e ∈ b.entries, e.rounding = 0) : ∀ e ∈ (b.post t p d).entries, e.rounding = 0 := by
  obtain ⟨debit, credit⟩ := h.unrounded grown room
  intro e mem
  rcases List.mem_append.mp mem with mem | mem
  · exact old e mem
  · rcases List.mem_cons.mp mem with rfl | mem
    · exact debit
    · rw [List.mem_singleton.mp mem]
      exact credit

end Books

namespace System
variable {S S' : System}

/-- Fewer smallest units were brought in than an amount can count. -/
def Roomy (S : System) : Prop := ∀ c, S.brought c * 10 ^ c.minorUnits < (twoTo 96 : Nat)

theorem Accounted.total (accounted : S.Accounted) (grown : S.store.books.Grown)
    (exact : S.store.books.Exact) (c : Currency) : S.store.books.total c = S.brought c := by
  have none := grown.sum_adds (fun t _ => Books.rounding_of_entries exact.unrounded t.id) c
  rw [accounted c, none, add_zero]

theorem Step.brought_le (step : S.Step S') (safe : S.Safe) (c : Currency) :
    S.brought c ≤ S'.brought c := by
  cases step with
  | opened supply owner kind opening fresh =>
    rcases openWallet_cases (safe.wallet_new fresh) owner kind opening with
      ⟨e, failed⟩ | ⟨w, -, rfl, opened, owed, -⟩
    · rw [failed, brought_add]
      exact le_of_eq (add_zero _).symm
    · have brings : 0 ≤ (CallState.opened supply.id owner kind w.money (.ok w)).brings c := by
        show 0 ≤ if w.currency = c then w.balance.value else 0
        split
        · exact Amount.value_nonneg owed
        · exact le_refl 0
      rw [opened, brought_add]
      linarith
  | started r =>
    rw [brought_add]
    exact le_of_eq (add_zero _).symm
  | stepped here step fresh => exact le_of_eq (brought_change here c rfl).symm
  | @abandoned i call state here running closed =>
    have none : state.brings c = 0 := by rcases closed with rfl | ⟨limit, rfl⟩ <;> rfl
    exact le_of_eq (brought_change here c none).symm
  | arranged faults => exact le_refl _

theorem Accounted.exact_step (accounted : S.Accounted) (safe : S.Safe) (roomy : S.Roomy)
    (exact : S.store.books.Exact) (step : S.Step S') : S'.store.books.Exact := by
  refine ⟨(safe.step step).grown.whole, ?_⟩
  cases safe.changes step with
  | none same =>
    rw [same]
    exact exact.unrounded
  | opened request returns new books =>
    rw [books]
    exact exact.unrounded
  | @posted i r d s q t p request returns postable new books =>
    have room := roomy r.currency
    rw [← accounted.total safe.grown exact] at room
    rw [books]
    exact postable.unrounded_post safe.grown room exact.unrounded

theorem Roomy.before (roomy : S'.Roomy) (safe : S.Safe) (step : S.Step S') : S.Roomy := by
  intro c
  have less := mul_le_mul_of_nonneg_right (step.brought_le safe c)
    (pow_nonneg (by norm_num : (0 : ℚ) ≤ 10) c.minorUnits)
  exact lt_of_le_of_lt less (roomy c)

theorem Reachable.exact (h : S.Reachable) (roomy : S.Roomy) : S.store.books.Exact := by
  induction h with
  | start => exact ⟨fun _ => List.not_mem_nil.elim, fun _ => List.not_mem_nil.elim⟩
  | next before h ih =>
    have step := step_of_next? h
    have earlier := roomy.before before.safe step
    exact before.accounted.exact_step before.safe earlier (ih earlier) step

/-- Money is conserved as long as fewer smallest units were brought in than an amount can count. -/
theorem Reachable.conserved_of_roomy (h : S.Reachable) (roomy : S.Roomy) : S.Conserved :=
  h.conserved_of_cancels fun t _ => Books.rounding_of_entries (h.exact roomy).unrounded t.id

end System

end WalletLedger
