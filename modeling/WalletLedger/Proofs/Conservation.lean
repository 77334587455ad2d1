import Mathlib.Algebra.BigOperators.Group.List.Basic
import Mathlib.Data.List.Nodup
import WalletLedger.Proofs.Once
import WalletLedger.Proofs.Value

/-!
Conservation of money, as far as it goes. The balances in a currency add up to what was brought in
and to what the entries have changed. The two entries of a transfer cancel out except for digits
that a new balance had to give up, so money is conserved in a state if and only if these cancel out
in every transfer.
-/
namespace WalletLedger

namespace EntryDraft
variable {e : EntryDraft}

def change (e : EntryDraft) : ℚ := e.after.value - e.before.value

/-- What the balance gains beside the amount, because amounts cannot write the exact balance. -/
def rounding (e : EntryDraft) : ℚ := e.before.drift e.signedAmount

theorem add?_signedAmount (e : EntryDraft) :
    e.kind.apply e.before e.amount = e.before.add? e.signedAmount := by
  unfold signedAmount
  cases e.kind <;> rfl

theorem change_eq (link : e.kind.apply e.before e.amount = some e.after) :
    e.change = e.signedAmount.value + e.rounding := by
  have after := Amount.value_of_add? (e.add?_signedAmount.symm.trans link)
  rw [change, rounding, after]
  ring

theorem rounding_eq_zero_iff (link : e.kind.apply e.before e.amount = some e.after) :
    e.rounding = 0 ↔ Amount.Representable (e.before.value + e.signedAmount.value) :=
  Amount.drift_eq_zero_iff (e.add?_signedAmount.symm.trans link)

end EntryDraft

theorem Transaction.Posting.signed {t : Transaction} {debit credit : Entry}
    (h : t.Posting debit credit) : debit.signedAmount.value + credit.signedAmount.value = 0 := by
  have taken : debit.signedAmount = -t.amount := by
    rw [EntryDraft.signedAmount, h.debited.1, h.debited.2.2.1]
  have given : credit.signedAmount = t.amount := by
    rw [EntryDraft.signedAmount, h.credited.1, h.credited.2.2.1]
  rw [taken, given, Amount.value_neg, neg_add_cancel]

namespace TransferPlan
variable {p : TransferPlan} {debit credit : EntryId} {t : Transaction} {s q : Wallet}

def Balanced (p : TransferPlan) : Prop :=
  p.senderBalance.value + p.receiverBalance.value = p.debit.before.value + p.credit.before.value

def ofEntries (debit credit : Entry) : TransferPlan :=
  ⟨debit.toEntryDraft, credit.toEntryDraft, debit.after, credit.after⟩

theorem netChange?_of_balanced
    (owed : ¬p.debit.before.IsNegative ∧ ¬p.credit.before.IsNegative ∧
      ¬p.senderBalance.IsNegative ∧ ¬p.receiverBalance.IsNegative)
    (balanced : p.Balanced) : ∃ n, p.netChange? = some n ∧ n.IsZero := by
  obtain ⟨sender, receiver, left, grown⟩ := owed
  obtain ⟨received, gain⟩ := Amount.sub?_some grown receiver
  obtain ⟨sent, loss⟩ := Amount.sub?_some left sender
  have opposite : p.senderBalance.value + (-p.debit.before).value =
      (-p.receiverBalance).value + (-(-p.credit.before)).value := by
    simp only [Balanced] at balanced
    simp only [Amount.value_neg]
    linarith
  have values : (p.senderBalance.sub? p.debit.before).map Amount.value =
      ((p.receiverBalance.sub? p.credit.before).map Amount.value).map fun x => -x :=
    (Amount.add?_congr opposite).trans (Amount.add?_neg _ _)
  rw [loss, gain, Option.map_some, Option.map_some, Option.map_some] at values
  have cancels : received.value + sent.value = 0 := by
    rw [Option.some.inj values, add_neg_cancel]
  have zero : Amount.zero.value = 0 := Amount.value_of_isZero rfl
  obtain ⟨n, sum, value⟩ := Amount.add?_exact ⟨Amount.zero, zero.trans cancels.symm⟩
  refine ⟨n, ?_, Amount.isZero_of_value (value.trans cancels)⟩
  simp only [netChange?, gain, loss, bind, Option.bind, sum]

theorem balanced_iff (h : planTransfer debit credit t s q = .ok p) :
    p.Balanced ↔ s.balance.drift (-t.amount) + q.balance.drift t.amount = 0 := by
  obtain ⟨sent, received, taken, given, -, -, -, rfl⟩ := planTransfer_ok h
  have left := Amount.value_of_add? taken
  have grown := Amount.value_of_add? given
  rw [Amount.value_neg] at left
  simp only [Balanced]
  constructor
  · intro balanced
    linarith
  · intro cancels
    linarith

theorem netChange?_of_planned (h : planTransfer debit credit t s q = .ok p)
    (sender : ¬s.balance.IsNegative) (receiver : ¬q.balance.IsNegative)
    (positive : t.amount.IsPositive) (balanced : p.Balanced) :
    ∃ n, p.netChange? = some n ∧ n.IsZero := by
  obtain ⟨sent, received, -, given, left, -, -, rfl⟩ := planTransfer_ok h
  have grown := Amount.add?_not_negative given receiver (Int.not_lt.mpr (Int.le_of_lt positive))
  exact netChange?_of_balanced ⟨sender, receiver, left, grown⟩ balanced

end TransferPlan

theorem Table.sum_single {κ ρ : Type} [DecidableEq κ] {key : ρ → κ} {rows : List ρ} {row : ρ}
    (distinct : (rows.map key).Nodup) (mem : row ∈ rows) (x : ℚ) :
    (rows.map fun r => if key r = key row then x else 0).sum = x := by
  have others : ((rows.filter fun r => ¬key r = key row).map fun _ => (0 : ℚ)).sum = 0 := by
    apply List.sum_eq_zero
    intro y there
    obtain ⟨r, -, same⟩ := List.mem_map.mp there
    exact same.symm
  rw [List.sum_map_ite, filter_of_mem distinct mem, others, List.map_singleton,
    List.sum_singleton, add_zero]

namespace Entry

def adds (e : Entry) (c : Currency) : ℚ := if e.currency = c then e.change else 0

structure Booked (e : Entry) : Prop where
  linked : e.kind.apply e.before e.amount = some e.after
  before : ¬e.before.IsNegative
  after : ¬e.after.IsNegative

end Entry

def Wallet.holds (w : Wallet) (c : Currency) : ℚ := if w.currency = c then w.balance.value else 0

namespace Books
variable {b : Books} {r : TransferRequest} {d : Draw} {s q w : Wallet} {t : Transaction}
  {p : TransferPlan}

def total (b : Books) (c : Currency) : ℚ := (b.wallets.map (·.holds c)).sum

def rounding (b : Books) (id : TransactionId) : ℚ := ((b.entriesOf id).map (·.rounding)).sum

theorem rounding_of_entries (none : ∀ e ∈ b.entries, e.rounding = 0) (id : TransactionId) :
    b.rounding id = 0 := by
  apply List.sum_eq_zero
  intro x there
  obtain ⟨e, known, rfl⟩ := List.mem_map.mp there
  exact none e (List.mem_of_mem_filter known)

theorem total_withWallet (c : Currency) : (b.withWallet w).total c = b.total c + w.holds c := by
  simp only [total, withWallet, List.map_append, List.sum_append, List.map_singleton,
    List.sum_singleton]

theorem Postable.booked (h : b.Postable r d s q t p)
    (owed : ∀ w ∈ b.wallets, ¬w.balance.IsNegative) :
    (p.debit.recordedAt d.debited).Booked ∧ (p.credit.recordedAt d.credited).Booked := by
  obtain ⟨left, grown⟩ := h.balances_owed owed
  have sender := owed s (wallet?_mem h.sender)
  have receiver := owed q (wallet?_mem h.receiver)
  obtain ⟨sent, received, debit, credit, -, -, -, rfl⟩ := h.plan_eq
  exact ⟨⟨debit, sender, left⟩, ⟨credit, receiver, grown⟩⟩

theorem Grown.entries_booked (h : b.Grown) : ∀ e ∈ b.entries, e.Booked := by
  induction h with
  | empty => exact fun _ => List.not_mem_nil.elim
  | opened old new owed scaled free ih => exact ih
  | @posted b r d s q t p old postable new ih =>
    obtain ⟨debit, credit⟩ := postable.booked old.owed
    intro e mem
    rcases List.mem_append.mp mem with mem | mem
    · exact ih e mem
    · rcases List.mem_cons.mp mem with rfl | mem
      · exact debit
      · exact List.mem_singleton.mp mem ▸ credit

theorem Postable.holds_posted (h : b.Postable r d s q t p) (c : Currency) :
    (s.posted p d.committed).holds c = s.holds c + (p.debit.recordedAt d.debited).adds c ∧
      (q.posted p d.committed).holds c = q.holds c + (p.credit.recordedAt d.credited).adds c := by
  rw [h.posted_sender, h.posted_receiver]
  obtain ⟨sent, received, -, -, -, sent_in, received_in, rfl⟩ := h.plan_eq
  have gains : ∀ old new : Amount, (if r.currency = c then new.value else 0) =
      (if r.currency = c then old.value else 0) +
        if r.currency = c then new.value - old.value else 0 := by
    intro old new
    split
    · ring
    · rw [add_zero]
  simp only [Wallet.holds, sent_in, received_in]
  exact ⟨gains s.balance sent, gains q.balance received⟩

theorem Postable.total_post (h : b.Postable r d s q t p) (grown : b.Grown) (c : Currency) :
    (b.post t p d).total c = b.total c +
      ((p.debit.recordedAt d.debited).adds c + (p.credit.recordedAt d.credited).adds c) := by
  obtain ⟨sent, received⟩ := h.holds_posted c
  have each : ∀ w ∈ b.wallets, (w.posted p d.committed).holds c = w.holds c +
      ((if w.id = s.id then (p.debit.recordedAt d.debited).adds c else 0) +
        (if w.id = q.id then (p.credit.recordedAt d.credited).adds c else 0)) := by
    intro w mem
    rcases h.posted_cases grown mem d.committed with ⟨rfl, -⟩ | ⟨rfl, -⟩ | ⟨first, second, same⟩
    · rw [if_pos rfl, if_neg h.apart, add_zero, sent]
    · rw [if_neg h.apart.symm, if_pos rfl, zero_add, received]
    · rw [same, wallet?_id h.sender, wallet?_id h.receiver, if_neg first, if_neg second, add_zero,
        add_zero]
  have split : (b.post t p d).total c = (b.wallets.map fun w => w.holds c +
      ((if w.id = s.id then (p.debit.recordedAt d.debited).adds c else 0) +
        (if w.id = q.id then (p.credit.recordedAt d.credited).adds c else 0))).sum := by
    rw [total, post, List.map_map]
    exact congrArg List.sum (List.map_congr_left each)
  rw [split, List.sum_map_add, List.sum_map_add,
    Table.sum_single grown.wallets_distinct (wallet?_mem h.sender),
    Table.sum_single grown.wallets_distinct (wallet?_mem h.receiver), total]

theorem Grown.sum_entries (h : b.Grown) (f : Entry → ℚ) :
    (b.entries.map f).sum = (b.transactions.map fun t => ((b.entriesOf t.id).map f).sum).sum := by
  induction h with
  | empty => rfl
  | opened old new owed scaled free ih => exact ih
  | @posted b r d s q t p old postable new ih =>
    have others : ∀ u ∈ b.transactions, (((b.post t p d).entriesOf u.id).map f).sum =
        ((b.entriesOf u.id).map f).sum := by
      intro u mem
      have other : t.id ≠ u.id := fun same => Table.find?_none_iff.mp new u mem same.symm
      rw [postable.entriesOf_old other]
    have last : ((b.post t p d).entriesOf (t.withStatus .completed d.completed).id) =
        [p.debit.recordedAt d.debited, p.credit.recordedAt d.credited] :=
      postable.entriesOf_new old new
    show ((b.entries ++ [p.debit.recordedAt d.debited, p.credit.recordedAt d.credited]).map f).sum =
      ((b.transactions ++ [t.withStatus .completed d.completed]).map fun u =>
        (((b.post t p d).entriesOf u.id).map f).sum).sum
    rw [List.map_append, List.sum_append, ih, List.map_append, List.sum_append,
      List.map_congr_left others, List.map_singleton, List.sum_singleton, last]

/-- What the entries of a transaction change in all is what their roundings leave. -/
theorem Grown.pair_balanced (grown : b.Grown) (mem : t ∈ b.transactions) : ∃ debit credit,
    b.entriesOf t.id = [debit, credit] ∧ t.Posting debit credit ∧ debit.Booked ∧ credit.Booked ∧
      debit.change + credit.change = b.rounding t.id := by
  obtain ⟨debit, credit, entries, posting⟩ := grown.postings t mem
  have known : ∀ e ∈ [debit, credit], e.Booked := by
    intro e there
    exact grown.entries_booked e (List.mem_of_mem_filter (entries ▸ there))
  have first := known debit (by simp)
  have second := known credit (by simp)
  refine ⟨debit, credit, entries, posting, first, second, ?_⟩
  have signed := posting.signed
  have rounding : b.rounding t.id = debit.rounding + credit.rounding := by
    simp [Books.rounding, entries]
  rw [EntryDraft.change_eq first.linked, EntryDraft.change_eq second.linked, rounding]
  linarith

/-- Where the roundings of every transfer cancel out, the entries add nothing to any currency. -/
theorem Grown.sum_adds (grown : b.Grown) (cancels : ∀ t ∈ b.transactions, b.rounding t.id = 0)
    (c : Currency) : (b.entries.map (·.adds c)).sum = 0 := by
  rw [grown.sum_entries]
  apply List.sum_eq_zero
  intro x mem
  obtain ⟨t, there, rfl⟩ := List.mem_map.mp mem
  obtain ⟨debit, credit, entries, posting, -, -, balanced⟩ := grown.pair_balanced there
  rw [cancels t there] at balanced
  have debited : debit.adds c = if t.currency = c then debit.change else 0 := by
    rw [Entry.adds, posting.debited.2.2.2]
  have credited : credit.adds c = if t.currency = c then credit.change else 0 := by
    rw [Entry.adds, posting.credited.2.2.2]
  have pair : ((b.entriesOf t.id).map (·.adds c)).sum = debit.adds c + credit.adds c := by
    simp [entries]
  rw [pair, debited, credited]
  split
  · exact balanced
  · exact add_zero 0

end Books

def CallState.brings (s : CallState) (c : Currency) : ℚ :=
  match s with
  | opened _ _ _ opening (.ok _) => if opening.currency = c then opening.amount.value else 0
  | opened _ _ _ _ (.error _) | transfer _ | dropped _ => 0

namespace System
variable {S S' : System} {i : CallId} {call : TransferCall} {state : CallState} {store : Store}
  {ids : List Identifier}

def brought (S : System) (c : Currency) : ℚ := (S.calls.map (·.state.brings c)).sum

/-- The total of a currency is what was brought in and what the entries have changed. -/
def Accounted (S : System) : Prop :=
  ∀ c, S.store.books.total c = S.brought c + (S.store.books.entries.map (·.adds c)).sum

theorem brought_add (c : Currency) :
    (S.add state store ids).brought c = S.brought c + state.brings c := by
  simp only [brought, add, List.map_append, List.sum_append, List.map_singleton, List.sum_singleton]
  rfl

theorem brought_change (here : S.transfer? i = some call) (c : Currency)
    (none : state.brings c = 0) : (S.change i state store ids).brought c = S.brought c := by
  obtain ⟨x, found, running⟩ := call_of_transfer? here
  have same : (S.change i state store ids).calls.map (·.state.brings c) =
      S.calls.map (·.state.brings c) := by
    apply List.ext_getElem?
    intro j
    rw [List.getElem?_map, List.getElem?_map, calls_change]
    by_cases focus : i = j
    · cases focus
      have idle : x.state.brings c = 0 := by rw [running]; rfl
      rw [if_pos rfl, found, Option.map_some, Option.map_some, Option.map_some, idle]
      exact congrArg some none
    · rw [if_neg focus]
  rw [brought, same, brought]

theorem Accounted.opened (accounted : S.Accounted) (safe : S.Safe) (supply : Supply)
    (owner : UserId) (kind : WalletKind) (opening : Money) (fresh : supply.id ∉ S.drawn) :
    (S.openWallet supply owner kind opening).Accounted := by
  intro c
  rcases openWallet_cases (safe.wallet_new fresh) owner kind opening with
    ⟨e, failed⟩ | ⟨w, -, rfl, opened, -⟩
  · rw [failed, brought_add]
    show S.store.books.total c = S.brought c + 0 + (S.store.books.entries.map (·.adds c)).sum
    rw [add_zero]
    exact accounted c
  · rw [opened, brought_add]
    show (S.store.books.withWallet w).total c =
      S.brought c + w.holds c + (S.store.books.entries.map (·.adds c)).sum
    rw [Books.total_withWallet, accounted c, add_right_comm]

theorem Accounted.step (accounted : S.Accounted) (safe : S.Safe) (step : S.Step S') :
    S'.Accounted := by
  cases step with
  | opened supply owner kind opening fresh =>
    exact accounted.opened safe supply owner kind opening fresh
  | started r =>
    intro c
    rw [brought_add]
    exact (accounted c).trans (congrArg (· + _) (add_zero _).symm)
  | @stepped i call call' store supply supply' here step fresh =>
    intro c
    rw [brought_change here c rfl]
    show store.books.total c = S.brought c + (store.books.entries.map (·.adds c)).sum
    cases (safe.moves here step fresh).1 with
    | @posted u d t p before staged writing books after =>
      obtain ⟨s, q, postable⟩ := writing.postable
      have entries : store.books.entries = S.store.books.entries ++
          [p.debit.recordedAt d.debited, p.credit.recordedAt d.credited] :=
        congrArg Books.entries books
      rw [books, postable.total_post safe.grown, accounted c, ← books, entries, List.map_append,
        List.sum_append, add_assoc]
      simp
    | working same | struck same | settled same | returned same => rw [same, accounted c]
  | @abandoned i call state here running closed =>
    intro c
    have none : state.brings c = 0 := by rcases closed with rfl | ⟨limit, rfl⟩ <;> rfl
    rw [brought_change here c none]
    show (call.abandon S.store).books.total c = _ + ((call.abandon S.store).books.entries.map _).sum
    rw [(call.abandon_cases S.store).1, accounted c]
  | arranged faults => exact accounted

theorem Reachable.accounted (h : S.Reachable) : S.Accounted := by
  induction h with
  | start => exact fun _ => (add_zero 0).symm
  | next before h ih => exact ih.step before.safe (step_of_next? h)

/-- Money is conserved: in every currency, and exactly, in every transfer. -/
structure Conserved (S : System) : Prop where
  totals : ∀ c, S.store.books.total c = S.brought c
  pairs : ∀ t ∈ S.store.books.transactions, ∃ debit credit,
    S.store.books.entriesOf t.id = [debit, credit] ∧ t.Posting debit credit ∧
    debit.after.value + credit.after.value = debit.before.value + credit.before.value ∧
    ∃ n, (TransferPlan.ofEntries debit credit).netChange? = some n ∧ n.IsZero

theorem Reachable.conserved_of_cancels (h : S.Reachable)
    (cancels : ∀ t ∈ S.store.books.transactions, S.store.books.rounding t.id = 0) :
    S.Conserved := by
  have grown := h.safe.grown
  constructor
  · intro c
    rw [h.accounted c, grown.sum_adds cancels, add_zero]
  · intro t mem
    obtain ⟨debit, credit, entries, posting, first, second, balanced⟩ := grown.pair_balanced mem
    rw [cancels t mem] at balanced
    simp only [EntryDraft.change] at balanced
    have sums : debit.after.value + credit.after.value =
        debit.before.value + credit.before.value := by linarith
    exact ⟨debit, credit, entries, posting, sums, TransferPlan.netChange?_of_balanced
      ⟨first.before, second.before, first.after, second.after⟩ sums⟩

/-- Money is conserved in a state if and only if, in every transfer so far, the digits that the two
new balances gave up cancel out. They give up none where amounts can write the exact balances. What
holds of the transfers so far, holds of every other plan for the wallets there are. -/
theorem Reachable.conserved_iff (h : S.Reachable) :
    (S.Conserved ↔ ∀ t ∈ S.store.books.transactions, S.store.books.rounding t.id = 0) ∧
      ((∀ e ∈ S.store.books.entries,
        Amount.Representable (e.before.value + e.signedAmount.value)) → S.Conserved) ∧
      ∀ s ∈ S.store.books.wallets, ∀ q ∈ S.store.books.wallets, ∀ t debit credit p,
        t.amount.IsPositive → planTransfer debit credit t s q = .ok p →
        (p.Balanced ↔ s.balance.drift (-t.amount) + q.balance.drift t.amount = 0) ∧
        (p.Balanced → ∃ n, p.netChange? = some n ∧ n.IsZero) := by
  have grown := h.safe.grown
  refine ⟨⟨fun conserved t mem => ?_, h.conserved_of_cancels⟩, fun exact => ?_, ?_⟩
  · obtain ⟨debit, credit, entries, -, sums, -⟩ := conserved.pairs t mem
    obtain ⟨debit', credit', entries', -, -, -, balanced⟩ := grown.pair_balanced mem
    cases entries.symm.trans entries'
    rw [← balanced]
    simp only [EntryDraft.change]
    linarith
  · refine h.conserved_of_cancels fun t _ => Books.rounding_of_entries (fun e mem => ?_) t.id
    exact (EntryDraft.rounding_eq_zero_iff (grown.entries_booked e mem).linked).mpr (exact e mem)
  · intro s sender q receiver t debit credit p positive planned
    exact ⟨TransferPlan.balanced_iff planned, TransferPlan.netChange?_of_planned planned
      (grown.owed s sender) (grown.owed q receiver) positive⟩

theorem conserved_race : ∃ S, ({} : System).run? race = some S ∧
    S.store.books.entries.length = 2 ∧ S.Conserved := by
  obtain ⟨S, ran⟩ := Option.isSome_iff_exists.mp race_runs
  let sent : Amount := ⟨7000, 2, by decide, by decide⟩
  let received : Amount := ⟨3000, 2, by decide, by decide⟩
  have rows : (({} : System).run? race).map (·.store.books.entries.map fun e =>
      (e.before, e.signedAmount)) =
      some [(⟨10000, 2, by decide, by decide⟩, -received),
        (⟨0, 2, by decide, by decide⟩, received)] := by
    decide +kernel
  rw [ran, Option.map_some, Option.some_inj] at rows
  have two := congrArg List.length rows
  rw [List.length_map] at two
  refine ⟨S, ran, two, (reachable_run .start ran).conserved_iff.2.1 fun e mem => ?_⟩
  have row : (e.before, e.signedAmount) ∈ S.store.books.entries.map fun e =>
      (e.before, e.signedAmount) := List.mem_map.mpr ⟨e, mem, rfl⟩
  rw [rows] at row
  rcases List.mem_cons.mp row with row | row
  · obtain ⟨before, signed⟩ := Prod.mk.inj row
    rw [before, signed, Amount.value_neg]
    exact ⟨sent, by norm_num [sent, received, Amount.value]⟩
  · obtain ⟨before, signed⟩ := Prod.mk.inj (List.mem_singleton.mp row)
    rw [before, signed]
    exact ⟨received, by norm_num [received, Amount.value]⟩

/-- One cent is taken from a dollar and given to a balance that has no room for cents. -/
def coarse : List Event :=
  let supply (id : Nat) : Supply := ⟨id, .epoch⟩
  let amount (coefficient : Int) (scale : Nat) : Amount :=
    (Amount.ofParts? coefficient scale).getD .zero
  [.openWallet (supply 1) (.ofNat 7) .savings ⟨amount 100 2, .usd⟩,
    .openWallet (supply 2) (.ofNat 8) .savings ⟨amount 70000000000000000000000000000 0, .usd⟩,
    .startTransfer ⟨.ofNat 1, .ofNat 2, amount 1 2, .usd, .transfer, none, ⟨"tip"⟩⟩] ++
  .replicate 13 (.step 2 (supply 3))

theorem conserved_fails : ∃ S, ({} : System).run? coarse = some S ∧
    S.store.books.total .usd = S.brought .usd - 1 / 100 ∧ ¬S.Conserved := by
  have runs : (({} : System).run? coarse).isSome := by decide +kernel
  obtain ⟨S, ran⟩ := Option.isSome_iff_exists.mp runs
  let heap : Amount := ⟨70000000000000000000000000000, 0, by decide, by decide⟩
  have rows : (({} : System).run? coarse).map (·.store.books.entries.map fun e =>
      (e.currency, e.before, e.after)) =
      some [(.usd, ⟨100, 2, by decide, by decide⟩, ⟨99, 2, by decide, by decide⟩),
        (.usd, heap, heap)] := by
    decide +kernel
  rw [ran, Option.map_some, Option.some_inj] at rows
  have shares : (S.store.books.entries.map (·.adds .usd)).sum =
      ((S.store.books.entries.map fun e => (e.currency, e.before, e.after)).map fun row =>
        if row.1 = .usd then row.2.2.value - row.2.1.value else 0).sum := by
    rw [List.map_map]
    rfl
  have lost : (S.store.books.entries.map (·.adds .usd)).sum = -(1 / 100) := by
    rw [shares, rows]
    norm_num [Amount.value]
  have total := (reachable_run .start ran).accounted .usd
  rw [lost, ← sub_eq_add_neg] at total
  refine ⟨S, ran, total, fun conserved => ?_⟩
  have same := conserved.totals .usd
  linarith

end System

end WalletLedger
