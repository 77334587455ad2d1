import WalletLedger.Proofs.Deadlock
import WalletLedger.Proofs.Posting
import WalletLedger.Proofs.Serial
import WalletLedger.Session.Call

/-!
What becomes of a transfer that has the ledger for itself. Everything that can end it without a
write stands in one table, each finding on its own, whatever else is true of the request or of the
books. The first finding that applies is the answer; where none applies, the transfer is made.
-/
namespace WalletLedger

/-- What can be wrong with a request in itself, in the order in which it is reported. -/
def TransferRequest.flaws (r : TransferRequest) : List (Option LedgerError) :=
  let scale := r.amount.normalize.scale
  [if r.amount.IsPositive then none else some (.nonPositiveAmount r.amount),
    if r.currency.minorUnits < scale then
      some (.invalidAmount (.excessPrecision r.currency r.currency.minorUnits scale)) else none,
    if blankText r.key.text then some (.invalidKey "key must not be blank") else none,
    if 255 < r.key.text.utf8ByteSize then some (.invalidKey "key longer than 255 bytes") else none,
    if r.sender = r.receiver then some (.sameWallet r.sender) else none]

theorem TransferRequest.validate_flaws (r : TransferRequest) :
    r.validate = match r.flaws.findSome? id with
      | some e => .error e
      | none => .ok () := by
  have scaled : r.money.checkScale = if r.currency.minorUnits < r.amount.normalize.scale then
      .error (.excessPrecision r.currency r.currency.minorUnits r.amount.normalize.scale)
      else .ok () := rfl
  have keyed : IdempotencyKey.check r.key.text =
      if blankText r.key.text then .error (.invalidKey "key must not be blank")
      else if 255 < r.key.text.utf8ByteSize then .error (.invalidKey "key longer than 255 bytes")
      else .ok r.key := rfl
  rw [validate_eq, scaled, keyed]
  simp only [flaws, List.findSome?_cons, List.findSome?_nil, id]
  split_ifs <;> rfl

namespace Books

/-- What can be found in the books that ends a transfer, in the order in which it counts. -/
def findings (b : Books) (r : TransferRequest) : List (Option TransferResult) :=
  let mismatch (w : Wallet) : Option TransferResult :=
    if w.currency = r.currency then none
    else some (.error (.currencyMismatch w.id r.currency w.currency))
  [if (b.wallet? r.sender).isNone then some (.error (.walletNotFound r.sender)) else none,
    if (b.wallet? r.receiver).isNone then some (.error (.walletNotFound r.receiver)) else none,
    (Table.find? (·.key) r.key b.transactions).map fun t => .ok (.replayed t),
    (b.wallet? r.sender).bind mismatch,
    (b.wallet? r.receiver).bind mismatch,
    (b.wallet? r.sender).bind fun s => if r.amount ≤ s.balance then none
      else some (.error (.insufficientFunds s.id s.balance r.amount)),
    (b.wallet? r.receiver).bind fun q => if (q.balance.add? r.amount).isSome then none
      else some (.error (.invalidAmount .overflow))]

def verdict? (b : Books) (r : TransferRequest) : Option TransferResult :=
  let reported (e : LedgerError) : TransferResult := .error e
  (r.flaws.map (·.map reported) ++ b.findings r).findSome? id

/-- All that a transfer from `s` to `q` changes in the books: the two balances, one completed
transaction that its key leads to, and a debit and a credit for it. -/
structure Carried (b : Books) (r : TransferRequest) (t : Transaction) (s q : Wallet)
    (sent received : Amount) (b' : Books) : Prop where
  sender : b.wallet? r.sender = some s
  receiver : b.wallet? r.receiver = some q
  taken : s.balance.sub? r.amount = some sent
  given : q.balance.add? r.amount = some received
  request : t.toTransferRequest = r
  completed : t.status = .completed
  new : b.transaction? t.id = none
  wallets : ∃ now, b'.wallets = b.wallets.map fun w =>
    if w.id = r.sender then { w with balance := sent, updatedAt := now }
    else if w.id = r.receiver then { w with balance := received, updatedAt := now }
    else w
  owners : b'.owners = b.owners
  transactions : b'.transactions = b.transactions ++ [t]
  keys : b'.keys = b.keys ++ [(r.key, t.id)]
  entries : ∃ debit credit, b'.entries = b.entries ++ [debit, credit] ∧
    debit.toEntryDraft =
      ⟨debit.id, r.sender, t.id, r.amount, .debit, r.currency, s.balance, sent⟩ ∧
    credit.toEntryDraft =
      ⟨credit.id, r.receiver, t.id, r.amount, .credit, r.currency, q.balance, received⟩

/-- The transfer ends with the first thing that is in its way, and leaves the books alone; or
nothing is in its way, and it is made. -/
def Decides (b : Books) (r : TransferRequest) (x : TransferResult) (b' : Books) : Prop :=
  match b.verdict? r with
  | some y => x = y ∧ b' = b
  | none => ∃ t s q sent received, x = .ok (.created t) ∧ b.Carried r t s q sent received b'

variable {b : Books} {r : TransferRequest} {d : Draw} {s q : Wallet} {t : Transaction}
  {p : TransferPlan} {x : TransferResult} {key : IdempotencyKey} {b' : Books}

theorem verdict?_eq (b : Books) (r : TransferRequest) :
    b.verdict? r = match r.validate with
      | .error e => some (.error e)
      | .ok () => (b.findings r).findSome? id := by
  have flaws : ∀ reported : LedgerError → TransferResult,
      (r.flaws.map (·.map reported)).findSome? id = (r.flaws.findSome? id).map reported := by
    intro reported
    rw [List.findSome?_map, List.map_findSome?]
    rfl
  rw [verdict?, List.findSome?_append, flaws, r.validate_flaws]
  cases r.flaws.findSome? id <;> rfl

theorem Grown.transactionByKey?_eq (grown : b.Grown) :
    b.transactionByKey? key = Table.find? (·.key) key b.transactions := by
  cases found : Table.find? (·.key) key b.transactions with
  | none =>
    rw [grown.transactionByKey?_none_iff, grown.hasKey_false_iff]
    exact Table.find?_none_iff.mp found
  | some t => exact grown.transactionByKey?_iff.mpr (Table.find?_mem found)

theorem Answers.verdict (answers : b.Answers r x) (grown : b.Grown) : b.verdict? r = some x := by
  have keyed : b.transactionByKey? r.key = _ := grown.transactionByKey?_eq
  cases answers with
  | invalid invalid => rw [verdict?_eq, invalid]
  | noSender valid unknown => simp [verdict?_eq, valid, findings, unknown]
  | noReceiver valid sender unknown => simp [verdict?_eq, valid, findings, sender, unknown]
  | replayed valid sender receiver found =>
    rw [keyed] at found
    simp [verdict?_eq, valid, findings, sender, receiver, found]
  | refused valid sender receiver absent refused =>
    rw [keyed] at absent
    rw [TransferRequest.validateAgainst_eq, if_neg (apart_of_valid valid sender receiver)] at refused
    split_ifs at refused with inS inQ covered <;> cases refused
    · simp [verdict?_eq, valid, findings, sender, receiver, absent, inS]
    · simp [verdict?_eq, valid, findings, sender, receiver, absent, not_not.mp inS, inQ]
    · simp [verdict?_eq, valid, findings, sender, receiver, absent, not_not.mp inS, not_not.mp inQ,
        covered]

theorem Allows.verdict (allows : b.Allows r s q) (grown : b.Grown) : b.verdict? r =
    if (q.balance.add? r.amount).isSome then none else some (.error (.invalidAmount .overflow)) := by
  obtain ⟨-, inS, inQ, covered⟩ := TransferRequest.validateAgainst_ok_iff.mp allows.allowed
  have absent := allows.absent
  rw [grown.transactionByKey?_eq] at absent
  simp [verdict?_eq, allows.valid, findings, allows.sender, allows.receiver, absent, inS, inQ,
    covered]

theorem Postable.carried (h : b.Postable r d s q t p) (new : b.transaction? t.id = none) :
    ∃ sent received, b.Carried r (t.withStatus .completed d.completed) s q sent received
      (b.post t p d) := by
  have request : t.toTransferRequest = r := by rw [h.pending]; rfl
  have keys : (b.post t p d).keys = b.keys ++ [(r.key, t.id)] := by rw [← h.key_eq]; rfl
  obtain ⟨sent, received, taken, given, -, -, -, rfl⟩ := h.plan_eq
  exact ⟨sent, received, h.sender, h.receiver, taken, given, request, rfl, new,
    ⟨d.committed, rfl⟩, rfl, rfl, keys, _, _, rfl, rfl, rfl⟩

/-- In one step, a transfer comes to what the table says. -/
theorem Grown.transfer_decides (grown : b.Grown) (suits : (Request.transfer r).Suits b d)
    (result : b.transfer r d = (x, b')) : b.Decides r x b' := by
  rcases b.answers_or_allows r with ⟨y, answers⟩ | ⟨s, q, allows⟩
  · cases (answers.transfer d).symm.trans result
    rw [Decides, answers.verdict grown]
    exact ⟨rfl, rfl⟩
  · obtain ⟨-, inS, inQ, covered⟩ := TransferRequest.validateAgainst_ok_iff.mp allows.allowed
    have positive := TransferRequest.amount_positive allows.valid
    obtain ⟨sent, taken⟩ := Amount.sub?_some (grown.owed s (wallet?_mem allows.sender))
      (Int.not_lt.mpr (Int.le_of_lt positive))
    have left : ¬sent.IsNegative := fun owed => (Amount.sub?_isNegative_iff taken).mp owed covered
    rw [Decides, allows.verdict grown]
    cases given : q.balance.add? r.amount with
    | none =>
      have settled : b.settle r d = .reject (.invalidAmount .overflow) :=
        settle_unplanned allows.valid allows.sender allows.receiver allows.absent allows.allowed
          (planTransfer_full inS inQ taken left given)
      simp only [Books.transfer, settled] at result
      cases result
      exact ⟨rfl, rfl⟩
    | some received =>
      have postable : b.Postable r d s q _ _ := ⟨allows.valid, allows.sender, allows.receiver,
        grown.transactionByKey?_none_iff.mp allows.absent, allows.allowed, rfl,
        planTransfer_made inS inQ taken left given⟩
      cases (transfer_postable postable).symm.trans result
      obtain ⟨sent, received, carried⟩ := postable.carried (suits _ _ (settle_postable postable))
      exact ⟨_, s, q, sent, received, rfl, carried⟩

end Books

namespace Session
variable {s : Session} {c : TransferCall} {r : TransferRequest} {x : TransferResult}
  {store : Store}

theorem enqueue_all (ids : List TaskId) (s : Session) :
    ∃ ready, ids.foldl enqueue s = { s with ready := ready } := by
  induction ids generalizing s with
  | nil => exact ⟨s.ready, rfl⟩
  | cons id ids ih =>
    obtain ⟨ready, same⟩ := ih (s.enqueue id)
    refine ⟨ready, same.trans ?_⟩
    unfold enqueue
    split <;> rfl

/-- A session drives a call to the end that it comes to by itself. -/
theorem drive_finish (h : c.finish s.store s.supply = some (x, store)) :
    (s.drive c).1.result? = some x ∧ (s.drive c).2.store = store ∧
      (s.drive c).2.tasks = s.tasks := by
  fun_induction drive s c with
  | case1 s c closed =>
    unfold TransferCall.finish at h
    split at h
    · obtain ⟨y, result, same⟩ := Option.map_eq_some_iff.mp h
      cases same
      exact ⟨result, rfl, rfl⟩
    · rename_i step
      rw [closed] at step
      contradiction
  | case2 s c c' store' supply' step ih =>
    obtain ⟨ready, woken⟩ :
        ∃ ready, s.withStore store' = { s with store := store', ready := ready } :=
      enqueue_all _ _
    rw [woken] at ih ⊢
    unfold TransferCall.finish at h
    split at h
    · rename_i closed
      rw [step] at closed
      contradiction
    · rename_i again
      cases step.symm.trans again
      exact ih h

theorem settle_store (idle : s.tasks = []) : s.settle.store = s.store := by
  have rest : ∀ n (s : Session), s.tasks = [] → (settleWithin n s).store = s.store := by
    intro n
    induction n with
    | zero => exact fun _ _ => rfl
    | succ n ih =>
      intro s idle
      unfold settleWithin
      split
      · rfl
      · rename_i id rest _
        have nothing : ({ s with ready := rest } : Session).runTask id = { s with ready := rest } := by
          simp [runTask, task?, idle]
        rw [nothing]
        exact ih _ idle
  exact rest _ _ idle

theorem transfer_finish (idle : s.tasks = [])
    (h : (TransferCall.start r).finish s.store s.supply = some (x, store)) (limit : TimeSpan) :
    ∃ s', s.transfer r limit = (some x, s') ∧ s'.store = store := by
  obtain ⟨result, left, tasks⟩ := drive_finish h
  refine ⟨(s.drive (.start r)).2.settle, ?_, (settle_store (tasks.trans idle)).trans left⟩
  have tries : s.patience = s.tasks.length + 2 * s.store.faults.length + 39 + 1 := rfl
  rw [transfer, await, tries, awaitWithin]
  simp [Awaitable.transfer, poll, TimedTransfer.start, result]

end Session

namespace System
variable {S : System}

theorem Reachable.unclaimed (h : S.Reachable)
    (free : ∀ i c, S.transfer? i = some c → c.unit? = none) : S.store.claims = [] := by
  refine List.eq_nil_iff_forall_not_mem.mpr fun ⟨q, u⟩ mem => ?_
  obtain ⟨i, c, x, here, unit, -⟩ := h.manned.claimed q u mem
  rw [free i c here] at unit
  contradiction

/-- A transfer that nobody and nothing disturbs. On the books of every state of every run, it comes
to what the table says, whatever its time limit is, and keeps no lock. -/
theorem Reachable.decides (h : S.Reachable) (calm : S.store.faults = [])
    (free : ∀ i c, S.transfer? i = some c → c.unit? = none) (session : Session)
    (here : session.store = S.store) (idle : session.tasks = [])
    (fresh : session.supply.id ∉ S.drawn) (r : TransferRequest) (limit : TimeSpan) :
    ∃ x session', session.transfer r limit = (some x, session') ∧
      session'.store.faults = [] ∧ session'.store.claims = [] ∧
      S.store.books.Decides r x session'.store.books := by
  have grown := h.safe.grown
  obtain ⟨x, store, finished, kept, unclaimed, ends⟩ := (TransferCall.alone_start grown.coherent
    (h.unclaimed free) r (h.safe.transaction_new fresh)).finishes
  rw [← here] at finished
  obtain ⟨session', returned, rfl⟩ := Session.transfer_finish idle finished limit
  refine ⟨x, session', returned, kept calm, unclaimed, ?_⟩
  rcases ends.of_start with ⟨d, result, suits, -⟩ | ⟨faulty, -⟩
  · exact grown.transfer_decides suits result
  · exact absurd calm faulty

/-- A key that was used is answered with its transaction, although the request is now one for more
than there is and in another currency. With a new key, the whole balance can be moved. -/
theorem decides_race :
    let rent : TransferRequest := ⟨.ofNat 1, .ofNat 2, ⟨500, 0, by decide, by decide⟩, .eur,
      .transfer, none, ⟨"rent"⟩⟩
    let food : TransferRequest := ⟨.ofNat 1, .ofNat 2, ⟨70, 0, by decide, by decide⟩, .usd,
      .transfer, none, ⟨"food"⟩⟩
    ∃ S, ({} : System).run? race = some S ∧
      let session : Session := { supply := ⟨9, .epoch⟩, store := S.store }
      (∃ t ∈ S.store.books.transactions, ∃ session',
        session.transfer rent .zero = (some (.ok (.replayed t)), session') ∧
          session'.store.books = S.store.books) ∧
        ∃ t s q sent received session',
          session.transfer food .zero = (some (.ok (.created t)), session') ∧
            S.store.books.Carried food t s q sent received session'.store.books := by
  intro rent food
  have facts : (({} : System).run? race).any fun S => decide (S.store.faults = [] ∧
      .ofNat 9 ∉ S.drawn ∧ (∀ call ∈ S.calls, call.state.transfer?.bind (·.unit?) = none) ∧
      (∃ t ∈ S.store.books.transactions,
        S.store.books.verdict? rent = some (.ok (.replayed t))) ∧
      S.store.books.verdict? food = none) := by
    decide +kernel
  obtain ⟨S, ran, facts⟩ := (Option.any_eq_true _ _).mp facts
  obtain ⟨calm, fresh, idle, ⟨t, there, used⟩, unused⟩ := of_decide_eq_true facts
  have free : ∀ i c, S.transfer? i = some c → c.unit? = none := by
    intro i c here
    obtain ⟨call, found, running⟩ := Option.bind_eq_some_iff.mp here
    have none := idle call (List.mem_of_getElem? found)
    rwa [running] at none
  have decides := fun r => (reachable_run .start ran).decides calm free
    { supply := ⟨9, .epoch⟩, store := S.store } rfl rfl fresh r .zero
  refine ⟨S, ran, ⟨t, there, ?_⟩, ?_⟩
  · obtain ⟨x, session', returned, -, -, decided⟩ := decides rent
    rw [Books.Decides, used] at decided
    obtain ⟨rfl, same⟩ := decided
    exact ⟨session', returned, same⟩
  · obtain ⟨x, session', returned, -, -, decided⟩ := decides food
    rw [Books.Decides, unused] at decided
    obtain ⟨t, s, q, sent, received, rfl, carried⟩ := decided
    exact ⟨t, s, q, sent, received, session', returned, carried⟩

end System

end WalletLedger
