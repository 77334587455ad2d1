import WalletLedger.Proofs.Order

/-!
How the books change in a run. A step leaves them as they are, opens a wallet or posts a transfer,
and the call that wrote something returns in that very step.
-/
namespace WalletLedger.System
variable {S S' : System}

def Returns (S S' : System) (i : CallId) (o : Outcome) : Prop :=
  S.outcome? i = none ∧ S'.outcome? i = some o

inductive BooksChange (S S' : System) : Prop where
  | none (same : S'.store.books = S.store.books)
  | opened {i : CallId} {owner : UserId} {kind : WalletKind} {w : Wallet}
      (request : S'.request? i = some (.opening w.id owner kind w.money))
      (returns : S.Returns S' i (.opened (.ok w))) (new : S.store.books.wallet? w.id = none)
      (books : S'.store.books = S.store.books.withWallet w)
  | posted {i : CallId} {r : TransferRequest} {d : Draw} {s q : Wallet} {t : Transaction}
      {p : TransferPlan} (request : S'.request? i = some (.transfer r))
      (returns : S.Returns S' i
        (.transferred (.ok (.created (t.withStatus .completed d.completed)))))
      (postable : S.store.books.Postable r d s q t p)
      (new : S.store.books.transaction? t.id = none)
      (books : S'.store.books = S.store.books.post t p d)

theorem Safe.changes (safe : S.Safe) (step : S.Step S') : S.BooksChange S' := by
  cases step with
  | opened supply owner kind opening fresh =>
    have new := safe.wallet_new fresh
    rcases openWallet_cases new owner kind opening with
      ⟨e, failed⟩ | ⟨w, id, rfl, opened, -⟩
    · rw [failed]
      exact .none rfl
    · rw [opened]
      rw [← id] at new ⊢
      have request : (S.add (.opened w.id owner kind w.money (.ok w))
          { S.store with books := S.store.books.withWallet w } [w.id]).request? S.calls.length =
          some (.opening w.id owner kind w.money) := by
        simp only [request?, calls_add_new]
        rfl
      refine .opened request ⟨?_, ?_⟩ new rfl
      · simp [outcome?]
      · simp only [outcome?, calls_add_new]
        rfl
  | started r => exact .none rfl
  | @stepped i call call' store supply supply' here step fresh =>
    have request := TransferCall.step_request step
    obtain ⟨x, found, running⟩ := call_of_transfer? here
    cases (safe.moves here step fresh).1 with
    | posted before staged writing books after =>
      obtain ⟨s, q, postable⟩ := writing.postable
      refine .posted (i := i) ?_ ⟨?_, ?_⟩ postable writing.unused books
      · simp only [request?, calls_change, if_true, found]
        exact congrArg (some ∘ Request.transfer) request
      · simp only [outcome?, found, Option.bind_some, running, CallState.outcome?,
          TransferCall.result?, before, Option.map_none]
      · simp only [outcome?, calls_change, if_true, found, Option.map_some, Option.bind_some, timed,
          CallState.outcome?, TransferCall.result?, after]
    | working same | struck same | settled same | returned same => exact .none same
  | @abandoned i call state here running closed => exact .none (call.abandon_cases S.store).1
  | arranged faults => exact .none rfl

theorem Reachable.run_keeps {es : List Event} (h : S.Reachable) (ran : S.run? es = some S')
    (P : Books → Prop)
    (keeps : ∀ {T T' : System}, T.BooksChange T' → P T.store.books → P T'.store.books)
    (now : P S.store.books) : P S'.store.books := by
  induction es generalizing S with
  | nil =>
    cases ran
    exact now
  | cons e es ih =>
    obtain ⟨T, first, rest⟩ := Option.bind_eq_some_iff.mp ran
    exact ih (.next h first) rest (keeps (h.safe.changes (step_of_next? first)) now)

end WalletLedger.System
