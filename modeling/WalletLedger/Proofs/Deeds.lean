import WalletLedger.Proofs.Growth
import WalletLedger.Proofs.Run

/-!
Calls performed one after the other, each in one step. A deed is a call with what it drew and what
came of it; the books that deeds lead to are those of a ledger that serves nobody else meanwhile.
-/
namespace WalletLedger

namespace Outcome

def Writes : Outcome → Prop
  | opened (.ok _) | transferred (.ok (.created _)) => True
  | opened (.error _) | transferred (.ok (.replayed _)) | transferred (.error _) => False

/-- The answer of the ledger, and not a failure of the store or a lack of time. -/
def counts : Outcome → Bool
  | transferred (.error (.store _)) | transferred (.error (.deadlineExceeded _)) => false
  | _ => true

theorem writes_counts {o : Outcome} (h : o.Writes) : o.counts := by
  cases o with
  | opened r => rfl
  | transferred r =>
    cases r with
    | ok x => rfl
    | error e => exact h.elim

end Outcome

def Request.Suits (b : Books) (d : Draw) : Request → Prop
  | .opening id _ _ _ => b.wallet? id = none
  | .transfer r => ∀ t p, b.settle r d = .post t p → b.transaction? t.id = none

structure Deed where
  call : CallId
  request : Request
  draw : Draw
  outcome : Outcome

inductive Performed : List Deed → Books → Prop where
  | start : Performed [] {}
  | next {ds : List Deed} {b : Books} {d : Deed} (before : Performed ds b)
      (suits : d.request.Suits b d.draw) (outcome : (b.perform d.draw d.request).1 = d.outcome) :
      Performed (ds ++ [d]) (b.perform d.draw d.request).2

/-- What performing a call comes to: the books are only read, a wallet is opened, or a transfer is
posted. -/
inductive Effect (b : Books) (d : Draw) : Request → Outcome → Books → Prop where
  | refused {id : WalletId} {owner : UserId} {kind : WalletKind} {opening : Money}
      {e : StoreError} : Effect b d (.opening id owner kind opening) (.opened (.error e)) b
  | opened {w : Wallet} (new : b.wallet? w.id = none) (owed : ¬w.balance.IsNegative)
      (scaled : w.money.checkScale = .ok ()) (free : (w.owner, w.kind) ∉ b.owners) :
      Effect b d (.opening w.id w.owner w.kind w.money) (.opened (.ok w)) (b.withWallet w)
  | rejected {r : TransferRequest} {e : LedgerError} (settled : b.settle r d = .reject e) :
      Effect b d (.transfer r) (.transferred (.error e)) b
  | replayed {r : TransferRequest} {t : Transaction} (settled : b.settle r d = .replay t) :
      Effect b d (.transfer r) (.transferred (.ok (.replayed t))) b
  | posted {r : TransferRequest} {s q : Wallet} {t : Transaction} {p : TransferPlan}
      (postable : b.Postable r d s q t p) (new : b.transaction? t.id = none) :
      Effect b d (.transfer r) (.transferred (.ok (.created (t.withStatus .completed d.completed))))
        (b.post t p d)

section
variable {b : Books} {d : Draw} {r : Request} {ds : List Deed}

theorem Books.Grown.effect (grown : b.Grown) (suits : r.Suits b d) :
    Effect b d r (b.perform d r).1 (b.perform d r).2 := by
  cases r with
  | opening id owner kind opening =>
    rcases Books.openWallet_cases suits d.committed owner kind opening with
      ⟨e, -, failed⟩ | ⟨-, w, rfl, opened, owed, scaled, free⟩
    · simp only [Books.perform, failed]
      exact .refused
    · simp only [Books.perform, opened]
      let w : Wallet :=
        ⟨id, owner, kind, opening.currency, opening.amount, d.committed, d.committed⟩
      exact Effect.opened (w := w) suits owed scaled free
  | transfer r =>
    simp only [Books.perform, Books.transfer]
    cases settled : b.settle r d with
    | reject e => exact .rejected settled
    | replay t => exact .replayed settled
    | post t p =>
      obtain ⟨s, q, postable⟩ := grown.postable settled
      exact .posted postable (suits t p settled)

theorem Effect.grown {o : Outcome} {b' : Books} (effect : Effect b d r o b') (grown : b.Grown) :
    b'.Grown := by
  cases effect with
  | refused | rejected | replayed => exact grown
  | opened new owed scaled free => exact .opened grown new owed scaled free
  | posted postable new => exact .posted grown postable new

theorem Effect.reads {o : Outcome} {b' : Books} (effect : Effect b d r o b') (reads : ¬o.Writes) :
    b' = b := by
  cases effect with
  | refused | rejected | replayed => rfl
  | opened | posted => exact absurd trivial reads

theorem Effect.request_of_opened {w : Wallet} {b' : Books}
    (effect : Effect b d r (.opened (.ok w)) b') : r = .opening w.id w.owner w.kind w.money := by
  cases effect
  rfl

theorem Performed.grown {b : Books} (h : Performed ds b) : b.Grown := by
  induction h with
  | start => exact .empty
  | next before suits outcome ih => exact (ih.effect suits).grown ih

theorem Performed.effect {b : Books} {d : Deed} (h : Performed ds b)
    (suits : d.request.Suits b d.draw) (outcome : (b.perform d.draw d.request).1 = d.outcome) :
    Effect b d.draw d.request d.outcome (b.perform d.draw d.request).2 :=
  outcome ▸ h.grown.effect suits

theorem Performed.effects {b : Books} (h : Performed ds b) :
    ∀ d ∈ ds, ∃ before after, before.Grown ∧ Effect before d.draw d.request d.outcome after := by
  induction h with
  | start => exact fun _ => List.not_mem_nil.elim
  | @next ds b d before suits outcome ih =>
    intro e mem
    rcases List.mem_append.mp mem with mem | mem
    · exact ih e mem
    · cases List.mem_singleton.mp mem
      exact ⟨b, _, before.grown, before.effect suits outcome⟩

theorem Performed.filter {b : Books} (h : Performed ds b) (keep : Deed → Bool)
    (reads : ∀ d ∈ ds, keep d = false → ¬d.outcome.Writes) : Performed (ds.filter keep) b := by
  induction h with
  | start => exact .start
  | @next ds b d before suits outcome ih =>
    have old := ih fun e mem => reads e (List.mem_append_left _ mem)
    rw [List.filter_append]
    cases kept : keep d with
    | true =>
      rw [List.filter_cons_of_pos kept]
      exact old.next suits outcome
    | false =>
      have same := (before.effect suits outcome).reads (reads d (by simp) kept)
      rw [same, List.filter_cons_of_neg (by simp [kept]), List.filter_nil, List.append_nil]
      exact old

end

theorem Books.not_posted_of_same {b : Books} {d : Draw} {r : TransferRequest} {x : TransferResult}
    (result : b.transfer r d = (x, b)) (t : Transaction) (p : TransferPlan) :
    b.settle r d ≠ .post t p := by
  intro settled
  have books : b.post t p d = b := by
    have := congrArg Prod.snd result
    simpa only [Books.transfer, settled] using this
  have length := congrArg (fun b => b.transactions.length) books
  simp [Books.post] at length

theorem Books.reads_of_same {b : Books} {d : Draw} {r : TransferRequest} {x : TransferResult}
    (result : b.transfer r d = (x, b)) : ¬(Outcome.transferred x).Writes := by
  have first := congrArg Prod.fst result
  unfold Books.transfer at first
  cases settled : b.settle r d with
  | post t p => exact absurd settled (not_posted_of_same result t p)
  | reject e | replay t =>
    rw [settled] at first
    cases first
    exact id

theorem Books.Postable.suits {b : Books} {d : Draw} {r : TransferRequest} {s q : Wallet}
    {t : Transaction} {p : TransferPlan} (h : b.Postable r d s q t p)
    (new : b.transaction? t.id = none) : (Request.transfer r).Suits b d := by
  intro u p' settled
  cases (settle_postable h).symm.trans settled
  exact new

end WalletLedger
