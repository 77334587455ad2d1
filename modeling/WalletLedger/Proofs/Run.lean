import WalletLedger.Proofs.Procedure
import WalletLedger.Transfer.Call

/-!
Runs of the store in memory. Any number of wallets is opened and any number of transfers is
called; the next step of any of them may come at every moment. Faults may be arranged between two
steps, and a transfer may be ended from outside, by its deadline or by its caller. Identifiers and
times come from outside too: identifiers of wallets and transactions have not been drawn before,
times are arbitrary.
-/
namespace WalletLedger

abbrev CallId := Nat

inductive CallState where
  | opened (wallet : WalletId) (owner : UserId) (kind : WalletKind) (opening : Money)
      (result : Except StoreError Wallet)
  | transfer (call : TransferCall)
  | dropped (request : TransferRequest)

namespace CallState

def request : CallState → Request
  | opened wallet owner kind opening _ => .opening wallet owner kind opening
  | transfer call => .transfer call.request
  | dropped request => .transfer request

def outcome? : CallState → Option Outcome
  | opened _ _ _ _ result => some (.opened result)
  | transfer call => call.result?.map .transferred
  | dropped _ => none

def transfer? : CallState → Option TransferCall
  | transfer call => some call
  | opened _ _ _ _ _ | dropped _ => none

def Abandoned (r : TransferRequest) (s : CallState) : Prop :=
  s = dropped r ∨ ∃ limit, s = transfer ⟨r, .done (.error (.deadlineExceeded limit))⟩

end CallState

structure Call where
  state : CallState
  started : Nat
  ended : Option Nat

structure System where
  store : Store := {}
  calls : List Call := []
  drawn : List Identifier := []
  moment : Nat := 0

inductive Event where
  | openWallet (supply : Supply) (owner : UserId) (kind : WalletKind) (opening : Money)
  | startTransfer (request : TransferRequest)
  | step (call : CallId) (supply : Supply)
  | expire (call : CallId) (limit : TimeSpan)
  | drop (call : CallId)
  | injectFault (fault : Fault)
  | clearFaults
  | read (what : StoreRead)

def TransferCall.draws (c : TransferCall) (supply : Supply) : List Identifier :=
  match c.phase with
  | .working _ (.lookingUp _ _) _ => [supply.id]
  | _ => []

namespace System

def transfer? (S : System) (i : CallId) : Option TransferCall :=
  S.calls[i]?.bind fun call => call.state.transfer?

def outcome? (S : System) (i : CallId) : Option Outcome :=
  S.calls[i]?.bind fun call => call.state.outcome?

def timed (S : System) (started : Nat) (state : CallState) : Call :=
  ⟨state, started, if state.outcome?.isSome then some S.moment else none⟩

def add (S : System) (state : CallState) (store : Store) (ids : List Identifier) : System :=
  ⟨store, S.calls ++ [S.timed S.moment state], ids ++ S.drawn, S.moment + 1⟩

def change (S : System) (i : CallId) (state : CallState) (store : Store)
    (ids : List Identifier) : System :=
  ⟨store, S.calls.modify i fun call => S.timed call.started state, ids ++ S.drawn, S.moment + 1⟩

def withStore (S : System) (store : Store) : System :=
  { S with store := store, moment := S.moment + 1 }

def openWallet (S : System) (supply : Supply) (owner : UserId) (kind : WalletKind)
    (opening : Money) : System :=
  let opened := S.store.books.openWallet supply.id supply.now owner kind opening
  S.add (.opened supply.id owner kind opening opened.1) { S.store with books := opened.2 }
    [supply.id]

def next? (S : System) : Event → Option System
  | .openWallet supply owner kind opening =>
    if supply.id ∈ S.drawn then none
    else
      let (r, store) := S.store.openWallet supply owner kind opening
      some (S.add (.opened supply.id owner kind opening r) store [supply.id])
  | .startTransfer r => some (S.add (.transfer (.start r)) S.store [])
  | .step i supply =>
    match S.transfer? i with
    | none => none
    | some c =>
      if c.draws supply |>.any (· ∈ S.drawn) then none
      else match c.step S.store supply with
        | none => none
        | some (c', store, _) => some (S.change i (.transfer c') store (c.draws supply))
  | .expire i limit =>
    match S.transfer? i with
    | none => none
    | some c =>
      if c.result?.isSome then none
      else
        let closed := { c with phase := .done (.error (.deadlineExceeded limit)) }
        some (S.change i (.transfer closed) (c.abandon S.store) [])
  | .drop i =>
    match S.transfer? i with
    | none => none
    | some c =>
      if c.result?.isSome then none
      else some (S.change i (.dropped c.request) (c.abandon S.store) [])
  | .injectFault f => some (S.withStore (S.store.inject f))
  | .clearFaults => some (S.withStore S.store.clearFaults)
  | .read r => some (S.withStore (S.store.read r).2)

def run? (S : System) : List Event → Option System
  | [] => some S
  | e :: es => (S.next? e).bind (run? · es)

inductive Reachable : System → Prop where
  | start : Reachable {}
  | next {S S' : System} {e : Event} (before : Reachable S) (h : S.next? e = some S') : Reachable S'

inductive Step (S : System) : System → Prop where
  | opened (supply : Supply) (owner : UserId) (kind : WalletKind) (opening : Money)
      (fresh : supply.id ∉ S.drawn) : Step S (S.openWallet supply owner kind opening)
  | started (r : TransferRequest) : Step S (S.add (.transfer (.start r)) S.store [])
  | stepped {i : CallId} {c c' : TransferCall} {store : Store} {supply supply' : Supply}
      (here : S.transfer? i = some c) (step : c.step S.store supply = some (c', store, supply'))
      (fresh : ∀ id ∈ c.draws supply, id ∉ S.drawn) :
      Step S (S.change i (.transfer c') store (c.draws supply))
  | abandoned {i : CallId} {c : TransferCall} {state : CallState} (here : S.transfer? i = some c)
      (running : c.result? = none) (closed : state.Abandoned c.request) :
      Step S (S.change i state (c.abandon S.store) [])
  | arranged (faults : List Fault) : Step S (S.withStore { S.store with faults := faults })

variable {S S' : System} {i j : CallId} {c : TransferCall} {state : CallState} {store : Store}
  {ids : List Identifier}

theorem step_of_next? {e : Event} (h : S.next? e = some S') : S.Step S' := by
  cases e with
  | openWallet supply owner kind opening =>
    simp only [next?, Store.openWallet_eq] at h
    split at h
    · contradiction
    · rename_i fresh
      cases h
      exact Step.opened supply owner kind opening fresh
  | startTransfer r =>
    cases h
    exact Step.started r
  | step i supply =>
    simp only [next?] at h
    split at h
    · contradiction
    · rename_i c here
      split at h
      · contradiction
      · rename_i fresh
        split at h
        · contradiction
        · rename_i c' store supply' step
          cases h
          exact Step.stepped here step (by simpa using fresh)
  | expire i limit =>
    simp only [next?] at h
    split at h
    · contradiction
    · rename_i c here
      split at h
      · contradiction
      · rename_i running
        cases h
        exact Step.abandoned here (by simpa using running) (Or.inr ⟨limit, rfl⟩)
  | drop i =>
    simp only [next?] at h
    split at h
    · contradiction
    · rename_i c here
      split at h
      · contradiction
      · rename_i running
        cases h
        exact Step.abandoned here (by simpa using running) (Or.inl rfl)
  | injectFault f =>
    cases h
    exact Step.arranged _
  | clearFaults =>
    cases h
    exact Step.arranged _
  | read r =>
    cases h
    have same : (S.store.read r).2 = { S.store with faults := (S.store.read r).2.faults } := by
      unfold Store.read Store.strike
      cases WalletLedger.strike StorePoint.read S.store.faults with
      | mk struck left => cases struck <;> rfl
    rw [same]
    exact Step.arranged _

theorem reachable_run {es : List Event} (before : S.Reachable) (h : S.run? es = some S') :
    S'.Reachable := by
  induction es generalizing S with
  | nil => cases h; exact before
  | cons e es ih =>
    obtain ⟨T, first, rest⟩ := Option.bind_eq_some_iff.mp h
    exact ih (.next before first) rest

/-- Two wallets, and two transfers with one key between them that are under way together. -/
def race : List Event :=
  let supply (id : Nat) : Supply := ⟨id, .epoch⟩
  let usd (cents : Nat) (h : cents < twoTo 96) : Money := ⟨⟨cents, 2, h, by decide⟩, .usd⟩
  let r : TransferRequest := ⟨.ofNat 1, .ofNat 2, (usd 3000 (by decide)).amount, .usd, .transfer,
    none, ⟨"rent"⟩⟩
  [.openWallet (supply 1) (.ofNat 7) .savings (usd 10000 (by decide)),
    .openWallet (supply 2) (.ofNat 8) .savings (usd 0 (by decide)),
    .startTransfer r, .startTransfer r] ++
  .replicate 3 (.step 2 (supply 3)) ++ .replicate 2 (.step 3 (supply 4)) ++
  .replicate 10 (.step 2 (supply 3)) ++ .replicate 4 (.step 3 (supply 4))

theorem race_runs : (({} : System).run? race).isSome := by decide +kernel

theorem openWallet_cases {supply : Supply} (new : S.store.books.wallet? supply.id = none)
    (owner : UserId) (kind : WalletKind) (opening : Money) :
    (∃ e, S.openWallet supply owner kind opening =
      S.add (.opened supply.id owner kind opening (.error e)) S.store [supply.id]) ∨
    ∃ w : Wallet, w.id = supply.id ∧ w.money = opening ∧
      S.openWallet supply owner kind opening =
        S.add (.opened supply.id owner kind opening (.ok w))
          { S.store with books := S.store.books.withWallet w } [supply.id] ∧
      ¬w.balance.IsNegative ∧ w.money.checkScale = .ok () ∧
      (w.owner, w.kind) ∉ S.store.books.owners := by
  unfold openWallet
  rcases Books.openWallet_cases new supply.now owner kind opening with
    ⟨e, -, failed⟩ | ⟨-, w, named, opened, owed, scaled, free⟩
  · rw [failed]
    exact Or.inl ⟨e, rfl⟩
  · rw [opened]
    exact Or.inr ⟨w, by rw [named], by rw [named]; rfl, rfl, owed, scaled, free⟩

theorem calls_add_new : (S.add state store ids).calls[S.calls.length]? =
    some (S.timed S.moment state) := by
  simp [add]

theorem calls_add_old (h : i < S.calls.length) :
    (S.add state store ids).calls[i]? = S.calls[i]? := by
  simp [add, List.getElem?_append_left h]

theorem calls_change : (S.change i state store ids).calls[j]? =
    if i = j then S.calls[j]?.map (fun call => S.timed call.started state) else S.calls[j]? := by
  simp only [change, List.getElem?_modify]
  split <;> simp

theorem call_of_transfer? (h : S.transfer? i = some c) :
    ∃ call, S.calls[i]? = some call ∧ call.state = .transfer c := by
  obtain ⟨call, found, state⟩ := Option.bind_eq_some_iff.mp h
  refine ⟨call, found, ?_⟩
  cases h : call.state with
  | transfer c' => simpa [h, CallState.transfer?] using state
  | opened => simp [h, CallState.transfer?] at state
  | dropped => simp [h, CallState.transfer?] at state

theorem transfer?_add_old (h : i < S.calls.length) :
    (S.add state store ids).transfer? i = S.transfer? i := by
  simp only [transfer?, calls_add_old h]

theorem transfer?_add_new :
    (S.add state store ids).transfer? S.calls.length = state.transfer? := by
  simp only [transfer?, calls_add_new]
  rfl

theorem transfer?_change_same (h : S.transfer? i = some c) :
    (S.change i state store ids).transfer? i = state.transfer? := by
  obtain ⟨call, found, -⟩ := call_of_transfer? h
  simp only [transfer?, calls_change, if_true, found]
  rfl

theorem transfer?_change_other (h : i ≠ j) :
    (S.change i state store ids).transfer? j = S.transfer? j := by
  simp only [transfer?, calls_change, h, if_false]

theorem lt_of_transfer? (h : S.transfer? i = some c) : i < S.calls.length := by
  obtain ⟨call, found, -⟩ := call_of_transfer? h
  exact (List.getElem?_eq_some_iff.mp found).1

end System

end WalletLedger
