import WalletLedger.Proofs.Deeds
import WalletLedger.Proofs.Safety

/-!
The order in which the calls of a run take effect. A call takes effect in the one step that decides
it: the step that opens the wallet, that turns the transfer down, that finds the earlier transfer,
or that commits. Put in the order of these steps, the calls lead to the books of the run, and no
call stands before one that was over when it was started.
-/
namespace WalletLedger

namespace CallState

def decided? : CallState → Option Outcome
  | opened _ _ _ _ result => some (.opened result)
  | transfer call => call.decided?.map .transferred
  | dropped _ => none

def Answers (s : CallState) (o : Outcome) : Prop :=
  s.decided? = some o ∧ (o.Writes → s.outcome? = some o) ∨ ¬o.Writes ∧ ∃ r, s.Abandoned r

theorem decided?_of_outcome? {s : CallState} {o : Outcome} (h : s.outcome? = some o) :
    s.decided? = some o := by
  cases s with
  | opened id owner kind opening result => exact h
  | dropped r => contradiction
  | transfer c =>
    obtain ⟨x, result, same⟩ := Option.map_eq_some_iff.mp h
    simp only [decided?, TransferCall.decided?, TransferCall.phase_of_result? result,
      Option.map_some, same]

end CallState

namespace System

def request? (S : System) (i : CallId) : Option Request := S.calls[i]?.map (·.state.request)

def counted (S : System) (i : CallId) : Bool := (S.outcome? i).any (·.counts)

def Before (S : System) (i j : CallId) : Prop :=
  ∃ x y e, S.calls[i]? = some x ∧ S.calls[j]? = some y ∧ x.ended = some e ∧ e < y.started

def OnTime (S : System) : Prop :=
  ∀ (i : CallId) (x : Call), S.calls[i]? = some x → x.started < S.moment

structure Advances (S S' : System) (i : CallId) (state : CallState) : Prop where
  others : ∀ j, j ≠ i → S'.calls[j]? = S.calls[j]?
  moment : S.moment < S'.moment
  mine : ∃ x, S'.calls[i]? = some x ∧ x.state = state ∧ x.started ≤ S.moment ∧
    ∀ e, x.ended = some e → e = S.moment
  old : ∀ y, S.calls[i]? = some y → ∃ x : Call, S'.calls[i]? = some x ∧ x.started = y.started

structure Ordered (S : System) (ds : List Deed) : Prop where
  performed : Performed ds S.store.books
  once : (ds.map (·.call)).Nodup
  covers : ∀ (i : CallId) (x : Call) (o : Outcome), S.calls[i]? = some x →
    x.state.decided? = some o → o.counts → ∃ d ∈ ds, d.call = i
  answers : ∀ d ∈ ds, ∃ x, S.calls[d.call]? = some x ∧ x.state.request = d.request ∧
    x.state.Answers d.outcome
  started : S.OnTime
  timely : ds.Pairwise fun d e => ¬S.Before e.call d.call

variable {S S' : System} {i j : CallId} {c : TransferCall} {state : CallState} {store : Store}
  {ids : List Identifier} {ds : List Deed}

theorem timed_ended {started e : Nat} (h : (S.timed started state).ended = some e) :
    e = S.moment := by
  simp only [timed] at h
  split at h
  · exact (Option.some.inj h).symm
  · contradiction

theorem advances_add : S.Advances (S.add state store ids) S.calls.length state := by
  refine ⟨fun j other => ?_, Nat.lt_succ_self _, ⟨_, calls_add_new, rfl, Nat.le_refl _, ?_⟩, ?_⟩
  · by_cases old : j < S.calls.length
    · exact calls_add_old old
    · have last : (S.add state store ids).calls.length = S.calls.length + 1 := by simp [add]
      have past : S.calls.length + 1 ≤ j := Nat.lt_of_le_of_ne (Nat.not_lt.mp old) (Ne.symm other)
      rw [List.getElem?_eq_none (last ▸ past), List.getElem?_eq_none (Nat.le_of_succ_le past)]
  · exact fun e => timed_ended
  · intro y found
    simp at found

theorem advances_change (started : S.OnTime)
    (here : S.transfer? i = some c) : S.Advances (S.change i state store ids) i state := by
  obtain ⟨call, found, -⟩ := call_of_transfer? here
  have mine : (S.change i state store ids).calls[i]? = some (S.timed call.started state) := by
    rw [calls_change, if_pos rfl, found]
    rfl
  refine ⟨fun j other => ?_, Nat.lt_succ_self _, ⟨_, mine, rfl, ?_, fun e => timed_ended⟩, ?_⟩
  · rw [calls_change, if_neg (Ne.symm other)]
  · exact Nat.le_of_lt (started i call found)
  · intro y old
    cases found.symm.trans old
    exact ⟨_, mine, rfl⟩

theorem Advances.before (advances : S.Advances S' i state)
    (started : S.OnTime) {k : CallId}
    (there : ∃ y, S.calls[j]? = some y) (h : S'.Before k j) : S.Before k j := by
  obtain ⟨y, old⟩ := there
  obtain ⟨x, y', e, hk, hj, ended, early⟩ := h
  have same : y'.started = y.started := by
    by_cases focus : j = i
    · cases focus
      obtain ⟨z, found, same⟩ := advances.old y old
      cases found.symm.trans hj
      exact same
    · rw [advances.others j focus, old] at hj
      cases hj
      rfl
  by_cases focus : k = i
  · cases focus
    obtain ⟨z, found, -, -, closed⟩ := advances.mine
    cases found.symm.trans hk
    have := closed e ended
    have := started j y old
    omega
  · rw [advances.others k focus] at hk
    exact ⟨x, y, e, hk, old, ended, same ▸ early⟩

theorem Advances.not_before (advances : S.Advances S' i state)
    (started : S.OnTime)
    (there : ∃ y, S.calls[j]? = some y) (other : j ≠ i) : ¬S'.Before i j := by
  obtain ⟨y, old⟩ := there
  rintro ⟨x, y', e, hi, hj, ended, early⟩
  obtain ⟨z, found, -, -, closed⟩ := advances.mine
  cases found.symm.trans hi
  rw [advances.others j other, old] at hj
  cases hj
  have := closed e ended
  have := started j y old
  omega

theorem Advances.started (advances : S.Advances S' i state)
    (started : S.OnTime) :
    S'.OnTime := by
  intro j x found
  have later := advances.moment
  by_cases focus : j = i
  · cases focus
    obtain ⟨z, here, -, early, -⟩ := advances.mine
    cases here.symm.trans found
    omega
  · rw [advances.others j focus] at found
    have := started j x found
    omega

theorem Ordered.undone (ordered : S.Ordered ds) (here : S.transfer? i = some c)
    (undecided : c.decided? = none) : ∀ d ∈ ds, d.call ≠ i := by
  rintro d mem rfl
  obtain ⟨call, found, running⟩ := call_of_transfer? here
  obtain ⟨x, same, -, answers⟩ := ordered.answers d mem
  cases same.symm.trans found
  rw [running] at answers
  rcases answers with ⟨decided, -⟩ | ⟨-, r, dropped | ⟨limit, expired⟩⟩
  · simp [CallState.decided?, undecided] at decided
  · cases dropped
  · cases expired
    cases undecided

theorem Ordered.stay (ordered : S.Ordered ds) (advances : S.Advances S' i state)
    (books : S'.store.books = S.store.books)
    (covers : ∀ o, state.decided? = some o → o.counts → ∃ d ∈ ds, d.call = i)
    (answers : ∀ d ∈ ds, d.call = i → state.request = d.request ∧ state.Answers d.outcome) :
    S'.Ordered ds := by
  obtain ⟨x, found, rfl, -, -⟩ := advances.mine
  refine ⟨books ▸ ordered.performed, ordered.once, fun j y o here decided counts => ?_,
    fun d mem => ?_, advances.started ordered.started, ?_⟩
  · by_cases focus : j = i
    · cases focus
      cases found.symm.trans here
      exact covers o decided counts
    · exact ordered.covers j y o ((advances.others j focus).symm.trans here) decided counts
  · by_cases focus : d.call = i
    · exact ⟨x, focus ▸ found, answers d mem focus⟩
    · obtain ⟨y, old, rest⟩ := ordered.answers d mem
      exact ⟨y, (advances.others _ focus).trans old, rest⟩
  · refine ordered.timely.imp_of_mem fun {d e} memd meme before after => before ?_
    obtain ⟨y, old, -⟩ := ordered.answers d memd
    exact advances.before ordered.started ⟨y, old⟩ after

theorem Ordered.append {d : Deed} (ordered : S.Ordered ds) (advances : S.Advances S' d.call state)
    (new : ∀ e ∈ ds, e.call ≠ d.call) (suits : d.request.Suits S.store.books d.draw)
    (performed : S.store.books.perform d.draw d.request = (d.outcome, S'.store.books))
    (request : state.request = d.request) (answers : state.Answers d.outcome) :
    S'.Ordered (ds ++ [d]) := by
  obtain ⟨x, found, rfl, -, -⟩ := advances.mine
  have known : ∀ e ∈ ds, ∃ y, S.calls[e.call]? = some y := by
    intro e mem
    obtain ⟨y, old, -⟩ := ordered.answers e mem
    exact ⟨y, old⟩
  refine ⟨?_, ?_, fun j y o here decided counts => ?_, fun e mem => ?_,
    advances.started ordered.started, ?_⟩
  · have next := ordered.performed.next suits (congrArg Prod.fst performed)
    rw [performed] at next
    exact next
  · rw [List.map_append]
    refine List.nodup_append.mpr ⟨ordered.once, by simp, ?_⟩
    rintro j mem k last rfl
    obtain ⟨e, there, same⟩ := List.mem_map.mp mem
    exact new e there (same.trans (by simpa using last))
  · by_cases focus : j = d.call
    · exact ⟨d, by simp, focus.symm⟩
    · obtain ⟨e, mem, same⟩ :=
        ordered.covers j y o ((advances.others j focus).symm.trans here) decided counts
      exact ⟨e, List.mem_append_left _ mem, same⟩
  · rcases List.mem_append.mp mem with mem | mem
    · obtain ⟨y, old, rest⟩ := ordered.answers e mem
      exact ⟨y, (advances.others _ (new e mem)).trans old, rest⟩
    · cases List.mem_singleton.mp mem
      exact ⟨x, found, request, answers⟩
  · refine List.pairwise_append.mpr ⟨?_, List.pairwise_singleton _ _, ?_⟩
    · refine ordered.timely.imp_of_mem fun {e f} meme memf before after => before ?_
      exact advances.before ordered.started (known e meme) after
    · intro e mem f last
      cases List.mem_singleton.mp last
      exact advances.not_before ordered.started (known e mem) (new e mem)

theorem Ordered.lt {d : Deed} (ordered : S.Ordered ds) (mem : d ∈ ds) :
    d.call < S.calls.length := by
  obtain ⟨x, found, -⟩ := ordered.answers d mem
  exact (List.getElem?_eq_some_iff.mp found).1

theorem Ordered.opened (ordered : S.Ordered ds) (safe : S.Safe) (supply : Supply) (owner : UserId)
    (kind : WalletKind) (opening : Money) (fresh : supply.id ∉ S.drawn) :
    ∃ ds, (S.openWallet supply owner kind opening).Ordered ds := by
  let d : Deed := ⟨S.calls.length, .opening supply.id owner kind opening, .of supply.id supply,
    .opened (S.store.books.openWallet supply.id supply.now owner kind opening).1⟩
  have suits : d.request.Suits S.store.books d.draw := safe.wallet_new fresh
  have performed : S.store.books.perform d.draw d.request =
      (d.outcome, (S.store.books.openWallet supply.id supply.now owner kind opening).2) := by
    simp only [Books.perform, d, Draw.of]
  exact ⟨_, ordered.append (d := d) advances_add (fun e mem => Nat.ne_of_lt (ordered.lt mem)) suits
    performed rfl (Or.inl ⟨rfl, fun _ => rfl⟩)⟩

theorem Ordered.begun (ordered : S.Ordered ds) (r : TransferRequest) :
    ∃ ds, (S.add (.transfer (.start r)) S.store []).Ordered ds := by
  rcases TransferCall.start_cases r with ⟨e, invalid, start⟩ | ⟨-, start⟩ <;> rw [start]
  · let d : Deed := ⟨S.calls.length, .transfer r, .of (.ofNat 0) ⟨0, .epoch⟩,
      .transferred (.error e)⟩
    have result : S.store.books.transfer r d.draw = (.error e, S.store.books) := by
      simp only [Books.transfer, Books.settle_invalid invalid]
    have performed : S.store.books.perform d.draw d.request = (d.outcome, S.store.books) := by
      simp only [Books.perform, d, result]
    exact ⟨_, ordered.append (d := d) advances_add (fun e mem => Nat.ne_of_lt (ordered.lt mem))
      (fun t p settled => absurd settled (Books.not_posted_of_same result t p)) performed rfl
      (Or.inl ⟨rfl, fun _ => rfl⟩)⟩
  · refine ⟨ds, ordered.stay advances_add rfl (fun o decided => ?_) fun d mem same => ?_⟩
    · cases decided
    · exact absurd same (Nat.ne_of_lt (ordered.lt mem))

theorem Ordered.abandoned (ordered : S.Ordered ds) (here : S.transfer? i = some c)
    (running : c.result? = none) (closed : state.Abandoned c.request) :
    (S.change i state (c.abandon S.store) []).Ordered ds := by
  obtain ⟨call, found, same⟩ := call_of_transfer? here
  refine ordered.stay (advances_change ordered.started here) (c.abandon_cases S.store).1
    (fun o decided counts => ?_) fun d mem focus => ?_
  · rcases closed with rfl | ⟨limit, rfl⟩
    · contradiction
    · cases decided
      contradiction
  · obtain ⟨x, there, request, answers⟩ := ordered.answers d mem
    rw [focus] at there
    cases found.symm.trans there
    rw [same] at request answers
    refine ⟨?_, Or.inr ⟨?_, c.request, closed⟩⟩
    · rcases closed with rfl | ⟨limit, rfl⟩ <;> exact request
    · rcases answers with ⟨-, outcome⟩ | ⟨reads, -⟩
      · intro writes
        have := outcome writes
        simp [CallState.outcome?, running] at this
      · exact reads

theorem Ordered.stepped {c' : TransferCall} {supply supply' : Supply} (ordered : S.Ordered ds)
    (safe : S.Safe) (here : S.transfer? i = some c)
    (step : c.step S.store supply = some (c', store, supply'))
    (fresh : ∀ id ∈ c.draws supply, id ∉ S.drawn) :
    ∃ ds, (S.change i (.transfer c') store (c.draws supply)).Ordered ds := by
  have advances : S.Advances (S.change i (.transfer c') store (c.draws supply)) i (.transfer c') :=
    advances_change ordered.started here
  have request : c'.request = c.request := TransferCall.step_request step
  obtain ⟨move, -⟩ := safe.moves here step fresh
  cases move with
  | working same before after =>
    refine ⟨ds, ordered.stay advances same (fun o decided => ?_) fun d mem focus => ?_⟩
    · simp [CallState.decided?, after] at decided
    · exact absurd focus (ordered.undone here before d mem)
  | struck same before mem after =>
    refine ⟨ds, ordered.stay advances same (fun o decided counts => ?_) fun d mem focus => ?_⟩
    · simp only [CallState.decided?, after] at decided
      cases decided
      contradiction
    · exact absurd focus (ordered.undone here before d mem)
  | @settled draw x same before result after =>
    let d : Deed := ⟨i, .transfer c.request, draw, .transferred x⟩
    have suits : d.request.Suits S.store.books d.draw :=
      fun t p settled => absurd settled (Books.not_posted_of_same result t p)
    have performed : S.store.books.perform d.draw d.request = (d.outcome, store.books) := by
      simp only [Books.perform, d, result, same]
    refine ⟨_, ordered.append (d := d) advances (ordered.undone here before) suits performed ?_
      (Or.inl ⟨?_, fun writes => absurd writes (Books.reads_of_same result)⟩)⟩
    · exact congrArg Request.transfer request
    · simp only [CallState.decided?, after, d, Option.map_some]
  | @posted u draw t p before staged writing books after =>
    obtain ⟨s, q, postable⟩ := writing.postable
    let d : Deed := ⟨i, .transfer c.request, draw,
      .transferred (.ok (.created (t.withStatus .completed draw.completed)))⟩
    have performed : S.store.books.perform d.draw d.request = (d.outcome, store.books) := by
      simp only [Books.perform, d, Books.transfer_postable postable, books]
    have undecided : c.decided? = none := by simp only [TransferCall.decided?, before]
    refine ⟨_, ordered.append (d := d) advances (ordered.undone here undecided)
      (postable.suits writing.unused) performed ?_ (Or.inl ⟨?_, fun _ => ?_⟩)⟩
    · exact congrArg Request.transfer request
    · simp only [CallState.decided?, TransferCall.decided?, after, d, Option.map_some]
    · simp only [CallState.outcome?, TransferCall.result?, after, d, Option.map_some]
  | @returned u x same before after =>
    have decided : c'.decided? = c.decided? := by
      simp only [TransferCall.decided?, before, after]
    obtain ⟨call, found, running⟩ := call_of_transfer? here
    refine ⟨ds, ordered.stay advances same (fun o decides counts => ?_) fun d mem focus => ?_⟩
    · refine ordered.covers i call o found ?_ counts
      simpa only [running, CallState.decided?, decided] using decides
    · obtain ⟨y, there, asked, answers⟩ := ordered.answers d mem
      rw [focus] at there
      cases found.symm.trans there
      rw [running] at asked answers
      refine ⟨(congrArg Request.transfer request).trans asked, Or.inl ?_⟩
      rcases answers with ⟨decides, -⟩ | ⟨-, r, dropped | ⟨limit, expired⟩⟩
      · have decides : CallState.decided? (.transfer c') = some d.outcome := by
          simpa only [CallState.decided?, decided] using decides
        refine ⟨decides, fun _ => ?_⟩
        simpa only [CallState.decided?, TransferCall.decided?, CallState.outcome?,
          TransferCall.result?, after] using decides
      · cases dropped
      · cases expired
        cases before

theorem ordered_start : Ordered {} [] := by
  refine ⟨.start, List.nodup_nil, ?_, fun _ => List.not_mem_nil.elim, ?_, .nil⟩
  · intro i x o here
    simp at here
  · intro i x here
    simp at here

theorem Ordered.step (ordered : S.Ordered ds) (safe : S.Safe) (step : S.Step S') :
    ∃ ds, S'.Ordered ds := by
  cases step with
  | opened supply owner kind opening fresh =>
    exact ordered.opened safe supply owner kind opening fresh
  | started r => exact ordered.begun r
  | stepped here step fresh => exact ordered.stepped safe here step fresh
  | abandoned here running closed => exact ⟨ds, ordered.abandoned here running closed⟩
  | arranged faults =>
    exact ⟨ds, ordered.performed, ordered.once, ordered.covers, ordered.answers,
      fun i x here => Nat.lt_succ_of_lt (ordered.started i x here), ordered.timely⟩

theorem Reachable.ordered (h : S.Reachable) : ∃ ds, S.Ordered ds := by
  induction h with
  | start => exact ⟨[], ordered_start⟩
  | next before h ih =>
    obtain ⟨ds, ordered⟩ := ih
    exact ordered.step before.safe (step_of_next? h)

theorem Ordered.request? {d : Deed} (ordered : S.Ordered ds) (mem : d ∈ ds) :
    S.request? d.call = some d.request := by
  obtain ⟨x, found, request, -⟩ := ordered.answers d mem
  simp only [System.request?, found, Option.map_some, request]

theorem Ordered.counted_of_writes {d : Deed} (ordered : S.Ordered ds) (mem : d ∈ ds)
    (writes : d.outcome.Writes) : S.counted d.call := by
  obtain ⟨x, found, -, ⟨-, returned⟩ | ⟨reads, -⟩⟩ := ordered.answers d mem
  · simp only [counted, outcome?, found, Option.bind_some, returned writes, Option.any_some]
    exact Outcome.writes_counts writes
  · exact absurd writes reads

theorem Ordered.outcome? {d : Deed} (ordered : S.Ordered ds) (mem : d ∈ ds)
    (counted : S.counted d.call) : S.outcome? d.call = some d.outcome := by
  obtain ⟨x, found, -, answers⟩ := ordered.answers d mem
  have here : S.outcome? d.call = x.state.outcome? := by
    simp only [System.outcome?, found, Option.bind_some]
  obtain ⟨o, returned, counts⟩ := (Option.any_eq_true _ _).mp counted
  rw [here] at returned ⊢
  rcases answers with ⟨decided, -⟩ | ⟨-, r, dropped | ⟨limit, expired⟩⟩
  · cases decided.symm.trans (CallState.decided?_of_outcome? returned)
    exact returned
  · rw [dropped] at returned
    contradiction
  · rw [expired] at returned
    cases returned
    contradiction

theorem Ordered.covered (ordered : S.Ordered ds) (counted : S.counted i) :
    ∃ d ∈ ds, d.call = i := by
  obtain ⟨o, returned, counts⟩ := (Option.any_eq_true _ _).mp counted
  obtain ⟨x, found, returned⟩ := Option.bind_eq_some_iff.mp returned
  exact ordered.covers i x o found (CallState.decided?_of_outcome? returned) counts

theorem Ordered.deed {o : Outcome} (ordered : S.Ordered ds) (returned : S.outcome? i = some o)
    (counts : o.counts) : ∃ d ∈ ds, d.call = i ∧ d.outcome = o := by
  have counted : S.counted i := by simp only [System.counted, returned, Option.any_some, counts]
  obtain ⟨d, mem, rfl⟩ := ordered.covered counted
  exact ⟨d, mem, rfl, Option.some.inj ((ordered.outcome? mem counted).symm.trans returned)⟩

end System

end WalletLedger
