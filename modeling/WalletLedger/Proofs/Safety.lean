import WalletLedger.Proofs.Frame

/-!
What holds at every moment of a run, whatever is under way: every transfer knows the truth about
the books, holds its locks in a unit of its own, and is going to record its transaction under an
identifier of its own.
-/
namespace WalletLedger

namespace TransferCall
variable {c : TransferCall} {cs cs' : Claims}

theorem Claiming.keep {id : UnitId} (claiming : c.Claiming cs)
    (change : Claims.OwnChange id cs cs') (other : ∀ u, c.unit? = some u → u.id ≠ id) :
    c.Claiming cs' := by
  constructor
  · intro u here
    exact (claiming.holds u here).keep fun r => change.holds u.id r (other u here)
  · intro u w here
    obtain ⟨r, awaited, mem⟩ := claiming.awaits u w here
    have unit : c.unit? = some u := by simp only [unit?, here]
    exact ⟨r, awaited, change.kept _ mem (other u unit)⟩

theorem start_cases (r : TransferRequest) :
    (∃ e, r.validate = .error e ∧ start r = ⟨r, .done (.error e)⟩) ∨
      r.validate = .ok () ∧ start r = ⟨r, .opening⟩ := by
  unfold start
  cases valid : r.validate with
  | error e => exact Or.inl ⟨e, rfl, rfl⟩
  | ok => exact Or.inr ⟨rfl, rfl⟩

theorem start_request (r : TransferRequest) : (start r).request = r := by
  rcases start_cases r with ⟨e, -, h⟩ | ⟨-, h⟩ <;> rw [h]

theorem start_idle (r : TransferRequest) :
    (start r).unit? = none ∧ (start r).drafted? = none := by
  rcases start_cases r with ⟨e, -, h⟩ | ⟨-, h⟩ <;> rw [h] <;> exact ⟨rfl, rfl⟩

theorem start_sound (r : TransferRequest) (b : Books) : (start r).Sound b := by
  rcases start_cases r with ⟨e, -, h⟩ | ⟨valid, h⟩ <;> rw [h]
  · exact ⟨by rintro ⟨⟩, trivial⟩
  · exact ⟨fun _ => valid, trivial⟩

theorem claiming_idle (unit : c.unit? = none) : c.Claiming cs := by
  constructor
  · intro u here
    rw [unit] at here
    contradiction
  · intro u w here
    simp [unit?, here] at unit

theorem abandon_cases (c : TransferCall) (s : Store) :
    (c.abandon s).books = s.books ∧ (c.abandon s).nextUnit = s.nextUnit ∧
      (c.unit? = none → (c.abandon s).claims = s.claims) ∧
      ∀ u, c.unit? = some u → Claims.OwnChange u.id s.claims (c.abandon s).claims := by
  unfold abandon
  cases unit : c.unit? with
  | none => exact ⟨rfl, rfl, fun _ => rfl, by rintro _ ⟨⟩⟩
  | some u =>
    refine ⟨rfl, rfl, by rintro ⟨⟩, ?_⟩
    rintro v ⟨⟩
    exact Claims.ownChange_release _ _

end TransferCall

namespace System

structure Fits (S : System) (i : CallId) (c : TransferCall) : Prop where
  sound : c.Sound S.store.books
  claiming : c.Claiming S.store.claims
  begun : ∀ u, c.unit? = some u → u.id < S.store.nextUnit
  apart : ∀ j e, j ≠ i → S.transfer? j = some e → ∀ u v, c.unit? = some u → e.unit? = some v →
    v.id ≠ u.id
  drafted : ∀ id, c.drafted? = some id → id ∈ S.drawn
  own : ∀ j e, j ≠ i → S.transfer? j = some e → ∀ id, c.drafted? = some id → e.drafted? ≠ some id

structure Safe (S : System) : Prop where
  grown : S.store.books.Grown
  transactions : ∀ t ∈ S.store.books.transactions, t.id ∈ S.drawn
  wallets : ∀ w ∈ S.store.books.wallets, w.id ∈ S.drawn
  fits : ∀ i c, S.transfer? i = some c → S.Fits i c

variable {S S' : System} {i j : CallId} {c c' e : TransferCall} {state : CallState} {store : Store}
  {ids : List Identifier}

theorem Safe.wallet_new (safe : S.Safe) {id : Identifier} (fresh : id ∉ S.drawn) :
    S.store.books.wallet? id = none :=
  Table.find?_none_iff.mpr fun w mem same => fresh (same ▸ safe.wallets w mem)

theorem Safe.transaction_new (safe : S.Safe) {id : Identifier} (fresh : id ∉ S.drawn) :
    S.store.books.transaction? id = none :=
  Table.find?_none_iff.mpr fun t mem same => fresh (same ▸ safe.transactions t mem)

theorem Safe.moves {supply supply' : Supply} (safe : S.Safe) (here : S.transfer? i = some c)
    (step : c.step S.store supply = some (c', store, supply'))
    (fresh : ∀ id ∈ c.draws supply, id ∉ S.drawn) :
    TransferCall.Move S.store c c' store ∧ c'.Sound store.books :=
  TransferCall.step_moves safe.grown.coherent (safe.fits i c here).sound
    (fun id drawn => safe.transaction_new (fresh id drawn)) step

/-- One call moves, the others stay as they are: what they hold true has to stay true, and the call
that moves has to fit in. -/
theorem Safe.next (safe : S.Safe) (i : CallId) (grown : S'.store.books.Grown)
    (transactions : ∀ t ∈ S'.store.books.transactions, t.id ∈ S'.drawn)
    (wallets : ∀ w ∈ S'.store.books.wallets, w.id ∈ S'.drawn)
    (others : ∀ j e, j ≠ i → S'.transfer? j = some e → S.transfer? j = some e)
    (drawn : ∀ id ∈ S.drawn, id ∈ S'.drawn) (later : S.store.nextUnit ≤ S'.store.nextUnit)
    (kept : ∀ j e, j ≠ i → S.transfer? j = some e →
      e.Sound S'.store.books ∧ e.Claiming S'.store.claims)
    (mine : ∀ c, S'.transfer? i = some c → S'.Fits i c) : S'.Safe := by
  refine ⟨grown, transactions, wallets, fun j e here => ?_⟩
  by_cases same : j = i
  · cases same
    exact mine e here
  · have old := safe.fits j e (others j e same here)
    obtain ⟨sound, claiming⟩ := kept j e same (others j e same here)
    refine ⟨sound, claiming, fun u unit => Nat.lt_of_lt_of_le (old.begun u unit) later, ?_,
      fun id h => drawn id (old.drafted id h), ?_⟩
    · intro k f differs there u v unit unit'
      by_cases focus : k = i
      · cases focus
        exact fun clash => (mine f there).apart j e same here v u unit' unit clash.symm
      · exact old.apart k f differs (others k f focus there) u v unit unit'
    · intro k f differs there id draft draft'
      by_cases focus : k = i
      · cases focus
        exact (mine f there).own j e same here id draft' draft
      · exact old.own k f differs (others k f focus there) id draft draft'

theorem fits_idle (sound : c.Sound S.store.books) (unit : c.unit? = none)
    (draft : c.drafted? = none) : S.Fits i c := by
  refine ⟨sound, TransferCall.claiming_idle unit, ?_, ?_, ?_, ?_⟩
  · intro u h; rw [unit] at h; contradiction
  · intro j e _ _ u v h; rw [unit] at h; contradiction
  · intro id h; rw [draft] at h; contradiction
  · intro j e _ _ id h; rw [draft] at h; contradiction

theorem transfer?_add (h : (S.add state store ids).transfer? j = some c) :
    S.transfer? j = some c ∨ j = S.calls.length ∧ state.transfer? = some c := by
  have bound := lt_of_transfer? h
  simp only [add, List.length_append, List.length_singleton] at bound
  by_cases new : j = S.calls.length
  · cases new
    exact Or.inr ⟨rfl, transfer?_add_new.symm.trans h⟩
  · have old : j < S.calls.length := Nat.lt_of_le_of_ne (Nat.lt_succ_iff.mp bound) new
    exact Or.inl ((transfer?_add_old old).symm.trans h)

theorem Safe.opened (safe : S.Safe) (supply : Supply) (owner : UserId) (kind : WalletKind)
    (opening : Money) (fresh : supply.id ∉ S.drawn) :
    (S.openWallet supply owner kind opening).Safe := by
  have new := safe.wallet_new fresh
  have others : ∀ {state store} (j e), j ≠ S.calls.length →
      (S.add state store [supply.id]).transfer? j = some e → S.transfer? j = some e := by
    intro state store j e old h
    rcases transfer?_add h with h | ⟨new, -⟩
    · exact h
    · exact absurd new old
  have closed : ∀ {result store} (c : TransferCall),
      (S.add (.opened supply.id owner kind opening result) store [supply.id]).transfer?
        S.calls.length ≠ some c := by
    intro result store c h
    cases transfer?_add_new.symm.trans h
  have drawn : ∀ id ∈ S.drawn, id ∈ [supply.id] ++ S.drawn := by
    intro id mem
    simp [mem]
  rcases openWallet_cases new owner kind opening with
    ⟨e, failed⟩ | ⟨w, id, -, opened, owed, scaled, free⟩
  · rw [failed]
    exact safe.next S.calls.length safe.grown (fun t mem => drawn _ (safe.transactions t mem))
      (fun w mem => drawn _ (safe.wallets w mem)) others drawn (Nat.le_refl _)
      (fun j e _ here => ⟨(safe.fits j e here).sound, (safe.fits j e here).claiming⟩)
      fun c here => absurd here (closed c)
  · have new : S.store.books.wallet? w.id = none := id ▸ new
    rw [opened]
    refine safe.next S.calls.length (.opened safe.grown new owed scaled free)
      (fun t mem => drawn _ (safe.transactions t mem)) (fun x mem => ?_) others drawn
      (Nat.le_refl _)
      (fun j e _ here => ⟨(safe.fits j e here).sound.withWallet new, (safe.fits j e here).claiming⟩)
      fun c here => absurd here (closed c)
    rcases List.mem_append.mp mem with mem | mem
    · exact drawn _ (safe.wallets x mem)
    · rw [List.mem_singleton.mp mem, id]
      simp [add]

theorem Safe.started (safe : S.Safe) (r : TransferRequest) :
    (S.add (.transfer (.start r)) S.store []).Safe := by
  refine safe.next S.calls.length safe.grown safe.transactions safe.wallets (fun j e old h => ?_)
    (fun _ mem => mem) (Nat.le_refl _)
    (fun j e _ here => ⟨(safe.fits j e here).sound, (safe.fits j e here).claiming⟩) fun c here => ?_
  · rcases transfer?_add h with h | ⟨new, -⟩
    · exact h
    · exact absurd new old
  · cases transfer?_add_new.symm.trans here
    obtain ⟨unit, draft⟩ := TransferCall.start_idle r
    exact fits_idle (TransferCall.start_sound r _) unit draft

theorem Safe.abandoned (safe : S.Safe) (here : S.transfer? i = some c)
    (closed : state.Abandoned c.request) : (S.change i state (c.abandon S.store) []).Safe := by
  obtain ⟨books, next, idle, change⟩ := c.abandon_cases S.store
  refine safe.next i (books ▸ safe.grown) (books ▸ safe.transactions) (books ▸ safe.wallets)
    (fun j e other h => (transfer?_change_other (Ne.symm other)).symm.trans h) (fun _ mem => mem)
    (Nat.le_of_eq next.symm) (fun j e other there => ?_) fun c' h => ?_
  · refine ⟨books ▸ (safe.fits j e there).sound, ?_⟩
    show e.Claiming (c.abandon S.store).claims
    cases unit : c.unit? with
    | none => exact idle unit ▸ (safe.fits j e there).claiming
    | some u =>
      exact (safe.fits j e there).claiming.keep (change u unit) fun v running =>
        (safe.fits i c here).apart j e other there u v unit running
  · rw [transfer?_change_same here] at h
    rcases closed with rfl | ⟨limit, rfl⟩
    · contradiction
    · cases h
      exact fits_idle ⟨by rintro ⟨⟩, trivial⟩ rfl rfl

section
variable {supply supply' : Supply}

theorem Safe.claiming_stepped (safe : S.Safe) (here : S.transfer? i = some c)
    (step : c.step S.store supply = some (c', store, supply')) :
    ∀ j e, j ≠ i → S.transfer? j = some e → e.Claiming store.claims := by
  intro j e other there
  have locks := TransferCall.step_locks (safe.fits i c here).sound step
  cases unit : c.unit? with
  | none => exact locks.unbegun unit ▸ (safe.fits j e there).claiming
  | some u =>
    exact (safe.fits j e there).claiming.keep (locks.change u unit) fun v running =>
      (safe.fits i c here).apart j e other there u v unit running

theorem Safe.fits_stepped (safe : S.Safe) (here : S.transfer? i = some c)
    (step : c.step S.store supply = some (c', store, supply'))
    (fresh : ∀ id ∈ c.draws supply, id ∉ S.drawn) :
    (S.change i (.transfer c') store (c.draws supply)).Fits i c' := by
  have fits := safe.fits i c here
  have locks := TransferCall.step_locks fits.sound step
  have others : ∀ j e, j ≠ i → (S.change i (.transfer c') store (c.draws supply)).transfer? j =
      some e → S.transfer? j = some e := by
    intro j e other h
    exact (transfer?_change_other (Ne.symm other)).symm.trans h
  refine ⟨(safe.moves here step fresh).2, locks.claiming fits.claiming, fun u unit => ?_, ?_,
    fun id draft => ?_, ?_⟩
  · cases before : c.unit? with
    | none =>
      obtain ⟨id, next⟩ := locks.begun before u unit
      show u.id < store.nextUnit
      rw [id, next]
      exact Nat.lt_succ_self _
    | some v =>
      rw [locks.same v u before unit]
      exact Nat.lt_of_lt_of_le (fits.begun v before) locks.next
  · intro j e other there u v unit running
    cases before : c.unit? with
    | none =>
      rw [(locks.begun before u unit).1]
      exact Nat.ne_of_lt ((safe.fits j e (others j e other there)).begun v running)
    | some x =>
      rw [locks.same x u before unit]
      exact fits.apart j e other (others j e other there) x v before running
  · rcases TransferCall.drafted_step step draft with old | new
    · exact List.mem_append_right _ (fits.drafted id old)
    · exact List.mem_append_left _ new
  · intro j e other there id draft
    rcases TransferCall.drafted_step step draft with old | new
    · exact fits.own j e other (others j e other there) id old
    · intro clash
      exact fresh id new ((safe.fits j e (others j e other there)).drafted id clash)

theorem Safe.stepped (safe : S.Safe) (here : S.transfer? i = some c)
    (step : c.step S.store supply = some (c', store, supply'))
    (fresh : ∀ id ∈ c.draws supply, id ∉ S.drawn) :
    (S.change i (.transfer c') store (c.draws supply)).Safe := by
  have fits := safe.fits i c here
  have locks := TransferCall.step_locks fits.sound step
  have claiming := safe.claiming_stepped here step
  have others : ∀ j e, j ≠ i → (S.change i (.transfer c') store (c.draws supply)).transfer? j =
      some e → S.transfer? j = some e := by
    intro j e other h
    exact (transfer?_change_other (Ne.symm other)).symm.trans h
  have drawn : ∀ id ∈ S.drawn, id ∈ c.draws supply ++ S.drawn :=
    fun id mem => List.mem_append_right _ mem
  have mine : ∀ e, (S.change i (.transfer c') store (c.draws supply)).transfer? i = some e →
      (S.change i (.transfer c') store (c.draws supply)).Fits i e := by
    intro e h
    cases (transfer?_change_same here).symm.trans h
    exact safe.fits_stepped here step fresh
  -- Only the commit changes the books.
  by_cases same : store.books = S.store.books
  · have kept : ∀ j e, j ≠ i → S.transfer? j = some e →
        e.Sound store.books ∧ e.Claiming store.claims := fun j e other there =>
      ⟨same ▸ (safe.fits j e there).sound, claiming j e other there⟩
    refine safe.next i (same ▸ safe.grown) (fun t mem => ?_) (fun w mem => ?_) others drawn
      locks.next kept mine
    · exact drawn _ (safe.transactions t (same ▸ mem))
    · exact drawn _ (safe.wallets w (same ▸ mem))
  · cases (safe.moves here step fresh).1 with
    | @posted u d t p before staged writing books after =>
      have unit : c.unit? = some u := by simp only [TransferCall.unit?, before]
      have draft : c.drafted? = some t.id := by
        simp only [TransferCall.drafted?, before]
        rfl
      have key : t.key ∈ u.staged.keys := by rw [staged]; exact List.mem_singleton_self _
      obtain ⟨x, q, postable⟩ := writing.postable
      refine safe.next i (books ▸ .posted safe.grown postable writing.unused) (fun y mem => ?_)
        (fun w mem => ?_) others drawn locks.next (fun j e other there => ?_) mine
      · have mem : y ∈ (S.store.books.post t p d).transactions := books ▸ mem
        rcases List.mem_append.mp mem with mem | mem
        · exact drawn _ (safe.transactions y mem)
        · rw [List.mem_singleton.mp mem]
          exact drawn _ (fits.drafted t.id draft)
      · have mem : w ∈ (S.store.books.post t p d).wallets := books ▸ mem
        obtain ⟨x, old, rfl⟩ := List.mem_map.mp mem
        rw [Wallet.posted_id]
        exact drawn _ (safe.wallets x old)
      · have old := safe.fits j e there
        refine ⟨?_, claiming j e other there⟩
        show e.Sound store.books
        rw [books]
        exact old.sound.post old.claiming (fits.claiming.holds u unit) writing key
          (fun v running => fits.apart j e other there u v unit running)
          (fits.own j e other there t.id draft)
    | working unchanged | struck unchanged | settled unchanged | returned unchanged =>
      exact absurd unchanged same

end

theorem safe_start : Safe {} := by
  refine ⟨.empty, fun _ => List.not_mem_nil.elim, fun _ => List.not_mem_nil.elim,
    fun i c here => ?_⟩
  simp [transfer?] at here

theorem Safe.step (safe : S.Safe) (step : S.Step S') : S'.Safe := by
  cases step with
  | opened supply owner kind opening fresh => exact safe.opened supply owner kind opening fresh
  | started r => exact safe.started r
  | stepped here step fresh => exact safe.stepped here step fresh
  | abandoned here running closed => exact safe.abandoned here closed
  | arranged faults =>
    refine ⟨safe.grown, safe.transactions, safe.wallets, fun i c here => ?_⟩
    have fits := safe.fits i c here
    exact ⟨fits.sound, fits.claiming, fits.begun, fits.apart, fits.drafted, fits.own⟩

theorem Reachable.safe (h : S.Reachable) : S.Safe := by
  induction h with
  | start => exact safe_start
  | next before h ih => exact ih.step (step_of_next? h)

end System

end WalletLedger
