import Mathlib.Logic.Relation
import WalletLedger.Proofs.Alone
import WalletLedger.Proofs.Safety

/-!
No deadlock. Locks are ranked: rows by their identifiers, and every key above every row. A unit
that waits has locked rows of lower rank only, and one that has staged a key waits for nothing any
more. So ranks rise along any chain of units that wait for each other: no chain closes, and each
ends at a call that can move.
-/
namespace WalletLedger

def Resource.rank : Resource → Nat
  | row wallet => wallet.value
  | key _ => twoTo 128

theorem Resource.rank_le (r : Resource) : r.rank ≤ twoTo 128 := by
  cases r with
  | row wallet => exact Nat.le_of_lt wallet.value_lt
  | key k => exact Nat.le_refl _

namespace Claims
variable {cs : Claims} {u : UnitId} {r : Resource}

theorem mem_of_holder? (h : cs.holder? r = some u) : ⟨r, u⟩ ∈ cs := by
  obtain ⟨c, found, rfl⟩ := Option.map_eq_some_iff.mp h
  have resource : c.resource = r := by simpa using List.find?_some found
  exact resource ▸ List.mem_of_find?_eq_some found

theorem holder?_of_mem (h : ⟨r, u⟩ ∈ cs) : ∃ v, cs.holder? r = some v := by
  have claimed : (cs.find? (·.resource = r)).isSome := by
    rw [List.find?_isSome]
    exact ⟨⟨r, u⟩, h, decide_eq_true rfl⟩
  obtain ⟨c, found⟩ := Option.isSome_iff_exists.mp claimed
  exact ⟨c.unit, by rw [holder?, found, Option.map_some]⟩

end Claims

namespace UnitOfWork
variable {u : UnitOfWork} {s : Store} {now : Timestamp} {op : UnitOp} {q : Resource}

/-- A row that the unit has locked, or a key that it has staged. -/
def Has (u : UnitOfWork) : Resource → Prop
  | .row wallet => wallet ∈ u.locked
  | .key key => key ∈ u.staged.keys

/-- A unit stands in line only for what it has and for what it waits for. -/
def Backed (u : UnitOfWork) (cs : Claims) (waits : Option Resource) : Prop :=
  ∀ r, ⟨r, u.id⟩ ∈ cs → u.Has r ∨ waits = some r

def Step.waits (op : UnitOp) (st : Step op.Answer) : Option Resource :=
  match st.progress with
  | .waiting => st.unit.awaited op
  | .replied _ => none

theorem backed_reply {a : Except StoreError op.Answer} {u' : UnitOfWork} (unit : u'.id = u.id)
    (locked : u'.locked = u.locked) (keys : u'.staged.keys = u.staged.keys)
    (backed : u.Backed s.claims none) :
    u'.Backed s.claims ((reply a u' s : Step op.Answer).waits op) := by
  intro r mem
  rw [unit] at mem
  refine (backed r mem).imp_left fun has => ?_
  cases r with
  | row wallet => show wallet ∈ u'.locked; rwa [locked]
  | key key => show key ∈ u'.staged.keys; rwa [keys]

theorem backed_await (awaited : u.awaited op = some q) (backed : u.Backed s.claims none) :
    u.Backed (s.claims.claim u.id q) ((await q u s : Step op.Answer).waits op) := by
  intro r mem
  rcases List.mem_append.mp mem with old | new
  · exact (backed r old).imp_right nofun
  · have same : r = q := congrArg Claim.resource (List.mem_singleton.mp new)
    exact Or.inr (same ▸ awaited)

theorem start_backed (now : Timestamp) (op : UnitOp) (backed : u.Backed s.claims none) :
    (u.start s now op).unit.Backed (u.start s now op).store.claims
      ((u.start s now op).waits op) := by
  cases op with
  | lockWallets pair =>
    simp only [start]
    split
    · rename_i free
      have first : u.awaited (.lockWallets pair) = some (.row pair.first) := by
        simp only [awaited, List.isEmpty_iff.mp free]
      exact backed_await first backed
    · exact backed_reply rfl rfl rfl backed
  | findByKey key => exact backed_reply rfl rfl rfl backed
  | insertTransaction draft =>
    simp only [start]
    split
    · exact backed_reply rfl rfl rfl backed
    · exact backed_await rfl backed
  | insertEntry draft =>
    simp only [start]
    split
    · exact backed_reply rfl rfl rfl backed
    · exact backed_reply rfl rfl rfl backed
  | setBalance wallet balance =>
    simp only [start]
    split
    · exact backed_reply rfl rfl rfl backed
    · exact backed_reply rfl rfl rfl backed
  | setStatus id status =>
    simp only [start]
    split
    · exact backed_reply rfl rfl rfl backed
    · exact backed_reply rfl rfl rfl backed

theorem enter_backed (now : Timestamp) (op : UnitOp) (backed : u.Backed s.claims none) :
    (u.enter s now op).unit.Backed (u.enter s now op).store.claims
      ((u.enter s now op).waits op) := by
  rcases u.enter_cases s now op with ⟨f, -, left, struck⟩ | ⟨left, started, -⟩
  · rw [struck]
    exact backed_reply (s := { s with faults := left }) rfl rfl rfl backed
  · rw [started]
    exact start_backed (s := { s with faults := left }) now op backed

/-- A lock that was waited for is had, or given back, or followed by a wait for the next one. -/
theorem resume_backed {st : Step op.Answer} (h : u.resume s now op = some st)
    (backed : u.Backed s.claims (u.awaited op)) :
    st.unit.Backed st.store.claims (st.waits op) := by
  unfold resume at h
  split at h <;> try contradiction
  rename_i q awaited
  split at h <;> try contradiction
  rw [awaited] at backed
  cases op with
  | lockWallets pair =>
    simp only [proceed] at h
    split at h
    · rename_i free
      have first : q = .row pair.first := by simpa [UnitOfWork.awaited, free] using awaited.symm
      cases h
      intro r mem
      rcases List.mem_append.mp mem with old | new
      · rcases backed r old with has | same
        · cases r with
          | row wallet => rw [Has, free] at has; contradiction
          | key key => exact Or.inl has
        · cases same
          exact Or.inl (first ▸ List.mem_singleton_self _)
      · have second : r = .row pair.second := congrArg Claim.resource (List.mem_singleton.mp new)
        rw [second]
        exact Or.inr rfl
    · rename_i wallet one
      have second : q = .row pair.second := by simpa [UnitOfWork.awaited, one] using awaited.symm
      cases h
      intro r mem
      rcases backed r mem with has | same
      · cases r with
        | row wallet => exact Or.inl (List.mem_append_left _ has)
        | key key => exact Or.inl has
      · cases same
        exact Or.inl (second ▸ List.mem_append_right _ (List.mem_singleton_self _))
    · contradiction
  | insertTransaction draft =>
    have key : q = .key draft.key := by simpa [UnitOfWork.awaited] using awaited.symm
    have dropped : u.Backed (s.claims.withdraw u.id (.key draft.key)) none := by
      intro r mem
      obtain ⟨old, other⟩ := List.mem_filter.mp mem
      rcases backed r old with has | same
      · exact Or.inl has
      · cases same
        simp [key] at other
    simp only [proceed] at h
    split at h
    · cases h
      exact dropped
    · split at h
      · cases h
        exact dropped
      · cases h
        intro r mem
        rcases backed r mem with has | same
        · cases r with
          | row wallet => exact Or.inl has
          | key key => exact Or.inl (List.mem_append_left _ has)
        · cases same
          exact Or.inl (key ▸ List.mem_append_right _ (List.mem_singleton_self _))
  | _ => contradiction

theorem Has.rank_lt {b : Books} {r : TransferRequest} {w : Work} {p : Resource} (has : u.Has p)
    (sound : w.Sound b r u true) (awaited : u.awaited (w.op r) = some q) : p.rank < q.rank := by
  cases w with
  | locking pair =>
    obtain ⟨-, staged, locked⟩ := sound
    cases p with
    | key key => rw [Has, staged] at has; contradiction
    | row wallet =>
      rcases locked with none | ⟨-, one⟩
      · rw [Has, none] at has
        contradiction
      · have second : q = .row pair.second := by
          simpa [UnitOfWork.awaited, Work.op, one] using awaited.symm
        rw [Has, one] at has
        rw [List.mem_singleton.mp has, second]
        exact pair.first_lt
  | inserting x y draft =>
    have key : q = .key draft.key := by simpa [UnitOfWork.awaited, Work.op] using awaited.symm
    cases p with
    | key key => rw [Has, sound.2.1] at has; contradiction
    | row wallet => exact key ▸ wallet.value_lt
  | _ => contradiction

end UnitOfWork

namespace TransferCall
variable {c c' : TransferCall} {s s' : Store} {supply supply' : Supply} {u : UnitOfWork}
  {r : TransferRequest}

def awaited? (c : TransferCall) : Option Resource :=
  match c.phase with
  | .working u w true => u.awaited (w.op c.request)
  | _ => none

def Backed (c : TransferCall) (cs : Claims) : Prop :=
  ∀ u, c.unit? = some u → u.Backed cs c.awaited?

theorem backed_over {x : TransferResult} {cs : Claims} : (⟨r, .done x⟩ : TransferCall).Backed cs :=
  nofun

theorem backed_enterPhase {x : Work ⊕ Conclusion} {cs : Claims} (backed : u.Backed cs none) :
    (⟨r, enterPhase u x⟩ : TransferCall).Backed cs := by
  intro v unit
  cases (unit?_enterPhase r u x).symm.trans unit
  have idle : (⟨r, enterPhase u x⟩ : TransferCall).awaited? = none := by
    rcases enterPhase_cases u x with ⟨w, h⟩ | ⟨t, h⟩ | ⟨y, h⟩ <;> rw [h] <;> rfl
  rwa [idle]

theorem backed_afterStep {w : Work} {st : UnitOfWork.Step (w.op r).Answer} {cs : Claims}
    (backed : st.unit.Backed cs (st.waits (w.op r))) :
    (⟨r, afterStep r supply w st⟩ : TransferCall).Backed cs := by
  unfold afterStep
  unfold UnitOfWork.Step.waits at backed
  split
  · rename_i waiting
    rw [waiting] at backed
    rintro v ⟨⟩
    exact backed
  · rename_i a replied
    rw [replied] at backed
    exact backed_enterPhase backed

theorem step_backed (new : ∀ q, ⟨q, s.nextUnit⟩ ∉ s.claims) (backed : c.Backed s.claims)
    (h : c.step s supply = some (c', s', supply')) : c'.Backed s'.claims := by
  obtain ⟨r, phase⟩ := c
  cases phase with
  | opening =>
    simp only [step, Store.begin] at h
    rcases s.strike_cases .begin with ⟨f, -, left, struck⟩ | ⟨left, struck, -⟩
    · rw [struck] at h
      cases h
      exact backed_over
    · rw [struck] at h
      cases h
      exact backed_enterPhase fun q mem => absurd mem (new q)
  | working u w entered =>
    cases entered with
    | false =>
      cases h
      exact backed_afterStep (u.enter_backed supply.now (w.op r) (backed u rfl))
    | true =>
      obtain ⟨st, resumed, h⟩ := Option.map_eq_some_iff.mp h
      cases h
      exact backed_afterStep (UnitOfWork.resume_backed resumed (backed u rfl))
  | committing u t =>
    simp only [step] at h
    rcases s.commit_cases u supply.now with ⟨f, -, left, ended⟩ | ⟨left, ended, -⟩
    · rw [ended] at h
      cases h
      exact backed_over
    · rw [ended] at h
      cases h
      exact backed_over
  | undoing u x =>
    cases h
    exact backed_over
  | done x => contradiction

theorem running_of_unit? (unit : c.unit? = some u) : c.result? = none := by
  obtain ⟨r, phase⟩ := c
  cases phase with
  | done x => contradiction
  | _ => rfl

/-- A call that is under way makes its next step, whatever comes from outside, or waits for a lock
that another unit holds. -/
theorem steps_or_waits (running : c.result? = none) (claiming : c.Claiming s.claims) :
    (∀ supply, (c.step s supply).isSome) ∨
      ∃ u q v, c.unit? = some u ∧ c.awaited? = some q ∧ s.claims.holder? q = some v ∧ v ≠ u.id := by
  obtain ⟨r, phase⟩ := c
  cases phase with
  | opening =>
    refine Or.inl fun supply => ?_
    simp only [step]
    split <;> rfl
  | working u w entered =>
    cases entered with
    | false => exact Or.inl fun supply => rfl
    | true =>
      obtain ⟨q, awaited, mem⟩ := claiming.awaits u w rfl
      obtain ⟨v, holder⟩ := Claims.holder?_of_mem mem
      by_cases mine : v = u.id
      · refine Or.inl fun supply => ?_
        obtain ⟨st, proceeds⟩ := UnitOfWork.proceeds s supply.now awaited
        have held : s.claims.holds u.id q = true := Claims.holds_iff.mpr (mine ▸ holder)
        simp only [step, UnitOfWork.resume, awaited, held, if_true, proceeds, Option.map_some,
          Option.isSome_some]
      · exact Or.inr ⟨u, q, v, rfl, awaited, holder, mine⟩
  | committing u t => exact Or.inl fun supply => rfl
  | undoing u x => exact Or.inl fun supply => rfl
  | done x => contradiction

end TransferCall

namespace System
variable {S S' : System} {i j : CallId} {c c' : TransferCall} {state : CallState} {store : Store}
  {ids : List Identifier} {u v : UnitId} {q : Resource}

structure Manned (S : System) : Prop where
  claimed : ∀ q u, ⟨q, u⟩ ∈ S.store.claims →
    ∃ i c x, S.transfer? i = some c ∧ c.unit? = some x ∧ x.id = u
  backed : ∀ i c, S.transfer? i = some c → c.Backed S.store.claims

theorem Manned.unclaimed (manned : S.Manned) (safe : S.Safe) (q : Resource) :
    ⟨q, S.store.nextUnit⟩ ∉ S.store.claims := by
  intro mem
  obtain ⟨i, c, x, here, unit, same⟩ := manned.claimed q _ mem
  exact Nat.ne_of_lt ((safe.fits i c here).begun x unit) same

theorem Manned.added (manned : S.Manned) (claims : store.claims = S.store.claims)
    (idle : ∀ c, state.transfer? = some c → c.unit? = none) : (S.add state store ids).Manned := by
  constructor
  · intro q u mem
    obtain ⟨i, c, x, here, rest⟩ := manned.claimed q u (claims ▸ mem)
    exact ⟨i, c, x, (transfer?_add_old (lt_of_transfer? here)).trans here, rest⟩
  · intro i c here
    show c.Backed store.claims
    rw [claims]
    rcases transfer?_add here with old | ⟨-, new⟩
    · exact manned.backed i c old
    · intro u unit
      rw [idle c new] at unit
      contradiction

theorem Manned.changed (manned : S.Manned) (safe : S.Safe) (here : S.transfer? i = some c)
    (unbegun : c.unit? = none → store.claims = S.store.claims)
    (change : ∀ u, c.unit? = some u → Claims.OwnChange u.id S.store.claims store.claims)
    (stays : ∀ u q, c.unit? = some u → ⟨q, u.id⟩ ∈ store.claims →
      ∃ c' x, state.transfer? = some c' ∧ c'.unit? = some x ∧ x.id = u.id)
    (backed : ∀ c', state.transfer? = some c' → c'.Backed store.claims) :
    (S.change i state store ids).Manned := by
  have others : ∀ j e, j ≠ i → S.transfer? j = some e →
      (S.change i state store ids).transfer? j = some e :=
    fun j e other there => (transfer?_change_other (Ne.symm other)).trans there
  -- A claim of another unit was there before.
  have older : ∀ q u, (∀ x, c.unit? = some x → u ≠ x.id) → ⟨q, u⟩ ∈ store.claims →
      ⟨q, u⟩ ∈ S.store.claims := by
    intro q u other mem
    cases unit : c.unit? with
    | none => exact unbegun unit ▸ mem
    | some x => exact ((change x unit).own _ mem).resolve_right (other x unit)
  constructor
  · intro q u mem
    have mem : ⟨q, u⟩ ∈ store.claims := mem
    by_cases mine : ∃ x, c.unit? = some x ∧ u = x.id
    · obtain ⟨x, unit, rfl⟩ := mine
      obtain ⟨c', y, now, unit', same⟩ := stays x q unit mem
      exact ⟨i, c', y, (transfer?_change_same here).trans now, unit', same⟩
    · have other : ∀ x, c.unit? = some x → u ≠ x.id := fun x unit same => mine ⟨x, unit, same⟩
      obtain ⟨j, e, y, there, unit, same⟩ := manned.claimed q u (older q u other mem)
      have differs : j ≠ i := by
        rintro rfl
        cases here.symm.trans there
        exact other y unit same.symm
      exact ⟨j, e, y, others j e differs there, unit, same⟩
  · intro j e there
    by_cases same : j = i
    · cases same
      exact backed e ((transfer?_change_same here).symm.trans there)
    · have before := (transfer?_change_other (Ne.symm same)).symm.trans there
      intro y unit q mem
      refine manned.backed j e before y unit q (older q y.id (fun x mine => ?_) mem)
      exact (safe.fits i c here).apart j e same before x y mine unit

theorem Manned.step (manned : S.Manned) (safe : S.Safe) (step : S.Step S') : S'.Manned := by
  cases step with
  | opened supply owner kind opening fresh =>
    rcases openWallet_cases (safe.wallet_new fresh) owner kind opening with
      ⟨e, failed⟩ | ⟨w, -, -, opened, -⟩
    · rw [failed]
      refine manned.added rfl fun c h => ?_
      cases h
    · rw [opened]
      refine manned.added rfl fun c h => ?_
      cases h
  | started r =>
    refine manned.added rfl fun c h => ?_
    cases h
    exact (TransferCall.start_idle r).1
  | @stepped i c c' store supply supply' here step fresh =>
    have locks := TransferCall.step_locks (safe.fits i c here).sound step
    refine manned.changed safe here locks.unbegun locks.change (fun u q unit mem => ?_)
      fun e h => ?_
    · cases after : c'.unit? with
      | some x => exact ⟨c', x, rfl, after, locks.same u x unit after⟩
      | none =>
        rw [locks.ended u unit after] at mem
        simp [Claims.release] at mem
    · cases h
      exact TransferCall.step_backed (manned.unclaimed safe) (manned.backed i c here) step
  | @abandoned i c state here running closed =>
    obtain ⟨-, -, idle, change⟩ := c.abandon_cases S.store
    refine manned.changed safe here idle change (fun u q unit mem => ?_) fun e h => ?_
    · simp [TransferCall.abandon, unit, Store.discard, Claims.release] at mem
    · rcases closed with rfl | ⟨limit, rfl⟩
      · contradiction
      · cases h
        exact TransferCall.backed_over
  | arranged faults => exact ⟨manned.claimed, manned.backed⟩

theorem Reachable.manned (h : S.Reachable) : S.Manned := by
  induction h with
  | start => exact ⟨fun _ _ => List.not_mem_nil.elim, fun i c here => by simp [transfer?] at here⟩
  | next before h ih => exact ih.step before.safe (step_of_next? h)

def Awaits (S : System) (u : UnitId) (q : Resource) : Prop :=
  ∃ i c x, S.transfer? i = some c ∧ c.unit? = some x ∧ x.id = u ∧ c.awaited? = some q

/-- The unit `u` waits for a lock that the unit `v` holds. -/
def WaitsFor (S : System) (u v : UnitId) : Prop :=
  ∃ q, S.Awaits u q ∧ S.store.claims.holder? q = some v ∧ v ≠ u

/-- What a waiting unit holds ranks below what it waits for, unless it is just that. -/
theorem Reachable.rank_lt (h : S.Reachable) {p : Resource} (awaits : S.Awaits u q)
    (held : S.store.claims.holder? p = some u) (other : p ≠ q) : p.rank < q.rank := by
  obtain ⟨i, c, x, here, unit, rfl, awaited⟩ := awaits
  have fits := h.safe.fits i c here
  obtain ⟨r, phase⟩ := c
  unfold TransferCall.awaited? at awaited
  split at awaited
  · rename_i y w working
    cases working
    cases unit
    rcases h.manned.backed i _ here x rfl p (Claims.mem_of_holder? held) with has | same
    · exact has.rank_lt fits.sound.phase awaited
    · exact absurd (Option.some.inj (same.symm.trans awaited)) other
  · contradiction

theorem Reachable.chain_rises (h : S.Reachable) (chain : Relation.TransGen S.WaitsFor u v) :
    ∃ q p, S.Awaits u q ∧ S.store.claims.holder? q ≠ some u ∧
      S.store.claims.holder? p = some v ∧ q.rank ≤ p.rank := by
  induction chain with
  | single edge =>
    obtain ⟨q, awaits, held, other⟩ := edge
    refine ⟨q, q, awaits, fun mine => other ?_, held, Nat.le_refl _⟩
    exact Option.some.inj (held.symm.trans mine)
  | @tail v x _ edge ih =>
    obtain ⟨q, p, awaits, theirs, held, rises⟩ := ih
    obtain ⟨p', awaits', held', other⟩ := edge
    have differs : p ≠ p' := by
      rintro rfl
      exact other (Option.some.inj (held'.symm.trans held))
    exact ⟨q, p', awaits, theirs, held', Nat.le_trans rises
      (Nat.le_of_lt (h.rank_lt awaits' held differs))⟩

theorem Reachable.acyclic (h : S.Reachable) (u : UnitId) : ¬Relation.TransGen S.WaitsFor u u := by
  intro cycle
  obtain ⟨q, p, awaits, theirs, held, rises⟩ := h.chain_rises cycle
  have differs : p ≠ q := by
    rintro rfl
    exact theirs held
  exact Nat.lt_irrefl _ (Nat.lt_of_lt_of_le (h.rank_lt awaits held differs) rises)

/-- A call that is under way and does not wait for anyone. -/
def Moving (S : System) (i : CallId) : Prop :=
  ∃ c, S.transfer? i = some c ∧ c.result? = none ∧ ∀ supply, (c.step S.store supply).isSome

/-- A chain of waits ends at a call that can move: the locks on it have higher and higher ranks. -/
theorem Reachable.chain_ends (h : S.Reachable) {x : UnitOfWork} (here : S.transfer? i = some c)
    (unit : c.unit? = some x) (awaited : c.awaited? = some q)
    (held : S.store.claims.holder? q = some v) (other : v ≠ x.id) : ∃ j, S.Moving j := by
  induction n : twoTo 128 - q.rank using Nat.strongRecOn generalizing i c x q v with
  | ind n ih =>
    obtain ⟨j, e, y, there, unit', rfl⟩ := h.manned.claimed q v (Claims.mem_of_holder? held)
    have running := e.running_of_unit? unit'
    rcases e.steps_or_waits running (h.safe.fits j e there).claiming with
      steps | ⟨z, p, w, unit'', awaited', held', other'⟩
    · exact ⟨j, e, there, running, steps⟩
    · cases unit'.symm.trans unit''
      have differs : q ≠ p := by
        rintro rfl
        exact other' (Option.some.inj (held'.symm.trans held))
      have rises := h.rank_lt ⟨j, e, y, there, unit', rfl, awaited'⟩ held differs
      have bound := p.rank_le
      exact ih _ (by omega) there unit' awaited' held' other' rfl

theorem Moving.next? (moving : S.Moving i) {supply : Supply} (fresh : supply.id ∉ S.drawn) :
    (S.next? (.step i supply)).isSome := by
  obtain ⟨c, here, -, steps⟩ := moving
  obtain ⟨⟨c', store, supply'⟩, step⟩ := Option.isSome_iff_exists.mp (steps supply)
  have unused : (c.draws supply).any (· ∈ S.drawn) = false := by
    unfold TransferCall.draws
    split
    · simpa using fresh
    · rfl
  simp [System.next?, here, unused, step]

/-- In no state of a run do units wait for each other in a circle, and as long as a transfer is under
way, one that is under way can make its next step. -/
theorem Reachable.deadlock_free (h : S.Reachable) :
    (∀ u, ¬Relation.TransGen S.WaitsFor u u) ∧
      ((∃ i c, S.transfer? i = some c ∧ c.result? = none) →
        ∃ j, S.Moving j ∧ ∀ supply, supply.id ∉ S.drawn → (S.next? (.step j supply)).isSome) := by
  refine ⟨h.acyclic, fun ⟨i, c, here, running⟩ => ?_⟩
  have moving : ∃ j, S.Moving j := by
    rcases c.steps_or_waits running (h.safe.fits i c here).claiming with
      steps | ⟨u, q, v, unit, awaited, held, other⟩
    · exact ⟨i, c, here, running, steps⟩
    · exact h.chain_ends here unit awaited held other
  obtain ⟨j, moves⟩ := moving
  exact ⟨j, moves, fun supply fresh => moves.next? fresh⟩

/-- The second transfer of the race waits for a row that the first one has locked. -/
theorem deadlock_free_race : ∃ S, ({} : System).run? (race.take 9) = some S ∧ S.WaitsFor 1 0 ∧
    (∀ u, ¬Relation.TransGen S.WaitsFor u u) ∧ ∃ j, S.Moving j := by
  have facts : (({} : System).run? (race.take 9)).map (fun S => (S.transfer? 3).map fun c =>
      (c.unit?.map (·.id), c.awaited?, S.store.claims.holder? (.row (.ofNat 1)),
        c.result?.isNone)) =
      some (some (some 1, some (.row (.ofNat 1)), some 0, true)) := by
    decide +kernel
  obtain ⟨S, ran, found⟩ := Option.map_eq_some_iff.mp facts
  obtain ⟨c, here, found⟩ := Option.map_eq_some_iff.mp found
  simp only [Prod.mk.injEq, Option.isNone_iff_eq_none] at found
  obtain ⟨unit, awaited, held, running⟩ := found
  obtain ⟨x, unit, id⟩ := Option.map_eq_some_iff.mp unit
  obtain ⟨acyclic, progress⟩ := (reachable_run .start ran).deadlock_free
  obtain ⟨j, moving, -⟩ := progress ⟨3, c, here, running⟩
  exact ⟨S, ran, ⟨_, ⟨3, c, x, here, unit, id, awaited⟩, held, by decide⟩, acyclic, j, moving⟩

end System

end WalletLedger
