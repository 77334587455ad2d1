import WalletLedger.Proofs.Locks
import WalletLedger.Proofs.Moves

/-!
The locks of a transfer under way. It holds the rows that it has locked and the key that it has
staged, and while it waits it stands in the line of what it waits for. A step changes claims of
its own unit only, and the step that ends the unit ends all of them.
-/
namespace WalletLedger

structure UnitOfWork.Holds (u : UnitOfWork) (cs : Claims) : Prop where
  rows : ∀ w ∈ u.locked, cs.holds u.id (.row w) = true
  keys : ∀ k ∈ u.staged.keys, cs.holds u.id (.key k) = true

theorem UnitOfWork.Holds.keep {u : UnitOfWork} {cs cs' : Claims} (h : u.Holds cs)
    (keep : ∀ r, cs.holds u.id r = true → cs'.holds u.id r = true) : u.Holds cs' :=
  ⟨fun w mem => keep _ (h.rows w mem), fun k mem => keep _ (h.keys k mem)⟩

def UnitOfWork.Awaits (u : UnitOfWork) (op : UnitOp) (cs : Claims) : Prop :=
  ∃ r, u.awaited op = some r ∧ ⟨r, u.id⟩ ∈ cs

namespace UnitOfWork
variable {u : UnitOfWork} {s : Store} {now : Timestamp} {op : UnitOp}

structure Steps (u : UnitOfWork) (s : Store) (op : UnitOp) (st : Step op.Answer) : Prop where
  unit : st.unit.id = u.id
  next : st.store.nextUnit = s.nextUnit
  calm : s.faults = [] → st.store.faults = []
  claims : Claims.OwnChange u.id s.claims st.store.claims
  holds : u.Holds s.claims → st.unit.Holds st.store.claims
  awaits : st.progress = .waiting → st.unit.Awaits op st.store.claims

theorem steps_reply {r : Except StoreError op.Answer} {u' : UnitOfWork} (unit : u'.id = u.id)
    (locked : u'.locked = u.locked) (keys : u'.staged.keys = u.staged.keys) :
    Steps u s op (reply r u' s) := by
  refine ⟨unit, rfl, fun none => none, .refl _ _, fun holds => ⟨?_, ?_⟩, by rintro ⟨⟩⟩
  · intro w mem
    show s.claims.holds u'.id _ = true
    rw [unit]
    exact holds.rows w (locked ▸ mem)
  · intro k mem
    show s.claims.holds u'.id _ = true
    rw [unit]
    exact holds.keys k (keys ▸ mem)

theorem steps_await {r : Resource} (awaited : u.awaited op = some r) :
    Steps u s op (await r u s) :=
  ⟨rfl, rfl, fun none => none, Claims.ownChange_claim _ _ _,
    fun holds => holds.keep fun _ => Claims.holds_claim,
    fun _ => ⟨r, awaited, Claims.mem_claim_self⟩⟩

theorem start_steps (u : UnitOfWork) (s : Store) (now : Timestamp) (op : UnitOp) :
    Steps u s op (u.start s now op) := by
  cases op with
  | lockWallets pair =>
    simp only [start]
    split
    · rename_i free
      exact steps_await (by simp only [awaited, List.isEmpty_iff.mp free])
    · exact steps_reply rfl rfl rfl
  | findByKey key => exact steps_reply rfl rfl rfl
  | insertTransaction draft =>
    simp only [start]
    split
    · exact steps_reply rfl rfl rfl
    · exact steps_await rfl
  | insertEntry draft =>
    simp only [start]
    split
    · exact steps_reply rfl rfl rfl
    · exact steps_reply rfl rfl rfl
  | setBalance wallet balance =>
    simp only [start]
    split
    · exact steps_reply rfl rfl rfl
    · exact steps_reply rfl rfl rfl
  | setStatus id status =>
    simp only [start]
    split
    · exact steps_reply rfl rfl rfl
    · exact steps_reply rfl rfl rfl

theorem enter_steps (u : UnitOfWork) (s : Store) (now : Timestamp) (op : UnitOp) :
    Steps u s op (u.enter s now op) := by
  rcases u.enter_cases s now op with ⟨f, mem, left, struck⟩ | ⟨left, started, calm⟩
  · have h : Steps u { s with faults := left } op
        (reply (.error f.error) u { s with faults := left }) := steps_reply rfl rfl rfl
    rw [struck]
    refine ⟨h.unit, h.next, fun none => ?_, h.claims, h.holds, h.awaits⟩
    rw [none] at mem
    contradiction
  · have h := start_steps u { s with faults := left } now op
    rw [started]
    exact ⟨h.unit, h.next, fun none => h.calm (calm none), h.claims, h.holds, h.awaits⟩

/-- Going on needs the awaited lock, and what is gained by it is held. A key that turns out to be
taken is given back; the unit must not have staged it before. -/
theorem resume_steps {st : Step op.Answer} (h : u.resume s now op = some st)
    (unstaged : ∀ draft, op = .insertTransaction draft → draft.key ∉ u.staged.keys) :
    Steps u s op st := by
  unfold resume at h
  split at h
  · rename_i r awaited
    split at h
    · rename_i held
      cases op with
      | lockWallets pair =>
        simp only [proceed] at h
        split at h
        · rename_i free
          have first : r = .row pair.first := by simpa [UnitOfWork.awaited, free] using awaited.symm
          cases h
          refine ⟨rfl, rfl, fun none => none, Claims.ownChange_claim _ _ _,
            fun holds => ⟨?_, ?_⟩, fun _ => ?_⟩
          · intro w mem
            rw [List.mem_singleton.mp mem, ← first]
            exact Claims.holds_claim held
          · exact fun k mem => Claims.holds_claim (holds.keys k mem)
          · exact ⟨.row pair.second, rfl, Claims.mem_claim_self⟩
        · rename_i w one
          have second : r = .row pair.second := by
            simpa [UnitOfWork.awaited, one] using awaited.symm
          cases h
          refine ⟨rfl, rfl, fun none => none, .refl _ _, fun holds => ⟨?_, holds.keys⟩,
            by rintro ⟨⟩⟩
          intro x mem
          rcases List.mem_append.mp mem with mem | mem
          · exact holds.rows x mem
          · rw [List.mem_singleton.mp mem, ← second]
            exact held
        · contradiction
      | insertTransaction draft =>
        have key : r = .key draft.key := by simpa [UnitOfWork.awaited] using awaited.symm
        have free := unstaged draft rfl
        have dropped : u.Holds s.claims → u.Holds (s.claims.withdraw u.id (.key draft.key)) := by
          intro holds
          constructor
          · intro w mem
            refine Claims.holds_withdraw (Or.inr ?_) (holds.rows w mem)
            rintro ⟨⟩
          · intro k mem
            refine Claims.holds_withdraw (Or.inr ?_) (holds.keys k mem)
            rintro ⟨⟩
            exact free mem
        simp only [proceed] at h
        split at h
        · cases h
          exact ⟨rfl, rfl, fun none => none, Claims.ownChange_withdraw _ _ _, dropped,
            by rintro ⟨⟩⟩
        · split at h
          · cases h
            exact ⟨rfl, rfl, fun none => none, Claims.ownChange_withdraw _ _ _, dropped,
              by rintro ⟨⟩⟩
          · cases h
            refine ⟨rfl, rfl, fun none => none, .refl _ _, fun holds => ⟨holds.rows, ?_⟩,
              by rintro ⟨⟩⟩
            intro k mem
            rcases List.mem_append.mp mem with mem | mem
            · exact holds.keys k mem
            · rw [List.mem_singleton.mp mem, ← key]
              exact held
      | _ => contradiction
    · contradiction
  · contradiction

end UnitOfWork

namespace TransferCall

structure Claiming (c : TransferCall) (cs : Claims) : Prop where
  holds : ∀ u, c.unit? = some u → u.Holds cs
  awaits : ∀ u w, c.phase = .working u w true → u.Awaits (w.op c.request) cs

structure Locking (c c' : TransferCall) (s s' : Store) : Prop where
  claiming : c.Claiming s.claims → c'.Claiming s'.claims
  unbegun : c.unit? = none → s'.claims = s.claims
  begun : c.unit? = none → ∀ u', c'.unit? = some u' →
    u'.id = s.nextUnit ∧ s'.nextUnit = s.nextUnit + 1
  change : ∀ u, c.unit? = some u → Claims.OwnChange u.id s.claims s'.claims
  next : s.nextUnit ≤ s'.nextUnit
  calm : s.faults = [] → s'.faults = []
  same : ∀ u u', c.unit? = some u → c'.unit? = some u' → u'.id = u.id
  ended : ∀ u, c.unit? = some u → c'.unit? = none → s'.claims = s.claims.release u.id

variable {s s' : Store} {c c' : TransferCall} {supply supply' : Supply} {r : TransferRequest}
  {u : UnitOfWork}

theorem enterPhase_cases (u : UnitOfWork) (x : Work ⊕ Conclusion) :
    (∃ w, enterPhase u x = .working u w false) ∨ (∃ t, enterPhase u x = .committing u t) ∨
      ∃ y, enterPhase u x = .undoing u y := by
  rcases x with w | t | t | e
  · exact Or.inl ⟨w, rfl⟩
  · exact Or.inr (Or.inl ⟨t, rfl⟩)
  · exact Or.inr (Or.inr ⟨_, rfl⟩)
  · exact Or.inr (Or.inr ⟨_, rfl⟩)

theorem unit?_enterPhase (r : TransferRequest) (u : UnitOfWork) (x : Work ⊕ Conclusion) :
    (⟨r, enterPhase u x⟩ : TransferCall).unit? = some u := by
  rcases enterPhase_cases u x with ⟨w, h⟩ | ⟨t, h⟩ | ⟨y, h⟩ <;> rw [h] <;> rfl

theorem claiming_enterPhase {x : Work ⊕ Conclusion} {cs : Claims} (holds : u.Holds cs) :
    (⟨r, enterPhase u x⟩ : TransferCall).Claiming cs := by
  constructor
  · intro u' h
    cases (unit?_enterPhase r u x).symm.trans h
    exact holds
  · intro u' w h
    have h : enterPhase u x = .working u' w true := h
    rcases enterPhase_cases u x with ⟨w', k⟩ | ⟨t, k⟩ | ⟨y, k⟩ <;> cases k.symm.trans h

theorem claiming_over {x : TransferResult} {cs : Claims} :
    (⟨r, .done x⟩ : TransferCall).Claiming cs := by
  constructor
  · intro u h
    simp [unit?] at h
  · intro u w h
    cases h

theorem locking_working {w : Work} {entered : Bool} {st : UnitOfWork.Step (w.op r).Answer}
    (steps : UnitOfWork.Steps u s (w.op r) st) :
    Locking ⟨r, .working u w entered⟩ ⟨r, afterStep r supply w st⟩ s st.store := by
  have after : (st.progress = .waiting ∧ afterStep r supply w st = .working st.unit w true) ∨
      ∃ x, afterStep r supply w st = enterPhase st.unit x := by
    unfold afterStep
    cases st.progress with
    | waiting => exact Or.inl ⟨rfl, rfl⟩
    | replied a => exact Or.inr ⟨_, rfl⟩
  have unit : (⟨r, afterStep r supply w st⟩ : TransferCall).unit? = some st.unit := by
    rcases after with ⟨-, phase⟩ | ⟨x, phase⟩
    · rw [phase]; rfl
    · rw [phase]; exact unit?_enterPhase r st.unit x
  refine ⟨fun claiming => ?_, by rintro ⟨⟩, by rintro ⟨⟩, ?_, Nat.le_of_eq steps.next.symm,
    steps.calm, ?_, ?_⟩
  · have holds := steps.holds (claiming.holds u rfl)
    rcases after with ⟨waiting, phase⟩ | ⟨x, phase⟩
    · rw [phase]
      constructor
      · rintro u' ⟨⟩; exact holds
      · rintro u' w' ⟨⟩; exact steps.awaits waiting
    · rw [phase]
      exact claiming_enterPhase holds
  · rintro u' ⟨⟩
    exact steps.claims
  · rintro u' u'' ⟨⟩ h
    cases unit.symm.trans h
    exact steps.unit
  · intro u' _ h
    cases unit.symm.trans h

theorem locking_ends {phase : TransferPhase} {x : TransferResult} {faults : List Fault}
    {books : Books} (calm : s.faults = [] → faults = [])
    (unit : (⟨r, phase⟩ : TransferCall).unit? = some u) :
    Locking ⟨r, phase⟩ ⟨r, .done x⟩ s ⟨books, faults, s.claims.release u.id, s.nextUnit⟩ := by
  refine ⟨fun _ => claiming_over, ?_, ?_, ?_, Nat.le_refl _, calm, by rintro _ _ _ ⟨⟩, ?_⟩
  · intro h; cases unit.symm.trans h
  · intro h; cases unit.symm.trans h
  · intro u' h
    cases unit.symm.trans h
    exact Claims.ownChange_release _ _
  · intro u' h _
    cases unit.symm.trans h
    rfl

theorem step_locks (sound : c.Sound s.books) (h : c.step s supply = some (c', s', supply')) :
    Locking c c' s s' := by
  obtain ⟨r, phase⟩ := c
  cases phase with
  | opening =>
    simp only [step, Store.begin] at h
    rcases s.strike_cases .begin with ⟨f, mem, left, struck⟩ | ⟨left, struck, calm⟩
    · rw [struck] at h
      cases h
      refine ⟨fun _ => claiming_over, fun _ => rfl, by rintro _ _ ⟨⟩, by rintro _ ⟨⟩,
        Nat.le_refl _, fun none => ?_, by rintro _ _ ⟨⟩, by rintro _ ⟨⟩⟩
      rw [none] at mem
      contradiction
    · rw [struck] at h
      cases h
      have unclaimed : (⟨s.nextUnit, [], {}⟩ : UnitOfWork).Holds s.claims :=
        ⟨fun _ => List.not_mem_nil.elim, fun _ => List.not_mem_nil.elim⟩
      refine ⟨fun _ => claiming_enterPhase unclaimed, fun _ => rfl, fun _ u' h => ?_,
        by rintro _ ⟨⟩, Nat.le_succ _, calm, by rintro _ _ ⟨⟩, by rintro _ ⟨⟩⟩
      cases (unit?_enterPhase r _ _).symm.trans h
      exact ⟨rfl, rfl⟩
  | working u w entered =>
    cases entered with
    | false =>
      simp only [step] at h
      cases h
      exact locking_working (u.enter_steps s supply.now (w.op r))
    | true =>
      obtain ⟨st, resumed, h⟩ := Option.map_eq_some_iff.mp h
      cases h
      refine locking_working (UnitOfWork.resume_steps resumed fun draft same => ?_)
      -- A stage that inserts a transaction has staged nothing yet.
      cases w with
      | inserting x q d => rw [sound.phase.2.1]; exact List.not_mem_nil
      | _ => contradiction
  | committing u t =>
    simp only [step] at h
    rcases s.commit_cases u supply.now with ⟨f, mem, left, ended⟩ | ⟨left, ended, calm⟩
    · rw [ended] at h
      cases h
      refine locking_ends (fun none => ?_) rfl
      rw [none] at mem
      contradiction
    · rw [ended] at h
      cases h
      exact locking_ends calm rfl
  | undoing u x =>
    cases h
    exact locking_ends id rfl
  | done x => contradiction

end TransferCall

end WalletLedger
