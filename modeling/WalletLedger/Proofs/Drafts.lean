import WalletLedger.Proofs.Run

/-!
The identifier under which a transfer is going to record its transaction. It is drawn once, when
no earlier transfer with the key is found, and stays the same from then on.
-/
namespace WalletLedger

namespace Work

def drafted? : Work → Option TransactionId
  | inserting _ _ draft => some draft.id
  | debiting id _ | crediting id _ | settingSender id _ | settingReceiver id _ | completing id =>
    some id
  | locking _ | lookingUp _ _ | lookingUpWinner => none

def Faithful (r : TransferRequest) : (w : Work) → (w.op r).Answer → Prop
  | inserting _ _ draft, outcome => ∀ t, outcome = .inserted t → t.id = draft.id
  | completing id, t => t.id = id
  | locking _, _ | lookingUp _ _, _ | lookingUpWinner, _ | debiting _ _, _ | crediting _ _, _
  | settingSender _ _, _ | settingReceiver _ _, _ => True

end Work

def TransferPhase.drafted? : TransferPhase → Option TransactionId
  | working _ w _ => w.drafted?
  | committing _ t => some t.id
  | opening | undoing _ _ | done _ => none

def TransferCall.drafted? (c : TransferCall) : Option TransactionId := c.phase.drafted?

namespace Work
variable {r : TransferRequest} {u : UnitOfWork} {s : Store} {now : Timestamp} {w : Work}
  {id : TransactionId}

theorem failed_progress {α : Type} {e : StoreError} {a : α}
    (h : (UnitOfWork.reply (.error e) u s).progress = .replied (.ok a)) : False := by
  cases h

theorem faithful_start {a : (w.op r).Answer}
    (h : (u.start s now (w.op r)).progress = .replied (.ok a)) : w.Faithful r a := by
  cases w with
  | inserting x q draft =>
    simp only [op, UnitOfWork.start] at h
    split at h
    · cases h
      intro t same
      cases same
    · contradiction
  | completing id =>
    simp only [op, UnitOfWork.start] at h
    split at h
    · exact (failed_progress h).elim
    · rename_i t found
      cases h
      show t.id = id
      cases staged : Table.find? (·.id) id u.staged.transactions with
      | some t' =>
        rw [staged] at found
        cases found
        exact (Table.find?_mem staged).2
      | none =>
        rw [staged] at found
        exact Books.transaction?_id found
  | _ => trivial

theorem faithful_enter {a : (w.op r).Answer}
    (h : (u.enter s now (w.op r)).progress = .replied (.ok a)) : w.Faithful r a := by
  unfold UnitOfWork.enter at h
  split at h
  · exact (failed_progress h).elim
  · exact faithful_start h

theorem faithful_resume {st : UnitOfWork.Step (w.op r).Answer} {a : (w.op r).Answer}
    (step : u.resume s now (w.op r) = some st) (h : st.progress = .replied (.ok a)) :
    w.Faithful r a := by
  unfold UnitOfWork.resume at step
  split at step
  · split at step
    · cases w with
      | inserting x q draft =>
        simp only [op, UnitOfWork.proceed] at step
        split at step
        · cases step
          cases h
          intro t same
          cases same
        · split at step
          · cases step
            exact (failed_progress h).elim
          · cases step
            cases h
            intro t same
            cases same
            rfl
      | completing id => contradiction
      | _ => trivial
    · contradiction
  · contradiction

theorem drafted_next {supply : Supply} {a : (w.op r).Answer} (faithful : w.Faithful r a)
    (h : (TransferCall.enterPhase u (w.next r supply a)).drafted? = some id) :
    w.drafted? = some id ∨ (∃ x q, w = .lookingUp x q) ∧ supply.id = id := by
  cases w with
  | locking pair =>
    simp only [next] at h
    split at h <;> cases h
  | lookingUp x q =>
    simp only [next] at h
    split at h
    · cases h
    · split at h
      · cases h
      · cases h
        exact Or.inr ⟨⟨x, q, rfl⟩, rfl⟩
  | inserting x q draft =>
    simp only [next] at h
    split at h
    · cases h
    · rename_i t
      have same : t.id = draft.id := faithful t rfl
      split at h
      · cases h
      · cases h
        exact Or.inl (congrArg some same.symm)
  | lookingUpWinner =>
    simp only [next] at h
    split at h <;> cases h
  | completing id' =>
    cases h
    exact Or.inl (congrArg some (Eq.symm faithful))
  | _ => exact Or.inl h

end Work

namespace TransferCall
variable {c c' : TransferCall} {s s' : Store} {supply supply' : Supply} {id : TransactionId}

theorem drafted_after {r : TransferRequest} {u : UnitOfWork} {w : Work} {entered : Bool}
    {st : UnitOfWork.Step (w.op r).Answer}
    (faithful : ∀ a, st.progress = .replied (.ok a) → w.Faithful r a)
    (h : (afterStep r supply w st).drafted? = some id) :
    w.drafted? = some id ∨
      id ∈ (⟨r, .working u w entered⟩ : TransferCall).draws supply := by
  unfold afterStep at h
  split at h
  · exact Or.inl h
  · rename_i reply replied
    cases reply with
    | error e => cases h
    | ok a =>
      rcases Work.drafted_next (faithful a replied) h with same | ⟨⟨x, q, rfl⟩, same⟩
      · exact Or.inl same
      · exact Or.inr (by simp [draws, same])

theorem drafted_step (h : c.step s supply = some (c', s', supply'))
    (drafted : c'.drafted? = some id) : c.drafted? = some id ∨ id ∈ c.draws supply := by
  obtain ⟨r, phase⟩ := c
  cases phase with
  | opening =>
    simp only [step] at h
    split at h
    · cases h
      cases drafted
    · cases h
      unfold TransferRequest.work at drafted
      dsimp only [TransferCall.drafted?] at drafted
      split at drafted <;> cases drafted
  | working u w entered =>
    cases entered with
    | false =>
      simp only [step] at h
      cases h
      exact drafted_after (fun a => Work.faithful_enter) drafted
    | true =>
      obtain ⟨st, resumed, h⟩ := Option.map_eq_some_iff.mp h
      cases h
      exact drafted_after (fun a => Work.faithful_resume resumed) drafted
  | committing u t =>
    simp only [step] at h
    cases h
    cases drafted
  | undoing u x =>
    cases h
    cases drafted
  | done x => contradiction

end TransferCall

end WalletLedger
