import WalletLedger.Proofs.Run
import WalletLedger.Proofs.Stages

/-!
What one step of a transfer does, seen from the books. The books change in the one step that
commits; before it a transfer may be settled without a change, and the only failures of the store
are the faults that were arranged.
-/
namespace WalletLedger

theorem strike_mem {point : StorePoint} {fs : List Fault} {e : StoreError}
    (h : (strike point fs).1 = some e) : ∃ f ∈ fs, f.error = e := by
  induction fs with
  | nil => contradiction
  | cons f rest ih =>
    unfold strike at h
    split at h
    · split at h
      · cases h; exact ⟨f, by simp, rfl⟩
      · contradiction
    · obtain ⟨g, mem, same⟩ := ih h
      exact ⟨g, by simp [mem], same⟩

theorem Store.strike_cases (s : Store) (point : StorePoint) :
    (∃ f ∈ s.faults, ∃ left, s.strike point = (some f.error, { s with faults := left })) ∨
      ∃ left, s.strike point = (none, { s with faults := left }) ∧ (s.faults = [] → left = []) := by
  unfold Store.strike
  cases struck : WalletLedger.strike point s.faults with
  | mk error left =>
    cases error with
    | some e =>
      have first : (WalletLedger.strike point s.faults).1 = some e := by rw [struck]
      obtain ⟨f, mem, rfl⟩ := strike_mem first
      exact Or.inl ⟨f, mem, left, rfl⟩
    | none =>
      refine Or.inr ⟨left, rfl, fun empty => ?_⟩
      rw [empty] at struck
      cases struck
      rfl

theorem Store.commit_cases (s : Store) (u : UnitOfWork) (now : Timestamp) :
    (∃ f ∈ s.faults, ∃ left,
      s.commit u now = (.error f.error, { s with faults := left }.discard u)) ∨
      ∃ left, s.commit u now =
        (.ok (), ({ s with faults := left }.apply u.staged now).discard u) ∧
        (s.faults = [] → left = []) := by
  rcases s.strike_cases .commit with ⟨f, mem, left, struck⟩ | ⟨left, struck, calm⟩
  · exact Or.inl ⟨f, mem, left, by rw [commit, struck]⟩
  · exact Or.inr ⟨left, by rw [commit, struck], calm⟩

theorem UnitOfWork.enter_cases (u : UnitOfWork) (s : Store) (now : Timestamp) (op : UnitOp) :
    (∃ f ∈ s.faults, ∃ left,
      u.enter s now op = reply (.error f.error) u { s with faults := left }) ∨
      ∃ left, u.enter s now op = u.start { s with faults := left } now op ∧
        (s.faults = [] → left = []) := by
  unfold UnitOfWork.enter
  rcases s.strike_cases (point op) with ⟨f, mem, left, struck⟩ | ⟨left, struck, empty⟩
  · exact Or.inl ⟨f, mem, left, by rw [struck]⟩
  · exact Or.inr ⟨left, by rw [struck], empty⟩

namespace Work
variable {s : Store} {r : TransferRequest} {u : UnitOfWork} {supply : Supply}

theorem starts (w : Work) (coherent : s.books.Coherent) (valid : r.validate = .ok ())
    (fresh : ∀ x q, w = .lookingUp x q → s.books.transaction? supply.id = none)
    (sound : w.Sound s.books r u false) :
    Works s r supply w (u.start s supply.now (w.op r)) := by
  cases w with
  | locking pair => exact locking_starts sound
  | lookingUp x q => exact lookingUp_starts valid (fresh x q rfl) sound
  | inserting x q draft => exact inserting_starts sound
  | lookingUpWinner => exact lookingUpWinner_starts coherent valid sound
  | debiting id p => exact debiting_starts sound
  | crediting id p => exact crediting_starts sound
  | settingSender id p => exact settingSender_starts coherent sound
  | settingReceiver id p => exact settingReceiver_starts coherent sound
  | completing id => exact completing_starts sound

theorem resumes (w : Work) {st : UnitOfWork.Step (w.op r).Answer} (valid : r.validate = .ok ())
    (sound : w.Sound s.books r u true) (h : u.resume s supply.now (w.op r) = some st) :
    Works s r supply w st := by
  unfold UnitOfWork.resume at h
  split at h
  · split at h
    · cases w with
      | locking pair => exact locking_proceeds valid sound h
      | inserting x q draft => exact inserting_proceeds valid sound h
      | _ => contradiction
    · contradiction
  · contradiction

end Work

def TransferPhase.Sound (b : Books) (r : TransferRequest) : TransferPhase → Prop
  | opening | done _ => True
  | working u w entered => w.Sound b r u entered
  | committing u t => Completed b r u t
  | undoing _ result => ∀ t, result ≠ .ok (.created t)

namespace TransferCall

/-- The result, from the step that fixes it. -/
def decided? (c : TransferCall) : Option TransferResult :=
  match c.phase with
  | .undoing _ result | .done result => some result
  | .opening | .working _ _ _ | .committing _ _ => none

structure Sound (b : Books) (c : TransferCall) : Prop where
  valid : c.decided? = none → c.request.validate = .ok ()
  phase : c.phase.Sound b c.request

inductive Move (s : Store) (c c' : TransferCall) (s' : Store) : Prop where
  | working (same : s'.books = s.books) (before : c.decided? = none) (after : c'.decided? = none)
  | struck {f : Fault} (same : s'.books = s.books) (before : c.decided? = none) (mem : f ∈ s.faults)
      (after : c'.decided? = some (.error (.store f.error)))
  | settled {d : Draw} {x : TransferResult} (same : s'.books = s.books) (before : c.decided? = none)
      (result : s.books.transfer c.request d = (x, s.books)) (after : c'.decided? = some x)
  | posted {u : UnitOfWork} {d : Draw} {t : Transaction} {p : TransferPlan}
      (before : c.phase = .committing u (t.withStatus .completed d.completed))
      (staged : u.staged = .complete t p d) (writing : Writing s.books c.request u.locked d t p)
      (books : s'.books = s.books.post t p d)
      (after : c'.phase = .done (.ok (.created (t.withStatus .completed d.completed))))
  | returned {u : UnitOfWork} {x : TransferResult} (same : s'.books = s.books)
      (before : c.phase = .undoing u x) (after : c'.phase = .done x)

variable {s s' : Store} {c c' : TransferCall} {supply supply' : Supply}

theorem phase_of_result? {x : TransferResult} (h : c.result? = some x) : c.phase = .done x := by
  unfold result? at h
  split at h
  · rename_i y phase
    rw [phase, Option.some.inj h]
  · contradiction

theorem moves_on {u : UnitOfWork} {x : Work ⊕ Conclusion} (before : c.decided? = none)
    (valid : c.request.validate = .ok ()) (same : s'.books = s.books)
    (leads : Leads s.books c.request u x) :
    Move s c ⟨c.request, enterPhase u x⟩ s' ∧ Sound s'.books ⟨c.request, enterPhase u x⟩ := by
  rw [same]
  rcases x with w | t | t | e
  · exact ⟨.working same before rfl, fun _ => valid, leads⟩
  · exact ⟨.working same before rfl, fun _ => valid, leads⟩
  · obtain ⟨d, settled⟩ := leads
    have result : s.books.transfer c.request d = (.ok (.replayed t), s.books) := by
      simp only [Books.transfer, settled]
    exact ⟨.settled same before result rfl, fun _ => valid, by rintro _ ⟨⟩⟩
  · obtain ⟨d, settled⟩ := leads
    have result : s.books.transfer c.request d = (.error e, s.books) := by
      simp only [Books.transfer, settled]
    exact ⟨.settled same before result rfl, fun _ => valid, by rintro _ ⟨⟩⟩

theorem moves_in {faults : List Fault} {w : Work} {st : UnitOfWork.Step (w.op c.request).Answer}
    (before : c.decided? = none) (valid : c.request.validate = .ok ())
    (works : Works { s with faults := faults } c.request supply w st) :
    Move s c ⟨c.request, afterStep c.request supply w st⟩ st.store ∧
      Sound st.store.books ⟨c.request, afterStep c.request supply w st⟩ := by
  obtain ⟨same, -, ⟨waits, sound⟩ | ⟨a, replied, leads⟩⟩ := works
  · have phase : afterStep c.request supply w st = .working st.unit w true := by
      simp only [afterStep, waits]
    rw [phase, same]
    exact ⟨.working same before rfl, fun _ => valid, sound⟩
  · have phase : afterStep c.request supply w st =
        enterPhase st.unit (w.next c.request supply a) := by
      simp only [afterStep, replied, Work.after]
    rw [phase]
    exact moves_on before valid same leads

theorem books_commit {u : UnitOfWork} {r : TransferRequest} {d : Draw} {t : Transaction}
    {p : TransferPlan} (s : Store) (now : Timestamp)
    (writing : Writing s.books r u.locked d t p) :
    (s.apply (.complete t p d) now).books = s.books.post t p { d with committed := now } := by
  obtain ⟨x, q, postable⟩ := writing.postable
  have distinct : p.debit.wallet ≠ p.credit.wallet := by
    rw [postable.parties.1, postable.parties.2]
    exact TransferRequest.distinct_of_valid postable.valid
  have transactions : Table.put (·.id) (t.withStatus .completed d.completed) s.books.transactions =
      s.books.transactions ++ [t.withStatus .completed d.completed] :=
    Table.put_new (Table.find?_none_iff.mp writing.unused)
  have keys : Table.put Prod.fst (t.key, t.id) s.books.keys = s.books.keys ++ [(t.key, t.id)] := by
    refine Table.put_new (Table.has_false_iff.mp ?_)
    rw [postable.key_eq]
    exact postable.absent
  show Books.mk _ _ (Table.put (·.id) (t.withStatus .completed d.completed) s.books.transactions)
    (Table.put Prod.fst (t.key, t.id) s.books.keys) _ = _
  rw [transactions, keys]
  simp only [Books.post, Books.mk.injEq, true_and]
  refine ⟨?_, rfl, rfl⟩
  show (s.books.wallets.map _).map _ = _
  rw [List.map_map]
  exact List.map_congr_left fun w _ => Wallet.posted_of_set distinct w

theorem step_request (h : c.step s supply = some (c', s', supply')) : c'.request = c.request := by
  unfold step at h
  split at h
  · split at h <;> cases h <;> rfl
  · cases h; rfl
  · obtain ⟨st, -, h⟩ := Option.map_eq_some_iff.mp h
    cases h
    rfl
  · cases h; rfl
  · cases h; rfl
  · contradiction

/-- Every step of a sound transfer is one of the moves and leaves it sound. -/
theorem step_moves (coherent : s.books.Coherent) (sound : c.Sound s.books)
    (fresh : ∀ id ∈ c.draws supply, s.books.transaction? id = none)
    (h : c.step s supply = some (c', s', supply')) : Move s c c' s' ∧ c'.Sound s'.books := by
  obtain ⟨r, phase⟩ := c
  cases phase with
  | opening =>
    have valid := sound.valid rfl
    simp only [step, Store.begin] at h
    rcases s.strike_cases .begin with ⟨f, mem, left, struck⟩ | ⟨left, struck, -⟩
    · rw [struck] at h
      cases h
      exact ⟨.struck rfl rfl mem rfl, by rintro ⟨⟩, trivial⟩
    · rw [struck] at h
      cases h
      obtain ⟨pair, made, -⟩ := WalletPair.of_distinct (TransferRequest.distinct_of_valid valid)
      have work : r.work = .inl (.locking pair) := by simp only [TransferRequest.work, made]
      rw [work]
      exact ⟨.working rfl rfl rfl, fun _ => valid, made, rfl, Or.inl rfl⟩
  | working u w entered =>
    have valid := sound.valid rfl
    cases entered with
    | false =>
      simp only [step] at h
      cases h
      rcases u.enter_cases s supply.now (w.op r) with ⟨f, mem, left, struck⟩ | ⟨left, started, -⟩
      · rw [struck]
        exact ⟨.struck rfl rfl mem rfl, fun _ => valid, by rintro _ ⟨⟩⟩
      · have drawn : ∀ x q, w = .lookingUp x q → s.books.transaction? supply.id = none := by
          rintro x q rfl
          exact fresh supply.id (by simp [draws])
        have works : Works { s with faults := left } r supply w
            (u.start { s with faults := left } supply.now (w.op r)) :=
          w.starts coherent valid drawn sound.phase
        rw [started]
        exact moves_in rfl valid works
    | true =>
      obtain ⟨st, resumed, h⟩ := Option.map_eq_some_iff.mp h
      cases h
      exact moves_in rfl valid (w.resumes valid sound.phase resumed)
  | committing u t =>
    obtain ⟨d, pending, p, writing, staged, rfl⟩ := sound.phase
    simp only [step] at h
    rcases s.commit_cases u supply.now with ⟨f, mem, left, ended⟩ | ⟨left, ended, -⟩
    · rw [ended] at h
      cases h
      exact ⟨.struck rfl rfl mem rfl, by rintro ⟨⟩, trivial⟩
    · rw [ended] at h
      cases h
      refine ⟨.posted (d := { d with committed := supply.now }) rfl staged
        (writing.at_times d.debited d.credited d.completed supply.now) ?_ rfl, by rintro ⟨⟩,
        trivial⟩
      rw [staged]
      exact books_commit { s with faults := left } supply.now writing
  | undoing u x =>
    cases h
    exact ⟨.returned rfl rfl rfl, by rintro ⟨⟩, trivial⟩
  | done x => contradiction

end TransferCall

end WalletLedger
