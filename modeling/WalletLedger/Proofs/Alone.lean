import WalletLedger.Proofs.Deeds
import WalletLedger.Proofs.Drafts
import WalletLedger.Proofs.Holding

/-!
A transfer that has the store for itself. Without anybody beside it, it never waits, comes to its
end and gives every lock back. It does to the books what the ledger does in one step, or a fault
strikes it and it leaves them alone.
-/
namespace WalletLedger

namespace TransferCall

def finish (c : TransferCall) (s : Store) (supply : Supply) : Option (TransferResult × Store) :=
  match _h : c.step s supply with
  | none => c.result?.map (·, s)
  | some (c', s', supply') => finish c' s' supply'
termination_by c.phase.left
decreasing_by exact left_step_lt _h

end TransferCall

namespace TransferPhase

def Undrawn : TransferPhase → Prop
  | opening | working _ (.locking _) _ | working _ (.lookingUp _ _) false => True
  | _ => False

end TransferPhase

theorem UnitOfWork.proceeds {u : UnitOfWork} {op : UnitOp} {r : Resource} (s : Store)
    (now : Timestamp) (awaited : u.awaited op = some r) : ∃ st, u.proceed s now op = some st := by
  cases op with
  | lockWallets pair =>
    simp only [UnitOfWork.awaited] at awaited
    split at awaited
    · rename_i free
      simp only [proceed, free]
      exact ⟨_, rfl⟩
    · rename_i one
      simp only [proceed, one]
      exact ⟨_, rfl⟩
    · contradiction
  | insertTransaction draft =>
    simp only [proceed]
    split
    · exact ⟨_, rfl⟩
    · split
      · exact ⟨_, rfl⟩
      · exact ⟨_, rfl⟩
  | findByKey | insertEntry | setBalance | setStatus => contradiction

namespace TransferCall
variable {c c' : TransferCall} {s s' : Store} {supply supply' : Supply} {id : TransactionId}

theorem undrawn_next {r : TransferRequest} {u : UnitOfWork} {w : Work} {a : (w.op r).Answer}
    (h : (enterPhase u (w.next r supply a)).Undrawn) : ∃ pair, w = .locking pair := by
  cases w with
  | locking pair => exact ⟨pair, rfl⟩
  | lookingUp x q =>
    simp only [Work.next] at h
    split at h
    · cases h
    · split at h <;> cases h
  | inserting x q draft =>
    simp only [Work.next] at h
    split at h
    · cases h
    · split at h <;> cases h
  | lookingUpWinner =>
    simp only [Work.next] at h
    split at h <;> cases h
  | _ => cases h

theorem undrawn_after {r : TransferRequest} {w : Work} {st : UnitOfWork.Step (w.op r).Answer}
    (h : (afterStep r supply w st).Undrawn) : ∃ pair, w = .locking pair := by
  unfold afterStep at h
  split at h
  · cases w with
    | locking pair => exact ⟨pair, rfl⟩
    | _ => cases h
  · rename_i reply _
    cases reply with
    | error e => cases h
    | ok a => exact undrawn_next h

theorem undrawn_step (h : c.step s supply = some (c', s', supply')) (undrawn : c'.phase.Undrawn) :
    c.phase.Undrawn ∧ supply'.id = supply.id := by
  obtain ⟨r, phase⟩ := c
  cases phase with
  | opening =>
    simp only [step] at h
    split at h <;> cases h <;> exact ⟨trivial, rfl⟩
  | working u w entered =>
    cases entered with
    | false =>
      simp only [step] at h
      cases h
      obtain ⟨pair, rfl⟩ := undrawn_after undrawn
      exact ⟨trivial, rfl⟩
    | true =>
      obtain ⟨st, -, h⟩ := Option.map_eq_some_iff.mp h
      cases h
      obtain ⟨pair, rfl⟩ := undrawn_after undrawn
      exact ⟨trivial, rfl⟩
  | committing u t => cases h; cases undrawn
  | undoing u x => cases h; cases undrawn
  | done x => contradiction

theorem undrawn_draws (h : c.step s supply = some (c', s', supply')) {x : Identifier}
    (drawn : x ∈ c.draws supply) : c.phase.Undrawn ∧ x = supply.id := by
  obtain ⟨r, phase⟩ := c
  unfold draws at drawn
  split at drawn
  · rename_i u y q entered phase
    cases phase
    cases entered with
    | false => exact ⟨trivial, List.mem_singleton.mp drawn⟩
    | true => contradiction
  · contradiction

/-- A transfer on a store that nobody else uses. The identifier is the one that it draws, or has
drawn, for its transaction. -/
structure Alone (id : TransactionId) (c : TransferCall) (s : Store) (supply : Supply) : Prop where
  coherent : s.books.Coherent
  sound : c.Sound s.books
  claiming : c.Claiming s.claims
  own : ∀ u, c.unit? = some u → ∀ x ∈ s.claims, x.unit = u.id
  idle : c.unit? = none → s.claims = []
  unused : c.decided? = none → s.books.transaction? id = none
  undrawn : c.phase.Undrawn → supply.id = id
  drafted : ∀ x, c.drafted? = some x → x = id

theorem Alone.steps (alone : Alone id c s supply) (running : c.result? = none) :
    ∃ x, c.step s supply = some x := by
  obtain ⟨r, phase⟩ := c
  cases phase with
  | opening =>
    simp only [step]
    split <;> exact ⟨_, rfl⟩
  | working u w entered =>
    cases entered with
    | false => exact ⟨_, rfl⟩
    | true =>
      obtain ⟨resource, awaited, mem⟩ := alone.claiming.awaits u w rfl
      have held := Claims.holds_alone (alone.own u rfl) mem
      obtain ⟨st, proceeds⟩ := UnitOfWork.proceeds s supply.now awaited
      have resumed : u.resume s supply.now (w.op r) = some st := by
        simp only [UnitOfWork.resume, awaited, held, if_true, proceeds]
      simp only [step, resumed, Option.map_some]
      exact ⟨_, rfl⟩
  | committing u t => exact ⟨_, rfl⟩
  | undoing u x => exact ⟨_, rfl⟩
  | done x => contradiction

theorem Alone.fresh (alone : Alone id c s supply) (h : c.step s supply = some (c', s', supply')) :
    ∀ x ∈ c.draws supply, s.books.transaction? x = none := by
  intro x drawn
  obtain ⟨undrawn, rfl⟩ := undrawn_draws h drawn
  rw [alone.undrawn undrawn]
  refine alone.unused ?_
  unfold decided?
  cases phase : c.phase <;> rw [phase] at undrawn <;> first | rfl | cases undrawn

theorem Alone.next (alone : Alone id c s supply) (h : c.step s supply = some (c', s', supply')) :
    Alone id c' s' supply' ∧ Move s c c' s' := by
  obtain ⟨move, sound⟩ := step_moves alone.coherent alone.sound (alone.fresh h) h
  have locks := step_locks alone.sound h
  have books : s'.books.Coherent ∧ (c'.decided? = none → s'.books = s.books ∧ c.decided? = none) := by
    cases move with
    | working same before after => exact ⟨same ▸ alone.coherent, fun _ => ⟨same, before⟩⟩
    | struck same before mem after =>
      exact ⟨same ▸ alone.coherent, fun open? => by simp [after] at open?⟩
    | settled same before result after =>
      exact ⟨same ▸ alone.coherent, fun open? => by simp [after] at open?⟩
    | posted before staged writing posted after =>
      obtain ⟨x, q, postable⟩ := writing.postable
      exact ⟨posted ▸ alone.coherent.post postable writing.unused,
        fun open? => by simp [decided?, after] at open?⟩
    | returned same before after =>
      exact ⟨same ▸ alone.coherent, fun open? => by simp [decided?, after] at open?⟩
  obtain ⟨coherent, undecided⟩ := books
  refine ⟨⟨coherent, sound, locks.claiming alone.claiming, ?_, ?_, ?_, ?_, ?_⟩, move⟩
  · intro u' unit x mem
    cases before : c.unit? with
    | none =>
      rw [locks.unbegun before, alone.idle before] at mem
      contradiction
    | some u =>
      rw [locks.same u u' before unit]
      rcases (locks.change u before).own x mem with old | mine
      · exact alone.own u before x old
      · exact mine
  · intro unit
    cases before : c.unit? with
    | none => rw [locks.unbegun before, alone.idle before]
    | some u =>
      rw [locks.ended u before unit]
      exact Claims.release_alone (alone.own u before)
  · intro still
    obtain ⟨same, before⟩ := undecided still
    rw [same]
    exact alone.unused before
  · intro undrawn
    obtain ⟨before, same⟩ := undrawn_step h undrawn
    rw [same]
    exact alone.undrawn before
  · intro x draft
    rcases drafted_step h draft with old | new
    · exact alone.drafted x old
    · obtain ⟨undrawn, rfl⟩ := undrawn_draws h new
      exact alone.undrawn undrawn

/-- A transfer with the result `x` and the books `b'` does what the ledger does in one step. -/
def Performs (id : TransactionId) (b : Books) (r : TransferRequest) (x : TransferResult)
    (b' : Books) : Prop :=
  ∃ d, b.transfer r d = (x, b') ∧ (Request.transfer r).Suits b d ∧
    ∀ t p, b.settle r d = .post t p → t.id = id

inductive Ends (id : TransactionId) (c : TransferCall) (s : Store) (x : TransferResult)
    (b' : Books) : Prop where
  | decided (decided : c.decided? = some x) (same : b' = s.books)
  | performs (undecided : c.decided? = none) (performs : Performs id s.books c.request x b')
  | struck (undecided : c.decided? = none) (faulty : s.faults ≠ [])
      (failed : ∃ e, x = .error (.store e)) (same : b' = s.books)

theorem Ends.of_decided {x y : TransferResult} {b' : Books} (ends : Ends id c s x b')
    (decided : c.decided? = some y) : x = y ∧ b' = s.books := by
  cases ends with
  | decided same books => exact ⟨Option.some.inj (same.symm.trans decided), books⟩
  | performs undecided | struck undecided =>
    rw [undecided] at decided
    contradiction

theorem Alone.ends_before {x : TransferResult} {b' : Books} (alone : Alone id c s supply)
    (move : Move s c c' s') (request : c'.request = c.request)
    (calm : s.faults = [] → s'.faults = []) (ends : Ends id c' s' x b') : Ends id c s x b' := by
  cases move with
  | working same before after =>
    cases ends with
    | decided decided =>
      rw [after] at decided
      contradiction
    | performs undecided performs =>
      rw [same, request] at performs
      exact .performs before performs
    | struck undecided faulty failed books =>
      exact .struck before (mt calm faulty) failed (books.trans same)
  | @struck f same before mem after =>
    obtain ⟨rfl, books⟩ := ends.of_decided after
    refine .struck before ?_ ⟨f.error, rfl⟩ (books.trans same)
    rintro empty
    rw [empty] at mem
    contradiction
  | @settled d y same before result after =>
    obtain ⟨rfl, books⟩ := ends.of_decided after
    have reads : ∀ t p, s.books.settle c.request d ≠ .post t p := Books.not_posted_of_same result
    refine .performs before ⟨d, ?_, fun t p posts => absurd posts (reads t p),
      fun t p posts => absurd posts (reads t p)⟩
    rw [result, books, same]
  | @posted u d t p before staged writing posted after =>
    have after : c'.decided? = some (.ok (.created (t.withStatus .completed d.completed))) := by
      simp only [decided?, after]
    obtain ⟨rfl, books⟩ := ends.of_decided after
    obtain ⟨y, q, postable⟩ := writing.postable
    have draft : c.drafted? = some t.id := by
      simp only [drafted?, before]
      rfl
    refine .performs (by simp only [decided?, before]) ⟨d, ?_, postable.suits writing.unused, ?_⟩
    · rw [Books.transfer_postable postable, books, posted]
    · intro t' p' posts
      cases (Books.settle_postable postable).symm.trans posts
      exact alone.drafted _ draft
  | @returned u y same before after =>
    have after : c'.decided? = some y := by simp only [decided?, after]
    obtain ⟨rfl, books⟩ := ends.of_decided after
    exact .decided (by simp only [decided?, before]) (books.trans same)

theorem Alone.finishes (alone : Alone id c s supply) :
    ∃ x s', c.finish s supply = some (x, s') ∧ (s.faults = [] → s'.faults = []) ∧
      s'.claims = [] ∧ Ends id c s x s'.books := by
  fun_induction finish c s supply with
  | case1 c s supply closed =>
    cases running : c.result? with
    | none =>
      obtain ⟨x, steps⟩ := alone.steps running
      rw [closed] at steps
      contradiction
    | some x =>
      have phase := phase_of_result? running
      have idle : c.unit? = none := by simp only [unit?, phase]
      exact ⟨x, s, rfl, fun calm => calm, alone.idle idle,
        .decided (by simp only [decided?, phase]) rfl⟩
  | case2 c s supply c' s' supply' step ih =>
    obtain ⟨alone', move⟩ := alone.next step
    have calm := (step_locks alone.sound step).calm
    obtain ⟨x, last, finished, calm', idle, ends⟩ := ih alone'
    exact ⟨x, last, finished, fun none => calm' (calm none), idle,
      alone.ends_before move (step_request step) calm ends⟩

end TransferCall

end WalletLedger
