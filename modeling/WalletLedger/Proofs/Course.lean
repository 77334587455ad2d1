import WalletLedger.Sql.Transfer

/-!
Courses of dialogues: what is said, with the replies to it, and what comes out in the end. Each
operation of a unit is a dialogue of one or two statements, and its outcome is a function of their
replies.
-/
namespace WalletLedger.Sql

abbrev Exchange := Statement × Reply

namespace Dialogue
variable {α β σ : Type} {es : List Exchange}

def exchanges (answer : σ → Statement → Reply × σ) : Dialogue α → σ → List Exchange
  | done _, _ => []
  | say s next, c =>
    let (r, c) := answer c s
    (s, r) :: (next r).exchanges answer c

/-- A way in which a dialogue can go. -/
inductive Course : Dialogue α → List Exchange → α → Prop where
  | done (a : α) : Course (done a) [] a
  | say {s : Statement} {next : Reply → Dialogue α} {r : Reply} {es : List Exchange} {a : α}
      (rest : Course (next r) es a) : Course (say s next) ((s, r) :: es) a

theorem course_done {a b : α} (h : Course (done a) es b) : es = [] ∧ b = a := by
  cases h
  exact ⟨rfl, rfl⟩

theorem course_say {s : Statement} {next : Reply → Dialogue α} {a : α}
    (h : Course (say s next) es a) : ∃ r rest, es = (s, r) :: rest ∧ Course (next r) rest a := by
  cases h with
  | say rest => exact ⟨_, _, rfl, rest⟩

theorem course_bind {d : Dialogue α} {f : α → Dialogue β} {b : β} (h : Course (d.bind f) es b) :
    ∃ first a rest, es = first ++ rest ∧ Course d first a ∧ Course (f a) rest b := by
  induction d generalizing es with
  | done a => exact ⟨[], a, es, rfl, .done a, h⟩
  | say s next ih =>
    obtain ⟨r, later, rfl, goes⟩ := course_say h
    obtain ⟨first, a, rest, rfl, go, goes⟩ := ih r goes
    exact ⟨(s, r) :: first, a, rest, rfl, .say go, goes⟩

theorem course_run (answer : σ → Statement → Reply × σ) (d : Dialogue α) (c : σ) :
    Course d (d.exchanges answer c) (d.run answer c).1 := by
  induction d generalizing c with
  | done a => exact .done a
  | say s next ih => exact .say (ih _ _)

end Dialogue

def single {ε α : Type} (s : Statement) (f : Reply → Except ε α) : Dialogue (Except ε α) :=
  .say s fun r => .done (f r)

theorem course_single {ε α : Type} {s : Statement} {f : Reply → Except ε α} {x : Except ε α}
    {es : List Exchange} (h : (single s f).Course es x) : ∃ r, es = [(s, r)] ∧ x = f r := by
  obtain ⟨r, rest, rfl, ended⟩ := Dialogue.course_say h
  obtain ⟨rfl, rfl⟩ := Dialogue.course_done ended
  exact ⟨r, rfl, rfl⟩

namespace Reply
variable {ρ α : Type}

def firstRecord (ofRow : Row → Except Failure ρ) : Reply → Except Failure (Option ρ)
  | .error f => .error f
  | .ok ⟨[], _⟩ => .ok none
  | .ok ⟨row :: _, _⟩ => (ofRow row).map some

def record (ofRow : Row → Except Failure ρ) : Reply → Except StoreError (Option ρ)
  | .error f => .error f.classify
  | .ok ⟨[], _⟩ => .ok none
  | .ok ⟨row :: _, _⟩ => ((ofRow row).map some).mapError Failure.classify

def first (ofRow : Row → Except Failure ρ) (convert : ρ → Except StoreError α) (r : Reply) :
    Except StoreError (Option α) :=
  match r.record ofRow with
  | .error e => .error e
  | .ok none => .ok none
  | .ok (some x) => (convert x).map some

def all (ofRow : Row → Except Failure ρ) (convert : ρ → Except StoreError α) :
    Reply → Except StoreError (List α)
  | .error f => .error f.classify
  | .ok o => ((o.rows.mapM ofRow).mapError Failure.classify).bind (·.mapM convert)

def affected : Reply → Except StoreError Nat
  | .error f => .error f.classify
  | .ok o => .ok o.affected

def transactionRow (id : TransactionId) (r : Reply) : Except StoreError TransactionRecord :=
  match r.record TransactionRecord.ofRow with
  | .error e => .error e
  | .ok none => .error (.rowMissing .transaction id)
  | .ok (some x) => .ok x

def reread (id : TransactionId) (r : Reply) : Except StoreError Transaction :=
  (r.transactionRow id).bind TransactionRecord.toTransaction

def given (ofRow : Row → Except Failure ρ) (convert : ρ → Except StoreError α) (r : Reply) :
    Except StoreError α :=
  match r.first ofRow convert with
  | .error e => .error e
  | .ok none => .error (Failure.recordNotFound "Failed to find inserted item").classify
  | .ok (some a) => .ok a

def changed (wallet : WalletId) (r : Reply) : Except StoreError Unit :=
  match r.affected with
  | .error e => .error e
  | .ok 0 => .error (.rowMissing .wallet wallet)
  | .ok (_ + 1) => .ok ()

def completed (r : Reply) : Except StoreError Transaction :=
  match r.first TransactionRecord.ofRow TransactionRecord.toTransaction with
  | .error e => .error e
  | .ok none => .error Failure.recordNotUpdated.classify
  | .ok (some t) => .ok t

end Reply

section
variable {ρ α : Type} {ofRow : Row → Except Failure ρ} {convert : ρ → Except StoreError α}

theorem first_eq (s : Statement) : first ofRow s = single s (Reply.firstRecord ofRow) := by
  refine congrArg (Dialogue.say s) (funext fun r => ?_)
  rcases r with f | ⟨_ | ⟨row, rest⟩, affected⟩
  · rfl
  · rfl
  · simp only [Dialogue.bind, ExceptT.bindCont, Reply.firstRecord]
    cases ofRow row <;> rfl

theorem record_eq (s : Statement) :
    classified (first ofRow s) = single s (Reply.record ofRow) := by
  refine congrArg (Dialogue.say s) (funext fun r => ?_)
  rcases r with f | ⟨_ | ⟨row, rest⟩, affected⟩
  · rfl
  · rfl
  · simp only [Dialogue.bind, ExceptT.bindCont, Reply.record]
    cases ofRow row <;> rfl

theorem firstAs_eq (s : Statement) :
    firstAs ofRow convert s = single s (Reply.first ofRow convert) := by
  unfold firstAs
  rw [record_eq]
  refine congrArg (Dialogue.say s) (funext fun r => ?_)
  simp only [Dialogue.bind, ExceptT.bindCont, Reply.first]
  rcases Reply.record ofRow r with e | _ | x
  · rfl
  · rfl
  · dsimp only
    cases convert x <;> rfl

theorem allAs_eq (s : Statement) : allAs ofRow convert s = single s (Reply.all ofRow convert) := by
  refine congrArg (Dialogue.say s) (funext fun r => ?_)
  rcases r with f | o
  · rfl
  · simp only [Dialogue.bind, ExceptT.bindCont, Reply.all]
    cases o.rows.mapM ofRow <;> rfl

theorem inserted_eq (s : Statement) :
    (classified (inserted ofRow s) >>= fun x => orFail (convert x)) =
      single s (Reply.given ofRow convert) := by
  refine congrArg (Dialogue.say s) (funext fun r => ?_)
  rcases r with f | ⟨_ | ⟨row, rest⟩, affected⟩
  · rfl
  · rfl
  · simp only [Dialogue.bind, ExceptT.bindCont, Reply.given, Reply.first, Reply.record]
    rcases ofRow row with f | x
    · rfl
    · show Dialogue.done (convert x) = _
      dsimp only [Except.map, Except.mapError]
      cases convert x <;> rfl

end

namespace DatabaseUnit
variable {u : DatabaseUnit} {now : Timestamp}

theorem transactionRow_eq (id : TransactionId) :
    transactionRow id = single (.selectTransaction id) (Reply.transactionRow id) := by
  unfold transactionRow
  rw [record_eq]
  refine congrArg (Dialogue.say _) (funext fun r => ?_)
  simp only [Dialogue.bind, ExceptT.bindCont, Reply.transactionRow]
  rcases Reply.record TransactionRecord.ofRow r with e | _ | x <;> rfl

def dialogue (u : DatabaseUnit) (now : Timestamp) :
    (op : UnitOp) → Dialogue (Except StoreError op.Answer)
  | .lockWallets pair =>
    single (.lockWallets pair) (Reply.all WalletRecord.ofRow WalletRecord.toWallet)
  | .findByKey key =>
    single (.selectTransactionByKey key)
      (Reply.first TransactionRecord.ofRow TransactionRecord.toTransaction)
  | .insertTransaction draft => .say (.insertTransaction draft now) fun r =>
    match r.affected with
    | .error e => .done (.error e)
    | .ok 0 => .done (.ok .duplicateKey)
    | .ok (_ + 1) => single (.selectTransaction draft.id) fun r =>
      (r.reread draft.id).map .inserted
  | .insertEntry draft =>
    single (.insertEntry draft now) (Reply.given EntryRecord.ofRow EntryRecord.toEntry)
  | .setBalance wallet balance =>
    if wallet ∈ u.locked then single (.updateBalance wallet balance) (Reply.changed wallet)
    else .done (.error (.backend s!"wallet {wallet.text} updated without holding its lock"))
  | .setStatus id status => .say (.selectTransaction id) fun r =>
    match r.transactionRow id with
    | .error e => .done (.error e)
    | .ok row => single (.updateStatus row.id status now) Reply.completed

theorem perform_eq (u : DatabaseUnit) (now : Timestamp) (op : UnitOp) :
    (u.perform now op).run = u.dialogue now op := by
  cases op with
  | lockWallets pair => exact allAs_eq _
  | findByKey key => exact firstAs_eq _
  | insertTransaction draft =>
    show insertTransaction draft now = _
    unfold insertTransaction
    simp only [transactionRow_eq]
    refine congrArg (Dialogue.say _) (funext fun r => ?_)
    rcases r with f | ⟨rows, _ | n⟩
    · rfl
    · rfl
    · refine congrArg (Dialogue.say _) (funext fun r => ?_)
      simp only [Dialogue.bind, ExceptT.bindCont, Reply.reread]
      rcases Reply.transactionRow draft.id r with e | x
      · rfl
      · dsimp only [Except.bind]
        cases x.toTransaction <;> rfl
  | insertEntry draft => exact inserted_eq _
  | setBalance wallet balance =>
    show u.setBalance wallet balance = if wallet ∈ u.locked then _ else _
    unfold setBalance
    by_cases held : wallet ∈ u.locked
    · rw [if_neg (fun free => free held), if_pos held]
      refine congrArg (Dialogue.say _) (funext fun r => ?_)
      rcases r with f | ⟨rows, _ | n⟩ <;> rfl
    · rw [if_pos held, if_neg held]
      rfl
  | setStatus id status =>
    show setStatus id status now = _
    unfold setStatus
    rw [transactionRow_eq]
    simp only [firstAs_eq]
    refine congrArg (Dialogue.say _) (funext fun r => ?_)
    simp only [Dialogue.bind, ExceptT.bindCont]
    rcases Reply.transactionRow id r with e | row
    · rfl
    · refine congrArg (Dialogue.say _) (funext fun r => ?_)
      simp only [Dialogue.bind, ExceptT.bindCont, Reply.completed]
      rcases Reply.first TransactionRecord.ofRow TransactionRecord.toTransaction r with e | _ | t <;>
        rfl

end DatabaseUnit

end WalletLedger.Sql
