import Mathlib.Data.List.Forall2
import WalletLedger.Proofs.Protocol

/-!
How failures of a database surface. Whichever statement of a transfer fails, the transfer answers
with what its failure means to the ledger; a statement that undoes the unit is not heeded. What the
failure means is the same to the ledger and to the service around it: whether it may pass, and the
status it is reported with.
-/
namespace WalletLedger.Sql

/-! ## What statements fail with -/

def failed? {ε α : Type} : Except ε α → Option ε
  | .error e => some e
  | .ok _ => none

theorem failed?_eq_some {ε α : Type} {x : Except ε α} {e : ε} :
    failed? x = some e ↔ x = .error e := by
  cases x <;> simp [failed?]

namespace Reply
variable {ρ α : Type} {ofRow : Row → Except Failure ρ} {convert : ρ → Except StoreError α}
  {reply : Reply} {f missing : Failure}

def onlyRecord (missing : Failure) (ofRow : Row → Except Failure ρ) (reply : Reply) :
    Except Failure ρ :=
  match reply.firstRecord ofRow with
  | .error f => .error f
  | .ok none => .error missing
  | .ok (some x) => .ok x

theorem record_eq_mapError (reply : Reply) :
    reply.record ofRow = (reply.firstRecord ofRow).mapError Failure.classify := by
  rcases reply with f | ⟨_ | ⟨row, rest⟩, affected⟩ <;> rfl

theorem first_failed (h : reply.firstRecord ofRow = .error f) :
    reply.first ofRow convert = .error f.classify := by
  rw [first, record_eq_mapError, h]
  rfl

theorem transactionRow_failed (id : TransactionId)
    (h : reply.firstRecord TransactionRecord.ofRow = .error f) :
    reply.transactionRow id = .error f.classify := by
  rw [transactionRow, record_eq_mapError, h]
  rfl

theorem onlyRecord_failed (h : reply.onlyRecord missing ofRow = .error f) :
    reply.firstRecord ofRow = .error f ∨ reply.firstRecord ofRow = .ok none ∧ f = missing := by
  unfold onlyRecord at h
  cases found : reply.firstRecord ofRow with
  | error g =>
    rw [found] at h
    exact .inl (congrArg _ (Except.error.inj h))
  | ok x =>
    rw [found] at h
    cases x with
    | none => exact .inr ⟨rfl, (Except.error.inj h).symm⟩
    | some x => cases h

theorem first_none (h : reply.firstRecord ofRow = .ok none) :
    reply.first ofRow convert = .ok none := by
  rw [first, record_eq_mapError, h]
  rfl

end Reply

namespace Statement

def undoes : Statement → Bool
  | rollback | abandon => true
  | _ => false

theorem undoes_iff (s : Statement) : s.undoes = true ↔ s = rollback ∨ s = abandon := by
  cases s <;> simp [undoes]

/-- What a statement fails with: the failure that is replied, or that of rows that do not hold what
the statement is to give back. -/
def failure? : Statement → Reply → Option Failure
  | _, .error f => some f
  | lockWallets _, .ok o => failed? (o.rows.mapM WalletRecord.ofRow)
  | selectTransaction _, .ok o | selectTransactionByKey _, .ok o =>
    failed? (Reply.firstRecord TransactionRecord.ofRow (.ok o))
  | insertEntry _ _, .ok o => failed?
    (Reply.onlyRecord (.recordNotFound "Failed to find inserted item") EntryRecord.ofRow (.ok o))
  | updateStatus _ _ _, .ok o =>
    failed? (Reply.onlyRecord .recordNotUpdated TransactionRecord.ofRow (.ok o))
  | _, .ok _ => none

def Surfaces {α : Type} (s : Statement) (outcome : Reply → Except StoreError α) : Prop :=
  ∀ reply f, s.failure? reply = some f → outcome reply = .error f.classify

namespace Surfaces

theorem lockWallets (pair : WalletPair) :
    (lockWallets pair).Surfaces (Reply.all WalletRecord.ofRow WalletRecord.toWallet) := by
  rintro (g | o) f fails
  · cases fails
    rfl
  · rw [Reply.all, failed?_eq_some.mp fails]
    rfl

theorem selectTransaction (id : TransactionId) :
    (selectTransaction id).Surfaces (Reply.transactionRow id) := by
  rintro (g | o) f fails
  · cases fails
    rfl
  · exact Reply.transactionRow_failed id (failed?_eq_some.mp fails)

theorem reread (id : TransactionId) :
    (Statement.selectTransaction id).Surfaces fun r => (r.reread id).map InsertOutcome.inserted := by
  intro reply f fails
  have failed := selectTransaction id reply f fails
  simp only [Reply.reread, failed]
  rfl

theorem selectTransactionByKey (key : IdempotencyKey) :
    (selectTransactionByKey key).Surfaces
      (Reply.first TransactionRecord.ofRow TransactionRecord.toTransaction) := by
  rintro (g | o) f fails
  · cases fails
    rfl
  · exact Reply.first_failed (failed?_eq_some.mp fails)

theorem insertTransaction (draft : TransactionDraft) (now : Timestamp) :
    (insertTransaction draft now).Surfaces Reply.affected := by
  rintro (g | o) f fails <;> cases fails
  rfl

theorem updateBalance (wallet : WalletId) (balance : Amount) :
    (updateBalance wallet balance).Surfaces (Reply.changed wallet) := by
  rintro (g | o) f fails <;> cases fails
  rfl

theorem insertEntry (draft : EntryDraft) (now : Timestamp) :
    (insertEntry draft now).Surfaces (Reply.given EntryRecord.ofRow EntryRecord.toEntry) := by
  rintro (g | o) f fails
  · cases fails
    rfl
  · rcases Reply.onlyRecord_failed (failed?_eq_some.mp fails) with failed | ⟨none, rfl⟩
    · rw [Reply.given, Reply.first_failed failed]
    · rw [Reply.given, Reply.first_none none]

theorem updateStatus (id : TransactionId) (status : TransactionStatus) (now : Timestamp) :
    (updateStatus id status now).Surfaces Reply.completed := by
  rintro (g | o) f fails
  · cases fails
    rfl
  · rcases Reply.onlyRecord_failed (failed?_eq_some.mp fails) with failed | ⟨none, rfl⟩
    · rw [Reply.completed, Reply.first_failed failed]
    · rw [Reply.completed, Reply.first_none none]

end Surfaces

end Statement

/-! ## From a statement to the transfer -/

section
variable {es : List Exchange} {s : Statement} {reply : Reply} {f : Failure}

theorem single_failed {α : Type} {outcome : Reply → Except StoreError α} {x : Except StoreError α}
    {t : Statement} (surfaces : t.Surfaces outcome) (goes : (single t outcome).Course es x)
    (said : (s, reply) ∈ es) (fails : s.failure? reply = some f) : x = .error f.classify := by
  obtain ⟨r, rfl, rfl⟩ := course_single goes
  cases List.mem_singleton.mp said
  exact surfaces reply f fails

/-- An operation answers with the failure of its statement; the first of two is not followed by the
other where it fails. -/
theorem dialogue_failed {u : DatabaseUnit} {now : Timestamp} {op : UnitOp}
    {x : Except StoreError op.Answer} (goes : (u.dialogue now op).Course es x)
    (said : (s, reply) ∈ es) (fails : s.failure? reply = some f) : x = .error f.classify := by
  cases op with
  | lockWallets pair => exact single_failed (.lockWallets pair) goes said fails
  | findByKey key => exact single_failed (.selectTransactionByKey key) goes said fails
  | insertTransaction draft =>
    obtain ⟨insertion, later, rfl, asked⟩ := Dialogue.course_say goes
    cases taken : insertion.affected with
    | error e =>
      rw [taken] at asked
      obtain ⟨rfl, rfl⟩ := Dialogue.course_done asked
      cases List.mem_singleton.mp said
      cases taken.symm.trans (Statement.Surfaces.insertTransaction draft now reply f fails)
      rfl
    | ok n =>
      -- The second statement is asked only because the first has not failed.
      rw [taken] at asked
      rcases List.mem_cons.mp said with same | said
      · cases same
        cases (Statement.Surfaces.insertTransaction draft now reply f fails).symm.trans taken
      cases n with
      | zero =>
        obtain ⟨rfl, rfl⟩ := Dialogue.course_done asked
        cases said
      | succ n => exact single_failed (.reread draft.id) asked said fails
  | insertEntry draft => exact single_failed (.insertEntry draft now) goes said fails
  | setBalance wallet balance =>
    simp only [DatabaseUnit.dialogue] at goes
    by_cases held : wallet ∈ u.locked
    · rw [if_pos held] at goes
      exact single_failed (.updateBalance wallet balance) goes said fails
    · rw [if_neg held] at goes
      obtain ⟨rfl, rfl⟩ := Dialogue.course_done goes
      cases said
  | setStatus id status =>
    obtain ⟨reread, later, rfl, asked⟩ := Dialogue.course_say goes
    cases found : reread.transactionRow id with
    | error e =>
      rw [found] at asked
      obtain ⟨rfl, rfl⟩ := Dialogue.course_done asked
      cases List.mem_singleton.mp said
      cases found.symm.trans (Statement.Surfaces.selectTransaction id reply f fails)
      rfl
    | ok row =>
      rw [found] at asked
      rcases List.mem_cons.mp said with same | said
      · cases same
        cases (Statement.Surfaces.selectTransaction id reply f fails).symm.trans found
      exact single_failed (.updateStatus row.id status now) asked said fails

variable {wait : TimeSpan} {r : TransferRequest} {supply supply' : Supply}

/-- Work ends with the first operation that fails. By the rank of the stage. -/
theorem work_failed {u : DatabaseUnit} {w : Work} {x : Conclusion × Supply}
    (goes : (work r u supply w).Course es x) (said : (s, reply) ∈ es)
    (fails : s.failure? reply = some f) : x.1 = .fail (.store f.classify) := by
  induction ranked : w.rank using Nat.strongRecOn generalizing w u supply es with
  | ind n ih =>
    obtain ⟨first, answer, rest, rfl, asked, leads⟩ := course_work goes
    rcases List.mem_append.mp said with here | later
    · rw [dialogue_failed asked here fails] at leads
      obtain ⟨rfl, rfl⟩ := leads
      rfl
    · cases next : w.after r supply answer with
      | inl w' =>
        rw [next] at leads
        exact ih _ (ranked ▸ w.rank_next_lt r supply w' answer next) leads later rfl
      | inr c =>
        rw [next] at leads
        obtain ⟨rfl, -⟩ := leads
        cases later

/-- The end of a unit is heeded only where it is to keep the writes. -/
theorem conclude_failed {c : Conclusion} {result : TransferResult}
    (goes : (conclude c).Course es result) (said : (s, reply) ∈ es) (heeded : s.undoes = false)
    (fails : s.failure? reply = some f) : result = .error (.store f.classify) := by
  cases c with
  | create t =>
    obtain ⟨ending, rfl, rfl⟩ := course_commit goes
    cases List.mem_singleton.mp said
    cases reply with
    | error g =>
      cases fails
      rfl
    | ok o => cases fails
  | replay t =>
    obtain ⟨ending, rfl, -⟩ := course_rollback rfl goes
    cases List.mem_singleton.mp said
    cases heeded
  | fail e =>
    obtain ⟨ending, rfl, -⟩ := course_rollback rfl goes
    cases List.mem_singleton.mp said
    cases heeded

theorem begin_failed {x : Except StoreError DatabaseUnit}
    (goes : (DatabaseUnit.begin wait).Course es x) (said : (s, reply) ∈ es)
    (heeded : s.undoes = false) (fails : s.failure? reply = some f) : x = .error f.classify := by
  obtain ⟨opened, limiting, rfl, limits⟩ := Dialogue.course_say goes
  cases opened with
  | error g =>
    obtain ⟨rfl, rfl⟩ := Dialogue.course_done limits
    cases List.mem_singleton.mp said
    cases fails
    rfl
  | ok o =>
    rcases List.mem_cons.mp said with same | said
    · cases same
      cases fails
    obtain ⟨limited, abandoning, rfl, abandons⟩ := Dialogue.course_say limits
    cases limited with
    | error g =>
      obtain ⟨ending, rest, rfl, ended⟩ := Dialogue.course_say abandons
      obtain ⟨rfl, rfl⟩ := Dialogue.course_done ended
      rcases List.mem_cons.mp said with same | said
      · cases same
        cases fails
        rfl
      · cases List.mem_singleton.mp said
        cases heeded
    | ok o =>
      obtain ⟨rfl, rfl⟩ := Dialogue.course_done abandons
      cases List.mem_singleton.mp said
      cases fails

theorem transfer_failed {result : TransferResult}
    (goes : (transfer wait r supply).Course es (result, supply')) (said : (s, reply) ∈ es)
    (heeded : s.undoes = false) (fails : s.failure? reply = some f) :
    result = .error (.store f.classify) := by
  cases valid : r.validate with
  | error e =>
    simp only [transfer, valid] at goes
    obtain ⟨rfl, -⟩ := Dialogue.course_done goes
    cases said
  | ok _ =>
    simp only [transfer, valid] at goes
    obtain ⟨opening, u, rest, rfl, begins, works⟩ := Dialogue.course_bind goes
    rcases List.mem_append.mp said with said | said
    · rw [begin_failed begins said heeded fails] at works
      obtain ⟨-, same⟩ := Dialogue.course_done works
      cases same
      rfl
    cases u with
    | error e =>
      obtain ⟨rfl, -⟩ := Dialogue.course_done works
      cases said
    | ok u =>
      obtain ⟨pair, ordered, -⟩ :=
        WalletPair.of_distinct (TransferRequest.distinct_of_valid valid)
      have first : r.work = .inl (.locking pair) := by simp only [TransferRequest.work, ordered]
      obtain ⟨body, ⟨c, later⟩, ending, worked, concludes, rfl⟩ :=
        course_workAndConclude first works
      rcases List.mem_append.mp said with said | said
      · cases work_failed worked said fails
        obtain ⟨ending, -, same⟩ := course_rollback rfl concludes
        exact same
      · exact conclude_failed concludes said heeded fails

end

/-! ## What is not heeded -/

/-- The same is said, and the same replied, except to what undoes a unit. -/
def Alike (x y : Exchange) : Prop := y.1 = x.1 ∧ (x.1.undoes = false → y.2 = x.2)

namespace Dialogue
variable {α β : Type}

inductive Heedless : Dialogue α → Prop where
  | done (a : α) : Heedless (done a)
  | say {s : Statement} {next : Reply → Dialogue α} (heeded : s.undoes = false)
      (rest : ∀ r, Heedless (next r)) : Heedless (say s next)
  | undo {s : Statement} {d : Dialogue α} (rest : Heedless d) : Heedless (say s fun _ => d)

theorem Heedless.bind {d : Dialogue α} {f : α → Dialogue β} (h : d.Heedless)
    (later : ∀ a, (f a).Heedless) : (d.bind f).Heedless := by
  induction h with
  | done a => exact later a
  | say heeded _ ih => exact .say heeded ih
  | undo _ ih => exact .undo ih

theorem Heedless.course {d : Dialogue α} {es es' : List Exchange} {a : α} (h : d.Heedless)
    (goes : d.Course es a) (alike : List.Forall₂ Alike es es') : d.Course es' a := by
  induction h generalizing es es' with
  | done a =>
    obtain ⟨rfl, rfl⟩ := course_done goes
    cases alike
    exact .done _
  | say heeded _ ih =>
    obtain ⟨r, rest, rfl, follows⟩ := course_say goes
    cases alike with
    | @cons _ y _ _ here alike =>
      obtain ⟨s', r'⟩ := y
      obtain ⟨rfl, replied⟩ := here
      cases replied heeded
      exact .say (ih r follows alike)
  | undo _ ih =>
    obtain ⟨r, rest, rfl, follows⟩ := course_say goes
    cases alike with
    | @cons _ y _ _ here alike =>
      obtain ⟨s', r'⟩ := y
      obtain ⟨rfl, -⟩ := here
      exact .say (ih follows alike)

end Dialogue

theorem single_heedless {α : Type} {s : Statement} {outcome : Reply → Except StoreError α}
    (heeded : s.undoes = false) : (single s outcome).Heedless :=
  .say heeded fun _ => .done _

theorem dialogue_heedless (u : DatabaseUnit) (now : Timestamp) (op : UnitOp) :
    (u.dialogue now op).Heedless := by
  cases op with
  | lockWallets pair => exact single_heedless rfl
  | findByKey key => exact single_heedless rfl
  | insertTransaction draft =>
    refine .say rfl fun r => ?_
    rcases r.affected with e | _ | n
    · exact .done _
    · exact .done _
    · exact single_heedless rfl
  | insertEntry draft => exact single_heedless rfl
  | setBalance wallet balance =>
    simp only [DatabaseUnit.dialogue]
    split
    · exact single_heedless rfl
    · exact .done _
  | setStatus id status =>
    refine .say rfl fun r => ?_
    rcases r.transactionRow id with e | row
    · exact .done _
    · exact single_heedless rfl

theorem work_heedless (r : TransferRequest) (u : DatabaseUnit) (supply : Supply) (w : Work) :
    (work r u supply w).Heedless := by
  induction ranked : w.rank using Nat.strongRecOn generalizing w u supply with
  | ind n ih =>
    rw [work_eq]
    refine (dialogue_heedless u supply.now (w.op r)).bind fun answer => ?_
    cases next : w.after r supply answer with
    | inl w' => exact ih _ (ranked ▸ w.rank_next_lt r supply w' answer next) _ _ _ rfl
    | inr c => exact .done _

theorem conclude_heedless (c : Conclusion) : (conclude c).Heedless := by
  cases c with
  | create t => exact .say rfl fun r => by cases r <;> exact .done _
  | replay t => exact .undo (.done _)
  | fail e => exact .undo (.done _)

theorem begin_heedless (wait : TimeSpan) : (DatabaseUnit.begin wait).Heedless := by
  refine .say rfl fun opened => ?_
  cases opened with
  | error g => exact .done _
  | ok o =>
    refine .say rfl fun limited => ?_
    cases limited with
    | error g => exact .undo (.done _)
    | ok o => exact .done _

theorem transfer_heedless (wait : TimeSpan) (r : TransferRequest) (supply : Supply) :
    (transfer wait r supply).Heedless := by
  unfold transfer
  cases r.validate with
  | error e => exact .done _
  | ok _ =>
    refine (begin_heedless wait).bind fun opened => ?_
    cases opened with
    | error e => exact .done _
    | ok u =>
      show (workAndConclude r u supply).Heedless
      unfold workAndConclude
      cases r.work with
      | inl w =>
        exact (work_heedless r u supply w).bind fun x =>
          (conclude_heedless x.1).bind fun result => .done _
      | inr c => exact (conclude_heedless c).bind fun result => .done _

/-! ## What failures mean -/

/-- The driver lost the connection or could not have one, or the database names a state that
passes. -/
def DriverFailure.Passing : DriverFailure → Prop
  | postgres state _ | database (some state) _ =>
    state ∈ ["40P01", "40001", "55P03", "57014", "53300", "57P01", "57P02", "57P03"] ∨
      ['0', '8'] <+: state.toList
  | io _ | tls _ | poolTimedOut | poolClosed | workerCrashed => True
  | database none _ | rowNotFound | protocol _ | columnNotFound _ | other _ => False

def Failure.Passing : Failure → Prop
  | acquireTimedOut | acquireClosed | raised .connecting (.internal _) => True
  | raised _ (.driver f) => f.Passing
  | _ => False

theorem ofState_cases (state detail : String) :
    ofState state detail ∈ [StoreError.contention detail, .connection detail, .constraint detail,
      .backend detail] := by
  unfold ofState
  split_ifs <;> simp

theorem ofState_retryable (state detail : String) :
    (ofState state detail).retryable = true ↔
      (DriverFailure.database (some state) detail).Passing := by
  have split : state ∈ ["40P01", "40001", "55P03", "57014", "53300", "57P01", "57P02", "57P03"] ↔
      state ∈ contentionStates ∨ state ∈ overloadStates :=
    List.mem_append (s := contentionStates)
  simp only [DriverFailure.Passing, split]
  unfold ofState
  split_ifs with lost full class8 class23
  · simp [StoreError.retryable, lost]
  · simp [StoreError.retryable, full]
  · simp [StoreError.retryable, ← List.isPrefixOf_iff_prefix, class8]
  · simp [StoreError.retryable, lost, full, ← List.isPrefixOf_iff_prefix, class8]
  · simp [StoreError.retryable, lost, full, ← List.isPrefixOf_iff_prefix, class8]

theorem DriverFailure.classify_cases (f : DriverFailure) (detail : String) :
    f.classify detail ∈ [StoreError.contention detail, .connection detail, .constraint detail,
      .backend detail] := by
  rcases f with ⟨state, text⟩ | ⟨_ | state, text⟩ | _ | _ | _ | _ | _ | _ | _ | _ | _
  case postgres => exact ofState_cases state detail
  case database.some => exact ofState_cases state detail
  all_goals simp [classify]

theorem DriverFailure.classify_retryable (f : DriverFailure) (detail : String) :
    (f.classify detail).retryable = true ↔ f.Passing := by
  rcases f with ⟨state, text⟩ | ⟨_ | state, text⟩ | _ | _ | _ | _ | _ | _ | _ | _ | _
  case postgres => exact ofState_retryable state detail
  case database.some => exact ofState_retryable state detail
  all_goals simp [classify, StoreError.retryable, Passing]

theorem Failure.classify_cases (f : Failure) :
    f.classify ∈ [StoreError.contention f.message, .connection f.message, .constraint f.message,
      .backend f.message] := by
  rcases f with ⟨doing, text | cause⟩ | _ | _ | _ | _ | _ | _ | _ | _ | _ | _ | _ | _
  case raised.driver => exact cause.classify_cases _
  case raised.internal => cases doing <;> simp [classify]
  all_goals simp [classify]

theorem Failure.classify_retryable (f : Failure) : f.classify.retryable = true ↔ f.Passing := by
  rcases f with ⟨doing, text | cause⟩ | _ | _ | _ | _ | _ | _ | _ | _ | _ | _ | _ | _
  case raised.driver => cases doing <;> exact cause.classify_retryable _
  case raised.internal => cases doing <;> simp [classify, StoreError.retryable, Passing]
  all_goals simp [classify, StoreError.retryable, Passing]

/-- What a failure of the database is to the caller of the ledger: its text is kept, it is no fault
of the request, and it is reported as passing just where it may pass. -/
structure Failure.Surfaced (f : Failure) (e : LedgerError) : Prop where
  kept : e ∈ [LedgerError.store (.contention f.message), .store (.connection f.message),
    .store (.constraint f.message), .store (.backend f.message)]
  apart : e.ofDomain = false
  retryable_iff : e.retryable = true ↔ f.Passing
  status : e.httpStatus = if e.retryable then 503 else 500

theorem Failure.surfaced (f : Failure) : f.Surfaced (.store f.classify) where
  kept := by
    have cases := List.mem_map_of_mem (f := LedgerError.store) f.classify_cases
    exact cases
  apart := rfl
  retryable_iff := f.classify_retryable
  status := by cases f.classify <;> rfl

theorem script_undoes {α : Type} {d : Dialogue α} {script : Script} {s : Statement} {reply : Reply}
    (said : (s, reply) ∈ d.exchanges Script.answer script) (undoes : s.undoes = true) :
    reply = .ok {} := by
  induction d generalizing script with
  | done a => cases said
  | say t next ih =>
    rcases List.mem_cons.mp said with same | later
    · cases same
      rcases s.undoes_iff.mp undoes with rfl | rfl <;> rfl
    · exact ih _ later

/-- A failure of any statement of a transfer is what the transfer answers with, for every script of
replies, and for whatever else replies where the statement is not one that undoes the unit; what is
replied to those changes nothing. Failures have one meaning in all layers, and so have all other
errors of the ledger. -/
theorem failures_surface {σ : Type} (answer : σ → Statement → Reply × σ) (c : σ)
    (wait : TimeSpan) (r : TransferRequest) (supply : Supply) :
    (∀ s reply f, (s, reply) ∈ (transfer wait r supply).exchanges answer c →
      s.undoes = false → s.failure? reply = some f →
      ((transfer wait r supply).run answer c).1.1 = .error (.store f.classify)) ∧
    (∀ script s reply f, (s, reply) ∈ (transfer wait r supply).exchanges Script.answer script →
      s.failure? reply = some f →
      ((transfer wait r supply).run Script.answer script).1.1 = .error (.store f.classify)) ∧
    (∀ es es' x, (transfer wait r supply).Course es x → List.Forall₂ Alike es es' →
      (transfer wait r supply).Course es' x) ∧
    (∀ f : Failure, f.Surfaced (.store f.classify)) ∧
    ∀ e : LedgerError, e.toService.kind.status = e.httpStatus ∧
      e.toService.kind.retryable = e.retryable := by
  refine ⟨fun s reply f said heeded fails => ?_, fun script s reply f said fails => ?_,
    fun es es' x goes alike => (transfer_heedless wait r supply).course goes alike,
    Failure.surfaced, fun e => ?_⟩
  · exact transfer_failed (Dialogue.course_run answer (transfer wait r supply) c) said heeded fails
  · have goes := Dialogue.course_run Script.answer (transfer wait r supply) script
    cases undoes : s.undoes with
    | false => exact transfer_failed goes said undoes fails
    | true =>
      cases script_undoes said undoes
      rcases s.undoes_iff.mp undoes with rfl | rfl <;> cases fails
  · rcases e with _ | _ | _ | _ | _ | _ | _ | _ | store | _ | _
    case store => cases store <;> exact ⟨rfl, rfl⟩
    all_goals exact ⟨rfl, rfl⟩

/-- Two replies that let a unit be opened, a deadlock while its wallets are locked, and a connection
that is gone when the unit is rolled back. -/
def deadlocked : List Reply :=
  [.ok {}, .ok {}, .error (.raised .querying (.driver (.database (some "40P01") "deadlock detected"))),
    .error (.raised .executing (.driver (.io "broken pipe")))]

def inTurn (replies : List Reply) (_ : Statement) : Reply × List Reply :=
  (replies.headD (.ok {}), replies.tail)

theorem failures_surface_deadlock : ∃ r supply f, deadlocked[2]? = some (.error f) ∧
    ((transfer .zero r supply).exchanges inTurn deadlocked).map Prod.snd = deadlocked ∧
    ((transfer .zero r supply).run inTurn deadlocked).1.1 = .error (.store f.classify) ∧
    f.Surfaced (.store f.classify) ∧ f.Passing := by
  let r : TransferRequest :=
    ⟨.ofNat 1, .ofNat 2, ⟨3000, 2, by decide, by decide⟩, .usd, .transfer, none, ⟨"rent"⟩⟩
  obtain ⟨surfaces, -, -, means, -⟩ := failures_surface inTurn deadlocked .zero r ⟨3, .epoch⟩
  let f : Failure := .raised .querying (.driver (.database (some "40P01") "deadlock detected"))
  have said : (.lockWallets ⟨.ofNat 1, .ofNat 2, by decide⟩, .error f) ∈
      (transfer .zero r ⟨3, .epoch⟩).exchanges inTurn deadlocked := by
    decide +kernel
  have replied : ((transfer .zero r ⟨3, .epoch⟩).exchanges inTurn deadlocked).map Prod.snd =
      deadlocked := by
    decide +kernel
  exact ⟨r, ⟨3, .epoch⟩, f, rfl, replied, surfaces _ _ f said rfl rfl, means f,
    .inl (List.mem_cons_self ..)⟩

end WalletLedger.Sql
