import Mathlib.Data.List.Forall2
import WalletLedger.Proofs.Rows
import WalletLedger.Sql.Account

/-!
What the ledger writes into rows is what it reads back from them. A database shows each value as it
was written, except that a time may stand at any distance from UTC; that distance is dropped when a
record is made into one of the ledger's own.
-/
namespace WalletLedger

theorem IdempotencyKey.check_again {text : String} {key : IdempotencyKey}
    (accepted : check text = .ok key) : check key.text = .ok key := by
  have same : key = ⟨text⟩ := by
    unfold check at accepted
    split at accepted
    · cases accepted
    · split at accepted
      · cases accepted
      · exact (Except.ok.inj accepted).symm
  rw [same] at accepted ⊢
  exact accepted

namespace Sql

/-- A value as the database shows it: a time at the distance from UTC of whoever asks. -/
def Value.Shown : Value → Value → Prop
  | .time t, shown => ∃ offset, shown = .time ⟨t.utc, offset⟩
  | written, shown => shown = written

theorem Value.Shown.refl (v : Value) : v.Shown v := by
  cases v with
  | time t => exact ⟨t.offset, rfl⟩
  | _ => rfl

def Row.Shown (written row : Row) : Prop :=
  List.Forall₂ (fun p q => q.1 = p.1 ∧ p.2.Shown q.2) written row

namespace Row
variable {written row : Row}

def shownAt (offset : Int) (row : Row) : Row :=
  row.map fun p => (p.1, match p.2 with | .time t => .time ⟨t.utc, offset⟩ | v => v)

theorem shown_shownAt (offset : Int) (row : Row) : row.Shown (row.shownAt offset) := by
  refine List.forall₂_map_right_iff.mpr (List.forall₂_same.mpr fun p _ => ⟨rfl, ?_⟩)
  cases p.2 with
  | time t => exact ⟨offset, rfl⟩
  | _ => rfl

namespace Shown

theorem value (shown : written.Shown row) (column : String) :
    (written.value column).Shown (row.value column) := by
  induction shown with
  | nil => exact .refl _
  | @cons p q written row here _ ih =>
    obtain ⟨name, shown⟩ := here
    by_cases found : p.1 = column
    · simp only [Row.value, List.find?_cons, name, found, decide_true, Option.map_some,
        Option.getD_some]
      exact shown
    · simp only [Row.value, List.find?_cons, name, found, decide_false]
      exact ih

theorem timeless (shown : written.Shown row) (column : String) :
    row.uuid column = written.uuid column ∧ row.amount column = written.amount column ∧
      row.text column = written.text column ∧
      row.optionalText column = written.optionalText column := by
  unfold Row.uuid Row.amount Row.text Row.optionalText
  have here := shown.value column
  cases there : written.value column with
  | time t =>
    rw [there] at here
    obtain ⟨offset, same⟩ := here
    rw [same]
    exact ⟨rfl, rfl, rfl, rfl⟩
  | _ =>
    rw [there] at here
    rw [here]
    exact ⟨rfl, rfl, rfl, rfl⟩

theorem uuid (shown : written.Shown row) (column : String) :
    row.uuid column = written.uuid column :=
  (shown.timeless column).1

theorem amount (shown : written.Shown row) (column : String) :
    row.amount column = written.amount column :=
  (shown.timeless column).2.1

theorem text (shown : written.Shown row) (column : String) :
    row.text column = written.text column :=
  (shown.timeless column).2.2.1

theorem optionalText (shown : written.Shown row) (column : String) :
    row.optionalText column = written.optionalText column :=
  (shown.timeless column).2.2.2

theorem choice {α : Type} (shown : written.Shown row) (title : String)
    (ofName? : String → Option α) (column : String) :
    row.choice title ofName? column = written.choice title ofName? column := by
  rw [Row.choice, Row.choice, shown.text column]

theorem time (shown : written.Shown row) (column : String) {t : ZonedTime}
    (found : written.value column = .time t) :
    ∃ offset, row.time column = .ok ⟨t.utc, offset⟩ := by
  have here := shown.value column
  rw [found] at here
  obtain ⟨offset, same⟩ := here
  exact ⟨offset, by rw [Row.time, same]⟩

end Shown

end Row

section
variable {row : Row}

theorem WalletRecord.ofRow_shown {r : WalletRecord} (shown : r.row.Shown row) :
    ∃ s, ofRow row = .ok s ∧ s.toWallet = r.toWallet := by
  obtain ⟨created, createdAt⟩ := shown.time "created_at" (t := r.createdAt) rfl
  obtain ⟨updated, updatedAt⟩ := shown.time "updated_at" (t := r.updatedAt) rfl
  refine ⟨{ r with createdAt := ⟨_, created⟩, updatedAt := ⟨_, updated⟩ }, ?_, rfl⟩
  simp only [ofRow, shown.uuid, shown.choice, shown.text, shown.amount, createdAt, updatedAt]
  obtain ⟨id, owner, kind, currency, balance, createdAt, updatedAt⟩ := r
  cases kind <;> rfl

theorem TransactionRecord.ofRow_shown {r : TransactionRecord} (shown : r.row.Shown row) :
    ∃ s, ofRow row = .ok s ∧ s.toTransaction = r.toTransaction := by
  obtain ⟨created, createdAt⟩ := shown.time "created_at" (t := r.createdAt) rfl
  obtain ⟨updated, updatedAt⟩ := shown.time "updated_at" (t := r.updatedAt) rfl
  refine ⟨{ r with createdAt := ⟨_, created⟩, updatedAt := ⟨_, updated⟩ }, ?_, rfl⟩
  simp only [ofRow, shown.uuid, shown.choice, shown.text, shown.optionalText, shown.amount,
    createdAt, updatedAt]
  obtain ⟨id, sender, receiver, amount, currency, kind, description, status, key, createdAt,
    updatedAt⟩ := r
  cases kind <;> cases description <;> cases status <;> rfl

theorem EntryRecord.ofRow_shown {r : EntryRecord} (shown : r.row.Shown row) :
    ∃ s, ofRow row = .ok s ∧ s.toEntry = r.toEntry := by
  obtain ⟨created, createdAt⟩ := shown.time "created_at" (t := r.createdAt) rfl
  refine ⟨{ r with createdAt := ⟨_, created⟩ }, ?_, rfl⟩
  simp only [ofRow, shown.uuid, shown.choice, shown.text, shown.amount, createdAt]
  obtain ⟨id, wallet, transaction, amount, kind, currency, before, after, createdAt⟩ := r
  cases kind <;> rfl

/-! The values of an insertion are those of the record that it stands for. -/

theorem wallet_readback {w : Wallet}
    (shown : (wallets.row (Statement.insertWallet w).values).Shown row) :
    ∃ r, WalletRecord.ofRow row = .ok r ∧ r.toWallet = .ok w := by
  have written : wallets.row (Statement.insertWallet w).values = (WalletRecord.of w).row := rfl
  rw [written] at shown
  obtain ⟨r, read, means⟩ := WalletRecord.ofRow_shown shown
  exact ⟨r, read, means.trans (WalletRecord.toWallet_of w)⟩

theorem transaction_readback {d : TransactionDraft} {now : Timestamp} {text : String}
    (accepted : IdempotencyKey.check text = .ok d.key)
    (shown : (transactions.row (Statement.insertTransaction d now).values).Shown row) :
    ∃ r, TransactionRecord.ofRow row = .ok r ∧ r.toTransaction = .ok (d.recordedAt now) := by
  have written : transactions.row (Statement.insertTransaction d now).values =
      (TransactionRecord.of (d.recordedAt now)).row := by
    obtain ⟨⟨sender, receiver, amount, currency, kind, description, key⟩, id, status⟩ := d
    cases description <;> rfl
  rw [written] at shown
  have keyed := IdempotencyKey.check_again accepted
  obtain ⟨r, read, means⟩ := TransactionRecord.ofRow_shown shown
  exact ⟨r, read, means.trans (TransactionRecord.toTransaction_of keyed)⟩

theorem entry_readback {d : EntryDraft} {now : Timestamp}
    (shown : (entries.row (Statement.insertEntry d now).values).Shown row) :
    ∃ r, EntryRecord.ofRow row = .ok r ∧ r.toEntry = .ok (d.recordedAt now) := by
  have written : entries.row (Statement.insertEntry d now).values =
      (EntryRecord.of (d.recordedAt now)).row := rfl
  rw [written] at shown
  obtain ⟨r, read, means⟩ := EntryRecord.ofRow_shown shown
  exact ⟨r, read, means.trans (EntryRecord.toEntry_of _)⟩

end

/-! Opening a wallet: what is asked for in its course, and what the answer is made of. -/

theorem Failure.breaksUniqueness_iff {f : Failure} : f.breaksUniqueness = true ↔
    ∃ doing detail, doing ≠ .connecting ∧ f = .raised doing (.driver (.postgres "23505" detail)) := by
  constructor
  · intro breaks
    unfold breaksUniqueness at breaks
    split at breaks
    · cases eq_of_beq breaks
      exact ⟨.executing, _, by decide, rfl⟩
    · cases eq_of_beq breaks
      exact ⟨.querying, _, by decide, rfl⟩
    · cases breaks
  · rintro ⟨doing, detail, asking, rfl⟩
    cases doing with
    | connecting => exact absurd rfl asking
    | executing => rfl
    | querying => rfl

theorem OpeningError.ofInsertion_eq_duplicate {owner : UserId} {kind : WalletKind} {f : Failure} :
    ofInsertion owner kind f = .duplicate owner kind ↔ f.breaksUniqueness = true := by
  unfold ofInsertion
  split_ifs with breaks <;> simp [breaks]

namespace Reply
variable {owner : UserId} {kind : WalletKind} {reply : Reply} {s : Wallet}

def opened (owner : UserId) (kind : WalletKind) (r : Reply) : Except OpeningError Wallet :=
  match r.firstRecord WalletRecord.ofRow with
  | .error f => .error (.ofInsertion owner kind f)
  | .ok none => .error (.database (.recordNotFound "Failed to find inserted item"))
  | .ok (some s) => s.toWallet.mapError .store

theorem opened_eq_ok : reply.opened owner kind = .ok s ↔
    ∃ r, reply.firstRecord WalletRecord.ofRow = .ok (some r) ∧ r.toWallet = .ok s := by
  unfold opened
  rcases reply.firstRecord WalletRecord.ofRow with f | _ | r
  · simp
  · simp
  · cases means : r.toWallet with
    | error e => simp [Except.mapError, means]
    | ok w => simp [Except.mapError, means]

end Reply

def openingDialogue (supply : Supply) (owner : UserId) (kind : WalletKind) (opening : Money) :
    Dialogue (Except OpeningError Wallet) :=
  match checkOpening opening with
  | .error e => .done (.error e)
  | .ok () => .say (.selectUser owner) fun r =>
    match r.firstRecord UserRecord.ofRow with
    | .error f => .done (.error (.database f))
    | .ok none => .done (.error (.userNotFound owner))
    | .ok (some _) => .say (.selectWalletOfKind owner kind) fun r =>
      match r.firstRecord WalletRecord.ofRow with
      | .error f => .done (.error (.database f))
      | .ok (some _) => .done (.error (.duplicate owner kind))
      | .ok none => single (.insertWallet ⟨supply.id, owner, kind, opening.currency,
          opening.amount, supply.now, supply.now⟩) (Reply.opened owner kind)

theorem openWallet_eq (supply : Supply) (owner : UserId) (kind : WalletKind) (opening : Money) :
    (openWallet supply owner kind opening).run = openingDialogue supply owner kind opening := by
  unfold openWallet openingDialogue inserted
  simp only [first_eq]
  cases checkOpening opening with
  | error e => rfl
  | ok _ =>
    refine congrArg (Dialogue.say _) (funext fun r => ?_)
    simp only [Dialogue.bind]
    rcases r.firstRecord UserRecord.ofRow with f | _ | user
    · rfl
    · rfl
    refine congrArg (Dialogue.say _) (funext fun r => ?_)
    simp only [Dialogue.bind]
    rcases r.firstRecord WalletRecord.ofRow with f | _ | taken
    · rfl
    · refine congrArg (Dialogue.say _) (funext fun r => ?_)
      simp only [Dialogue.bind, Reply.opened]
      rcases r.firstRecord WalletRecord.ofRow with f | _ | made <;> rfl
    · rfl

inductive Opening (supply : Supply) (owner : UserId) (kind : WalletKind) (opening : Money) :
    List Exchange → Except OpeningError Wallet → Prop where
  | refused {e : OpeningError} (rejected : checkOpening opening = .error e) :
      Opening supply owner kind opening [] (.error e)
  | unowned {user : Reply} (e : OpeningError) (accepted : checkOpening opening = .ok ())
      (unknown : ∀ u, user.firstRecord UserRecord.ofRow ≠ .ok (some u)) :
      Opening supply owner kind opening [(.selectUser owner, user)] (.error e)
  | unfree {user taken : Reply} {u : UserRecord} (e : OpeningError)
      (accepted : checkOpening opening = .ok ())
      (known : user.firstRecord UserRecord.ofRow = .ok (some u))
      (owned : taken.firstRecord WalletRecord.ofRow ≠ .ok none) :
      Opening supply owner kind opening
        [(.selectUser owner, user), (.selectWalletOfKind owner kind, taken)] (.error e)
  | inserted {user taken : Reply} {u : UserRecord} (reply : Reply)
      (accepted : checkOpening opening = .ok ())
      (known : user.firstRecord UserRecord.ofRow = .ok (some u))
      (free : taken.firstRecord WalletRecord.ofRow = .ok none) :
      Opening supply owner kind opening
        [(.selectUser owner, user), (.selectWalletOfKind owner kind, taken),
          (.insertWallet ⟨supply.id, owner, kind, opening.currency, opening.amount, supply.now,
            supply.now⟩, reply)] (reply.opened owner kind)

/-- Each statement that opens a wallet is sent just where what came before it lets it: the owner is
asked for if the opening balance is accepted, a wallet of the kind if the owner was found, and a
wallet is inserted if there was none. -/
structure OpensInTurn (owner : UserId) (kind : WalletKind) (opening : Money)
    (es : List Exchange) : Prop where
  identified : (∃ reply, (.selectUser owner, reply) ∈ es) ↔ checkOpening opening = .ok ()
  sought : (∃ reply, (.selectWalletOfKind owner kind, reply) ∈ es) ↔
    ∃ reply u, (.selectUser owner, reply) ∈ es ∧
      reply.firstRecord UserRecord.ofRow = .ok (some u)
  inserted : (∃ w reply, (.insertWallet w, reply) ∈ es) ↔
    ∃ reply, (.selectWalletOfKind owner kind, reply) ∈ es ∧
      reply.firstRecord WalletRecord.ofRow = .ok none

section
variable {supply : Supply} {owner : UserId} {kind : WalletKind} {opening : Money}
  {es : List Exchange} {x : Except OpeningError Wallet}

theorem openWallet_course (goes : (openWallet supply owner kind opening).run.Course es x) :
    Opening supply owner kind opening es x := by
  rw [openWallet_eq, openingDialogue] at goes
  cases checked : checkOpening opening with
  | error e =>
    rw [checked] at goes
    obtain ⟨rfl, rfl⟩ := Dialogue.course_done goes
    exact .refused checked
  | ok _ =>
    rw [checked] at goes
    obtain ⟨user, later, rfl, looks⟩ := Dialogue.course_say goes
    rcases found : user.firstRecord UserRecord.ofRow with f | _ | u
    · rw [found] at looks
      obtain ⟨rfl, rfl⟩ := Dialogue.course_done looks
      exact .unowned _ checked (by simp [found])
    · rw [found] at looks
      obtain ⟨rfl, rfl⟩ := Dialogue.course_done looks
      exact .unowned _ checked (by simp [found])
    rw [found] at looks
    obtain ⟨taken, last, rfl, inserts⟩ := Dialogue.course_say looks
    rcases there : taken.firstRecord WalletRecord.ofRow with f | _ | w
    · rw [there] at inserts
      obtain ⟨rfl, rfl⟩ := Dialogue.course_done inserts
      exact .unfree _ checked found (by simp [there])
    · rw [there] at inserts
      obtain ⟨reply, rfl, rfl⟩ := course_single inserts
      exact .inserted reply checked found there
    · rw [there] at inserts
      obtain ⟨rfl, rfl⟩ := Dialogue.course_done inserts
      exact .unfree _ checked found (by simp [there])

namespace Opening

theorem inTurn (way : Opening supply owner kind opening es x) :
    OpensInTurn owner kind opening es := by
  cases way with
  | refused rejected => constructor <;> simp [rejected]
  | unowned e accepted unknown => constructor <;> simp [accepted, unknown]
  | unfree e accepted known owned => constructor <;> simp [accepted, known, owned]
  | inserted given accepted known free => constructor <;> simp [accepted, known, free]

theorem of_insertion {w : Wallet} {reply : Reply} (way : Opening supply owner kind opening es x)
    (said : (.insertWallet w, reply) ∈ es) :
    w = ⟨supply.id, owner, kind, opening.currency, opening.amount, supply.now, supply.now⟩ ∧
      x = reply.opened owner kind := by
  cases way with
  | refused | unowned | unfree => simp at said
  | inserted given =>
    obtain ⟨rfl, rfl⟩ : w = _ ∧ reply = given := by simpa using said
    exact ⟨rfl, rfl⟩

theorem of_answer {s : Wallet} (way : Opening supply owner kind opening es (.ok s)) :
    ∃ w reply r, (.insertWallet w, reply) ∈ es ∧
      reply.firstRecord WalletRecord.ofRow = .ok (some r) ∧ r.toWallet = .ok s := by
  generalize answer : Except.ok s = x at way
  cases way with
  | refused | unowned | unfree => cases answer
  | inserted given =>
    obtain ⟨r, found, means⟩ := Reply.opened_eq_ok.mp answer.symm
    exact ⟨_, given, r, .tail _ (.tail _ (.head _)), found, means⟩

end Opening

end

/-- What the ledger writes, it reads back. A transfer or an entry is the one that was recorded, once
the key of the transfer was accepted. A wallet that is opened is inserted just where its
opening balance, its owner and its kind let it, and is answered only as it came back from there:
with its owner, kind, currency and opening balance. -/
theorem written_reads_back :
    (∀ (d : TransactionDraft) (now : Timestamp) (text : String) (row : Row),
      IdempotencyKey.check text = .ok d.key →
      (transactions.row (Statement.insertTransaction d now).values).Shown row →
      ∃ r, TransactionRecord.ofRow row = .ok r ∧ r.toTransaction = .ok (d.recordedAt now)) ∧
    (∀ (d : EntryDraft) (now : Timestamp) (row : Row),
      (entries.row (Statement.insertEntry d now).values).Shown row →
      ∃ r, EntryRecord.ofRow row = .ok r ∧ r.toEntry = .ok (d.recordedAt now)) ∧
    (∀ (supply : Supply) (owner : UserId) (kind : WalletKind) (opening : Money)
      (es : List Exchange) (x : Except OpeningError Wallet),
      (openWallet supply owner kind opening).run.Course es x →
      OpensInTurn owner kind opening es ∧
      (∀ s, x = .ok s → ∃ w reply r, (.insertWallet w, reply) ∈ es ∧
        reply.firstRecord WalletRecord.ofRow = .ok (some r) ∧ r.toWallet = .ok s) ∧
      ∀ w reply, (.insertWallet w, reply) ∈ es →
        (∀ f, reply = .error f → x = .error (.ofInsertion owner kind f) ∧
          (x = .error (.duplicate owner kind) ↔ ∃ doing detail, doing ≠ .connecting ∧
            f = .raised doing (.driver (.postgres "23505" detail)))) ∧
        ∀ row, (wallets.row (Statement.insertWallet w).values).Shown row →
          ∃ r s, WalletRecord.ofRow row = .ok r ∧ r.toWallet = .ok s ∧ s.owner = owner ∧
            s.kind = kind ∧ s.currency = opening.currency ∧ s.balance = opening.amount ∧
            ∀ rest n, reply = .ok ⟨row :: rest, n⟩ → x = .ok s) := by
  refine ⟨fun d now text row accepted shown => transaction_readback accepted shown,
    fun d now row shown => entry_readback shown, ?_⟩
  intro supply owner kind opening es x goes
  have way := openWallet_course goes
  refine ⟨way.inTurn, fun s answered => (answered ▸ way).of_answer, ?_⟩
  intro w reply said
  obtain ⟨asked, answered⟩ := way.of_insertion said
  refine ⟨fun f failed => ?_, fun row shown => ?_⟩
  · have failing : x = .error (.ofInsertion owner kind f) := by
      rw [answered, failed]
      rfl
    refine ⟨failing, ?_⟩
    rw [failing, Except.error.injEq, OpeningError.ofInsertion_eq_duplicate,
      Failure.breaksUniqueness_iff]
  obtain ⟨r, read, means⟩ := wallet_readback shown
  refine ⟨r, w, read, means, ?_, ?_, ?_, ?_, ?_⟩
  · rw [asked]
  · rw [asked]
  · rw [asked]
  · rw [asked]
  · rintro rest n rfl
    have record : Reply.firstRecord WalletRecord.ofRow (.ok ⟨row :: rest, n⟩) = .ok (some r) := by
      rw [Reply.firstRecord, read]
      rfl
    rw [answered]
    exact Reply.opened_eq_ok.mpr ⟨r, record, means⟩

/-! A transfer with a description, one of its entries and a new wallet, each shown two hours ahead
of UTC. -/

def euros (n : Nat) : Amount := (Amount.ofParts? n 2).getD .zero

def rentDraft : TransactionDraft :=
  ⟨⟨.ofNat 1, .ofNat 2, euros 3000, .eur, .payment, some "rent", ⟨"rent"⟩⟩, .ofNat 3, .pending⟩

def rentDebit : EntryDraft :=
  ⟨.ofNat 4, .ofNat 1, .ofNat 3, euros 3000, .debit, .eur, euros 10000, euros 7000⟩

def newWallet : Wallet :=
  ⟨.ofNat 1, .ofNat 7, .fixed, .eur, euros 10000, .epoch, .epoch⟩

def newWalletRow : Row := (wallets.row (Statement.insertWallet newWallet).values).shownAt 7200

def newWalletReplies : Script :=
  ⟨[.ok ⟨[UserRecord.row ⟨.ofNat 7, "a@b.c", "A", .ofUtc .epoch, .ofUtc .epoch⟩], 1⟩, .ok ⟨[], 0⟩,
    .ok ⟨[newWalletRow], 1⟩], []⟩

theorem written_reads_back_abroad :
    (∃ r, TransactionRecord.ofRow ((transactions.row
        (Statement.insertTransaction rentDraft .epoch).values).shownAt 7200) = .ok r ∧
      r.toTransaction = .ok (rentDraft.recordedAt .epoch)) ∧
    (∃ r, EntryRecord.ofRow ((entries.row
        (Statement.insertEntry rentDebit .epoch).values).shownAt 7200) = .ok r ∧
      r.toEntry = .ok (rentDebit.recordedAt .epoch)) ∧
    ∃ es s, es = (openWallet ⟨1, .epoch⟩ newWallet.owner .fixed
        ⟨newWallet.balance, .eur⟩).run.exchanges Script.answer newWalletReplies ∧
      (.insertWallet newWallet, .ok ⟨[newWalletRow], 1⟩) ∈ es ∧
      ((openWallet ⟨1, .epoch⟩ newWallet.owner .fixed
        ⟨newWallet.balance, .eur⟩).run.run Script.answer newWalletReplies).1 = .ok s ∧
      s.owner = newWallet.owner ∧ s.kind = .fixed ∧ s.currency = .eur ∧
      s.balance = newWallet.balance := by
  obtain ⟨transfer, entry, wallet⟩ := written_reads_back
  refine ⟨transfer rentDraft .epoch "rent" _ (by decide) (Row.shown_shownAt _ _),
    entry rentDebit .epoch _ (Row.shown_shownAt _ _), ?_⟩
  have said : (.insertWallet newWallet, .ok ⟨[newWalletRow], 1⟩) ∈
      (openWallet ⟨1, .epoch⟩ newWallet.owner .fixed
        ⟨newWallet.balance, .eur⟩).run.exchanges Script.answer newWalletReplies := by
    decide +kernel
  obtain ⟨-, -, written⟩ := wallet _ _ _ _ _ _ (Dialogue.course_run Script.answer
    (openWallet ⟨1, .epoch⟩ newWallet.owner .fixed ⟨newWallet.balance, .eur⟩).run newWalletReplies)
  obtain ⟨-, shows⟩ := written _ _ said
  obtain ⟨r, s, -, -, owner, kind, currency, balance, answered⟩ :=
    shows newWalletRow (Row.shown_shownAt _ _)
  exact ⟨_, s, rfl, said, answered [] 1 rfl, owner, kind, currency, balance⟩

end Sql

end WalletLedger
