import WalletLedger.Sql.Database

/-!
Transactions that have ended, in a database. It lets nobody set another status of them, neither in
an open transaction nor outside of one, so whatever is committed later has them as they ended.
-/
namespace WalletLedger

def KeepsEnds (before after : List (TransactionId × TransactionStatus)) : Prop :=
  ∀ p ∈ before, p.2.terminal = true → p ∈ after

section
variable {before between after : List (TransactionId × TransactionStatus)}

theorem KeepsEnds.refl (before : List (TransactionId × TransactionStatus)) :
    KeepsEnds before before :=
  fun _ mem _ => mem

theorem KeepsEnds.of_eq (same : after = before) : KeepsEnds before after := same ▸ .refl before

theorem KeepsEnds.trans (first : KeepsEnds before between) (second : KeepsEnds between after) :
    KeepsEnds before after :=
  fun p mem ended => second p (first p mem ended) ended

end

namespace Sql

section
variable {α β : Type} {x : Except Failure α}

theorem bind_ok {f : α → Except Failure β} {b : β} (h : x >>= f = .ok b) :
    ∃ a, x = .ok a ∧ f a = .ok b := by
  cases x with
  | error e => cases h
  | ok a => exact ⟨a, rfl, h⟩

theorem map_ok {f : α → β} {b : β} (h : x.map f = .ok b) : ∃ a, x = .ok a ∧ f a = b := by
  cases x with
  | error e => cases h
  | ok a => exact ⟨a, rfl, Except.ok.inj h⟩

theorem holds_of_require {holds : Bool} {state rule : String} {u : Unit}
    (h : require holds state rule = .ok u) : holds = true := by
  cases holds with
  | false => cases h
  | true => rfl

end

namespace Tables
variable {t t' : Tables}

def statuses (t : Tables) : List (TransactionId × TransactionStatus) :=
  t.transactions.map fun x => (x.id, x.status)

theorem insertTransaction_ok {d : TransactionDraft} {now : Timestamp} {n : Nat}
    (h : t.insertTransaction d now = .ok (n, t')) : ∃ new, t'.statuses = t.statuses ++ new := by
  unfold insertTransaction at h
  obtain ⟨amount, -, h⟩ := bind_ok h
  obtain ⟨-, -, h⟩ := bind_ok h
  obtain ⟨-, -, h⟩ := bind_ok h
  split at h
  · cases h
    exact ⟨[], (List.append_nil _).symm⟩
  · obtain ⟨-, -, h⟩ := bind_ok h
    obtain ⟨-, -, h⟩ := bind_ok h
    obtain ⟨-, -, h⟩ := bind_ok h
    cases h
    exact ⟨_, List.map_append⟩

theorem insertUser_ok {u : UserRecord} (h : t.insertUser u = .ok t') :
    t'.transactions = t.transactions := by
  unfold insertUser at h
  obtain ⟨-, -, h⟩ := bind_ok h
  obtain ⟨-, -, h⟩ := bind_ok h
  cases h
  rfl

theorem insertWallet_ok {w : Wallet} {r : WalletRecord} (h : t.insertWallet w = .ok (r, t')) :
    t'.transactions = t.transactions := by
  unfold insertWallet at h
  obtain ⟨balance, -, h⟩ := bind_ok h
  obtain ⟨-, -, h⟩ := bind_ok h
  obtain ⟨-, -, h⟩ := bind_ok h
  obtain ⟨-, -, h⟩ := bind_ok h
  obtain ⟨-, -, h⟩ := bind_ok h
  cases h
  rfl

theorem insertEntry_ok {d : EntryDraft} {now : Timestamp} {r : EntryRecord}
    (h : t.insertEntry d now = .ok (r, t')) : t'.transactions = t.transactions := by
  unfold insertEntry at h
  obtain ⟨amount, -, h⟩ := bind_ok h
  obtain ⟨before, -, h⟩ := bind_ok h
  obtain ⟨after, -, h⟩ := bind_ok h
  obtain ⟨-, -, h⟩ := bind_ok h
  obtain ⟨-, -, h⟩ := bind_ok h
  obtain ⟨-, -, h⟩ := bind_ok h
  obtain ⟨-, -, h⟩ := bind_ok h
  obtain ⟨-, -, h⟩ := bind_ok h
  obtain ⟨-, -, h⟩ := bind_ok h
  cases h
  rfl

theorem updateBalance_ok {now : Timestamp} {wallet : WalletId} {balance : Amount} {n : Nat}
    (h : t.updateBalance now wallet balance = .ok (n, t')) : t'.transactions = t.transactions := by
  unfold updateBalance at h
  obtain ⟨amount, -, h⟩ := bind_ok h
  obtain ⟨-, -, h⟩ := bind_ok h
  cases h
  rfl

theorem updateStatus_ok {id : TransactionId} {status : TransactionStatus} {now : Timestamp}
    {rows : List TransactionRecord} (h : t.updateStatus id status now = .ok (rows, t')) :
    KeepsEnds t.statuses t'.statuses := by
  unfold updateStatus at h
  obtain ⟨_, passes, h⟩ := bind_ok h
  have allowed := List.all_eq_true.mp (holds_of_require passes)
  cases h
  rintro p mem ended
  obtain ⟨x, there, rfl⟩ := List.mem_map.mp mem
  refine List.mem_map.mpr ⟨_, List.mem_map_of_mem there, ?_⟩
  by_cases here : x.id = id
  · have same : x.status = status := by simpa [here, ended] using allowed x there
    simp [here, same]
  · simp [here]

theorem answer_keepsEnds {now : Timestamp} {s : Statement} {o : Outcome}
    (h : t.answer now s = .ok (o, t')) : KeepsEnds t.statuses t'.statuses := by
  have same : t'.transactions = t.transactions → KeepsEnds t.statuses t'.statuses :=
    fun same => .of_eq (congrArg (List.map _) same)
  cases s with
  | insertUser u =>
    obtain ⟨after, inserted, made⟩ := map_ok h
    cases made
    exact same (insertUser_ok inserted)
  | insertWallet w =>
    obtain ⟨⟨r, after⟩, inserted, made⟩ := map_ok h
    cases made
    exact same (insertWallet_ok inserted)
  | updateBalance wallet balance =>
    obtain ⟨⟨n, after⟩, updated, made⟩ := map_ok h
    cases made
    exact same (updateBalance_ok updated)
  | insertTransaction d now =>
    obtain ⟨⟨n, after⟩, inserted, made⟩ := map_ok h
    cases made
    obtain ⟨new, added⟩ := insertTransaction_ok inserted
    rw [added]
    exact fun p mem _ => List.mem_append_left _ mem
  | updateStatus id status now =>
    obtain ⟨⟨rows, after⟩, updated, made⟩ := map_ok h
    cases made
    exact updateStatus_ok updated
  | insertEntry d now =>
    obtain ⟨⟨r, after⟩, inserted, made⟩ := map_ok h
    cases made
    exact same (insertEntry_ok inserted)
  | _ =>
    cases h
    exact .refl _

end Tables

namespace Database
variable {db : Database}

def after (db : Database) (ss : List Statement) : Database :=
  ss.foldl (fun db s => (db.answer s).2) db

def Keeping (db : Database) : Prop := KeepsEnds db.committed.statuses db.tables.statuses

theorem put_keeping {t : Tables} (keeping : db.Keeping)
    (keeps : KeepsEnds db.tables.statuses t.statuses) : (db.put t).Keeping ∧
      KeepsEnds db.committed.statuses (db.put t).committed.statuses := by
  unfold put
  cases working : db.working with
  | none =>
    have here : db.tables = db.committed := by rw [tables, working, Option.getD_none]
    rw [here] at keeps
    exact ⟨.refl _, keeps⟩
  | some u => exact ⟨keeping.trans keeps, .refl _⟩

theorem answered_keeping {s : Statement} (keeping : db.Keeping)
    (asked : db.answer s = match db.tables.answer db.now s with
      | .error f => (.error f, db)
      | .ok (o, t) => (.ok o, db.put t)) : (db.answer s).2.Keeping ∧
      KeepsEnds db.committed.statuses (db.answer s).2.committed.statuses := by
  cases said : db.tables.answer db.now s with
  | error f =>
    rw [asked, said]
    exact ⟨keeping, .refl _⟩
  | ok r =>
    rw [asked, said]
    exact put_keeping keeping (Tables.answer_keepsEnds said)

theorem answer_keeping (keeping : db.Keeping) (s : Statement) : (db.answer s).2.Keeping ∧
    KeepsEnds db.committed.statuses (db.answer s).2.committed.statuses := by
  cases s with
  | begin => exact ⟨.refl _, .refl _⟩
  | rollback | abandon => exact ⟨.refl _, .refl _⟩
  | commit =>
    simp only [answer]
    split
    · exact ⟨.refl _, keeping⟩
    · exact ⟨.refl _, .refl _⟩
  | _ => exact answered_keeping keeping rfl

/-- Whatever the statements are, transactions that have ended stay as they ended. -/
theorem after_keepsEnds (keeping : db.Keeping) (ss : List Statement) : (db.after ss).Keeping ∧
    KeepsEnds db.committed.statuses (db.after ss).committed.statuses := by
  induction ss generalizing db with
  | nil => exact ⟨keeping, .refl _⟩
  | cons s ss ih =>
    obtain ⟨next, first⟩ := answer_keeping keeping s
    obtain ⟨last, rest⟩ := ih next
    exact ⟨last, first.trans rest⟩

end Database

end Sql

end WalletLedger
