import WalletLedger.Proofs.Serving
import WalletLedger.Sql.Account

/-!
Wallets opened in a database that nobody else uses. Who owns a wallet of a kind is read off the
rows, and the new row comes back as it was written, with the balance that its column keeps.
-/
namespace WalletLedger

namespace Sql

namespace Database

def asked {ε α : Type} (db : Database) (m : Asking ε α) : Except ε α × Database :=
  m.run.run answer db

section
variable {ε ε' α β : Type} {m : Asking ε α} {f : α → Asking ε β} {db db' : Database}

theorem asked_bind {a : α} (said : db.asked m = (.ok a, db')) :
    db.asked (m >>= f) = db'.asked (f a) := by
  refine (Dialogue.run_bind answer _ _ db).trans ?_
  rw [show Dialogue.run answer m db = (.ok a, db') from said]
  rfl

theorem asked_failed {e : ε} (said : db.asked m = (.error e, db')) :
    db.asked (m >>= f) = (.error e, db') := by
  refine (Dialogue.run_bind answer _ _ db).trans ?_
  rw [show Dialogue.run answer m db = (.error e, db') from said]
  rfl

theorem asked_adapt {g : ε → ε'} {a : α} (said : db.asked m = (.ok a, db')) :
    db.asked (ExceptT.adapt g m) = (.ok a, db') := by
  refine (Dialogue.run_bind answer _ _ db).trans ?_
  rw [show Dialogue.run answer m db = (.ok a, db') from said]
  rfl

theorem asked_first {ρ : Type} {ofRow : Row → Except Failure ρ} {row : ρ → Row} {n : Nat}
    {s : Statement} (reads : ∀ r, ofRow (row r) = .ok r) (found : Option ρ)
    (said : db.answer s = (.ok ⟨found.toList.map row, n⟩, db')) :
    db.asked (first ofRow s) = (.ok found, db') := by
  have answered : db.asked (ask s) = (.ok ⟨found.toList.map row, n⟩, db') := by
    show Dialogue.run answer (.say s .done) db = _
    rw [Dialogue.run, said]
    rfl
  refine (asked_bind answered).trans ?_
  cases found with
  | none => rfl
  | some r =>
    simp only [Option.toList_some, List.map_cons, reads]
    rfl

theorem asked_inserted {ρ : Type} {ofRow : Row → Except Failure ρ} {row : ρ → Row} {n : Nat}
    {s : Statement} (reads : ∀ r, ofRow (row r) = .ok r) (r : ρ)
    (said : db.answer s = (.ok ⟨[row r], n⟩, db')) :
    db.asked (inserted ofRow s) = (.ok r, db') :=
  asked_bind (asked_first reads (some r) said)

end

variable {users : List UserRecord} {b : Books} {clock : Timestamp} {supply : Supply}
  {owner : UserId} {kind : WalletKind} {opening : Money}

theorem open_unchecked {e : OpeningError} (checked : checkOpening opening = .error e) :
    (holding users b clock).asked (openWallet supply owner kind opening) =
      (.error e, holding users b clock) := by
  unfold openWallet
  refine asked_failed ?_
  rw [checked]
  rfl

variable (users b clock) in
theorem asked_user (owner : UserId) :
    (holding users b clock).asked (ExceptT.adapt OpeningError.database
      (first UserRecord.ofRow (.selectUser owner))) =
      (.ok ((Tables.of users b).user? owner), holding users b clock) :=
  asked_adapt (asked_first UserRecord.ofRow_row _ (holding_answer rfl rfl))

variable (users clock) in
theorem asked_kind (grown : b.Grown) (owner : UserId) (kind : WalletKind) :
    ∃ found, (holding users b clock).asked (ExceptT.adapt OpeningError.database
      (first WalletRecord.ofRow (.selectWalletOfKind owner kind))) =
      (.ok found, holding users b clock) ∧ (found.isSome ↔ (owner, kind) ∈ b.owners) := by
  refine ⟨_, asked_adapt (asked_first WalletRecord.ofRow_row _ (holding_answer rfl rfl)), ?_⟩
  rw [grown.owners_eq, List.find?_isSome]
  constructor
  · rintro ⟨x, mem, same⟩
    obtain ⟨w, there, rfl⟩ := List.mem_map.mp mem
    simp only [Bool.and_eq_true, decide_eq_true_eq] at same
    exact List.mem_map.mpr ⟨w, there, Prod.ext same.1 same.2⟩
  · intro mem
    obtain ⟨w, there, same⟩ := List.mem_map.mp mem
    obtain ⟨rfl, rfl⟩ := Prod.mk.inj same
    exact ⟨.of w, List.mem_map.mpr ⟨w, there, rfl⟩, by simp [WalletRecord.of]⟩

theorem open_taken (grown : b.Grown) (checked : checkOpening opening = .ok ())
    (user : ((Tables.of users b).user? owner).isSome) (taken : (owner, kind) ∈ b.owners) :
    (holding users b clock).asked (openWallet supply owner kind opening) =
      (.error (.duplicate owner kind), holding users b clock) := by
  obtain ⟨u, known⟩ := Option.isSome_iff_exists.mp user
  obtain ⟨found, looked, there⟩ := asked_kind users clock grown owner kind
  have owned := asked_user users b clock owner
  rw [known] at owned
  unfold openWallet
  refine (asked_bind (a := ()) (by rw [checked]; rfl)).trans ?_
  refine (asked_bind owned).trans ?_
  simp only [Option.isNone_some, Bool.false_eq_true, if_false]
  refine (asked_bind looked).trans ?_
  simp only [there.mpr taken, if_true]
  rfl

variable (clock) in
theorem open_new {w : Wallet} {balance : Amount} (grown : b.Grown)
    (checked : checkOpening opening = .ok ())
    (user : ((Tables.of users b).user? owner).isSome) (free : (owner, kind) ∉ b.owners)
    (kept : opening.amount.column? = some balance) (owed : ¬balance.IsNegative)
    (new : b.wallet? supply.id = none)
    (row : w = ⟨supply.id, owner, kind, opening.currency, balance, supply.now, supply.now⟩) :
    (holding users b clock).asked (openWallet supply owner kind opening) =
      (.ok w, holding users (b.withWallet w) clock) := by
  obtain ⟨u, known⟩ := Option.isSome_iff_exists.mp user
  obtain ⟨found, looked, there⟩ := asked_kind users clock grown owner kind
  have owned := asked_user users b clock owner
  rw [known] at owned
  have none : found = none := by simpa [free] using there
  have single : ∀ x ∈ b.wallets, (x.owner, x.kind) ≠ (owner, kind) := by
    intro x mem same
    rw [grown.owners_eq] at free
    exact free (same ▸ List.mem_map.mpr ⟨x, mem, rfl⟩)
  have inserts : (Tables.of users b).answer clock (.insertWallet
      ⟨supply.id, owner, kind, opening.currency, opening.amount, supply.now, supply.now⟩) =
      .ok (⟨[(WalletRecord.of w).row], 1⟩, .of users (b.withWallet w)) := by
    rw [Tables.answer, Tables.insertWallet_of kept row owed new single user]
    rfl
  unfold openWallet
  refine (asked_bind (a := ()) (by rw [checked]; rfl)).trans ?_
  refine (asked_bind owned).trans ?_
  simp only [Option.isNone_some, Bool.false_eq_true, if_false]
  refine (asked_bind looked).trans ?_
  simp only [none, Option.isSome_none, Bool.false_eq_true, if_false]
  refine (asked_bind (asked_adapt
    (asked_inserted WalletRecord.ofRow_row (.of w) (holding_answer rfl inserts)))).trans ?_
  rw [WalletRecord.toWallet_of]
  rfl

end Database

end Sql

end WalletLedger
