import WalletLedger.Proofs.Matching
import WalletLedger.Proofs.Opening
import WalletLedger.Proofs.Recording
import WalletLedger.Proofs.Serial

/-!
Calls that are made on two ledgers, one in memory and one in a database that serves one call at a
time: how the database serves them, what they need on both sides, and when outcomes are the same.
-/
namespace WalletLedger

namespace Sql

inductive Served where
  | opened (result : Except OpeningError Wallet)
  | transferred (result : TransferResult)

namespace Database

def serve (db : Database) (wait : TimeSpan) (supply : Supply) : Request → Served × Database
  | .opening _ owner kind opening =>
    let (x, db) := { db with now := supply.now }.asked (openWallet supply owner kind opening)
    (.opened x, db)
  | .transfer r =>
    let ((x, _), db) := (transfer wait r supply).run answer { db with now := supply.now }
    (.transferred x, db)

def serveAll (db : Database) (wait : TimeSpan) : List (Request × Supply) → List Served × Database
  | [] => ([], db)
  | (r, supply) :: rest =>
    let (x, db) := db.serve wait supply r
    let (xs, db) := db.serveAll wait rest
    (x :: xs, db)

theorem serveAll_snoc {db db' db'' : Database} {wait : TimeSpan} {x : Served} {xs : List Served}
    {r : Request} {supply : Supply} {calls : List (Request × Supply)}
    (first : db.serveAll wait calls = (xs, db')) (last : db'.serve wait supply r = (x, db'')) :
    db.serveAll wait (calls ++ [(r, supply)]) = (xs ++ [x], db'') := by
  induction calls generalizing db xs with
  | nil =>
    cases first
    simp only [List.nil_append, serveAll, last]
  | cons call calls ih =>
    obtain ⟨r', supply'⟩ := call
    rcases served : db.serve wait supply' r' with ⟨y, t⟩
    rcases later : t.serveAll wait calls with ⟨ys, t'⟩
    simp only [serveAll, served, later, Prod.mk.injEq] at first
    obtain ⟨rfl, rfl⟩ := first
    simp only [List.cons_append, serveAll, served, ih later]

section
variable {users : List UserRecord} {b b' : Books} {clock : Timestamp} {wait : TimeSpan}
  {supply later : Supply}

theorem serve_transfer {r : TransferRequest} {x : TransferResult}
    (ran : (transfer wait r supply).run answer (holding users b supply.now) =
      ((x, later), holding users b' supply.now)) :
    (holding users b clock).serve wait supply (.transfer r) =
      (.transferred x, holding users b' supply.now) := by
  show (_, ((transfer wait r supply).run answer (holding users b supply.now)).2) = _
  rw [ran]
  show (Served.transferred
    ((transfer wait r supply).run answer (holding users b supply.now)).1.1, _) = _
  rw [ran]

theorem serve_opening {id : WalletId} {owner : UserId} {kind : WalletKind} {opening : Money}
    {x : Except OpeningError Wallet}
    (asked : (holding users b supply.now).asked (openWallet supply owner kind opening) =
      (x, holding users b' supply.now)) :
    (holding users b clock).serve wait supply (.opening id owner kind opening) =
      (.opened x, holding users b' supply.now) := by
  show (_, ((holding users b supply.now).asked (openWallet supply owner kind opening)).2) = _
  rw [asked]
  show (Served.opened
    ((holding users b supply.now).asked (openWallet supply owner kind opening)).1, _) = _
  rw [asked]

end

end Database

/-- The rule of the store in memory that a wallet breaks which is not opened. -/
def OpeningError.rule? : OpeningError → Option StoreError
  | negativeBalance _ => some (.constraint "chk_wallet_balance_non_negative")
  | precision e => some (.constraint e.message)
  | duplicate _ _ => some (.constraint "uq_wallet_user_type")
  | userNotFound _ | store _ | database _ => none

theorem checkOpening_cases (b : Books) (owner : UserId) (kind : WalletKind) (opening : Money) :
    (∃ e e', checkOpening opening = .error e ∧ e.rule? = some e' ∧
      Store.checkOpening { books := b } owner kind opening = .error e') ∨
    checkOpening opening = .ok () ∧ ((owner, kind) ∈ b.owners ∧
      Store.checkOpening { books := b } owner kind opening =
        .error (.constraint "uq_wallet_user_type") ∨
      (owner, kind) ∉ b.owners ∧
        Store.checkOpening { books := b } owner kind opening = .ok ()) := by
  unfold checkOpening Store.checkOpening
  by_cases owed : opening.amount.IsNegative
  · simp only [owed, if_true]
    exact Or.inl ⟨_, _, rfl, rfl, rfl⟩
  · simp only [owed, if_false]
    cases opening.checkScale with
    | error e => exact Or.inl ⟨_, _, rfl, rfl, rfl⟩
    | ok =>
      refine Or.inr ⟨rfl, ?_⟩
      by_cases taken : (owner, kind) ∈ b.owners
      · exact Or.inl ⟨taken, if_pos taken⟩
      · exact Or.inr ⟨taken, if_neg taken⟩

end Sql

def Outcome.Matches (σ : WalletId → WalletId) : Outcome → Sql.Served → Prop
  | .opened x, .opened y =>
    Corresponding (fun e e' => Sql.OpeningError.rule? e' = some e)
      (fun w w' => w.account.Matches σ w'.account) x y
  | .transferred x, .transferred y => x.Matches σ y
  | _, _ => False

namespace Books
variable {b : Books} {r : TransferRequest} {d : Draw} {s q : Wallet} {t : Transaction}
  {p : TransferPlan}

theorem Allows.whole (allows : b.Allows r s q) (small : s.balance.value < 10 ^ 20) :
    ∃ a, r.amount.column? = some a ∧ a.Stored ∧ a.value = r.amount.value := by
  have positive := Amount.isPositive_iff.mp (TransferRequest.amount_positive allows.valid)
  obtain ⟨-, -, -, covers⟩ := TransferRequest.validateAgainst_ok_iff.mp allows.allowed
  have covered := Amount.le_iff_value.mp covers
  refine (TransferRequest.amount_whole allows.valid).column? ?_
  rw [abs_of_pos positive]
  exact lt_of_le_of_lt covered small

theorem Allows.planned (allows : b.Allows r s q) (grown : b.Grown) (d : Draw) {a : Amount}
    (amount : a.Stored) (same : a.value = r.amount.value) (sender : s.balance.Stored)
    (receiver : q.balance.Stored) :
    ∃ p, b.Postable { r with amount := a } d s q
        ((({ r with amount := a } : TransferRequest).draft d.transaction).recordedAt d.inserted)
        p ∧ p.senderBalance.scale = 8 ∧ p.receiverBalance.scale = 8 := by
  obtain ⟨apart, inS, inQ, covers⟩ := TransferRequest.validateAgainst_ok_iff.mp allows.allowed
  rw [Amount.le_iff_value, ← same, ← Amount.le_iff_value] at covers
  obtain ⟨sent, taken, sentScale, sentValue⟩ := sender.add? amount.neg
  obtain ⟨received, given, receivedScale, -⟩ := receiver.add? amount
  have covered := Amount.le_iff_value.mp covers
  have left : ¬sent.IsNegative := by
    rw [Amount.isNegative_iff, sentValue, Amount.value_neg]
    linarith
  exact ⟨_, ⟨TransferRequest.validate_amount allows.valid same, allows.sender, allows.receiver,
    grown.transactionByKey?_none_iff.mp allows.absent,
    TransferRequest.validateAgainst_ok_iff.mpr ⟨apart, inS, inQ, covers⟩, rfl,
    planTransfer_made inS inQ taken left given⟩, sentScale, receivedScale⟩

def Fits (b : Books) : Prop := ∀ w ∈ b.wallets, w.balance.value < 10 ^ 20

def Aligned (b : Books) : Prop := ∀ w ∈ b.wallets, w.balance.scale = 8

theorem Aligned.withWallet {w : Wallet} (h : b.Aligned) (scale : w.balance.scale = 8) :
    (b.withWallet w).Aligned := by
  intro x mem
  rcases List.mem_append.mp mem with mem | mem
  · exact h x mem
  · rw [List.mem_singleton.mp mem]
    exact scale

theorem Aligned.post (h : b.Aligned) (sender : p.senderBalance.scale = 8)
    (receiver : p.receiverBalance.scale = 8) : (b.post t p d).Aligned := by
  intro x mem
  obtain ⟨w, there, rfl⟩ := List.mem_map.mp mem
  exact Wallet.balance_posted (·.scale = 8) sender receiver (h w there)

theorem Grown.stored {b' : Books} {σ : WalletId → WalletId} (grown : b'.Grown)
    (aligned : b'.Aligned) (same : b.contents.Matches σ b'.contents) (fits : b.Fits) :
    ∀ w ∈ b'.wallets, w.balance.Stored := by
  have wallets := List.forall₂_map_right_iff.mp (List.forall₂_map_left_iff.mp same.accounts)
  have small := forall_matches wallets fits fun w w' related (small : w.balance.value < 10 ^ 20) =>
    show w'.balance.value < 10 ^ 20 from lt_of_eq_of_lt related.value small
  intro w mem
  refine Amount.stored_of_value (aligned w mem) ?_
  rw [abs_of_nonneg (Amount.value_nonneg (grown.owed w mem))]
  exact small w mem

structure Drawn (ids : List Identifier) (b : Books) : Prop where
  wallets : ∀ w ∈ b.wallets, w.id ∈ ids
  transactions : ∀ t ∈ b.transactions, t.id ∈ ids
  entries : ∀ e ∈ b.entries, e.id ∈ ids

theorem Drawn.mono {ids more : List Identifier} (h : b.Drawn ids) (sub : ids ⊆ more) :
    b.Drawn more :=
  ⟨fun w mem => sub (h.wallets w mem), fun t mem => sub (h.transactions t mem),
    fun e mem => sub (h.entries e mem)⟩

theorem Drawn.withWallet {ids : List Identifier} {w : Wallet} (h : b.Drawn ids) (new : w.id ∈ ids) :
    (b.withWallet w).Drawn ids :=
  ⟨List.forall_mem_append.mpr ⟨h.wallets, List.forall_mem_singleton.mpr new⟩, h.transactions,
    h.entries⟩

theorem Drawn.post {ids : List Identifier} (h : b.Drawn ids) (postable : b.Postable r d s q t p)
    (transaction : t.id ∈ ids) (debit : d.debit ∈ ids) (credit : d.credit ∈ ids) :
    (b.post t p d).Drawn ids := by
  obtain ⟨sent, received, -, -, -, -, -, rfl⟩ := postable.plan_eq
  refine ⟨fun w mem => ?_,
    List.forall_mem_append.mpr ⟨h.transactions, List.forall_mem_singleton.mpr transaction⟩,
    List.forall_mem_append.mpr ⟨h.entries,
      List.forall_mem_cons.mpr ⟨debit, List.forall_mem_singleton.mpr credit⟩⟩⟩
  obtain ⟨x, there, rfl⟩ := List.mem_map.mp mem
  rw [Wallet.posted_id]
  exact h.wallets x there

end Books

structure SharedCall where
  request : Request
  memory : Supply
  database : Supply

def Request.renamed (σ : WalletId → WalletId) : Request → Request
  | .opening id owner kind money => .opening (σ id) owner kind money
  | .transfer r => .transfer (r.renamed σ)

namespace SharedCall

def inMemory (c : SharedCall) : Request × Supply := (c.request, c.memory)

def inDatabase (σ : WalletId → WalletId) (c : SharedCall) : Request × Supply :=
  (c.request.renamed σ, c.database)

def drawn (c : SharedCall) : List Identifier :=
  match c.request with
  | .opening _ _ _ _ => [c.database.id]
  | .transfer _ => [c.database.id, (c.database.after 1).id, (c.database.after 1).secondId]

/-- A new wallet gets the identifiers by which transfers name it, and its owner is known. -/
def Named (σ : WalletId → WalletId) (users : List Sql.UserRecord) (c : SharedCall) : Prop :=
  match c.request with
  | .opening id owner _ _ => c.memory.id = id ∧ c.database.id = σ id ∧ ∃ u ∈ users, u.id = owner
  | .transfer _ => True

instance (σ : WalletId → WalletId) (users : List Sql.UserRecord) (c : SharedCall) :
    Decidable (c.Named σ users) :=
  match c with
  | ⟨.opening _ _ _ _, _, _⟩ => inferInstanceAs (Decidable (_ ∧ _ ∧ ∃ u ∈ users, _))
  | ⟨.transfer _, _, _⟩ => inferInstanceAs (Decidable True)

structure Fresh (c : SharedCall) (ids ids' : List Identifier) : Prop where
  memory : c.memory.id ∉ ids
  database : ∀ x ∈ c.drawn, x ∉ ids'
  apart : c.drawn.Nodup

theorem drawn_transfer (r : TransferRequest) (supply supply' : Supply) (clock : Timestamp) :
    (Draw.inDatabase supply' clock).transaction ∈ drawn ⟨.transfer r, supply, supply'⟩ ∧
      (Draw.inDatabase supply' clock).debit ∈ drawn ⟨.transfer r, supply, supply'⟩ ∧
      (Draw.inDatabase supply' clock).credit ∈ drawn ⟨.transfer r, supply, supply'⟩ :=
  ⟨.head _, .tail _ (.head _), .tail _ (.tail _ (.head _))⟩

theorem Fresh.sides_apart {r : TransferRequest} {supply supply' : Supply}
    {ids ids' : List Identifier} (fresh : Fresh ⟨.transfer r, supply, supply'⟩ ids ids')
    (clock : Timestamp) :
    (Draw.inDatabase supply' clock).debit ≠ (Draw.inDatabase supply' clock).credit := by
  have apart : [supply'.id, (supply'.after 1).id, (supply'.after 1).secondId].Nodup := fresh.apart
  have sides := (List.nodup_cons.mp apart).2
  exact fun same => (List.nodup_cons.mp sides).1 (List.mem_singleton.mpr same)

/-- No balance outgrows its column on the way. -/
def Bounded (calls : List SharedCall) : Prop :=
  ∀ first, first <+: calls → ∀ xs s,
    ({} : Store).serveAll (first.map inMemory) = some (xs, s) → s.books.Fits

/-- What calls on both ledgers need: names for their wallets that do not clash, owners who are
known, and an identifier for everything that they write. -/
structure Prepared (σ : WalletId → WalletId) (users : List Sql.UserRecord)
    (calls : List SharedCall) : Prop where
  injective : Function.Injective σ
  named : ∀ c ∈ calls, c.Named σ users
  memory : (calls.map (·.memory.id)).Nodup
  database : (calls.flatMap drawn).Nodup

section
variable {σ : WalletId → WalletId} {users : List Sql.UserRecord} {calls : List SharedCall}
  {c : SharedCall}

theorem Bounded.before (bounded : Bounded (calls ++ [c])) : Bounded calls :=
  fun first earlier => bounded first (earlier.trans (List.prefix_append _ _))

theorem Prepared.before (prepared : Prepared σ users (calls ++ [c])) : Prepared σ users calls := by
  obtain ⟨injective, named, memory, database⟩ := prepared
  rw [List.map_append] at memory
  rw [List.flatMap_append] at database
  exact ⟨injective, fun c mem => named c (List.mem_append_left _ mem),
    (List.nodup_append.mp memory).1, (List.nodup_append.mp database).1⟩

theorem Prepared.fresh (prepared : Prepared σ users (calls ++ [c])) :
    c.Fresh (calls.map (·.memory.id)) (calls.flatMap drawn) := by
  obtain ⟨-, -, memory, database⟩ := prepared
  rw [List.map_append] at memory
  rw [List.flatMap_append, List.flatMap_singleton] at database
  obtain ⟨-, -, others⟩ := List.nodup_append.mp memory
  obtain ⟨-, apart, elsewhere⟩ := List.nodup_append.mp database
  exact ⟨fun mem => others _ mem _ (List.mem_singleton.mpr rfl) rfl,
    fun x mem there => elsewhere x there x mem rfl, apart⟩

end

end SharedCall

end WalletLedger
