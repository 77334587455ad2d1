import Mathlib.Data.List.Induction
import Mathlib.Data.List.Infix
import Mathlib.Logic.Equiv.Basic
import WalletLedger.Proofs.Shared

/-!
The two stores agree. A ledger in memory and one in a database that serves one call at a time answer
every call alike and come to the same contents, but for the names of wallets and the scale of
amounts, as long as every balance fits into its column.
-/
namespace WalletLedger

/-- The two ledgers after the same calls: they match, the columns of the one hold what the other
has, and identifiers have been drawn from these. -/
structure Agreeing (σ : WalletId → WalletId) (ids ids' : List Identifier) (s : Store) (b : Books) :
    Prop where
  idle : s.Idle
  grown : b.Grown
  contents : s.books.contents.Matches σ b.contents
  fits : s.books.Fits
  aligned : b.Aligned
  drawn : ∀ t ∈ s.books.transactions, t.id ∈ ids
  written : b.Drawn ids'

namespace Agreeing
variable {σ : WalletId → WalletId} {ids ids' : List Identifier} {s : Store} {b : Books}
  {r : TransferRequest} {d : Draw} {payer payee : Wallet}

theorem records (agreeing : Agreeing σ ids ids' s b) (d' : Draw)
    (injective : Function.Injective σ) (allows : s.books.Allows r payer payee)
    (suits : (Request.transfer r).Suits s.books d)
    (fits : (s.books.transfer r d).2.Fits) (new : b.transaction? d'.transaction = none)
    (debit : ∀ e ∈ b.entries, e.id ≠ d'.debit) (credit : ∀ e ∈ b.entries, e.id ≠ d'.credit)
    (apart : d'.debit ≠ d'.credit) :
    ∃ t p kept payer' payee' t' p', s.books.Postable r d payer payee t p ∧ r.Matches σ kept ∧
      Sql.Recordable b (r.renamed σ) kept d' payer' payee' t' p' ∧
      (s.books.post t p d).contents.Matches σ (b.post t' p' d').contents ∧
      (b.post t' p' d').Aligned := by
  obtain ⟨payer', payee', allows', sender, receiver⟩ :=
    Books.Allows.matches injective agreeing.contents allows
  have stored := agreeing.grown.stored agreeing.aligned agreeing.contents agreeing.fits
  have senderStored := stored payer' (Books.wallet?_mem allows'.sender)
  have receiverStored := stored payee' (Books.wallet?_mem allows'.receiver)
  have small : payer'.balance.value < 10 ^ 20 :=
    lt_of_eq_of_lt sender.value (agreeing.fits payer (Books.wallet?_mem allows.sender))
  obtain ⟨a, column, amount, same⟩ := allows'.whole small
  obtain ⟨p', postable', sentScale, receivedScale⟩ :=
    allows'.planned agreeing.grown d' amount same senderStored receiverStored
  let kept : TransferRequest := { r.renamed σ with amount := a }
  have request : r.Matches σ kept := ⟨rfl, rfl, same, rfl, rfl, rfl, rfl⟩
  have plans := planTransfer_matches ((r.draft d.transaction).recordedAt d.inserted)
    ((kept.draft d'.transaction).recordedAt d'.inserted) same rfl sender receiver d.debit d.credit
    d'.debit d'.credit
  rw [postable'.planned] at plans
  obtain ⟨p, planned, sent, received⟩ := plans.to_ok
  have postable : s.books.Postable r d payer payee
      ((r.draft d.transaction).recordedAt d.inserted) p :=
    ⟨allows.valid, allows.sender, allows.receiver,
      agreeing.idle.grown.transactionByKey?_none_iff.mp allows.absent, allows.allowed, rfl, planned⟩
  have contents :
      (s.books.post ((r.draft d.transaction).recordedAt d.inserted) p d).contents.Matches σ
        (b.post ((kept.draft d'.transaction).recordedAt d'.inserted) p' d').contents := by
    rw [Books.contents_post agreeing.idle.grown.coherent postable
        (suits _ p (Books.settle_postable postable)),
      Books.contents_post agreeing.grown.coherent postable' new]
    exact agreeing.contents.post injective request sent received
  -- That the new balances fit is known in memory only; the contents match already, so it carries
  -- over before anything is written to the columns.
  rw [Books.transfer_postable postable] at fits
  have grown : (b.post ((kept.draft d'.transaction).recordedAt d'.inserted) p' d').Grown :=
    .posted agreeing.grown postable' new
  have aligned : (b.post ((kept.draft d'.transaction).recordedAt d'.inserted) p' d').Aligned :=
    agreeing.aligned.post sentScale receivedScale
  have balances := grown.stored aligned contents fits
  have sentStored := balances _ (List.mem_map_of_mem (Books.wallet?_mem allows'.sender))
  have receivedStored := balances _ (List.mem_map_of_mem (Books.wallet?_mem allows'.receiver))
  rw [postable'.posted_sender] at sentStored
  rw [postable'.posted_receiver] at receivedStored
  exact ⟨_, p, kept, payer', payee', _, p', postable, request,
    ⟨agreeing.grown, postable', allows', column, rfl, amount, senderStored, receiverStored,
      sentStored, receivedStored, new, debit, credit, apart⟩, contents, aligned⟩

theorem opens (agreeing : Agreeing σ ids ids' s b) {w : Wallet} {id : WalletId} (now : Timestamp)
    (owed : ¬w.balance.IsNegative) (scaled : w.money.checkScale = .ok ())
    (free : (w.owner, w.kind) ∉ s.books.owners) (small : w.balance.value < 10 ^ 20)
    (named : id = σ w.id) (new : b.wallet? id = none) :
    ∃ balance w', w.balance.column? = some balance ∧ ¬balance.IsNegative ∧
      w' = ⟨id, w.owner, w.kind, w.currency, balance, now, now⟩ ∧ w.account.Matches σ w'.account ∧
      (b.withWallet w').Grown ∧ (b.withWallet w').Aligned := by
  have positive := Amount.value_nonneg owed
  have short : |w.balance.value| < 10 ^ 20 := by rwa [abs_of_nonneg positive]
  obtain ⟨balance, column, stored, same⟩ := (Money.whole_of_checkScale scaled).column? short
  have owners : b.owners = s.books.owners := agreeing.contents.owners
  have unowned : (w.owner, w.kind) ∉ b.owners := owners ▸ free
  have left : ¬balance.IsNegative := by
    rw [Amount.isNegative_iff, same]
    exact not_lt.mpr positive
  have fine : Money.checkScale ⟨balance, w.currency⟩ = .ok () := by
    rw [Money.checkScale_iff] at scaled ⊢
    exact scaled.imp fun n whole => same.trans whole
  exact ⟨balance, _, column, left, rfl, ⟨named, rfl, rfl, rfl, same⟩,
    .opened agreeing.grown new left fine unowned,
    agreeing.aligned.withWallet stored.scale⟩

def Serves (σ : WalletId → WalletId) (users : List Sql.UserRecord) (wait : TimeSpan)
    (ids ids' : List Identifier) (s : Store) (b : Books) (clock : Timestamp) (c : SharedCall) :
    Prop :=
  ∃ x s' y b', s.serve c.memory c.request = some (x, s') ∧
    (Sql.Database.holding users b clock).serve wait c.database (c.request.renamed σ) =
      (y, .holding users b' c.database.now) ∧
    x.Matches σ y ∧ Agreeing σ (ids ++ [c.memory.id]) (ids' ++ c.drawn) s' b'

variable {users : List Sql.UserRecord} {wait : TimeSpan} {clock : Timestamp}
  {supply supply' : Supply}

theorem serves_transfer (agreeing : Agreeing σ ids ids' s b) (injective : Function.Injective σ)
    (fresh : SharedCall.Fresh ⟨.transfer r, supply, supply'⟩ ids ids')
    (fits : ∀ x s', s.serve supply (.transfer r) = some (x, s') → s'.books.Fits) :
    Serves σ users wait ids ids' s b clock ⟨.transfer r, supply, supply'⟩ := by
  have unused : s.books.transaction? supply.id = none :=
    Table.find?_none_iff.mpr fun t mem same => fresh.memory (same ▸ agreeing.drawn t mem)
  obtain ⟨x, s', d, served, idle, performed, suits, known⟩ :=
    agreeing.idle.serves_transfer r unused
  have fits := fits x s' served
  have drawn : ∀ t ∈ s'.books.transactions, t.id ∈ ids ++ [supply.id] := by
    intro t mem
    rcases known t mem with old | new
    · exact List.mem_append_left _ (agreeing.drawn t old)
    · exact List.mem_append_right _ (List.mem_singleton.mpr new)
  have performs : s.books.perform d (.transfer r) =
      (.transferred (s.books.transfer r d).1, (s.books.transfer r d).2) := rfl
  obtain ⟨rfl, after⟩ := Prod.mk.inj (performs.symm.trans performed)
  rcases s.books.answers_or_allows r with ⟨x, answers⟩ | ⟨payer, payee, allows⟩
  · obtain ⟨y, answers', matching⟩ := Books.Answers.matches injective agreeing.contents answers
    obtain ⟨later, ran⟩ :=
      Sql.Database.run_answers users supply'.now supply' wait agreeing.grown answers'
    rw [answers.transfer d] at served after
    refine ⟨_, s', _, b, served, Sql.Database.serve_transfer ran, matching, idle, agreeing.grown,
      ?_, fits, agreeing.aligned, drawn, agreeing.written.mono (List.subset_append_left _ _)⟩
    rw [← after]
    exact agreeing.contents
  · have posted : (s.books.transfer r d).2.Fits := after ▸ fits
    let d' := Draw.inDatabase supply' supply'.now
    obtain ⟨transaction, debit, credit⟩ :=
      SharedCall.drawn_transfer r supply supply' supply'.now
    obtain ⟨t, p, kept, payer', payee', t', p', postable, request, recordable, contents, aligned⟩ :=
      agreeing.records d' injective allows suits posted
        (Table.find?_none_iff.mpr fun t mem same =>
          fresh.database _ transaction (same ▸ agreeing.written.transactions t mem))
        (fun e mem same => fresh.database _ debit (same ▸ agreeing.written.entries e mem))
        (fun e mem same => fresh.database _ credit (same ▸ agreeing.written.entries e mem))
        (fresh.sides_apart supply'.now)
    obtain ⟨later, ran⟩ := Sql.Database.run_posts users wait recordable
    rw [Books.transfer_postable postable] at served after
    have written := (agreeing.written.mono (List.subset_append_left _ _)).post recordable.postable
      (List.mem_append_right _ (recordable.named ▸ transaction)) (List.mem_append_right _ debit)
      (List.mem_append_right _ credit)
    have record : ∀ now now' : Timestamp, (t.withStatus .completed now).transferRecord.Matches σ
        (t'.withStatus .completed now').transferRecord := by
      rw [postable.pending, recordable.postable.pending]
      exact fun _ _ => ⟨request, rfl⟩
    refine ⟨_, s', _, b.post t' p' d', served, Sql.Database.serve_transfer ran,
      ⟨rfl, record _ _⟩, idle, .posted agreeing.grown recordable.postable recordable.unnamed, ?_,
      fits, aligned, drawn, written⟩
    rw [← after]
    exact contents

theorem serves_opening {id : WalletId} {owner : UserId} {kind : WalletKind} {money : Money}
    (agreeing : Agreeing σ ids ids' s b) (injective : Function.Injective σ)
    (named : SharedCall.Named σ users ⟨.opening id owner kind money, supply, supply'⟩)
    (fresh : SharedCall.Fresh ⟨.opening id owner kind money, supply, supply'⟩ ids ids')
    (fits : ∀ x s', s.serve supply (.opening id owner kind money) = some (x, s') → s'.books.Fits) :
    Serves σ users wait ids ids' s b clock ⟨.opening id owner kind money, supply, supply'⟩ := by
  obtain ⟨here, there, u, mem, owns⟩ := named
  have unknown : b.wallet? supply'.id = none :=
    Table.find?_none_iff.mpr fun w mem same =>
      fresh.database supply'.id (.head _) (same ▸ agreeing.written.wallets w mem)
  have new : s.books.wallet? id = none :=
    (Books.wallet?_none_matches injective agreeing.contents).mpr (there ▸ unknown)
  have user : ((Sql.Tables.of users b).user? owner).isSome := by
    simpa [Sql.Tables.user?, Table.find?, List.find?_isSome] using ⟨u, mem, owns⟩
  obtain ⟨x, s', d, served, idle, performed, suits, same⟩ :=
    agreeing.idle.serves_opening owner kind money here new
  have fits := fits x s' served
  have drawn : ∀ t ∈ s'.books.transactions, t.id ∈ ids ++ [supply.id] := fun t mem =>
    List.mem_append_left _ (agreeing.drawn t (same ▸ mem))
  have performs : s.books.perform d (.opening id owner kind money) =
      (.opened (s.books.openWallet id d.committed owner kind money).1,
        (s.books.openWallet id d.committed owner kind money).2) := rfl
  obtain ⟨rfl, after⟩ := Prod.mk.inj (performs.symm.trans performed)
  have kept : b.Drawn (ids' ++ [supply'.id]) :=
    agreeing.written.mono (List.subset_append_left _ _)
  have owners : b.owners = s.books.owners := agreeing.contents.owners
  rcases Sql.checkOpening_cases s.books owner kind money with
    ⟨e, e', checked, rule, broken⟩ | ⟨checked, ⟨taken, broken⟩ | ⟨free, passed⟩⟩
  · rw [Books.openWallet_refused broken] at served after
    refine ⟨_, s', _, b, served,
      Sql.Database.serve_opening (Sql.Database.open_unchecked checked), rule, idle, agreeing.grown,
      ?_, fits, agreeing.aligned, drawn, kept⟩
    rw [← after]
    exact agreeing.contents
  · rw [Books.openWallet_refused broken] at served after
    refine ⟨_, s', _, b, served, Sql.Database.serve_opening
      (Sql.Database.open_taken agreeing.grown checked user (owners ▸ taken)), rfl, idle,
      agreeing.grown, ?_, fits, agreeing.aligned, drawn, kept⟩
    rw [← after]
    exact agreeing.contents
  · rcases Books.openWallet_cases new d.committed owner kind money with
      ⟨e', broken, -⟩ | ⟨-, w, rfl, opened, owed, scaled, -⟩
    · cases broken.symm.trans passed
    · rw [opened] at served after
      have small : money.amount.value < 10 ^ 20 :=
        fits ⟨id, owner, kind, money.currency, money.amount, d.committed, d.committed⟩
          (by rw [← after]; simp [Books.withWallet])
      obtain ⟨balance, w', column, left, row, account, grown, aligned⟩ :=
        agreeing.opens supply'.now owed scaled free small there unknown
      have ran := Sql.Database.open_new supply'.now agreeing.grown checked user (owners ▸ free)
        column left unknown row
      refine ⟨_, s', _, b.withWallet w', served, Sql.Database.serve_opening ran, account, idle,
        grown, ?_, fits, aligned, drawn, kept.withWallet (by simp [row])⟩
      rw [← after, Books.contents_withWallet, Books.contents_withWallet]
      exact agreeing.contents.withAccount account

theorem serves {c : SharedCall} (agreeing : Agreeing σ ids ids' s b) (wait : TimeSpan)
    (clock : Timestamp) (injective : Function.Injective σ) (named : c.Named σ users)
    (fresh : c.Fresh ids ids')
    (fits : ∀ x s', s.serve c.memory c.request = some (x, s') → s'.books.Fits) :
    Serves σ users wait ids ids' s b clock c := by
  obtain ⟨request, supply, supply'⟩ := c
  cases request with
  | opening id owner kind money => exact agreeing.serves_opening injective named fresh fits
  | transfer r => exact agreeing.serves_transfer injective fresh fits

theorem start (σ : WalletId → WalletId) : Agreeing σ [] [] {} {} where
  idle := Store.idle_start
  grown := .empty
  contents := ⟨.nil, rfl, .nil, .nil, .nil⟩
  fits := fun _ => List.not_mem_nil.elim
  aligned := fun _ => List.not_mem_nil.elim
  drawn := fun _ => List.not_mem_nil.elim
  written := ⟨fun _ => List.not_mem_nil.elim, fun _ => List.not_mem_nil.elim,
    fun _ => List.not_mem_nil.elim⟩

theorem serves_all {calls : List SharedCall} (prepared : SharedCall.Prepared σ users calls)
    (bounded : SharedCall.Bounded calls) (wait : TimeSpan) (start : Timestamp) :
    ∃ outcomes s results b clock,
      ({} : Store).serveAll (calls.map SharedCall.inMemory) = some (outcomes, s) ∧
      (Sql.Database.holding users {} start).serveAll wait (calls.map (SharedCall.inDatabase σ)) =
        (results, .holding users b clock) ∧
      List.Forall₂ (Outcome.Matches σ) outcomes results ∧
      Agreeing σ (calls.map (·.memory.id)) (calls.flatMap SharedCall.drawn) s b := by
  -- From the last call backwards, as what is drawn and what fits is said of whole beginnings.
  induction calls using List.reverseRecOn with
  | nil => exact ⟨[], {}, [], {}, start, rfl, rfl, .nil, Agreeing.start σ⟩
  | append_singleton calls c ih =>
    obtain ⟨outcomes, s, results, b, clock, served, ran, answers, agreeing⟩ :=
      ih prepared.before bounded.before
    have fits : ∀ x s', s.serve c.memory c.request = some (x, s') → s'.books.Fits := by
      intro x s' last
      refine bounded _ (List.prefix_refl _) (outcomes ++ [x]) s' ?_
      rw [List.map_append]
      exact Store.serveAll_snoc served last
    obtain ⟨x, s', y, b', last, ends, answer, agreeing'⟩ := agreeing.serves wait clock
      prepared.injective (prepared.named c (by simp)) prepared.fresh fits
    refine ⟨outcomes ++ [x], s', results ++ [y], b', c.database.now, ?_, ?_,
      List.rel_append answers (.cons answer .nil), ?_⟩
    · rw [List.map_append]
      exact Store.serveAll_snoc served last
    · rw [List.map_append]
      exact Sql.Database.serveAll_snoc ran ends
    · rw [List.map_append, List.flatMap_append, List.flatMap_singleton]
      exact agreeing'

end Agreeing

namespace Sql

/-- A ledger in memory and one in a database give the same answers to the same calls, one after the
other, and come to the same contents. -/
theorem stores_agree {σ : WalletId → WalletId} {users : List UserRecord} {calls : List SharedCall}
    (prepared : SharedCall.Prepared σ users calls) (bounded : SharedCall.Bounded calls)
    (wait : TimeSpan) (start : Timestamp) :
    ∃ outcomes s results db b,
      ({} : Store).serveAll (calls.map SharedCall.inMemory) = some (outcomes, s) ∧
      (⟨{ users := users }, none, start⟩ : Database).serveAll wait
        (calls.map (SharedCall.inDatabase σ)) = (results, db) ∧
      List.Forall₂ (Outcome.Matches σ) outcomes results ∧
      db.working = none ∧ db.committed = .of users b ∧
      b.owners = b.wallets.map (fun w => (w.owner, w.kind)) ∧
      b.keys = b.transactions.map (fun t => (t.key, t.id)) ∧
      s.books.contents.Matches σ b.contents := by
  obtain ⟨outcomes, s, results, b, clock, served, ran, answers, agreeing⟩ :=
    Agreeing.serves_all prepared bounded wait start
  exact ⟨outcomes, s, results, _, b, served, ran, answers, rfl, rfl, agreeing.grown.owners_eq,
    agreeing.grown.keys_eq, agreeing.contents⟩

def rent : List SharedCall :=
  let usd (dimes : Nat) (h : dimes < twoTo 96) : Money := ⟨⟨dimes, 1, h, by decide⟩, .usd⟩
  let r : TransferRequest := ⟨.ofNat 1, .ofNat 2, (usd 700 (by decide)).amount, .usd, .transfer,
    none, ⟨"rent"⟩⟩
  let call (request : Request) (memory database : Nat) : SharedCall :=
    ⟨request, ⟨memory, .epoch⟩, ⟨database, .epoch⟩⟩
  [call (.opening (.ofNat 1) (.ofNat 7) .savings (usd 2500 (by decide))) 1 2,
    call (.opening (.ofNat 2) (.ofNat 8) .savings (usd 10 (by decide))) 2 1,
    call (.transfer r) 3 10, call (.transfer r) 4 20]

def tenants : List UserRecord :=
  [⟨.ofNat 7, "first@tenants", "first", .ofUtc .epoch, .ofUtc .epoch⟩,
    ⟨.ofNat 8, "second@tenants", "second", .ofUtc .epoch, .ofUtc .epoch⟩]

theorem rent_bounded : SharedCall.Bounded rent := by
  have small : ∀ first ∈ rent.inits, (({} : Store).serveAll (first.map SharedCall.inMemory)).all
      fun x => x.2.books.wallets.all fun w => w.balance ≤ ⟨2500, 1, by decide, by decide⟩ := by
    decide +kernel
  intro first earlier xs s served w mem
  have holds := small first ((List.mem_inits _ _).mpr earlier)
  rw [served] at holds
  simp only [Option.all_some, List.all_eq_true, decide_eq_true_eq] at holds
  refine lt_of_le_of_lt (Amount.le_iff_value.mp (holds w mem)) ?_
  norm_num [Amount.value]

theorem stores_agree_rent :
    ∃ outcomes s results db b,
      ({} : Store).serveAll (rent.map SharedCall.inMemory) = some (outcomes, s) ∧
      (⟨{ users := tenants }, none, .epoch⟩ : Database).serveAll .zero
        (rent.map (SharedCall.inDatabase (Equiv.swap (.ofNat 1) (.ofNat 2)))) = (results, db) ∧
      db.committed = .of tenants b ∧
      s.books.contents.Matches (Equiv.swap (.ofNat 1) (.ofNat 2)) b.contents ∧
      s.books.entries.length = 2 := by
  have prepared : SharedCall.Prepared (Equiv.swap (.ofNat 1) (.ofNat 2)) tenants rent := by
    refine ⟨(Equiv.swap _ _).injective, ?_, ?_, ?_⟩ <;> decide +kernel
  have sides : (({} : Store).serveAll (rent.map SharedCall.inMemory)).all fun x =>
      x.2.books.entries.length = 2 := by
    decide +kernel
  obtain ⟨outcomes, s, results, db, b, served, ran, -, -, committed, -, -, contents⟩ :=
    stores_agree prepared rent_bounded .zero .epoch
  rw [served] at sides
  exact ⟨outcomes, s, results, db, b, served, ran, committed, contents, by simpa using sides⟩

end Sql

end WalletLedger
