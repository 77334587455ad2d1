import WalletLedger.Proofs.Ending
import WalletLedger.Proofs.KeyIndex

/-!
How final the end of a transaction is. The store in memory sets a status whatever the status was, in
a copy that the unit takes without a lock and that its commit puts in the place of what is
committed. So a transaction that has ended stays as it ended just as long as no unit commits that
was last told another status of it.
-/
namespace WalletLedger

def UnitReply.written? : UnitReply → Option Transaction
  | ⟨.insertTransaction _, .ok (.inserted t)⟩ => some t
  | ⟨.setStatus _ _, .ok t⟩ => some t
  | _ => none

namespace UnitOfWork

inductive Tells (u : UnitOfWork) (op : UnitOp) (st : Step op.Answer) : Prop where
  | nothing (kept : st.unit.staged.transactions = u.staged.transactions)
      (silent : ∀ a, st.progress = .replied a → (⟨op, a⟩ : UnitReply).written? = none)
  | row {t : Transaction} {a : Except StoreError op.Answer} (replied : st.progress = .replied a)
      (written : (⟨op, a⟩ : UnitReply).written? = some t)
      (staged : st.unit.staged.transactions = Table.put (·.id) t u.staged.transactions)

variable {u : UnitOfWork} {s : Store} {now : Timestamp} {op : UnitOp}

theorem tells_silent {v : UnitOfWork} {r : Except StoreError op.Answer}
    (kept : v.staged.transactions = u.staged.transactions)
    (silent : (⟨op, r⟩ : UnitReply).written? = none) : u.Tells op (reply r v s) := by
  refine .nothing kept fun a replied => ?_
  cases replied
  exact silent

theorem tells_failed (u : UnitOfWork) (op : UnitOp) (e : StoreError) (s : Store) :
    u.Tells op (reply (.error e) u s) :=
  tells_silent rfl (by cases op <;> rfl)

theorem tells_waiting {v : UnitOfWork} {r : Resource}
    (kept : v.staged.transactions = u.staged.transactions) : u.Tells op (await r v s) :=
  .nothing kept fun _ replied => nomatch replied

theorem start_tells (u : UnitOfWork) (s : Store) (now : Timestamp) (op : UnitOp) :
    u.Tells op (u.start s now op) := by
  cases op with
  | lockWallets pair =>
    simp only [start]
    split
    · exact tells_waiting rfl
    · exact tells_failed u _ _ s
  | findByKey key => exact tells_silent rfl rfl
  | insertTransaction draft =>
    simp only [start]
    split
    · exact tells_silent rfl rfl
    · exact tells_waiting rfl
  | insertEntry draft =>
    simp only [start]
    split
    · exact tells_failed u _ _ s
    · exact tells_silent rfl rfl
  | setBalance wallet balance =>
    simp only [start]
    split
    · exact tells_failed u _ _ s
    · exact tells_silent rfl rfl
  | setStatus id status =>
    simp only [start]
    split
    · exact tells_failed u _ _ s
    · exact .row rfl rfl rfl

theorem enter_tells (u : UnitOfWork) (s : Store) (now : Timestamp) (op : UnitOp) :
    u.Tells op (u.enter s now op) := by
  rcases u.enter_cases s now op with ⟨f, -, left, struck⟩ | ⟨left, started, -⟩
  · rw [struck]
    exact tells_failed u op _ _
  · rw [started]
    exact start_tells u _ now op

theorem resume_tells {st : Step op.Answer} (h : u.resume s now op = some st) : u.Tells op st := by
  unfold resume at h
  split at h <;> try contradiction
  split at h <;> try contradiction
  cases op with
  | lockWallets pair =>
    simp only [proceed] at h
    split at h
    · cases h
      exact tells_waiting rfl
    · cases h
      exact tells_silent rfl rfl
    · contradiction
  | insertTransaction draft =>
    simp only [proceed] at h
    split at h
    · cases h
      exact tells_silent rfl rfl
    · split at h
      · cases h
        exact tells_failed u _ _ _
      · cases h
        exact .row rfl rfl rfl
  | _ => contradiction

end UnitOfWork

def Books.statuses (b : Books) : List (TransactionId × TransactionStatus) :=
  b.transactions.map fun t => (t.id, t.status)

theorem Books.keepsEnds_iff {b b' : Books} : KeepsEnds b.statuses b'.statuses ↔
    ∀ x ∈ b.transactions, x.status.terminal = true →
      ∃ y ∈ b'.transactions, y.id = x.id ∧ y.status = x.status := by
  simp [KeepsEnds, statuses]

namespace Client
variable {c : Client} {op : UnitOp} {st : UnitOfWork.Step op.Answer} {id : TransactionId}
  {t : Transaction}

def written (c : Client) : List Transaction := c.replies.filterMap UnitReply.written?

def told? (c : Client) (id : TransactionId) : Option Transaction :=
  Table.find? (·.id) id c.written.reverse

structure Recorded (c : Client) : Prop where
  ids : (c.unit.staged.transactions.map (·.id)).Nodup
  told : ∀ t, t ∈ c.unit.staged.transactions ↔ c.told? t.id = some t

theorem id_of_told (h : c.told? id = some t) : t.id = id := (Table.find?_mem h).2

theorem Recorded.staged (recorded : c.Recorded) (h : c.told? id = some t) :
    t ∈ c.unit.staged.transactions := by
  rw [recorded.told, id_of_told h]
  exact h

theorem told?_silent {r : UnitReply} (silent : r.written? = none) (u : UnitOfWork)
    (pending : Option UnitOp) :
    (⟨u, pending, c.replies ++ [r]⟩ : Client).told? id = c.told? id := by
  simp [told?, written, silent]

theorem told?_written {r : UnitReply} (written : r.written? = some t) (u : UnitOfWork)
    (pending : Option UnitOp) : (⟨u, pending, c.replies ++ [r]⟩ : Client).told? id =
      if t.id = id then some t else c.told? id := by
  by_cases same : t.id = id <;> simp [told?, Client.written, written, Table.find?, same]

theorem Recorded.after (recorded : c.Recorded) (tells : c.unit.Tells op st) :
    (c.after op st).Recorded := by
  unfold Client.after
  cases progress : st.progress with
  | waiting =>
    cases tells with
    | nothing kept _ =>
      refine ⟨?_, fun t => ?_⟩
      · rw [kept]
        exact recorded.ids
      · rw [kept]
        exact recorded.told t
    | row replied => cases progress.symm.trans replied
  | replied a =>
    cases tells with
    | nothing kept silent =>
      refine ⟨?_, fun t => ?_⟩
      · rw [kept]
        exact recorded.ids
      · rw [kept, told?_silent (silent a progress)]
        exact recorded.told t
    | @row t _ replied written staged =>
      cases progress.symm.trans replied
      refine ⟨?_, fun x => ?_⟩
      · rw [staged]
        exact Table.nodup_put t recorded.ids
      · rw [staged, Table.mem_put_iff recorded.ids, told?_written written]
        by_cases same : t.id = x.id
        · simp [same, eq_comm]
        · have other : x ≠ t := fun h => same (congrArg (·.id) h.symm)
          simp [same, Ne.symm same, recorded.told x, other]

/-- The unit was last told another status of a transaction that has ended. -/
def Overturns (c : Client) (b : Books) : Prop :=
  ∃ x ∈ b.transactions, x.status.terminal = true ∧
    ∃ t, c.told? x.id = some t ∧ t.status ≠ x.status

theorem Recorded.keepsEnds_iff {b b' : Books} (recorded : c.Recorded) (indexed : b.Indexed)
    (indexed' : b'.Indexed) (takes : b.Takes c.unit.staged.transactions)
    (applied : Books.Applied b b' c.unit.staged) :
    KeepsEnds b.statuses b'.statuses ↔ ¬c.Overturns b := by
  rw [Books.keepsEnds_iff]
  constructor
  · rintro keeps ⟨x, mem, ended, t, told, other⟩
    have staged := recorded.staged told
    obtain ⟨y, there, -, id⟩ := applied.stands indexed' takes staged
    obtain ⟨z, last, id', status⟩ := keeps x mem ended
    -- The row that stands after the commit is the one that was told, since no other is staged.
    have same : y = t := by
      rcases applied.rows y there with new | ⟨-, apart⟩
      · exact List.inj_on_of_nodup_map recorded.ids new staged id
      · exact absurd id.symm (apart t staged)
    have here : z = y := by
      refine indexed'.row_unique last there ?_
      rw [id', id, id_of_told told]
    rw [here, same] at status
    exact other status
  · intro stays x mem ended
    obtain ⟨y, there, id⟩ := applied.kept x mem
    refine ⟨y, there, id, ?_⟩
    rcases applied.rows y there with new | ⟨old, -⟩
    · by_contra other
      have told := (recorded.told y).mp new
      rw [id] at told
      exact stays ⟨x, mem, ended, y, told, other⟩
    · rw [indexed.row_unique old mem id]

end Client

namespace Clients
variable {K K' : Clients} {c : Client} {id : UnitId} {now : Timestamp} {e : ClientEvent}
  {es : List ClientEvent}

def Recorded (K : Clients) : Prop := ∀ c ∈ K.live, c.Recorded

theorem Recorded.put (recorded : K.Recorded) (own : c.Recorded) (s : Store) :
    (K.put c s).Recorded := by
  intro x mem
  rcases Table.mem_of_mem_put mem with rfl | old
  · exact own
  · exact recorded x old

theorem Recorded.step (recorded : K.Recorded) (step : K.Step e K') : K'.Recorded := by
  cases step with
  | opened | unopened | unbegun | arranged => exact recorded
  | begun =>
    intro x mem
    rcases List.mem_append.mp mem with old | same
    · exact recorded x old
    · rw [List.mem_singleton.mp same]
      exact ⟨List.nodup_nil, fun t => ⟨nofun, nofun⟩⟩
  | @entered c now op mem idle =>
    exact recorded.put ((recorded c mem).after (c.unit.enter_tells K.store now op)) _
  | @resumed c now op st mem pending resumed =>
    exact recorded.put ((recorded c mem).after (UnitOfWork.resume_tells resumed)) _
  | @abandoned c op mem pending =>
    have own : ({ c with pending := none } : Client).Recorded :=
      ⟨(recorded c mem).ids, (recorded c mem).told⟩
    exact recorded.put own _
  | committed | uncommitted | discarded =>
    exact fun x mem => recorded x (List.mem_of_mem_filter mem)

theorem Recorded.run (recorded : K.Recorded) (h : K.run? es = some K') : K'.Recorded := by
  induction es generalizing K with
  | nil =>
    cases h
    exact recorded
  | cons e es ih =>
    obtain ⟨T, first, rest⟩ := Option.bind_eq_some_iff.mp h
    exact ih (recorded.step (step_of_next? first)) rest

def Overturning (K : Clients) : ClientEvent → Prop
  | .commit id now => ∃ c, K.client? id = some c ∧
      (K.store.commit c.unit now).1 = .ok () ∧ c.Overturns K.store.books
  | _ => False

/-- An event leaves what has ended as it is, unless it overturns it. Only a commit that succeeds
writes transactions to the books. -/
theorem keepsEnds_step (sound : K.Sound) (recorded : K.Recorded) (step : K.Step e K') :
    KeepsEnds K.store.books.statuses K'.store.books.statuses ↔ ¬K.Overturning e := by
  -- All events but openings and commits leave the books as they are.
  have keeps (same : K'.store.books = K.store.books) (idle : ¬K.Overturning e) :
      KeepsEnds K.store.books.statuses K'.store.books.statuses ↔ ¬K.Overturning e :=
    iff_of_true (KeepsEnds.of_eq (congrArg Books.statuses same)) idle
  cases step with
  | opened => exact iff_of_true (KeepsEnds.of_eq rfl) id
  | @entered c now op mem idle => exact keeps (c.unit.enter_writes K.store now op).2 id
  | @resumed c now op st mem pending resumed =>
    exact keeps ((sound.clients c mem).resumes pending resumed).books id
  | @abandoned c op mem pending =>
    exact keeps ((sound.clients c mem).abandoned pending).2.2.1 id
  | @committed c now faults mem idle passes =>
    obtain ⟨coherent, applied⟩ := sound.applied mem faults now
    have alone : K.Overturning (.commit c.unit.id now) ↔ c.Overturns K.store.books := by
      simp [Overturning, sound.client? mem, passes]
    rw [alone]
    exact (recorded c mem).keepsEnds_iff sound.coherent.toIndexed coherent.toIndexed
      (sound.clients c mem).suits.takes applied
  | @uncommitted c now e faults mem idle fails =>
    refine keeps rfl ?_
    simp [Overturning, sound.client? mem, fails]
  | unopened | begun | unbegun | discarded | arranged => exact keeps rfl id

/-- In no two states of the run, one after the other, has a transaction ended in two ways. -/
def Final (K : Clients) (es : List ClientEvent) : Prop :=
  ∀ before between after T T', es = before ++ between ++ after → K.run? before = some T →
    T.run? between = some T' → KeepsEnds T.store.books.statuses T'.store.books.statuses

def Unturned (K : Clients) (es : List ClientEvent) : Prop :=
  ∀ before e after T, es = before ++ e :: after → K.run? before = some T → ¬T.Overturning e

theorem run?_append (K : Clients) (es later : List ClientEvent) :
    K.run? (es ++ later) = (K.run? es).bind (·.run? later) := by
  induction es generalizing K with
  | nil => rfl
  | cons e es ih =>
    simp only [List.cons_append, run?, Option.bind_assoc]
    exact congrArg _ (funext ih)

theorem Unturned.within (unturned : K.Unturned es) (before between after : List ClientEvent)
    (parts : es = before ++ between ++ after) (ran : K.run? before = some K') :
    K'.Unturned between := by
  rintro first e rest T rfl reached
  refine unturned (before ++ first) e (rest ++ after) T ?_ ?_
  · simp only [parts, List.append_assoc, List.cons_append]
  · rw [run?_append, ran]
    exact reached

theorem Unturned.keepsEnds (sound : K.Sound) (recorded : K.Recorded) (unturned : K.Unturned es)
    (h : K.run? es = some K') : KeepsEnds K.store.books.statuses K'.store.books.statuses := by
  induction es generalizing K with
  | nil =>
    cases h
    exact KeepsEnds.of_eq rfl
  | cons e es ih =>
    obtain ⟨T, first, rest⟩ := Option.bind_eq_some_iff.mp h
    have step := step_of_next? first
    have keeps := (keepsEnds_step sound recorded step).mpr (unturned [] e es K rfl rfl)
    have ran : K.run? [e] = some T := by rw [run?, first, Option.bind_some, run?]
    refine keeps.trans (ih (sound.step step).sound (recorded.step step) ?_ rest)
    exact unturned.within [e] es [] (by simp) ran

theorem final_iff_unturned (sound : K.Sound) (recorded : K.Recorded) (h : K.run? es = some K') :
    K.Final es ↔ K.Unturned es := by
  constructor
  · rintro final before e after T parts ran overturning
    rw [parts, run?_append, ran, Option.bind_some] at h
    obtain ⟨U, first, -⟩ := Option.bind_eq_some_iff.mp h
    have next : T.run? [e] = some U := by rw [run?, first, Option.bind_some, run?]
    have keeps := final before [e] after T U (by simp [parts]) ran next
    have onward := sound.run ran
    exact (keepsEnds_step onward.sound (recorded.run ran) (step_of_next? first)).mp keeps overturning
  · rintro unturned before between after T T' parts ran reached
    have within := unturned.within before between after parts ran
    exact within.keepsEnds (sound.run ran).sound (recorded.run ran) reached

end Clients

namespace Clients
variable {K : Clients} {es : List ClientEvent}

/-- Whatever clients do, transactions that have ended stay as they ended in all that is committed
later if and only if no unit commits that was last told another status of one of them. A database
keeps them in any case. -/
theorem run_final (h : ({} : Clients).run? es = some K) :
    (({} : Clients).Final es ↔ ({} : Clients).Unturned es) ∧
      ∀ (db : Sql.Database) (ss later : List Sql.Statement), db.working = none →
        KeepsEnds (db.after ss).committed.statuses (db.after (ss ++ later)).committed.statuses := by
  have recorded : ({} : Clients).Recorded := fun _ mem => nomatch mem
  refine ⟨final_iff_unturned Reachable.start.sound recorded h, fun db ss later idle => ?_⟩
  have keeping : db.Keeping := by
    rw [Sql.Database.Keeping, Sql.Database.tables, idle]
    exact .refl _
  obtain ⟨next, -⟩ := Sql.Database.after_keepsEnds keeping ss
  have apart : db.after (ss ++ later) = (db.after ss).after later := List.foldl_append
  rw [apart]
  exact (Sql.Database.after_keepsEnds next later).2

/-- A unit records a transaction as completed and commits; another one says that it has failed. -/
def paid : List ClientEvent :=
  opening ++ [.begin, .enter 0 .epoch (.insertTransaction ⟨rent "rent", .ofNat 3, .pending⟩),
    .resume 0 .epoch, .enter 0 .epoch (.setStatus (.ofNat 3) .completed), .commit 0 .epoch]

def unpaid : List ClientEvent :=
  [.begin, .enter 1 .epoch (.setStatus (.ofNat 3) .failed), .commit 1 .epoch]

def paidTables : Sql.Database :=
  ⟨{ transactions := [.of (TransactionDraft.recordedAt ⟨rent "rent", .ofNat 3, .completed⟩ .epoch)] },
    none, .epoch⟩

def unpaying : List Sql.Statement := [.begin, .updateStatus (.ofNat 3) .failed .epoch, .commit]

theorem paid_runs : (({} : Clients).run? paid).bind (fun K => (K.run? unpaid).map fun T =>
    (K.store.books.statuses, T.store.books.statuses)) =
      some ([(.ofNat 3, .completed)], [(.ofNat 3, .failed)]) := by
  decide +kernel

/-- A transaction that is committed as completed can turn into one that has failed. -/
theorem final_fails : ∃ K T, ({} : Clients).run? paid = some K ∧ K.run? unpaid = some T ∧
    (.ofNat 3, .completed) ∈ K.store.books.statuses ∧
    T.store.books.statuses = [(.ofNat 3, .failed)] ∧ ¬({} : Clients).Final (paid ++ unpaid) := by
  obtain ⟨K, ran, rest⟩ := Option.bind_eq_some_iff.mp paid_runs
  obtain ⟨T, turned, found⟩ := Option.map_eq_some_iff.mp rest
  obtain ⟨before, after⟩ := Prod.mk.inj found
  refine ⟨K, T, ran, turned, before ▸ List.mem_singleton_self _, after, fun final => ?_⟩
  have keeps := final paid unpaid [] K T (List.append_nil _).symm ran turned
  rw [before, after] at keeps
  exact absurd (keeps _ (List.mem_singleton_self _) rfl) (by decide)

theorem run_final_unpaid : ∃ K, ({} : Clients).run? (paid ++ unpaid) = some K ∧
    ¬({} : Clients).Unturned (paid ++ unpaid) ∧
    (.ofNat 3, .completed) ∈ (paidTables.after unpaying).committed.statuses := by
  obtain ⟨K, ran, rest⟩ := Option.bind_eq_some_iff.mp paid_runs
  obtain ⟨T, turned, found⟩ := Option.map_eq_some_iff.mp rest
  obtain ⟨before, after⟩ := Prod.mk.inj found
  have both : ({} : Clients).run? (paid ++ unpaid) = some T := by
    rw [run?_append, ran]
    exact turned
  obtain ⟨final, kept⟩ := run_final both
  refine ⟨T, both, fun unturned => ?_, kept paidTables [] unpaying rfl _ ?_ rfl⟩
  · have keeps := final.mpr unturned paid unpaid [] K T (List.append_nil _).symm ran turned
    rw [before, after] at keeps
    exact absurd (keeps _ (List.mem_singleton_self _) rfl) (by decide)
  · exact List.mem_singleton_self _

end Clients

end WalletLedger
