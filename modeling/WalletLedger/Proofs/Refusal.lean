import Mathlib.Data.List.Induction
import WalletLedger.Proofs.Finality

/-!
Operations that are not carried out. An operation of a unit fails by an arranged fault, by a check
or by a key that belongs to another transaction, sometimes after a long wait for a lock. It leaves
its unit and the locks of the unit as they were, so what a unit has staged is what it was
acknowledged, and a commit writes that and nothing else. A commit that fails writes nothing and
gives up every lock.
-/
namespace WalletLedger

namespace UnitReply

/-- The operation has failed, or its key belongs to another transaction. -/
def refused : UnitReply → Bool
  | ⟨.insertTransaction _, .ok .duplicateKey⟩ => true
  | ⟨_, .error _⟩ => true
  | _ => false

def stage (staged : Staged) : UnitReply → Staged
  | ⟨.insertTransaction draft, .ok (.inserted t)⟩ =>
    { staged with
      keys := staged.keys ++ [draft.key]
      transactions := Table.put (·.id) t staged.transactions }
  | ⟨.insertEntry _, .ok e⟩ => { staged with entries := staged.entries ++ [e] }
  | ⟨.setBalance wallet balance, .ok ()⟩ =>
    { staged with balances := Table.put Prod.fst (wallet, balance) staged.balances }
  | ⟨.setStatus _ _, .ok t⟩ =>
    { staged with transactions := Table.put (·.id) t staged.transactions }
  | _ => staged

def balance? : UnitReply → Option (WalletId × Amount)
  | ⟨.setBalance wallet balance, .ok ()⟩ => some (wallet, balance)
  | _ => none

def entered? : UnitReply → Option Entry
  | ⟨.insertEntry _, .ok e⟩ => some e
  | _ => none

theorem stage_error (staged : Staged) (op : UnitOp) (e : StoreError) :
    stage staged ⟨op, .error e⟩ = staged := by
  cases op <;> rfl

theorem stage_balances (staged : Staged) (r : UnitReply) : (stage staged r).balances =
    match r.balance? with
    | some p => Table.put Prod.fst p staged.balances
    | none => staged.balances := by
  unfold stage
  split <;> (try rfl)
  unfold balance?
  split <;> simp_all

theorem stage_entries (staged : Staged) (r : UnitReply) :
    (stage staged r).entries = staged.entries ++ r.entered?.toList := by
  unfold stage
  split <;> simp_all [entered?]

end UnitReply

namespace UnitOfWork

def Step.noted (op : UnitOp) (st : Step op.Answer) (before : Staged) : Staged :=
  match st.progress with
  | .waiting => before
  | .replied a => UnitReply.stage before ⟨op, a⟩

structure Noted (u : UnitOfWork) (op : UnitOp) (st : Step op.Answer) : Prop where
  staged : st.unit.staged = st.noted op u.staged
  spared : (∀ a, st.progress = .replied a → (⟨op, a⟩ : UnitReply).refused) →
    st.unit = u ∨ st.progress = .waiting ∧ ∃ pair, op = .lockWallets pair

variable {u v : UnitOfWork} {s : Store} {now : Timestamp} {op : UnitOp} {q : Resource}

theorem noted_kept {r : Except StoreError op.Answer} (s : Store)
    (kept : UnitReply.stage u.staged ⟨op, r⟩ = u.staged) : u.Noted op (reply r u s) :=
  ⟨kept.symm, fun _ => Or.inl rfl⟩

theorem noted_failed (u : UnitOfWork) (op : UnitOp) (e : StoreError) (s : Store) :
    u.Noted op (reply (.error e) u s) :=
  noted_kept s (UnitReply.stage_error _ op e)

theorem noted_await (u : UnitOfWork) (op : UnitOp) (s : Store) : u.Noted op (await q u s) :=
  ⟨rfl, fun _ => Or.inl rfl⟩

theorem noted_done {r : Except StoreError op.Answer} (s : Store)
    (staged : v.staged = UnitReply.stage u.staged ⟨op, r⟩)
    (done : ¬(⟨op, r⟩ : UnitReply).refused) : u.Noted op (reply r v s) :=
  ⟨staged, fun refused => absurd (refused r rfl) done⟩

theorem start_noted (u : UnitOfWork) (s : Store) (now : Timestamp) (op : UnitOp) :
    u.Noted op (u.start s now op) := by
  cases op with
  | lockWallets pair =>
    simp only [start]
    split
    · exact noted_await u _ s
    · exact noted_failed u _ _ s
  | findByKey key => exact noted_kept s rfl
  | insertTransaction draft =>
    simp only [start]
    split
    · exact noted_kept s rfl
    · exact noted_await u _ s
  | insertEntry draft =>
    simp only [start]
    split
    · exact noted_failed u _ _ s
    · exact noted_done s rfl Bool.false_ne_true
  | setBalance wallet balance =>
    simp only [start]
    split
    · exact noted_failed u _ _ s
    · exact noted_done s rfl Bool.false_ne_true
  | setStatus id status =>
    simp only [start]
    split
    · exact noted_failed u _ _ s
    · exact noted_done s rfl Bool.false_ne_true

theorem enter_noted (u : UnitOfWork) (s : Store) (now : Timestamp) (op : UnitOp) :
    u.Noted op (u.enter s now op) := by
  rcases u.enter_cases s now op with ⟨f, -, left, struck⟩ | ⟨left, started, -⟩
  · rw [struck]
    exact noted_failed u op _ _
  · rw [started]
    exact start_noted u _ now op

theorem resume_noted {st : Step op.Answer} (h : u.resume s now op = some st) : u.Noted op st := by
  unfold resume at h
  split at h <;> try contradiction
  split at h <;> try contradiction
  cases op with
  | lockWallets pair =>
    simp only [proceed] at h
    split at h
    · cases h
      exact ⟨rfl, fun _ => Or.inr ⟨rfl, pair, rfl⟩⟩
    · cases h
      exact noted_done s rfl Bool.false_ne_true
    · contradiction
  | insertTransaction draft =>
    simp only [proceed] at h
    split at h
    · cases h
      exact noted_kept _ rfl
    · split at h
      · cases h
        exact noted_failed u _ _ _
      · cases h
        exact noted_done s rfl Bool.false_ne_true
  | _ => contradiction

end UnitOfWork

namespace Client
variable {c d : Client} {op : UnitOp} {st : UnitOfWork.Step op.Answer} {id : WalletId}

def acknowledged (c : Client) : Staged := c.replies.foldl UnitReply.stage {}

def balance? (c : Client) (id : WalletId) : Option Amount :=
  (Table.find? Prod.fst id (c.replies.filterMap UnitReply.balance?).reverse).map Prod.snd

def entries (c : Client) : List Entry := c.replies.filterMap UnitReply.entered?

/-- No operation that has replied in between has been carried out. -/
def Spared (c d : Client) : Prop :=
  ∃ rs, d.replies = c.replies ++ rs ∧ ((∀ r ∈ rs, r.refused) →
    d.unit = c.unit ∨ ∃ pair, d.pending = some (.lockWallets pair))

theorem Spared.refl (c : Client) : c.Spared c := ⟨[], (List.append_nil _).symm, fun _ => Or.inl rfl⟩

/-- A step of an operation leaves a client spared; one that waits for its wallets will not be
refused any more. -/
theorem Spared.after (spared : c.Spared d) (noted : d.unit.Noted op st)
    (own : ∀ pair, d.pending = some (.lockWallets pair) → op = .lockWallets pair ∧
      ∀ a, st.progress = .replied a → ¬(⟨op, a⟩ : UnitReply).refused) :
    c.Spared (d.after op st) := by
  obtain ⟨rs, replies, kept⟩ := spared
  unfold Client.after
  cases progress : st.progress with
  | waiting =>
    refine ⟨rs, replies, fun refused => ?_⟩
    rcases noted.spared fun a replied => nomatch progress.symm.trans replied with
      same | ⟨-, pair, rfl⟩
    · rcases kept refused with unit | ⟨pair, pending⟩
      · exact Or.inl (same.trans unit)
      · obtain ⟨rfl, -⟩ := own pair pending
        exact Or.inr ⟨pair, rfl⟩
    · exact Or.inr ⟨pair, rfl⟩
  | replied a =>
    refine ⟨rs ++ [⟨op, a⟩], by simp [replies], fun refused => Or.inl ?_⟩
    have last : (⟨op, a⟩ : UnitReply).refused := refused _ (by simp)
    have same : st.unit = d.unit := by
      refine (noted.spared fun b replied => ?_).resolve_right fun h =>
        nomatch progress.symm.trans h.1
      cases progress.symm.trans replied
      exact last
    rcases kept fun r mem => refused r (by simp [mem]) with unit | ⟨pair, pending⟩
    · exact same.trans unit
    · exact absurd last ((own pair pending).2 a progress)

theorem acknowledged_after (noted : d.unit.Noted op st) (same : d.unit.staged = d.acknowledged) :
    (d.after op st).unit.staged = (d.after op st).acknowledged := by
  have staged := noted.staged
  unfold UnitOfWork.Step.noted at staged
  unfold Client.after acknowledged
  cases progress : st.progress with
  | waiting =>
    rw [progress] at staged
    exact staged.trans same
  | replied a =>
    rw [progress] at staged
    simp only [staged, same, acknowledged, List.foldl_append, List.foldl_cons, List.foldl_nil]

theorem balance?_eq (c : Client) (id : WalletId) :
    c.balance? id = (Table.find? Prod.fst id c.acknowledged.balances).map Prod.snd := by
  unfold balance? acknowledged
  congr 1
  induction c.replies using List.reverseRecOn with
  | nil => rfl
  | append_singleton rs r ih =>
    rw [List.foldl_append, List.foldl_cons, List.foldl_nil, UnitReply.stage_balances,
      List.filterMap_append, List.reverse_append]
    cases written : r.balance? with
    | none => simp [written, ih]
    | some p =>
      rw [Table.find?_put, ← ih]
      by_cases same : p.1 = id <;> simp [written, Table.find?, same]

theorem balances_distinct (c : Client) : (c.acknowledged.balances.map Prod.fst).Nodup := by
  unfold acknowledged
  induction c.replies using List.reverseRecOn with
  | nil => exact List.nodup_nil
  | append_singleton rs r ih =>
    rw [List.foldl_append, List.foldl_cons, List.foldl_nil, UnitReply.stage_balances]
    split
    · exact Table.nodup_put _ ih
    · exact ih

theorem entries_eq (c : Client) : c.entries = c.acknowledged.entries := by
  unfold entries acknowledged
  induction c.replies using List.reverseRecOn with
  | nil => rfl
  | append_singleton rs r ih =>
    rw [List.foldl_append, List.foldl_cons, List.foldl_nil, UnitReply.stage_entries, ← ih,
      List.filterMap_append]
    cases written : r.entered? <;> simp [written]

theorem Recorded.find? (recorded : c.Recorded) (id : TransactionId) :
    Table.find? (·.id) id c.unit.staged.transactions = c.told? id := by
  cases told : c.told? id with
  | none =>
    refine Table.find?_none_iff.mpr ?_
    rintro t mem rfl
    rw [(recorded.told t).mp mem] at told
    contradiction
  | some t =>
    obtain rfl := id_of_told told
    exact Table.find?_of_mem recorded.ids (recorded.staged told)

end Client

namespace Books
variable {b : Books}

theorem wallet?_setBalances (b : Books) (now : Timestamp) {ps : List (WalletId × Amount)}
    (distinct : (ps.map Prod.fst).Nodup) (id : WalletId) :
    (ps.foldl (setBalance · now) b).wallet? id = (b.wallet? id).map fun w =>
      match Table.find? Prod.fst id ps with
      | some p => { w with balance := p.2, updatedAt := now }
      | none => w := by
  induction ps generalizing b with
  | nil => simp [Table.find?]
  | cons p ps ih =>
    obtain ⟨notin, distinct⟩ := List.nodup_cons.mp distinct
    rw [List.foldl_cons, ih _ distinct, wallet?_setBalance, Option.map_map]
    cases found : b.wallet? id with
    | none => rfl
    | some w =>
      have named := wallet?_id found
      by_cases same : p.1 = id
      · have rest : Table.find? Prod.fst id ps = none :=
          Table.find?_none_iff.mpr fun q mem clash =>
            notin (List.mem_map.mpr ⟨q, mem, clash.trans same.symm⟩)
        have first : Table.find? Prod.fst id (p :: ps) = some p := by simp [Table.find?, same]
        simp [rest, first, named, same]
      · have first : Table.find? Prod.fst id (p :: ps) = Table.find? Prod.fst id ps := by
          simp [Table.find?, same]
        simp [first, named, Ne.symm same]

theorem transaction?_putTransactions (b : Books) {ts : List Transaction}
    (distinct : (ts.map (·.id)).Nodup) (id : TransactionId) :
    (ts.foldl putTransaction b).transaction? id =
      (Table.find? (·.id) id ts).or (b.transaction? id) := by
  induction ts generalizing b with
  | nil => rfl
  | cons t ts ih =>
    obtain ⟨notin, distinct⟩ := List.nodup_cons.mp distinct
    have put : (b.putTransaction t).transaction? id =
        if t.id = id then some t else b.transaction? id :=
      Table.find?_put (fun x : Transaction => x.id) t id b.transactions
    rw [List.foldl_cons, ih _ distinct, put]
    by_cases same : t.id = id
    · have rest : Table.find? (·.id) id ts = none :=
        Table.find?_none_iff.mpr fun x mem clash =>
          notin (List.mem_map.mpr ⟨x, mem, clash.trans same.symm⟩)
      have first : Table.find? (·.id) id (t :: ts) = some t := by simp [Table.find?, same]
      simp [rest, first, same]
    · have first : Table.find? (·.id) id (t :: ts) = Table.find? (·.id) id ts := by
        simp [Table.find?, same]
      simp [first, same]

theorem owners_putTransactions (b : Books) (ts : List Transaction) :
    (ts.foldl putTransaction b).owners = b.owners := by
  induction ts generalizing b with
  | nil => rfl
  | cons t ts ih => exact ih (b.putTransaction t)

end Books

/-- What a commit makes of the books: what its unit was acknowledged last stands in them, and all
else stands as it stood. -/
structure Client.Wrote (c : Client) (now : Timestamp) (b b' : Books) : Prop where
  wallets : ∀ id, b'.wallet? id = (b.wallet? id).map fun w =>
    match c.balance? id with
    | some balance => { w with balance := balance, updatedAt := now }
    | none => w
  transactions : ∀ id, b'.transaction? id = (c.told? id).or (b.transaction? id)
  keys : ∀ p, p ∈ b'.keys ↔ p ∈ b.keys ∨ ∃ t, c.told? t.id = some t ∧ p = (t.key, t.id)
  entries : b'.entries = b.entries ++ c.entries
  owners : b'.owners = b.owners

def ClientEvent.operates : ClientEvent → Bool
  | .enter _ _ _ | .resume _ _ | .abandon _ => true
  | _ => false

namespace Clients
variable {K K' : Clients} {c d : Client} {e : ClientEvent} {es : List ClientEvent}

inductive Came (K : Clients) : ClientEvent → Client → Prop where
  | stayed {e : ClientEvent} {c : Client} (mem : c ∈ K.live) : Came K e c
  | begun {e : ClientEvent} : Came K e ⟨⟨K.store.nextUnit, [], {}⟩, none, []⟩
  | entered {c : Client} (now : Timestamp) (op : UnitOp) (mem : c ∈ K.live)
      (idle : c.pending = none) :
      Came K (.enter c.unit.id now op) (c.after op (c.unit.enter K.store now op))
  | resumed {c : Client} {now : Timestamp} {op : UnitOp} {st : UnitOfWork.Step op.Answer}
      (mem : c ∈ K.live) (pending : c.pending = some op)
      (step : c.unit.resume K.store now op = some st) :
      Came K (.resume c.unit.id now) (c.after op st)
  | abandoned {c : Client} (mem : c ∈ K.live) :
      Came K (.abandon c.unit.id) { c with pending := none }

theorem Step.came (step : K.Step e K') (there : d ∈ K'.live) : K.Came e d := by
  cases step with
  | opened | unopened | unbegun | arranged => exact .stayed there
  | begun =>
    rcases List.mem_append.mp there with old | same
    · exact .stayed old
    · rw [List.mem_singleton.mp same]
      exact .begun
  | entered now op mem idle =>
    rcases Table.mem_of_mem_put there with rfl | old
    · exact .entered now op mem idle
    · exact .stayed old
  | resumed mem pending resumed =>
    rcases Table.mem_of_mem_put there with rfl | old
    · exact .resumed mem pending resumed
    · exact .stayed old
  | abandoned mem pending =>
    rcases Table.mem_of_mem_put there with rfl | old
    · exact .abandoned mem
    · exact .stayed old
  | committed | uncommitted | discarded => exact .stayed (List.mem_of_mem_filter there)

theorem resume_locks {u : UnitOfWork} {s : Store} {now : Timestamp} {pair : WalletPair}
    {st : UnitOfWork.Step (UnitOp.lockWallets pair).Answer}
    (h : u.resume s now (.lockWallets pair) = some st) :
    ∀ a, st.progress = .replied a → ¬(⟨.lockWallets pair, a⟩ : UnitReply).refused := by
  intro a replied
  unfold UnitOfWork.resume at h
  split at h <;> try contradiction
  split at h <;> try contradiction
  simp only [UnitOfWork.proceed] at h
  split at h
  · cases h
    cases replied
  · cases h
    cases replied
    exact Bool.false_ne_true
  · contradiction

theorem Sound.spared_next (sound : K.Sound) (begun : c.unit.id < K.store.nextUnit)
    (spared : ∀ d ∈ K.live, d.unit.id = c.unit.id → c.Spared d) (came : K.Came e d)
    (kept : e ≠ .abandon c.unit.id) (same : d.unit.id = c.unit.id) : c.Spared d := by
  cases came with
  | stayed mem => exact spared d mem same
  | begun => exact absurd begun (Nat.not_lt.mpr (Nat.le_of_eq same))
  | @entered x now op mem idle =>
    have noted := x.unit.enter_noted K.store now op
    rw [Client.unit_after, (x.unit.enter_steps K.store now op).unit] at same
    refine (spared x mem same).after noted fun pair pending => ?_
    rw [idle] at pending
    contradiction
  | @resumed x now op st mem pending step =>
    rw [Client.unit_after, ((sound.clients x mem).resumes pending step).unit] at same
    refine (spared x mem same).after (UnitOfWork.resume_noted step) fun pair waits => ?_
    cases pending.symm.trans waits
    exact ⟨rfl, resume_locks step⟩
  | @abandoned x mem => exact absurd (congrArg ClientEvent.abandon same) kept

theorem Sound.spared_run (sound : K.Sound) (begun : c.unit.id < K.store.nextUnit)
    (spared : ∀ d ∈ K.live, d.unit.id = c.unit.id → c.Spared d) (h : K.run? es = some K')
    (kept : .abandon c.unit.id ∉ es) : ∀ d ∈ K'.live, d.unit.id = c.unit.id → c.Spared d := by
  induction es generalizing K with
  | nil =>
    cases h
    exact spared
  | cons e es ih =>
    obtain ⟨T, first, rest⟩ := Option.bind_eq_some_iff.mp h
    have other := List.ne_of_not_mem_cons kept
    have kept := List.not_mem_of_not_mem_cons kept
    have step := step_of_next? first
    have onward := sound.step step
    refine ih onward.sound (Nat.lt_of_lt_of_le begun onward.next) (fun d mem same => ?_) rest kept
    exact sound.spared_next begun spared (step.came mem) (Ne.symm other) same

theorem Sound.holds_iff (sound : K.Sound) (mem : c ∈ K.live) (idle : c.pending = none)
    (r : Resource) : K.store.claims.holds c.unit.id r = true ↔ c.unit.Has r := by
  refine ⟨fun holds => ?_, sound.holds mem⟩
  have backed := (sound.clients c mem).backed r (Claims.mem_of_holder? (Claims.holds_iff.mp holds))
  rw [Client.awaited?, idle] at backed
  rcases backed with has | waits
  · exact has
  · contradiction

theorem Reachable.recorded (h : K.Reachable) : K.Recorded := by
  induction h with
  | start => exact fun _ mem => nomatch mem
  | next before h ih => exact ih.step (step_of_next? h)

theorem Reachable.acknowledged (h : K.Reachable) :
    ∀ c ∈ K.live, c.unit.staged = c.acknowledged := by
  induction h with
  | start => exact fun _ mem => nomatch mem
  | @next K K' e before h ih =>
    intro d there
    cases (step_of_next? h).came there with
    | stayed mem => exact ih d mem
    | begun => rfl
    | @entered x now op mem idle =>
      exact Client.acknowledged_after (x.unit.enter_noted K.store now op) (ih x mem)
    | @resumed x now op st mem pending step =>
      exact Client.acknowledged_after (UnitOfWork.resume_noted step) (ih x mem)
    | @abandoned x mem => exact ih x mem

theorem Sound.wrote (sound : K.Sound) (mem : c ∈ K.live) (recorded : c.Recorded)
    (same : c.unit.staged = c.acknowledged) (faults : List Fault) (now : Timestamp) :
    c.Wrote now K.store.books
      (({ K.store with faults := faults } : Store).apply c.unit.staged now).books := by
  obtain ⟨-, applied⟩ := sound.applied mem faults now
  obtain ⟨wallets, balanced, -⟩ := K.store.books.setBalances now c.unit.staged.balances
  have distinct : (c.unit.staged.balances.map Prod.fst).Nodup := same ▸ c.balances_distinct
  refine ⟨fun id => ?_, fun id => ?_, fun p => ?_, ?_, ?_⟩
  · have kept := (Books.wallets_putTransactions
      (c.unit.staged.balances.foldl (Books.setBalance · now) K.store.books)
      c.unit.staged.transactions).1
    calc (({ K.store with faults := faults } : Store).apply c.unit.staged now).books.wallet? id
        = (c.unit.staged.balances.foldl (Books.setBalance · now) K.store.books).wallet? id :=
          congrArg (Table.find? Wallet.id id) kept
      _ = _ := by
        rw [Books.wallet?_setBalances _ now distinct, c.balance?_eq, ← same]
        cases Table.find? Prod.fst id c.unit.staged.balances <;> rfl
  · show Books.transaction? (c.unit.staged.transactions.foldl _ _) id = _
    rw [Books.transaction?_putTransactions _ recorded.ids, recorded.find?, balanced]
    rfl
  · rw [applied.keys p]
    simp only [recorded.told]
  · show Books.entries (c.unit.staged.transactions.foldl _ _) ++ c.unit.staged.entries = _
    rw [(Books.wallets_putTransactions _ _).2, balanced, c.entries_eq, ← same]
  · show Books.owners (c.unit.staged.transactions.foldl _ _) = _
    rw [Books.owners_putTransactions, balanced]

theorem Sound.books_step (sound : K.Sound) (operates : e.operates) (step : K.Step e K') :
    K'.store.books = K.store.books := by
  cases step with
  | @entered c now op mem idle => exact (c.unit.enter_writes K.store now op).2
  | @resumed c now op st mem pending resumed =>
    exact ((sound.clients c mem).resumes pending resumed).books
  | @abandoned c op mem pending => exact ((sound.clients c mem).abandoned pending).2.2.1
  | _ => contradiction

/-- What is left of operations that are not carried out, and of a unit once it has ended: nothing,
except for what was acknowledged before a commit that succeeds. -/
structure Traceless (K : Clients) : Prop where
  refused : ∀ c ∈ K.live, c.pending = none → ∀ es K', K.run? es = some K' →
    .abandon c.unit.id ∉ es → ∀ d ∈ K'.live, d.unit.id = c.unit.id → d.pending = none →
    (∀ r ∈ d.replies.drop c.replies.length, r.refused) → d.unit = c.unit ∧
      ∀ r, K'.store.claims.holds d.unit.id r = K.store.claims.holds c.unit.id r
  books : ∀ e K', e.operates → K.next? e = some K' → K'.store.books = K.store.books
  goesOn : ∀ c ∈ K.live, c.pending = none → ∀ now op,
    (K.next? (.enter c.unit.id now op)).isSome
  ended : ∀ c ∈ K.live, c.pending = none → ∀ now, ∃ K', K.next? (.commit c.unit.id now) = some K' ∧
    (∀ x ∈ K'.live, x.unit.id ≠ c.unit.id) ∧ (∀ x ∈ K'.store.claims, x.unit ≠ c.unit.id) ∧
    (∀ e, (K.store.commit c.unit now).1 = .error e → K'.store.books = K.store.books) ∧
    ((K.store.commit c.unit now).1 = .ok () → c.Wrote now K.store.books K'.store.books)

theorem Sound.refused (sound : K.Sound) (mem : c ∈ K.live) (idle : c.pending = none)
    (h : K.run? es = some K') (kept : .abandon c.unit.id ∉ es) (there : d ∈ K'.live)
    (same : d.unit.id = c.unit.id) (idle' : d.pending = none)
    (refused : ∀ r ∈ d.replies.drop c.replies.length, r.refused) : d.unit = c.unit ∧
      ∀ r, K'.store.claims.holds d.unit.id r = K.store.claims.holds c.unit.id r := by
  have spared : ∀ x ∈ K.live, x.unit.id = c.unit.id → c.Spared x := by
    intro x mem' same
    obtain rfl := sound.unique mem' mem same
    exact .refl x
  obtain ⟨rs, replies, unit⟩ :=
    sound.spared_run (sound.clients c mem).begun spared h kept d there same
  rw [replies, List.drop_left] at refused
  have unit : d.unit = c.unit := by
    refine (unit refused).resolve_right ?_
    rintro ⟨pair, pending⟩
    rw [idle'] at pending
    contradiction
  refine ⟨unit, fun r => Bool.eq_iff_iff.mpr ?_⟩
  rw [(sound.run h).sound.holds_iff there idle', sound.holds_iff mem idle, unit]

/-- However clients use their units: an operation that fails, or meets a key that belongs to another
transaction, leaves its unit and the locks of its unit as they were, no operation writes to the
books, and a commit writes what its unit was acknowledged, or nothing, and gives up every lock. -/
theorem Reachable.traceless (h : K.Reachable) : K.Traceless := by
  have sound := h.sound
  refine ⟨fun c mem idle es K' ran kept d there same idle' => ?_, fun e K' operates next => ?_,
    fun c mem idle now op => ?_, fun c mem idle now => ?_⟩
  · exact sound.refused mem idle ran kept there same idle'
  · exact sound.books_step operates (step_of_next? next)
  · simp [next?, sound.client? mem, idle]
  · have next : K.next? (.commit c.unit.id now) =
        some (K.remove c.unit.id (K.store.commit c.unit now).2) := by simp [next?, sound.client? mem, idle]
    refine ⟨_, next, fun x there => by simpa using (List.mem_filter.mp there).2, ?_⟩
    have released : ∀ x ∈ K.store.claims.release c.unit.id, x.unit ≠ c.unit.id :=
      fun x there => by simpa using (List.mem_filter.mp there).2
    simp only [remove]
    rcases K.store.commit_cases c.unit now with ⟨f, -, left, ended⟩ | ⟨left, ended, -⟩
    · rw [ended]
      refine ⟨released, fun _ _ => rfl, fun committed => ?_⟩
      contradiction
    · rw [ended]
      refine ⟨released, fun e failed => ?_, fun _ =>
        sound.wrote mem (h.recorded c mem) (h.acknowledged c mem) left now⟩
      contradiction

/-- Two units want one key. The second one has staged a transaction already; it writes a balance
without a lock, and then waits for the key until the first one commits. -/
def late : List ClientEvent :=
  opening ++ [.begin, .begin,
    .enter 0 .epoch (.insertTransaction ⟨rent "rent", .ofNat 3, .pending⟩), .resume 0 .epoch,
    .enter 1 .epoch (.insertTransaction ⟨rent "fee", .ofNat 4, .pending⟩), .resume 1 .epoch,
    .enter 1 .epoch (.setBalance (.ofNat 1) (cents 7000)),
    .enter 1 .epoch (.insertTransaction ⟨rent "rent", .ofNat 5, .pending⟩),
    .commit 0 .epoch, .resume 1 .epoch]

theorem traceless_late : ∃ K K' c d, ({} : Clients).run? (late.take 8) = some K ∧
    K.run? (late.drop 8) = some K' ∧ K.client? 1 = some c ∧ K'.client? 1 = some d ∧
    d.replies.length = c.replies.length + 2 ∧ c.unit.staged.keys = [⟨"fee"⟩] ∧
    K.store.books ≠ K'.store.books ∧ d.unit = c.unit ∧
    ∀ r, K'.store.claims.holds d.unit.id r = K.store.claims.holds c.unit.id r := by
  have facts : (({} : Clients).run? (late.take 8)).bind (fun K => (K.run? (late.drop 8)).bind
      fun K' => (K.client? 1).bind fun c => (K'.client? 1).map fun d =>
        ([c.pending.isNone, d.pending.isNone, (d.replies.drop c.replies.length).all (·.refused),
          decide (K.store.books = K'.store.books)], [c.replies.length, d.replies.length],
          c.unit.staged.keys)) = some ([true, true, true, false], [1, 3], [⟨"fee"⟩]) := by
    decide +kernel
  obtain ⟨K, ran, facts⟩ := Option.bind_eq_some_iff.mp facts
  obtain ⟨K', rest, facts⟩ := Option.bind_eq_some_iff.mp facts
  obtain ⟨c, here, facts⟩ := Option.bind_eq_some_iff.mp facts
  obtain ⟨d, there, facts⟩ := Option.map_eq_some_iff.mp facts
  simp only [Prod.mk.injEq, List.cons.injEq, decide_eq_false_iff_not, Option.isNone_iff_eq_none,
    and_true] at facts
  obtain ⟨⟨idle, idle', refused, other⟩, ⟨one, three⟩, keys⟩ := facts
  have named : c.unit.id = 1 := (Table.find?_mem here).2
  have named' : d.unit.id = 1 := (Table.find?_mem there).2
  have kept : .abandon c.unit.id ∉ late.drop 8 := by simp [late, opening]
  obtain ⟨unit, locks⟩ := (reachable_of_run .start ran).traceless.refused c (client?_mem here) idle
    _ K' rest kept d (client?_mem there) (named'.trans named.symm) idle' (List.all_eq_true.mp refused)
  exact ⟨K, K', c, d, ran, rest, here, there, by rw [one, three], keys, other, unit, locks⟩

end Clients

end WalletLedger
