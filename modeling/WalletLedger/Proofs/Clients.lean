import WalletLedger.Proofs.Coherence
import WalletLedger.Proofs.Deadlock

/-!
Units of work in the hands of any clients. Any number of units is open at a time. Each carries out
one operation after the other, with whatever values, and the store may see to another unit between
any two steps. An operation that waits for a lock may be given up, which leaves its unit open with
the locks it got before; a unit may be committed, taken back or dropped at any moment. Wallets may
be opened and faults arranged in between. What a unit has been answered is kept with it.
-/
namespace WalletLedger

structure UnitReply where
  op : UnitOp
  reply : Except StoreError op.Answer

def UnitReply.rows : UnitReply → List Wallet
  | ⟨.lockWallets _, .ok rows⟩ => rows
  | _ => []

structure Client where
  unit : UnitOfWork
  pending : Option UnitOp := none
  replies : List UnitReply := []

structure Clients where
  store : Store := {}
  live : List Client := []

/-- Taking a unit back and dropping it come to the same. -/
inductive ClientEvent where
  | openWallet (supply : Supply) (owner : UserId) (kind : WalletKind) (opening : Money)
  | begin
  | enter (unit : UnitId) (now : Timestamp) (op : UnitOp)
  | resume (unit : UnitId) (now : Timestamp)
  | abandon (unit : UnitId)
  | commit (unit : UnitId) (now : Timestamp)
  | discard (unit : UnitId)
  | arrange (faults : List Fault)

namespace Client

def awaited? (c : Client) : Option Resource := c.pending.bind c.unit.awaited

def rows (c : Client) : List Wallet := c.replies.flatMap UnitReply.rows

def after (c : Client) (op : UnitOp) (st : UnitOfWork.Step op.Answer) : Client :=
  match st.progress with
  | .waiting => ⟨st.unit, some op, c.replies⟩
  | .replied r => ⟨st.unit, none, c.replies ++ [⟨op, r⟩]⟩

end Client

namespace Clients

def client? (K : Clients) (id : UnitId) : Option Client := Table.find? (·.unit.id) id K.live

def put (K : Clients) (c : Client) (store : Store) : Clients :=
  ⟨store, Table.put (·.unit.id) c K.live⟩

def remove (K : Clients) (id : UnitId) (store : Store) : Clients :=
  ⟨store, K.live.filter (·.unit.id ≠ id)⟩

def next? (K : Clients) : ClientEvent → Option Clients
  | .openWallet supply owner kind opening =>
    if (K.store.books.wallet? supply.id).isSome then none
    else some { K with store := (K.store.openWallet supply owner kind opening).2 }
  | .begin =>
    match K.store.begin with
    | (.error _, s) => some { K with store := s }
    | (.ok u, s) => some ⟨s, K.live ++ [⟨u, none, []⟩]⟩
  | .enter id now op =>
    match K.client? id with
    | none => none
    | some c =>
      if c.pending.isSome then none
      else
        let st := c.unit.enter K.store now op
        some (K.put (c.after op st) st.store)
  | .resume id now =>
    match K.client? id with
    | none => none
    | some c =>
      match c.pending with
      | none => none
      | some op =>
        (c.unit.resume K.store now op).map fun st => K.put (c.after op st) st.store
  | .abandon id =>
    match K.client? id with
    | none => none
    | some c =>
      c.pending.map fun op => K.put { c with pending := none } (c.unit.abandon K.store op)
  | .commit id now =>
    match K.client? id with
    | none => none
    | some c =>
      if c.pending.isSome then none
      else some (K.remove c.unit.id (K.store.commit c.unit now).2)
  | .discard id =>
    (K.client? id).map fun c => K.remove c.unit.id (K.store.discard c.unit)
  | .arrange faults => some { K with store := { K.store with faults := faults } }

def run? (K : Clients) : List ClientEvent → Option Clients
  | [] => some K
  | e :: es => (K.next? e).bind (run? · es)

inductive Reachable : Clients → Prop where
  | start : Reachable {}
  | next {K K' : Clients} {e : ClientEvent} (before : Reachable K) (h : K.next? e = some K') :
      Reachable K'

/-- What each event does. An opening that is rejected leaves everything as it is; where a fault
strikes, no unit is begun, and a commit only ends its unit. -/
inductive Step (K : Clients) : ClientEvent → Clients → Prop where
  | opened {supply : Supply} {owner : UserId} {kind : WalletKind} {opening : Money} (w : Wallet)
      (new : K.store.books.wallet? w.id = none) (owed : ¬w.balance.IsNegative) :
      Step K (.openWallet supply owner kind opening)
        { K with store := { K.store with books := K.store.books.withWallet w } }
  | unopened {supply : Supply} {owner : UserId} {kind : WalletKind} {opening : Money} :
      Step K (.openWallet supply owner kind opening) K
  | begun (faults : List Fault) :
      Step K .begin ⟨{ K.store with faults := faults, nextUnit := K.store.nextUnit + 1 },
        K.live ++ [⟨⟨K.store.nextUnit, [], {}⟩, none, []⟩]⟩
  | unbegun (faults : List Fault) :
      Step K .begin { K with store := { K.store with faults := faults } }
  | entered {c : Client} (now : Timestamp) (op : UnitOp) (mem : c ∈ K.live)
      (idle : c.pending = none) :
      Step K (.enter c.unit.id now op)
        (K.put (c.after op (c.unit.enter K.store now op)) (c.unit.enter K.store now op).store)
  | resumed {c : Client} {now : Timestamp} {op : UnitOp} {st : UnitOfWork.Step op.Answer}
      (mem : c ∈ K.live) (pending : c.pending = some op)
      (step : c.unit.resume K.store now op = some st) :
      Step K (.resume c.unit.id now) (K.put (c.after op st) st.store)
  | abandoned {c : Client} {op : UnitOp} (mem : c ∈ K.live) (pending : c.pending = some op) :
      Step K (.abandon c.unit.id) (K.put { c with pending := none } (c.unit.abandon K.store op))
  | committed {c : Client} {now : Timestamp} (faults : List Fault) (mem : c ∈ K.live)
      (idle : c.pending = none) (passes : (K.store.commit c.unit now).1 = .ok ()) :
      Step K (.commit c.unit.id now) (K.remove c.unit.id
        (({ K.store with faults := faults }.apply c.unit.staged now).discard c.unit))
  | uncommitted {c : Client} {now : Timestamp} {e : StoreError} (faults : List Fault)
      (mem : c ∈ K.live) (idle : c.pending = none)
      (fails : (K.store.commit c.unit now).1 = .error e) :
      Step K (.commit c.unit.id now)
        (K.remove c.unit.id ({ K.store with faults := faults }.discard c.unit))
  | discarded {c : Client} (mem : c ∈ K.live) :
      Step K (.discard c.unit.id) (K.remove c.unit.id (K.store.discard c.unit))
  | arranged (faults : List Fault) :
      Step K (.arrange faults) { K with store := { K.store with faults := faults } }

variable {K K' : Clients} {id : UnitId} {c : Client}

theorem client?_mem (h : K.client? id = some c) : c ∈ K.live := (Table.find?_mem h).1

theorem step_of_next? {e : ClientEvent} (h : K.next? e = some K') : K.Step e K' := by
  cases e with
  | openWallet supply owner kind opening =>
    simp only [next?, Store.openWallet_eq] at h
    split at h
    · contradiction
    · rename_i new
      have new : K.store.books.wallet? supply.id = none := by simpa using new
      cases h
      rcases Books.openWallet_cases new supply.now owner kind opening with
        ⟨e, -, failed⟩ | ⟨-, w, named, opened, owed, -⟩
      · rw [failed]
        exact .unopened
      · rw [opened]
        exact .opened w (by rw [named]; exact new) owed
  | begin =>
    simp only [next?, Store.begin] at h
    rcases K.store.strike_cases .begin with ⟨f, -, left, struck⟩ | ⟨left, struck, -⟩
    · rw [struck] at h
      cases h
      exact .unbegun left
    · rw [struck] at h
      cases h
      exact .begun left
  | enter id now op =>
    simp only [next?] at h
    split at h
    · contradiction
    · rename_i c found
      split at h
      · contradiction
      · rename_i idle
        cases h
        obtain ⟨mem, rfl⟩ := Table.find?_mem found
        exact .entered now op mem (by simpa using idle)
  | resume id now =>
    simp only [next?] at h
    split at h
    · contradiction
    · rename_i c found
      split at h
      · contradiction
      · rename_i op pending
        obtain ⟨st, step, h⟩ := Option.map_eq_some_iff.mp h
        cases h
        obtain ⟨mem, rfl⟩ := Table.find?_mem found
        exact .resumed mem pending step
  | abandon id =>
    simp only [next?] at h
    split at h
    · contradiction
    · rename_i c found
      obtain ⟨op, pending, h⟩ := Option.map_eq_some_iff.mp h
      cases h
      obtain ⟨mem, rfl⟩ := Table.find?_mem found
      exact .abandoned mem pending
  | commit id now =>
    simp only [next?] at h
    split at h
    · contradiction
    · rename_i c found
      split at h
      · contradiction
      · rename_i idle
        have idle : c.pending = none := by simpa using idle
        cases h
        obtain ⟨mem, rfl⟩ := Table.find?_mem found
        rcases K.store.commit_cases c.unit now with ⟨f, -, left, ended⟩ | ⟨left, ended, -⟩
        · rw [ended]
          exact .uncommitted left mem idle (congrArg Prod.fst ended)
        · rw [ended]
          exact .committed left mem idle (congrArg Prod.fst ended)
  | discard id =>
    obtain ⟨c, found, h⟩ := Option.map_eq_some_iff.mp h
    cases h
    obtain ⟨mem, rfl⟩ := Table.find?_mem found
    exact .discarded mem
  | arrange faults =>
    cases h
    exact .arranged faults

theorem reachable_of_run {es : List ClientEvent} (before : K.Reachable) (h : K.run? es = some K') :
    K'.Reachable := by
  induction es generalizing K with
  | nil => cases h; exact before
  | cons e es ih =>
    obtain ⟨T, first, rest⟩ := Option.bind_eq_some_iff.mp h
    exact ih (.next before first) rest

def cents (n : Nat) : Amount :=
  ⟨(n % twoTo 96 : Nat), min 2 28, Nat.mod_lt _ (by decide), Nat.min_le_right _ _⟩

/-! What the runs below share: two wallets, a hundred dollars in the first one of them, and the rent
that is paid with it. -/

def opening : List ClientEvent :=
  [.openWallet ⟨1, .epoch⟩ (.ofNat 7) .savings ⟨cents 10000, .usd⟩,
    .openWallet ⟨2, .epoch⟩ (.ofNat 8) .savings ⟨cents 0, .usd⟩]

def pair : WalletPair := ⟨.ofNat 1, .ofNat 2, by decide⟩

def rent (key : String) : TransferRequest :=
  ⟨.ofNat 1, .ofNat 2, cents 3000, .usd, .transfer, none, ⟨key⟩⟩

end Clients

namespace UnitOfWork

inductive Writes (b : Books) (u : UnitOfWork) : UnitOfWork → Prop where
  | nothing : Writes b u u
  | row (wallet : WalletId) : Writes b u { u with locked := u.locked ++ [wallet] }
  | transaction {t : Transaction} (free : b.hasKey t.key = false)
      (unstaged : t.key ∉ u.staged.keys) (new : ∀ x ∈ u.staged.transactions, x.id ≠ t.id) :
      Writes b u ((u.stageKey t.key).stageTransaction t)
  | entry {e : Entry} (owned : (∃ t ∈ u.staged.transactions, t.id = e.transaction) ∨
      ∃ t ∈ b.transactions, t.id = e.transaction) : Writes b u (u.stageEntry e)
  | balance {wallet : WalletId} {balance : Amount} (held : wallet ∈ u.locked)
      (owed : ¬balance.IsNegative) (known : ∃ w, b.wallet? wallet = some w) :
      Writes b u (u.stageBalance wallet balance)
  | status {t : Transaction} (status : TransactionStatus) (now : Timestamp)
      (known : t ∈ u.staged.transactions ∨
        t ∈ b.transactions ∧ ∀ x ∈ u.staged.transactions, x.id ≠ t.id) :
      Writes b u (u.stageTransaction (t.withStatus status now))

def Ready (u : UnitOfWork) : UnitOp → Prop
  | .lockWallets pair => u.staged.balances = [] ∧ (u.locked = [] ∨ u.locked = [pair.first])
  | .insertTransaction draft => draft.key ∉ u.staged.keys
  | .findByKey _ | .insertEntry _ | .setBalance _ _ | .setStatus _ _ => False

variable {u : UnitOfWork} {s : Store} {now : Timestamp} {op : UnitOp}

theorem checkEntry_ok {d : EntryDraft} (h : u.checkEntry s d = .ok ()) :
    (∃ t ∈ u.staged.transactions, t.id = d.transaction) ∨
      ∃ t ∈ s.books.transactions, t.id = d.transaction := by
  unfold checkEntry at h
  split at h
  · contradiction
  · split at h
    · contradiction
    · rename_i owned
      cases staged : Table.has (·.id) d.transaction u.staged.transactions with
      | true => exact Or.inl (Table.has_iff.mp staged)
      | false =>
        obtain ⟨t, found⟩ : ∃ t, s.books.transaction? d.transaction = some t :=
          Option.ne_none_iff_exists'.mp (by simpa [staged] using owned)
        exact Or.inr ⟨t, Table.find?_mem found⟩

theorem checkBalance_ok {wallet : WalletId} {balance : Amount}
    (h : u.checkBalance s wallet balance = .ok ()) :
    wallet ∈ u.locked ∧ ¬balance.IsNegative ∧ ∃ w, s.books.wallet? wallet = some w := by
  unfold checkBalance at h
  split at h
  · contradiction
  · rename_i held
    split at h
    · contradiction
    · rename_i owed
      split at h
      · contradiction
      · rename_i known
        exact ⟨by simpa using held, owed, Option.ne_none_iff_exists'.mp (by simpa using known)⟩

theorem checkTransaction_ok {d : TransactionDraft} (h : u.checkTransaction s d = .ok ()) :
    ∀ x ∈ u.staged.transactions, x.id ≠ d.id := by
  unfold checkTransaction at h
  split at h
  · contradiction
  · split at h
    · contradiction
    · rename_i new
      simp only [not_or, Bool.not_eq_true] at new
      exact Table.has_false_iff.mp new.2

theorem start_writes (u : UnitOfWork) (s : Store) (now : Timestamp) (op : UnitOp) :
    Writes s.books u (u.start s now op).unit ∧ (u.start s now op).store.books = s.books := by
  cases op with
  | lockWallets pair =>
    simp only [start]
    split <;> exact ⟨.nothing, rfl⟩
  | findByKey key => exact ⟨.nothing, rfl⟩
  | insertTransaction draft =>
    simp only [start]
    split <;> exact ⟨.nothing, rfl⟩
  | insertEntry draft =>
    simp only [start]
    split
    · exact ⟨.nothing, rfl⟩
    · rename_i passes
      exact ⟨.entry (checkEntry_ok passes), rfl⟩
  | setBalance wallet balance =>
    simp only [start]
    split
    · exact ⟨.nothing, rfl⟩
    · rename_i passes
      obtain ⟨held, owed, known⟩ := checkBalance_ok passes
      exact ⟨.balance held owed known, rfl⟩
  | setStatus id status =>
    simp only [start]
    split
    · exact ⟨.nothing, rfl⟩
    · rename_i t found
      refine ⟨.status status now ?_, rfl⟩
      cases staged : Table.find? (·.id) id u.staged.transactions with
      | some x =>
        rw [staged] at found
        cases found
        exact Or.inl (Table.find?_mem staged).1
      | none =>
        rw [staged] at found
        have there : s.books.transaction? id = some t := found
        refine Or.inr ⟨Books.transaction?_mem there, ?_⟩
        rw [Books.transaction?_id there]
        exact Table.find?_none_iff.mp staged

theorem enter_writes (u : UnitOfWork) (s : Store) (now : Timestamp) (op : UnitOp) :
    Writes s.books u (u.enter s now op).unit ∧ (u.enter s now op).store.books = s.books := by
  rcases u.enter_cases s now op with ⟨f, -, left, struck⟩ | ⟨left, started, -⟩
  · rw [struck]
    exact ⟨.nothing, rfl⟩
  · rw [started]
    exact start_writes u { s with faults := left } now op

theorem resume_writes {st : Step op.Answer} (h : u.resume s now op = some st)
    (ready : u.Ready op) : Writes s.books u st.unit ∧ st.store.books = s.books := by
  unfold resume at h
  split at h <;> try contradiction
  split at h <;> try contradiction
  cases op with
  | lockWallets pair =>
    simp only [proceed] at h
    split at h
    · rename_i free
      cases h
      have first : [pair.first] = u.locked ++ [pair.first] := by rw [free, List.nil_append]
      refine ⟨?_, rfl⟩
      show Writes s.books u { u with locked := [pair.first] }
      rw [first]
      exact .row pair.first
    · cases h
      exact ⟨.row pair.second, rfl⟩
    · contradiction
  | insertTransaction draft =>
    simp only [proceed] at h
    split at h
    · cases h
      exact ⟨.nothing, rfl⟩
    · rename_i free
      split at h
      · cases h
        exact ⟨.nothing, rfl⟩
      · rename_i passes
        cases h
        let t := draft.recordedAt now
        have absent : s.books.hasKey t.key = false := Bool.eq_false_iff.mpr free
        have new : ∀ x ∈ u.staged.transactions, x.id ≠ t.id := checkTransaction_ok passes
        exact ⟨.transaction absent ready new, rfl⟩
  | _ => contradiction

theorem enter_ready (balances : ∀ p ∈ u.staged.balances, p.1 ∈ u.locked)
    (waits : (u.enter s now op).progress = .waiting) : (u.enter s now op).unit.Ready op := by
  rcases u.enter_cases s now op with ⟨f, -, left, struck⟩ | ⟨left, started, -⟩
  · rw [struck] at waits
    contradiction
  · rw [started] at waits ⊢
    cases op with
    | lockWallets pair =>
      simp only [start] at waits ⊢
      split at waits
      · rename_i free
        have free := List.isEmpty_iff.mp free
        simp only [free, List.isEmpty_nil, if_true, await]
        refine ⟨List.eq_nil_iff_forall_not_mem.mpr fun p mem => ?_, Or.inl free⟩
        have held := balances p mem
        rw [free] at held
        contradiction
      · contradiction
    | insertTransaction draft =>
      simp only [start] at waits ⊢
      split at waits
      · contradiction
      · rename_i unstaged
        simp only [unstaged, if_false, await]
        exact unstaged
    | findByKey key => contradiction
    | insertEntry draft | setBalance wallet balance | setStatus id status =>
      simp only [start] at waits
      split at waits <;> contradiction

theorem resume_ready {st : Step op.Answer} (h : u.resume s now op = some st) (ready : u.Ready op)
    (waits : st.progress = .waiting) : st.unit.Ready op := by
  unfold resume at h
  split at h <;> try contradiction
  split at h <;> try contradiction
  cases op with
  | lockWallets pair =>
    simp only [proceed] at h
    split at h
    · cases h
      exact ⟨ready.1, Or.inr rfl⟩
    · cases h
      contradiction
    · contradiction
  | insertTransaction draft =>
    simp only [proceed] at h
    split at h
    · cases h
      contradiction
    · split at h <;> cases h <;> contradiction
  | _ => contradiction

theorem Ready.not_has {r : Resource} (ready : u.Ready op) (awaited : u.awaited op = some r) :
    ¬u.Has r := by
  cases op with
  | lockWallets pair =>
    rcases ready.2 with free | first
    · have same : r = .row pair.first := by simpa [UnitOfWork.awaited, free] using awaited.symm
      rw [same, Has, free]
      exact List.not_mem_nil
    · have same : r = .row pair.second := by simpa [UnitOfWork.awaited, first] using awaited.symm
      rw [same, Has, first, List.mem_singleton]
      intro clash
      have lt : pair.first.value < pair.second.value := pair.first_lt
      rw [clash] at lt
      exact Nat.lt_irrefl _ lt
  | insertTransaction draft =>
    have same : r = .key draft.key := by simpa [UnitOfWork.awaited] using awaited.symm
    rw [same]
    exact ready
  | findByKey | insertEntry | setBalance | setStatus => contradiction

theorem enter_rows {a : Except StoreError op.Answer}
    (replied : (u.enter s now op).progress = .replied a) : (⟨op, a⟩ : UnitReply).rows = [] := by
  cases op with
  | lockWallets pair =>
    rcases u.enter_cases s now (.lockWallets pair) with ⟨f, -, left, struck⟩ | ⟨left, started, -⟩
    · rw [struck] at replied
      cases replied
      rfl
    · rw [started] at replied
      simp only [start] at replied
      split at replied <;> cases replied
      rfl
  | _ => rfl

theorem resume_rows {st : Step op.Answer} {a : Except StoreError op.Answer}
    (h : u.resume s now op = some st) (ready : u.Ready op) (replied : st.progress = .replied a) :
    ∀ w ∈ (⟨op, a⟩ : UnitReply).rows, w.id ∈ st.unit.locked ∧ s.books.wallet? w.id = some w := by
  unfold resume at h
  split at h <;> try contradiction
  split at h <;> try contradiction
  cases op with
  | lockWallets pair =>
    simp only [proceed] at h
    split at h
    · cases h
      contradiction
    · rename_i one
      have first : u.locked = [pair.first] := ready.2.resolve_left (by rw [one]; simp)
      cases h
      cases replied
      intro w mem
      obtain ⟨x, there, shown⟩ := List.mem_map.mp mem
      obtain ⟨id, named, found⟩ := List.mem_filterMap.mp there
      -- The unit has written no balance yet, so it shows each row as it is.
      have same : x = w := by simpa [view, ready.1, Table.find?] using shown
      rw [← same, Books.wallet?_id found]
      refine ⟨?_, found⟩
      show id ∈ u.locked ++ [pair.second]
      rw [first]
      exact named
    · contradiction
  | _ => exact fun w mem => absurd mem List.not_mem_nil

end UnitOfWork

end WalletLedger
