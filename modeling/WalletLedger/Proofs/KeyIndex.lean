import WalletLedger.Proofs.Discipline

/-!
Keys and transactions of the books under any clients. A key is guarded by its lock until its unit
ends; an identifier is compared with what is committed and with what the unit itself has staged, and
that only when the transaction is inserted. So each transaction is found under its key and each key
leads to a transaction, but not always to one that carries the key: it does as long as no commit
puts a transaction in the place of one with another key.
-/
namespace WalletLedger

namespace Books
variable {b b' : Books} {t : Transaction} {staged : Staged}

/-- Transactions stand under their keys, and keys lead to transactions. -/
structure KeyIndex (b : Books) : Prop where
  ids : (b.transactions.map (·.id)).Nodup
  keys : (b.transactions.map (·.key)).Nodup
  own : ∀ t ∈ b.transactions, b.transactionByKey? t.key = some t
  leads : ∀ k, b.hasKey k = true → ∃ t, b.transactionByKey? k = some t

theorem Indexed.own (indexed : b.Indexed) (mem : t ∈ b.transactions) :
    b.transactionByKey? t.key = some t :=
  indexed.transactionByKey?_iff.mpr ⟨indexed.found t mem, mem⟩

theorem Indexed.keyIndex (indexed : b.Indexed) : b.KeyIndex := by
  have apart : ∀ t ∈ b.transactions, ∀ u ∈ b.transactions, t.key = u.key → t = u := by
    intro t mem u mem' same
    have found := indexed.own mem
    rw [same, indexed.own mem'] at found
    exact (Option.some.inj found).symm
  exact ⟨indexed.ids, (List.Nodup.of_map _ indexed.ids).map_on apart, fun t => indexed.own,
    fun k => indexed.transactionByKey?_some⟩

theorem Applied.stands (applied : Applied b b' staged) (indexed : b'.Indexed)
    (takes : b.Takes staged.transactions) (mem : t ∈ staged.transactions) :
    ∃ y ∈ b'.transactions, y.key = t.key ∧ y.id = t.id := by
  obtain ⟨y, there, same⟩ := indexed.led _ ((applied.keys _).mpr (Or.inr ⟨t, mem, rfl⟩))
  rcases applied.rows y there with new | ⟨-, apart⟩
  · exact ⟨y, there, (takes.paired y new t mem).mpr same, same⟩
  · exact absurd same.symm (apart t mem)

theorem Applied.faithful_iff (applied : Applied b b' staged) (indexed : b.Indexed)
    (indexed' : b'.Indexed) (takes : b.Takes staged.transactions) :
    b'.Faithful ↔ b.Faithful ∧ ¬b.Replaced b' := by
  refine indexed.faithful_next indexed' (fun p old => (applied.keys p).mpr (Or.inl old))
    fun p mem => ((applied.keys p).mp mem).imp_right ?_
  rintro ⟨t, new, rfl⟩
  obtain ⟨y, there, key, id⟩ := applied.stands indexed' takes new
  exact ⟨y, there, Prod.ext key id⟩

end Books

def UnitOfWork.Clashes (u : UnitOfWork) (b : Books) : Prop :=
  ∃ t ∈ u.staged.transactions, ∃ x ∈ b.transactions, x.id = t.id ∧ t.key ≠ x.key

theorem UnitOfWork.clashes_iff {u : UnitOfWork} {b b' : Books} (suits : u.Suits b)
    (applied : Books.Applied b b' u.staged) (indexed : b.Indexed) (indexed' : b'.Indexed) :
    b.Replaced b' ↔ u.Clashes b := by
  constructor
  · rintro ⟨x, old, y, there, same, other⟩
    rcases applied.rows y there with new | ⟨before, -⟩
    · exact ⟨y, new, x, old, same.symm, other⟩
    · exact absurd (congrArg (·.key) (indexed.row_unique before old same)) other
  · rintro ⟨t, new, x, old, same, other⟩
    obtain ⟨y, there, key, id⟩ := applied.stands indexed' suits.takes new
    exact ⟨x, old, y, there, id.trans same.symm, key ▸ other⟩

theorem Books.not_replaced_of_same {b b' : Books} (indexed : b.Indexed)
    (same : b'.transactions = b.transactions) : ¬b.Replaced b' := by
  rintro ⟨t, old, u, there, id, other⟩
  rw [same] at there
  exact other (congrArg (·.key) (indexed.row_unique there old id))

namespace Clients
variable {K K' : Clients} {c : Client} {id : UnitId} {now : Timestamp}

theorem Sound.faithful_of_same (sound : K.Sound)
    (rows : K'.store.books.transactions = K.store.books.transactions)
    (keys : K'.store.books.keys = K.store.books.keys) :
    K'.store.books.Faithful ↔
      K.store.books.Faithful ∧ ¬K.store.books.Replaced K'.store.books := by
  have found : ∀ k, K'.store.books.transactionByKey? k = K.store.books.transactionByKey? k := by
    intro k
    simp only [Books.transactionByKey?, Books.transaction?, rows, keys]
  have stays := Books.not_replaced_of_same sound.coherent.toIndexed rows
  simp only [Books.Faithful, found, stays, not_false_eq_true, and_true]

theorem Sound.faithful_step {e : ClientEvent} (sound : K.Sound) (step : K.Step e K') :
    K'.store.books.Faithful ↔
      K.store.books.Faithful ∧ ¬K.store.books.Replaced K'.store.books := by
  cases step with
  | @entered c now op mem idle =>
    have books := ((sound.clients c mem).enters idle now op).books
    exact sound.faithful_of_same (congrArg (·.transactions) books) (congrArg (·.keys) books)
  | @resumed c now op st mem pending resumed =>
    have books := ((sound.clients c mem).resumes pending resumed).books
    exact sound.faithful_of_same (congrArg (·.transactions) books) (congrArg (·.keys) books)
  | @abandoned c op mem pending =>
    obtain ⟨-, -, books, -⟩ := (sound.clients c mem).abandoned pending
    exact sound.faithful_of_same (congrArg (·.transactions) books) (congrArg (·.keys) books)
  | @committed c now faults mem idle passes =>
    have suits := (sound.clients c mem).suits
    obtain ⟨coherent, applied⟩ := sound.applied mem faults now
    exact applied.faithful_iff sound.coherent.toIndexed coherent.toIndexed suits.takes
  | opened | unopened | begun | unbegun | uncommitted | discarded | arranged =>
    exact sound.faithful_of_same rfl rfl

/-- What a commit checks does not tell whether it replaces a transaction by one with another key:
it does if its unit clashes with the books. -/
theorem Sound.commit_replaces (sound : K.Sound) (here : K.client? id = some c)
    (passes : (K.store.commit c.unit now).1 = .ok ()) (h : K.next? (.commit id now) = some K') :
    K.store.books.Replaced K'.store.books ↔ c.unit.Clashes K.store.books := by
  have suits := (sound.clients c (client?_mem here)).suits
  simp only [next?, here] at h
  split at h
  · contradiction
  · cases h
    rcases K.store.commit_cases c.unit now with ⟨f, -, left, ended⟩ | ⟨left, ended, -⟩
    · rw [ended] at passes
      contradiction
    · rw [ended]
      obtain ⟨coherent, applied⟩ := sound.applied (client?_mem here) left now
      exact UnitOfWork.clashes_iff suits applied sound.coherent.toIndexed coherent.toIndexed

def Replaceless (K : Clients) (es : List ClientEvent) : Prop :=
  ∀ before e after T T', es = before ++ e :: after → K.run? before = some T →
    T.next? e = some T' → ¬T.store.books.Replaced T'.store.books

theorem replaceless_cons {e : ClientEvent} {es : List ClientEvent} (first : K.next? e = some K') :
    K.Replaceless (e :: es) ↔ ¬K.store.books.Replaced K'.store.books ∧ K'.Replaceless es := by
  constructor
  · intro none
    refine ⟨none [] e es K K' rfl rfl first, ?_⟩
    rintro before x after T T' rfl ran next
    exact none (e :: before) x after T T' rfl (by rw [run?, first]; exact ran) next
  · rintro ⟨stays, later⟩ before x after T T' parts ran next
    cases before with
    | nil =>
      cases parts
      cases ran
      cases first.symm.trans next
      exact stays
    | cons y before =>
      cases parts
      rw [run?, first] at ran
      exact later before x after T T' rfl ran next

theorem Sound.faithful_run {es : List ClientEvent} (sound : K.Sound) (h : K.run? es = some K') :
    K'.store.books.Faithful ↔ K.store.books.Faithful ∧ K.Replaceless es := by
  induction es generalizing K with
  | nil =>
    cases h
    refine (and_iff_left ?_).symm
    intro before e after T T' parts
    simp at parts
  | cons e es ih =>
    obtain ⟨T, first, rest⟩ := Option.bind_eq_some_iff.mp h
    have step := step_of_next? first
    rw [ih (sound.step step).sound rest, sound.faithful_step step, replaceless_cons first, and_assoc]

/-- Whatever clients do, committed transactions and keys index each other, and each key leads to a
transaction that carries it if and only if no commit has replaced a transaction by one with another
key. -/
theorem run_key_index {es : List ClientEvent} (h : ({} : Clients).run? es = some K) :
    K.store.books.KeyIndex ∧ (K.store.books.Faithful ↔ ({} : Clients).Replaceless es) := by
  have sound : ({} : Clients).Sound := Reachable.start.sound
  refine ⟨(sound.run h).sound.coherent.keyIndex, (sound.faithful_run h).trans (and_iff_right ?_)⟩
  intro k t found
  cases found

/-- Two units insert a transaction under one identifier with different keys, and both commit. -/
def twins : List ClientEvent :=
  opening ++ [.begin, .begin,
    .enter 0 .epoch (.insertTransaction ⟨rent "first", .ofNat 3, .pending⟩), .resume 0 .epoch,
    .enter 1 .epoch (.insertTransaction ⟨rent "second", .ofNat 3, .pending⟩), .resume 1 .epoch,
    .commit 0 .epoch, .commit 1 .epoch]

theorem run_key_index_twins : ∃ K, ({} : Clients).run? twins = some K ∧ K.store.books.KeyIndex ∧
    K.store.books.keys.length = 2 ∧ ¬({} : Clients).Replaceless twins := by
  have facts : (({} : Clients).run? twins).map (fun K => (K.store.books.keys.length,
      (K.store.books.transactionByKey? ⟨"first"⟩).map (·.key))) = some (2, some ⟨"second"⟩) := by
    decide +kernel
  obtain ⟨K, ran, found⟩ := Option.map_eq_some_iff.mp facts
  obtain ⟨two, found⟩ := Prod.mk.inj found
  obtain ⟨t, leads, key⟩ := Option.map_eq_some_iff.mp found
  obtain ⟨index, faithful⟩ := run_key_index ran
  refine ⟨K, ran, index, two, fun replaceless => ?_⟩
  have same := (faithful.mpr replaceless _ t leads).symm.trans key
  exact absurd same (by decide)

/-- A key can lead to a transaction that carries another one. -/
theorem key_index_fails : ∃ K k t, ({} : Clients).run? twins = some K ∧
    K.store.books.transactionByKey? k = some t ∧ t.key ≠ k := by
  have facts : (({} : Clients).run? twins).map (fun K =>
      (K.store.books.transactionByKey? ⟨"first"⟩).map (·.key)) = some (some ⟨"second"⟩) := by
    decide +kernel
  obtain ⟨K, ran, found⟩ := Option.map_eq_some_iff.mp facts
  obtain ⟨t, leads, key⟩ := Option.map_eq_some_iff.mp found
  refine ⟨K, _, t, ran, leads, ?_⟩
  rw [key]
  decide

end Clients

end WalletLedger
