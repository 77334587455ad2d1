import WalletLedger.Proofs.Staging

/-!
The discipline of the locks. Whatever clients do with their units of work, an open unit holds the
locks that it has, what it has staged suits the books, and the rows that it has been answered stand
in the books as they were answered. A step of a unit changes its own claims only, and a commit
writes to rows and keys of its own unit only, so all of this outlives what other units do.
-/
namespace WalletLedger

structure Client.Sound (c : Client) (s : Store) : Prop where
  begun : c.unit.id < s.nextUnit
  holds : c.unit.Holds s.claims
  backed : c.unit.Backed s.claims c.awaited?
  waits : ∀ op, c.pending = some op → c.unit.Awaits op s.claims ∧ c.unit.Ready op
  suits : c.unit.Suits s.books
  seen : ∀ w ∈ c.rows, w.id ∈ c.unit.locked ∧ s.books.wallet? w.id = some w

namespace UnitOfWork

structure Works (u : UnitOfWork) (s : Store) (op : UnitOp) (st : Step op.Answer) : Prop
    extends Steps u s op st where
  books : st.store.books = s.books
  writes : Writes s.books u st.unit
  backed : st.unit.Backed st.store.claims (st.waits op)
  ready : st.progress = .waiting → st.unit.Ready op
  rows : ∀ a, st.progress = .replied a → ∀ w ∈ (⟨op, a⟩ : UnitReply).rows,
    w.id ∈ st.unit.locked ∧ s.books.wallet? w.id = some w

end UnitOfWork

namespace Client
variable {c : Client} {s s' : Store} {now : Timestamp} {op : UnitOp} {id : UnitId}
  {st : UnitOfWork.Step op.Answer}

@[simp] theorem unit_after : (c.after op st).unit = st.unit := by
  unfold after
  cases st.progress <;> rfl

theorem awaited?_after : (c.after op st).awaited? = st.waits op := by
  unfold after UnitOfWork.Step.waits
  cases st.progress <;> rfl

theorem pending_after {op' : UnitOp} (h : (c.after op st).pending = some op') :
    op' = op ∧ st.progress = .waiting := by
  unfold after at h
  cases progress : st.progress with
  | waiting =>
    rw [progress] at h
    cases h
    exact ⟨rfl, rfl⟩
  | replied a =>
    rw [progress] at h
    contradiction

theorem mem_rows_after {w : Wallet} (mem : w ∈ (c.after op st).rows) :
    w ∈ c.rows ∨ ∃ a, st.progress = .replied a ∧ w ∈ (⟨op, a⟩ : UnitReply).rows := by
  unfold after at mem
  cases progress : st.progress with
  | waiting =>
    rw [progress] at mem
    exact Or.inl mem
  | replied a =>
    simp only [progress, rows, List.flatMap_append, List.mem_append, List.flatMap_cons,
      List.flatMap_nil, List.append_nil] at mem
    exact mem.imp_right fun here => ⟨a, rfl, here⟩

theorem Sound.enters (sound : c.Sound s) (idle : c.pending = none) (now : Timestamp)
    (op : UnitOp) : UnitOfWork.Works c.unit s op (c.unit.enter s now op) := by
  have backed := sound.backed
  rw [awaited?, idle] at backed
  obtain ⟨writes, books⟩ := c.unit.enter_writes s now op
  refine ⟨c.unit.enter_steps s now op, books, writes, UnitOfWork.enter_backed now op backed,
    UnitOfWork.enter_ready sound.suits.covered, fun a replied w mem => ?_⟩
  rw [UnitOfWork.enter_rows replied] at mem
  contradiction

theorem Sound.resumes (sound : c.Sound s) (pending : c.pending = some op)
    (h : c.unit.resume s now op = some st) : UnitOfWork.Works c.unit s op st := by
  obtain ⟨-, ready⟩ := sound.waits op pending
  have backed := sound.backed
  rw [awaited?, pending] at backed
  obtain ⟨writes, books⟩ := UnitOfWork.resume_writes h ready
  refine ⟨UnitOfWork.resume_steps h ?_, books, writes, UnitOfWork.resume_backed h backed,
    UnitOfWork.resume_ready h ready, fun a => UnitOfWork.resume_rows h ready⟩
  rintro draft rfl
  exact ready

theorem Sound.after (sound : c.Sound s) (indexed : s.books.Indexed)
    (works : UnitOfWork.Works c.unit s op st) : (c.after op st).Sound st.store := by
  refine ⟨?_, ?_, ?_, fun op' pending => ?_, ?_, fun w mem => ?_⟩
  · rw [unit_after, works.unit, works.next]
    exact sound.begun
  · rw [unit_after]
    exact works.holds sound.holds
  · rw [unit_after, awaited?_after]
    exact works.backed
  · obtain ⟨rfl, waiting⟩ := pending_after pending
    rw [unit_after]
    exact ⟨works.awaits waiting, works.ready waiting⟩
  · rw [unit_after, works.books]
    exact sound.suits.writes indexed works.writes
  · rw [unit_after, works.books]
    rcases mem_rows_after mem with old | ⟨a, replied, new⟩
    · obtain ⟨held, found⟩ := sound.seen w old
      exact ⟨works.writes.locked _ held, found⟩
    · exact works.rows a replied w new

theorem Sound.abandoned (sound : c.Sound s) (pending : c.pending = some op) :
    ({ c with pending := none } : Client).Sound (c.unit.abandon s op) ∧
      Claims.OwnChange c.unit.id s.claims (c.unit.abandon s op).claims ∧
      (c.unit.abandon s op).books = s.books ∧ (c.unit.abandon s op).nextUnit = s.nextUnit := by
  obtain ⟨⟨q, awaited, -⟩, ready⟩ := sound.waits op pending
  have other : ∀ r, c.unit.Has r → r ≠ q := by
    rintro r has rfl
    exact ready.not_has awaited has
  have store : c.unit.abandon s op = { s with claims := s.claims.withdraw c.unit.id q } := by
    simp only [UnitOfWork.abandon, awaited]
  rw [store]
  refine ⟨⟨sound.begun, ⟨fun w mem => ?_, fun k mem => ?_⟩, fun r mem => ?_,
    by rintro op ⟨⟩, sound.suits, sound.seen⟩, Claims.ownChange_withdraw _ _ _, rfl, rfl⟩
  · exact Claims.holds_withdraw (Or.inr (other (.row w) mem)) (sound.holds.rows w mem)
  · exact Claims.holds_withdraw (Or.inr (other (.key k) mem)) (sound.holds.keys k mem)
  · obtain ⟨old, kept⟩ := List.mem_filter.mp mem
    rcases sound.backed r old with has | same
    · exact Or.inl has
    · rw [awaited?, pending, Option.bind_some, awaited] at same
      cases same
      simp at kept

/-- What happens beside a client keeps it sound. -/
theorem Sound.beside (sound : c.Sound s) (other : c.unit.id ≠ id)
    (change : Claims.OwnChange id s.claims s'.claims) (next : s.nextUnit ≤ s'.nextUnit)
    (clear : Clear s.books s'.books c.unit) : c.Sound s' := by
  refine ⟨Nat.lt_of_lt_of_le sound.begun next, sound.holds.keep fun r => change.holds _ r other,
    fun r mem => ?_, fun op pending => ?_, sound.suits.clear clear, fun w mem => ?_⟩
  · exact sound.backed r ((change.own _ mem).resolve_right other)
  · obtain ⟨⟨r, awaited, mem⟩, ready⟩ := sound.waits op pending
    exact ⟨⟨r, awaited, change.kept _ mem other⟩, ready⟩
  · obtain ⟨held, found⟩ := sound.seen w mem
    exact ⟨held, clear.rows _ held w found⟩

end Client

namespace Clients

/-- What is true in every state: no lock is claimed by a unit that has ended. -/
structure Sound (K : Clients) : Prop where
  coherent : K.store.books.Coherent
  distinct : (K.live.map (·.unit.id)).Nodup
  claimed : ∀ r u, ⟨r, u⟩ ∈ K.store.claims → ∃ c ∈ K.live, c.unit.id = u
  clients : ∀ c ∈ K.live, c.Sound K.store

structure Follows (K K' : Clients) (c c' : Client) : Prop where
  unit : c'.unit.id = c.unit.id
  locked : ∀ w ∈ c.unit.locked, w ∈ c'.unit.locked
  rows : ∀ id ∈ c.unit.locked, ∀ w, K.store.books.wallet? id = some w →
    K'.store.books.wallet? id = some w

structure Onward (K K' : Clients) : Prop where
  sound : K'.Sound
  next : K.store.nextUnit ≤ K'.store.nextUnit
  origin : ∀ c' ∈ K'.live, (∃ c ∈ K.live, Follows K K' c c') ∨ K.store.nextUnit ≤ c'.unit.id

variable {K K' K'' : Clients} {c c' d : Client} {s : Store} {r : Resource} {u : UnitId}

theorem Follows.of_clear (clear : Clear K.store.books K'.store.books c.unit) : Follows K K' c c :=
  ⟨rfl, fun _ mem => mem, clear.rows⟩

theorem Onward.refl (sound : K.Sound) : Onward K K :=
  ⟨sound, Nat.le_refl _, fun c mem => Or.inl ⟨c, mem, .of_clear (.refl _ _)⟩⟩

theorem Onward.trans (first : Onward K K') (second : Onward K' K'') : Onward K K'' := by
  refine ⟨second.sound, Nat.le_trans first.next second.next, fun c'' mem => ?_⟩
  rcases second.origin c'' mem with ⟨c', mem', follows'⟩ | new
  · rcases first.origin c' mem' with ⟨c, mem, follows⟩ | new
    · refine Or.inl ⟨c, mem, follows'.unit.trans follows.unit, fun w held => ?_,
        fun id held w found => ?_⟩
      · exact follows'.locked w (follows.locked w held)
      · exact follows'.rows id (follows.locked id held) w (follows.rows id held w found)
    · exact Or.inr (Nat.le_trans new (Nat.le_of_eq follows'.unit.symm))
  · exact Or.inr (Nat.le_trans first.next new)

namespace Sound

theorem unique (sound : K.Sound) (mem : c ∈ K.live) (mem' : d ∈ K.live)
    (same : c.unit.id = d.unit.id) : c = d :=
  List.inj_on_of_nodup_map sound.distinct mem mem' same

theorem client? (sound : K.Sound) (mem : c ∈ K.live) : K.client? c.unit.id = some c :=
  Table.find?_of_mem sound.distinct mem

theorem holds (sound : K.Sound) (mem : c ∈ K.live) (has : c.unit.Has r) :
    K.store.claims.holds c.unit.id r = true := by
  cases r with
  | row wallet => exact (sound.clients c mem).holds.rows wallet has
  | key key => exact (sound.clients c mem).holds.keys key has

theorem exclusive (sound : K.Sound) (mem : c ∈ K.live) (mem' : d ∈ K.live) (has : c.unit.Has r)
    (has' : d.unit.Has r) : c = d :=
  sound.unique mem mem' (Claims.holds_unique (sound.holds mem has) (sound.holds mem' has'))

theorem moved (sound : K.Sound) (mem : c ∈ K.live) (follows : c'.unit.id = c.unit.id)
    (locked : ∀ w ∈ c.unit.locked, w ∈ c'.unit.locked)
    (change : Claims.OwnChange c.unit.id K.store.claims s.claims)
    (books : s.books = K.store.books) (next : s.nextUnit = K.store.nextUnit) (own : c'.Sound s) :
    Onward K (K.put c' s) := by
  have clear : ∀ v, Clear K.store.books s.books v := fun v => books ▸ .refl _ v
  have live : ∀ x, x ∈ (K.put c' s).live ↔ x = c' ∨ x ∈ K.live ∧ x.unit.id ≠ c'.unit.id :=
    fun x => Table.mem_put_iff sound.distinct
  refine ⟨⟨books ▸ sound.coherent, Table.nodup_put c' sound.distinct, fun r u claim => ?_,
    fun x here => ?_⟩, Nat.le_of_eq next.symm, fun x here => ?_⟩
  · by_cases mine : u = c'.unit.id
    · exact ⟨c', (live c').mpr (Or.inl rfl), mine.symm⟩
    · have old := (change.own _ claim).resolve_right fun same => mine (same.trans follows.symm)
      obtain ⟨d, there, rfl⟩ := sound.claimed r u old
      exact ⟨d, (live d).mpr (Or.inr ⟨there, mine⟩), rfl⟩
  -- The other clients stand beside the move.
  · rcases (live x).mp here with rfl | ⟨there, other⟩
    · exact own
    · exact (sound.clients x there).beside (follows ▸ other) change (Nat.le_of_eq next.symm)
        (clear _)
  · rcases (live x).mp here with rfl | ⟨there, -⟩
    · exact Or.inl ⟨c, mem, follows, locked, (clear c.unit).rows⟩
    · exact Or.inl ⟨x, there, .of_clear (clear _)⟩

theorem works {op : UnitOp} {st : UnitOfWork.Step op.Answer} (sound : K.Sound) (mem : c ∈ K.live)
    (works : UnitOfWork.Works c.unit K.store op st) : Onward K (K.put (c.after op st) st.store) := by
  have own := (sound.clients c mem).after sound.coherent.toIndexed works
  refine sound.moved mem ?_ ?_ works.claims works.books works.next own
  · rw [Client.unit_after, works.unit]
  · rw [Client.unit_after]
    exact works.writes.locked

theorem ended (sound : K.Sound) (claims : s.claims = K.store.claims.release c.unit.id)
    (next : s.nextUnit = K.store.nextUnit) (coherent : s.books.Coherent)
    (clear : ∀ d ∈ K.live, d.unit.id ≠ c.unit.id → Clear K.store.books s.books d.unit) :
    Onward K (K.remove c.unit.id s) := by
  have live : ∀ x, x ∈ (K.remove c.unit.id s).live ↔ x ∈ K.live ∧ x.unit.id ≠ c.unit.id := by
    intro x
    simp [remove]
  refine ⟨⟨coherent, sound.distinct.sublist (List.filter_sublist.map _), fun r u claim => ?_,
    fun x here => ?_⟩, Nat.le_of_eq next.symm, fun x here => ?_⟩
  · have claim : ⟨r, u⟩ ∈ s.claims := claim
    rw [claims] at claim
    obtain ⟨old, other⟩ := List.mem_filter.mp claim
    obtain ⟨d, there, rfl⟩ := sound.claimed r u old
    exact ⟨d, (live d).mpr ⟨there, by simpa using other⟩, rfl⟩
  · obtain ⟨there, other⟩ := (live x).mp here
    have change : Claims.OwnChange c.unit.id K.store.claims s.claims :=
      claims ▸ Claims.ownChange_release _ _
    exact (sound.clients x there).beside other change (Nat.le_of_eq next.symm)
      (clear x there other)
  · obtain ⟨there, other⟩ := (live x).mp here
    exact Or.inl ⟨x, there, .of_clear (clear x there other)⟩

theorem stays (sound : K.Sound) (claims : s.claims = K.store.claims)
    (next : K.store.nextUnit ≤ s.nextUnit) (coherent : s.books.Coherent)
    (clear : ∀ v, Clear K.store.books s.books v) : Onward K { K with store := s } := by
  refine ⟨⟨coherent, sound.distinct, fun r u claim => sound.claimed r u (claims ▸ claim),
    fun x here => ?_⟩, next, fun x here => Or.inl ⟨x, here, .of_clear (clear _)⟩⟩
  have begun := (sound.clients x here).begun
  have change : Claims.OwnChange K.store.nextUnit K.store.claims s.claims :=
    claims ▸ Claims.OwnChange.refl _ _
  exact (sound.clients x here).beside (Nat.ne_of_lt begun) change next (clear _)

theorem begins (sound : K.Sound) (s : Store) (claims : s.claims = K.store.claims)
    (next : s.nextUnit = K.store.nextUnit + 1) (books : s.books = K.store.books) :
    Onward K ⟨s, K.live ++ [⟨⟨K.store.nextUnit, [], {}⟩, none, []⟩]⟩ := by
  have later : K.store.nextUnit ≤ s.nextUnit := next ▸ Nat.le_succ _
  have before := sound.stays claims later (books ▸ sound.coherent) fun v => books ▸ .refl _ v
  have new : ∀ c ∈ K.live, c.unit.id ≠ K.store.nextUnit :=
    fun c mem => Nat.ne_of_lt (sound.clients c mem).begun
  refine ⟨⟨before.sound.coherent, Table.nodup_append_new sound.distinct new, fun r u claim => ?_,
    fun x here => ?_⟩, later, fun x here => ?_⟩
  · obtain ⟨d, there, same⟩ := before.sound.claimed r u claim
    exact ⟨d, List.mem_append_left _ there, same⟩
  · rcases List.mem_append.mp here with old | same
    · exact before.sound.clients x old
    · rw [List.mem_singleton.mp same]
      refine ⟨next ▸ Nat.lt_succ_self _, ⟨?_, ?_⟩, fun r mem => ?_,
        by rintro op ⟨⟩, UnitOfWork.suits_new _ _, ?_⟩
      · exact fun _ mem => absurd mem List.not_mem_nil
      · exact fun _ mem => absurd mem List.not_mem_nil
      · obtain ⟨d, there, same⟩ := sound.claimed r _ (claims ▸ mem)
        exact absurd same (new d there)
      · exact fun _ mem => absurd mem List.not_mem_nil
  · rcases List.mem_append.mp here with old | same
    · obtain ⟨d, there, follows⟩ | later := before.origin x old
      · exact Or.inl ⟨d, there, follows.unit, follows.locked, follows.rows⟩
      · exact Or.inr later
    · rw [List.mem_singleton.mp same]
      exact Or.inr (Nat.le_refl _)

/-- What a unit has staged can be committed, also after an injected fault was passed over. -/
theorem applied (sound : K.Sound) (mem : c ∈ K.live) (faults : List Fault) (now : Timestamp) :
    (({ K.store with faults := faults } : Store).apply c.unit.staged now).books.Coherent ∧
      Books.Applied K.store.books
        (({ K.store with faults := faults } : Store).apply c.unit.staged now).books
        c.unit.staged := by
  have suits := (sound.clients c mem).suits
  exact Books.Coherent.applied sound.coherent suits.takes suits.owed suits.owned now

/-- A commit writes to rows and keys that its unit has, and so to none of another unit. -/
theorem clear_applied {b : Books} (sound : K.Sound) (mem : c ∈ K.live) (mem' : d ∈ K.live)
    (other : d.unit.id ≠ c.unit.id) (applied : Books.Applied K.store.books b c.unit.staged) :
    Clear K.store.books b d.unit := by
  have suits := (sound.clients c mem).suits
  have kept : ∀ p ∈ K.store.books.keys, p ∈ b.keys := fun p old => (applied.keys p).mpr (Or.inl old)
  refine ⟨⟨fun id held w found => ?_, fun k staged free => ?_, fun k taken => ?_, nofun⟩, kept,
    applied.kept, fun id w found => ?_⟩
  · rw [applied.untouched id, found]
    rintro p written rfl
    have has : c.unit.Has (.row p.1) := suits.covered p written
    have has' : d.unit.Has (.row p.1) := held
    exact other (congrArg (·.unit.id) (sound.exclusive mem' mem has' has))
  -- A key that is new in the books was staged by the unit that commits, so `d` does not have it.
  · refine Books.hasKey_false_iff_mem.mpr fun id there => ?_
    rcases (applied.keys _).mp there with old | ⟨t, new, same⟩
    · exact Books.hasKey_false_iff_mem.mp free id old
    · cases same
      rcases suits.keyed t new with mine | leads
      · have has : c.unit.Has (.key t.key) := mine
        have has' : d.unit.Has (.key t.key) := staged
        exact other (congrArg (·.unit.id) (sound.exclusive mem' mem has' has))
      · exact Books.hasKey_false_iff_mem.mp free _ leads
  · obtain ⟨id, leads⟩ := Books.hasKey_iff_mem.mp taken
    exact Books.hasKey_iff_mem.mpr ⟨id, kept _ leads⟩
  · have present : (b.wallet? id).isSome = true := by rw [applied.known id, found, Option.isSome_some]
    exact Option.isSome_iff_exists.mp present

theorem step {e : ClientEvent} (sound : K.Sound) (step : K.Step e K') : Onward K K' := by
  cases step with
  | opened w new owed =>
    refine sound.stays rfl (Nat.le_refl _) ?_ fun v => .withWallet new v
    have old := sound.coherent
    refine ⟨⟨old.ids, old.keys, old.found, old.led⟩, fun x mem => ?_, old.owned⟩
    rcases List.mem_append.mp mem with before | same
    · exact old.owed x before
    · rw [List.mem_singleton.mp same]
      exact owed
  | begun faults => exact sound.begins _ rfl rfl rfl
  | @entered c now op mem idle =>
    exact sound.works mem ((sound.clients c mem).enters idle now op)
  | @resumed c now op st mem pending resumed =>
    exact sound.works mem ((sound.clients c mem).resumes pending resumed)
  | @abandoned c op mem pending =>
    obtain ⟨own, change, books, next⟩ := (sound.clients c mem).abandoned pending
    exact sound.moved mem rfl (fun _ held => held) change books next own
  | @committed c now faults mem idle passes =>
    obtain ⟨coherent, applied⟩ := sound.applied mem faults now
    exact sound.ended rfl rfl coherent fun d mem' other =>
      sound.clear_applied mem mem' other applied
  | uncommitted | discarded =>
    exact sound.ended rfl rfl sound.coherent fun d _ _ => .refl _ _
  | unopened | unbegun | arranged =>
    exact sound.stays rfl (Nat.le_refl _) sound.coherent fun v => .refl _ v

theorem run {es : List ClientEvent} (sound : K.Sound) (h : K.run? es = some K') :
    Onward K K' := by
  induction es generalizing K with
  | nil =>
    cases h
    exact .refl sound
  | cons e es ih =>
    obtain ⟨T, first, rest⟩ := Option.bind_eq_some_iff.mp h
    have onward := sound.step (step_of_next? first)
    exact onward.trans (ih onward.sound rest)

end Sound

theorem Reachable.sound (h : K.Reachable) : K.Sound := by
  induction h with
  | start =>
    refine ⟨Books.Grown.empty.coherent, List.nodup_nil, ?_, ?_⟩
    · exact fun _ _ mem => absurd mem List.not_mem_nil
    · exact fun _ mem => absurd mem List.not_mem_nil
  | next before h ih => exact (ih.step (step_of_next? h)).sound

/-- The locks and the staged writes of the open units: a lock that a unit has is its own and no
other's, one that is held is held by an open unit, what is staged is uncommitted, and what has been
answered of the rows is what the books say. -/
structure Disciplined (K : Clients) : Prop where
  distinct : (K.live.map (·.unit.id)).Nodup
  held : ∀ c ∈ K.live, ∀ r, c.unit.Has r → K.store.claims.holder? r = some c.unit.id
  manned : ∀ r u, K.store.claims.holder? r = some u →
    ∃ c ∈ K.live, c.unit.id = u ∧ (c.unit.Has r ∨ c.awaited? = some r)
  exclusive : ∀ c ∈ K.live, ∀ d ∈ K.live, c ≠ d → ∀ r, c.unit.Has r → ¬d.unit.Has r
  disjoint : ∀ c ∈ K.live, ∀ d ∈ K.live, c ≠ d → c.unit.staged.keys.Disjoint d.unit.staged.keys
  uncommitted : ∀ c ∈ K.live, ∀ k ∈ c.unit.staged.keys, K.store.books.hasKey k = false
  current : ∀ c ∈ K.live, ∀ w ∈ c.rows,
    w.id ∈ c.unit.locked ∧ K.store.books.wallet? w.id = some w
  based : ∀ c ∈ K.live, ∀ p ∈ c.unit.staged.balances, p.1 ∈ c.unit.locked ∧
    ∃ w, K.store.books.wallet? p.1 = some w ∧ ∀ x ∈ c.rows, x.id = p.1 → x = w

/-- As long as a unit is open, the rows that it has locked stand as they stood. -/
def Frozen (K K' : Clients) : Prop :=
  ∀ c ∈ K.live, ∀ c' ∈ K'.live, c'.unit.id = c.unit.id → ∀ id ∈ c.unit.locked, ∀ w,
    K.store.books.wallet? id = some w → K'.store.books.wallet? id = some w

theorem Sound.disciplined (sound : K.Sound) : K.Disciplined := by
  refine ⟨sound.distinct, fun c mem r has => Claims.holds_iff.mp (sound.holds mem has),
    fun r u holder => ?_, fun c mem d mem' other r has has' => ?_,
    fun c mem d mem' other k staged staged' => ?_, fun c mem => (sound.clients c mem).suits.free,
    fun c mem => (sound.clients c mem).seen, fun c mem p written => ?_⟩
  · have claim := Claims.mem_of_holder? holder
    obtain ⟨c, mem, rfl⟩ := sound.claimed r u claim
    exact ⟨c, mem, rfl, (sound.clients c mem).backed r claim⟩
  · exact other (sound.exclusive mem mem' has has')
  · have has : c.unit.Has (.key k) := staged
    exact other (sound.exclusive mem mem' has staged')
  · have suits := (sound.clients c mem).suits
    obtain ⟨w, found⟩ := suits.known p written
    refine ⟨suits.covered p written, w, found, fun x answered same => ?_⟩
    obtain ⟨-, found'⟩ := (sound.clients c mem).seen x answered
    rw [same, found] at found'
    exact (Option.some.inj found').symm

theorem Sound.frozen {es : List ClientEvent} (sound : K.Sound) (h : K.run? es = some K') :
    K.Frozen K' := by
  intro c mem c' mem' same id held w found
  rcases (sound.run h).origin c' mem' with ⟨d, there, follows⟩ | new
  · have here : d = c := sound.unique there mem (follows.unit.symm.trans same)
    rw [here] at follows
    exact follows.rows id held w found
  · exact absurd (sound.clients c mem).begun (Nat.not_lt.mpr (same ▸ new))

/-- However clients use their units, every state that they reach is disciplined, and from each such
state on the rows of a unit are frozen until it ends. -/
theorem Reachable.lock_discipline (h : K.Reachable) :
    K.Disciplined ∧ ∀ es K', K.run? es = some K' → K.Frozen K' :=
  ⟨h.sound.disciplined, fun _ _ => h.sound.frozen⟩

/-- Two units want the same wallets. One of them gets the rows, records a transaction and writes a
balance; the other waits for the first row, gives up, and then waits for the key of the first. -/
def rivals : List ClientEvent :=
  opening ++ [.begin, .begin,
    .enter 0 .epoch (.lockWallets pair), .resume 0 .epoch, .resume 0 .epoch,
    .enter 1 .epoch (.lockWallets pair),
    .enter 0 .epoch (.insertTransaction ⟨rent "rent", .ofNat 3, .pending⟩), .resume 0 .epoch,
    .enter 0 .epoch (.setBalance (.ofNat 1) (cents 7000)),
    .abandon 1, .enter 1 .epoch (.insertTransaction ⟨rent "rent", .ofNat 4, .pending⟩)]

theorem lock_discipline_rivals : ∃ K K', ({} : Clients).run? (rivals.take 8) = some K ∧
    K.run? (rivals.drop 8) = some K' ∧ K.Disciplined ∧ K.Frozen K' ∧
    K'.live.map (fun c => (c.unit.id, c.unit.locked, c.awaited?)) =
      [(0, [.ofNat 1, .ofNat 2], none), (1, [], some (.key ⟨"rent"⟩))] := by
  have facts : ((({} : Clients).run? (rivals.take 8)).bind (·.run? (rivals.drop 8))).map
      (fun K' => K'.live.map fun c => (c.unit.id, c.unit.locked, c.awaited?)) =
        some [(0, [.ofNat 1, .ofNat 2], none), (1, [], some (.key ⟨"rent"⟩))] := by
    decide +kernel
  obtain ⟨K', both, found⟩ := Option.map_eq_some_iff.mp facts
  obtain ⟨K, ran, rest⟩ := Option.bind_eq_some_iff.mp both
  obtain ⟨disciplined, frozen⟩ := (reachable_of_run .start ran).lock_discipline
  exact ⟨K, K', ran, rest, disciplined, frozen _ K' rest, found⟩

end Clients

end WalletLedger
