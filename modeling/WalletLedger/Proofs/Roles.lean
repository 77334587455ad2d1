import Mathlib.Data.List.Nodup
import WalletLedger.Proofs.Pair

/-!
The two roles of a transfer, whatever rows come back for its pair. Rows are in order if each of them
belongs to a wallet of the pair and no two to the same one. The roles are read off rows in order
wherever these stand in the list; of rows that are not, the first that does not fit is refused.
-/
namespace WalletLedger

namespace WalletPair

def misfit? (sender receiver : WalletId) : List WalletId → List Wallet → Option Wallet
  | _, [] => none
  | seen, row :: rows =>
    if (row.id = sender ∨ row.id = receiver) ∧ row.id ∉ seen then
      misfit? sender receiver (row.id :: seen) rows
    else some row

structure InOrder (a b : WalletId) (rows : List Wallet) : Prop where
  members : ∀ row ∈ rows, row.id = a ∨ row.id = b
  distinct : (rows.map Wallet.id).Nodup

def misfitDetail (row : Wallet) : String := s!"lock returned unexpected wallet row {row.id.text}"

def mismatchDetail (p : WalletPair) (sender receiver : WalletId) : String :=
  s!"transfer {sender.text} -> {receiver.text} does not match locked pair " ++
    s!"{p.first.text} / {p.second.text}"

variable {a b sender receiver id : WalletId} {seen : List WalletId} {rows rows' : List Wallet}
  {row s r : Wallet} {s? r? : Option Wallet} {p : WalletPair}

theorem misfit?_none_iff : misfit? sender receiver seen rows = none ↔
    InOrder sender receiver rows ∧ ∀ row ∈ rows, row.id ∉ seen := by
  induction rows generalizing seen with
  | nil =>
    have ordered : InOrder sender receiver [] := ⟨by simp, by simp⟩
    simpa [misfit?] using ordered
  | cons row rows ih =>
    unfold misfit?
    split
    · rename_i fits
      rw [ih]
      constructor
      · rintro ⟨⟨members, distinct⟩, apart⟩
        have new : row.id ∉ rows.map Wallet.id := by
          intro mem
          obtain ⟨x, there, same⟩ := List.mem_map.mp mem
          exact apart x there (same ▸ List.mem_cons_self)
        refine ⟨⟨?_, List.nodup_cons.mpr ⟨new, distinct⟩⟩, ?_⟩
        · exact List.forall_mem_cons.mpr ⟨fits.1, members⟩
        · refine List.forall_mem_cons.mpr ⟨fits.2, fun x there mem => ?_⟩
          exact apart x there (List.mem_cons_of_mem _ mem)
      · rintro ⟨⟨members, distinct⟩, apart⟩
        obtain ⟨new, distinct⟩ := List.nodup_cons.mp distinct
        refine ⟨⟨(List.forall_mem_cons.mp members).2, distinct⟩, fun x there mem => ?_⟩
        rcases List.mem_cons.mp mem with same | mem
        · exact new (same ▸ List.mem_map_of_mem there)
        · exact (List.forall_mem_cons.mp apart).2 x there mem
    · rename_i misfit
      refine iff_of_false (by simp) ?_
      rintro ⟨⟨members, -⟩, apart⟩
      exact misfit ⟨members row List.mem_cons_self, apart row List.mem_cons_self⟩

theorem misfit?_some (h : misfit? sender receiver seen rows = some row) :
    ∃ before after, rows = before ++ row :: after ∧ misfit? sender receiver seen before = none ∧
      ((row.id ≠ sender ∧ row.id ≠ receiver) ∨ row.id ∈ seen ∨ row.id ∈ before.map Wallet.id) := by
  induction rows generalizing seen with
  | nil => contradiction
  | cons x rows ih =>
    unfold misfit? at h
    split at h
    · rename_i fits
      obtain ⟨before, after, rfl, ordered, strange⟩ := ih h
      refine ⟨x :: before, after, rfl, ?_, ?_⟩
      · rw [misfit?, if_pos fits, ordered]
      · rw [List.map_cons, List.mem_cons]
        rw [List.mem_cons] at strange
        tauto
    · rename_i misfit
      cases h
      refine ⟨[], rows, rfl, rfl, ?_⟩
      tauto

/-- The loop over the rows, with the wallets of the rows that it has passed. -/
theorem assign_eq (seen : List WalletId) (ne : sender ≠ receiver) (hs : s?.isNone ↔ sender ∉ seen)
    (hr : r?.isNone ↔ receiver ∉ seen) : assign sender receiver s? r? rows =
      match misfit? sender receiver seen rows with
      | some row => .error (.invariantViolation (misfitDetail row))
      | none => .ok (s?.or (Table.find? Wallet.id sender rows),
          r?.or (Table.find? Wallet.id receiver rows)) := by
  induction rows generalizing s? r? seen with
  | nil => simp [assign, misfit?, Table.find?]
  | cons row rows ih =>
    unfold assign misfit?
    by_cases first : row.id = sender ∧ s?.isNone
    · obtain ⟨rfl, free⟩ := first
      have new := hs.mp free
      have other : receiver ∉ row.id :: seen ↔ receiver ∉ seen := by simp [Ne.symm ne]
      rw [if_pos ⟨rfl, free⟩, if_pos ⟨Or.inl rfl, new⟩,
        ih (row.id :: seen) (by simp) (hr.trans other.symm), Option.isNone_iff_eq_none.mp free]
      simp [Table.find?, ne]
    · rw [if_neg first]
      by_cases second : row.id = receiver ∧ r?.isNone
      · obtain ⟨rfl, free⟩ := second
        have new := hr.mp free
        have other : sender ∉ row.id :: seen ↔ sender ∉ seen := by simp [ne]
        rw [if_pos ⟨rfl, free⟩, if_pos ⟨Or.inr rfl, new⟩,
          ih (row.id :: seen) (hs.trans other.symm) (by simp),
          Option.isNone_iff_eq_none.mp free]
        simp [Table.find?, Ne.symm ne]
      · have misfit : ¬((row.id = sender ∨ row.id = receiver) ∧ row.id ∉ seen) := by
          rintro ⟨rfl | rfl, new⟩
          · exact first ⟨rfl, hs.mpr new⟩
          · exact second ⟨rfl, hr.mpr new⟩
        rw [if_neg second, if_neg misfit]
        rfl

theorem InOrder.swap (h : InOrder a b rows) : InOrder b a rows :=
  ⟨fun row mem => (h.members row mem).symm, h.distinct⟩

theorem InOrder.perm (h : InOrder a b rows) (perm : rows'.Perm rows) : InOrder a b rows' :=
  ⟨fun row mem => h.members row (perm.mem_iff.mp mem), (perm.map _).nodup_iff.mpr h.distinct⟩

theorem InOrder.perm_pair (h : InOrder a b rows) (hs : Table.find? Wallet.id a rows = some s)
    (hr : Table.find? Wallet.id b rows = some r) (ne : a ≠ b) : rows.Perm [s, r] := by
  obtain ⟨sMem, rfl⟩ := Table.find?_mem hs
  obtain ⟨rMem, rfl⟩ := Table.find?_mem hr
  have apart : s ≠ r := fun same => ne (congrArg Wallet.id same)
  refine (List.perm_ext_iff_of_nodup h.distinct.of_map (by simpa using apart)).mpr fun row => ?_
  rw [List.mem_pair]
  constructor
  · intro mem
    have found := Table.find?_of_mem h.distinct mem
    rcases h.members row mem with same | same
    · rw [same, hs] at found
      exact Or.inl (Option.some.inj found).symm
    · rw [same, hr] at found
      exact Or.inr (Option.some.inj found).symm
  · rintro (rfl | rfl)
    · exact sMem
    · exact rMem

def Roles (a b sender receiver : WalletId) : Prop :=
  sender ≠ receiver ∧ sender ∈ [a, b] ∧ receiver ∈ [a, b]

theorem Roles.inOrder_iff (h : Roles a b sender receiver) :
    InOrder sender receiver rows ↔ InOrder a b rows := by
  obtain ⟨ne, hs, hr⟩ := h
  rw [List.mem_pair] at hs hr
  rcases hs with rfl | rfl <;> rcases hr with rfl | rfl
  · contradiction
  · exact Iff.rfl
  · exact ⟨InOrder.swap, InOrder.swap⟩
  · contradiction

theorem contains_iff (id : WalletId) (ids : p.ids = [a, b] ∨ p.ids = [b, a]) :
    p.contains id = true ↔ id ∈ [a, b] := by
  have members : p.contains id = true ↔ id ∈ p.ids := by
    simp only [contains, WalletPair.ids, Bool.or_eq_true, decide_eq_true_eq, List.mem_pair,
      @eq_comm _ id]
  rw [members]
  rcases ids with ids | ids <;> rw [ids]
  exact List.mem_pair.trans (or_comm.trans List.mem_pair.symm)

theorem resolve_mismatched (ids : p.ids = [a, b] ∨ p.ids = [b, a])
    (h : ¬Roles a b sender receiver) : p.resolve rows sender receiver =
      .error (.invariantViolation (p.mismatchDetail sender receiver)) := by
  have guard : sender = receiver ∨ !p.contains sender ∨ !p.contains receiver := by
    have hs := contains_iff sender ids
    have hr := contains_iff receiver ids
    unfold Roles at h
    simp only [Bool.not_eq_true', ← Bool.not_eq_true]
    tauto
  unfold resolve
  rw [if_pos guard]
  rfl

theorem resolve_eq (ids : p.ids = [a, b] ∨ p.ids = [b, a]) (h : Roles a b sender receiver) :
    p.resolve rows sender receiver =
      match misfit? sender receiver [] rows with
      | some row => .error (.invariantViolation (misfitDetail row))
      | none =>
        match Table.find? Wallet.id sender rows, Table.find? Wallet.id receiver rows with
        | none, _ => .error (.walletNotFound sender)
        | some _, none => .error (.walletNotFound receiver)
        | some s, some r => .ok (s, r) := by
  obtain ⟨ne, hs, hr⟩ := h
  rw [← contains_iff _ ids] at hs hr
  have guard : ¬(sender = receiver ∨ !p.contains sender ∨ !p.contains receiver) := by
    simp [ne, hs, hr]
  unfold resolve
  rw [if_neg guard, assign_eq [] ne (by simp) (by simp)]
  cases misfit? sender receiver [] rows with
  | some row => rfl
  | none =>
    simp only [Option.none_or]
    cases Table.find? Wallet.id sender rows <;> cases Table.find? Wallet.id receiver rows <;> rfl

/-- What rows come to in the roles of sender and receiver, for the pair of `a` and `b`. -/
structure Resolution (a b : WalletId) (p : WalletPair) (sender receiver : WalletId)
    (rows : List Wallet) : Prop where
  mismatched : ¬Roles a b sender receiver → p.resolve rows sender receiver =
    .error (.invariantViolation (p.mismatchDetail sender receiver))
  filled : Roles a b sender receiver → ∀ s r,
    p.resolve rows sender receiver = .ok (s, r) ↔
      rows.Perm [s, r] ∧ s.id = sender ∧ r.id = receiver
  missing : Roles a b sender receiver → ∀ id,
    p.resolve rows sender receiver = .error (.walletNotFound id) ↔
      InOrder a b rows ∧ [sender, receiver].find? (· ∉ rows.map Wallet.id) = some id
  refused : Roles a b sender receiver →
    ((∃ detail, p.resolve rows sender receiver = .error (.invariantViolation detail)) ↔
      (∃ row ∈ rows, row.id ∉ [a, b]) ∨ ¬(rows.map Wallet.id).Nodup)
  firstMisfit : Roles a b sender receiver → ∀ detail,
    p.resolve rows sender receiver = .error (.invariantViolation detail) →
      ∃ before row after, rows = before ++ row :: after ∧ InOrder a b before ∧
        ¬InOrder a b (before ++ [row]) ∧ detail = misfitDetail row
  permuted : ∀ rows', rows'.Perm rows →
    (p.resolve rows' sender receiver).mapError LedgerError.kind =
      (p.resolve rows sender receiver).mapError LedgerError.kind

theorem misfit?_nil_iff (h : Roles a b sender receiver) :
    misfit? sender receiver [] rows = none ↔ InOrder a b rows := by
  rw [misfit?_none_iff, h.inOrder_iff]
  simp

theorem resolve_inOrder (ids : p.ids = [a, b] ∨ p.ids = [b, a]) (h : Roles a b sender receiver)
    (ordered : InOrder a b rows) : p.resolve rows sender receiver =
      match Table.find? Wallet.id sender rows, Table.find? Wallet.id receiver rows with
      | none, _ => .error (.walletNotFound sender)
      | some _, none => .error (.walletNotFound receiver)
      | some s, some r => .ok (s, r) := by
  rw [resolve_eq ids h, (misfit?_nil_iff h).mpr ordered]

theorem resolve_misfit (ids : p.ids = [a, b] ∨ p.ids = [b, a]) (h : Roles a b sender receiver)
    (disordered : ¬InOrder a b rows) : ∃ before row after, rows = before ++ row :: after ∧
      InOrder a b before ∧ ¬InOrder a b (before ++ [row]) ∧
      p.resolve rows sender receiver = .error (.invariantViolation (misfitDetail row)) := by
  cases misfit : misfit? sender receiver [] rows with
  | none => exact absurd ((misfit?_nil_iff h).mp misfit) disordered
  | some row =>
    obtain ⟨before, after, rfl, ordered, strange⟩ := misfit?_some misfit
    refine ⟨before, row, after, rfl, (misfit?_nil_iff h).mp ordered, fun whole => ?_, ?_⟩
    · obtain ⟨members, distinct⟩ := h.inOrder_iff.mpr whole
      have member := members row (by simp)
      have apart : row.id ∉ before.map Wallet.id := by
        rw [List.map_append, List.nodup_append] at distinct
        exact fun mem => distinct.2.2 _ mem _ (by simp) rfl
      simp only [List.not_mem_nil, false_or] at strange
      tauto
    · rw [resolve_eq ids h, misfit]

theorem not_inOrder_iff : ¬InOrder a b rows ↔
    (∃ row ∈ rows, row.id ∉ [a, b]) ∨ ¬(rows.map Wallet.id).Nodup := by
  constructor
  · intro disordered
    by_cases distinct : (rows.map Wallet.id).Nodup
    · left
      by_contra! members
      exact disordered ⟨fun row mem => List.mem_pair.mp (members row mem), distinct⟩
    · exact Or.inr distinct
  · rintro (⟨row, mem, foreign⟩ | repeated) ordered
    · exact foreign (List.mem_pair.mpr (ordered.members row mem))
    · exact repeated ordered.distinct

theorem refused_iff (ids : p.ids = [a, b] ∨ p.ids = [b, a]) (h : Roles a b sender receiver) :
    (∃ detail, p.resolve rows sender receiver = .error (.invariantViolation detail)) ↔
      ¬InOrder a b rows := by
  constructor
  · rintro ⟨detail, refused⟩ ordered
    rw [resolve_inOrder ids h ordered] at refused
    split at refused <;> cases refused
  · intro disordered
    obtain ⟨-, row, -, -, -, -, refused⟩ := resolve_misfit ids h disordered
    exact ⟨_, refused⟩

theorem filled_iff (ids : p.ids = [a, b] ∨ p.ids = [b, a]) (h : Roles a b sender receiver) :
    p.resolve rows sender receiver = .ok (s, r) ↔
      rows.Perm [s, r] ∧ s.id = sender ∧ r.id = receiver := by
  constructor
  · intro filled
    by_cases ordered : InOrder a b rows
    · rw [resolve_inOrder ids h ordered] at filled
      split at filled <;> cases filled
      rename_i hs hr
      refine ⟨(h.inOrder_iff.mpr ordered).perm_pair hs hr h.1, ?_⟩
      exact ⟨(Table.find?_mem hs).2, (Table.find?_mem hr).2⟩
    · obtain ⟨detail, refused⟩ := (refused_iff ids h).mpr ordered
      rw [refused] at filled
      contradiction
  · rintro ⟨perm, rfl, rfl⟩
    have pair : InOrder s.id r.id [s, r] := ⟨by simp, by simpa using h.1⟩
    have ordered := pair.perm perm
    have hs : Table.find? Wallet.id s.id rows = some s := by
      rw [Table.find?_perm s.id pair.distinct perm]
      simp [Table.find?]
    have hr : Table.find? Wallet.id r.id rows = some r := by
      rw [Table.find?_perm r.id pair.distinct perm]
      simp [Table.find?, h.1]
    rw [resolve_inOrder ids h (h.inOrder_iff.mp ordered), hs, hr]

theorem missing_iff (ids : p.ids = [a, b] ∨ p.ids = [b, a]) (h : Roles a b sender receiver) :
    p.resolve rows sender receiver = .error (.walletNotFound id) ↔
      InOrder a b rows ∧ [sender, receiver].find? (· ∉ rows.map Wallet.id) = some id := by
  have absent : ∀ id, id ∉ rows.map Wallet.id ↔ Table.find? Wallet.id id rows = none := by
    intro id
    rw [Table.find?_none_iff, List.mem_map]
    push Not
    rfl
  by_cases ordered : InOrder a b rows
  · rw [resolve_inOrder ids h ordered]
    simp only [ordered, true_and, List.find?_cons, List.find?_nil, absent]
    cases Table.find? Wallet.id sender rows <;> cases Table.find? Wallet.id receiver rows <;> simp
  · obtain ⟨detail, refused⟩ := (refused_iff ids h).mpr ordered
    simp [refused, ordered]

theorem resolve_perm (ids : p.ids = [a, b] ∨ p.ids = [b, a]) (perm : rows'.Perm rows) :
    (p.resolve rows' sender receiver).mapError LedgerError.kind =
      (p.resolve rows sender receiver).mapError LedgerError.kind := by
  by_cases h : Roles a b sender receiver
  · by_cases ordered : InOrder a b rows
    · rw [resolve_inOrder ids h ordered, resolve_inOrder ids h (ordered.perm perm),
        Table.find?_perm sender ordered.distinct perm,
        Table.find?_perm receiver ordered.distinct perm]
    · have disordered : ¬InOrder a b rows' := fun ordered' => ordered (ordered'.perm perm.symm)
      obtain ⟨_, refused⟩ := (refused_iff ids h).mpr ordered
      obtain ⟨_, refused'⟩ := (refused_iff ids h).mpr disordered
      rw [refused, refused']
      rfl
  · rw [resolve_mismatched ids h, resolve_mismatched ids h]

theorem ids_made (made : WalletPair.of a b = .ok p) : p.ids = [a, b] ∨ p.ids = [b, a] := by
  unfold WalletPair.of at made
  split at made
  · cases made
    exact Or.inl rfl
  · split at made
    · cases made
      exact Or.inr rfl
    · contradiction

/-- Every list of rows fills the roles, leaves one of them open or is refused, for one reason only,
and the order of the rows does not matter. -/
theorem resolution (made : WalletPair.of a b = .ok p) (sender receiver : WalletId)
    (rows : List Wallet) : Resolution a b p sender receiver rows := by
  have ids := ids_made made
  refine ⟨resolve_mismatched ids, fun h s r => filled_iff ids h, fun h id => missing_iff ids h,
    fun h => (refused_iff ids h).trans not_inOrder_iff, fun h detail refused => ?_,
    fun rows' perm => resolve_perm ids perm⟩
  have disordered := (refused_iff ids h).mp ⟨detail, refused⟩
  obtain ⟨before, row, after, split, ordered, broken, named⟩ := resolve_misfit ids h disordered
  rw [refused] at named
  cases named
  exact ⟨before, row, after, split, ordered, broken, rfl⟩

def bare (n : Nat) : Wallet := ⟨.ofNat n, .ofNat n, .savings, .usd, .zero, .epoch, .epoch⟩

/-- Paid by the wallet that is locked second, a transfer finds its roles in rows of either order, and
a third row of a wallet that has one is refused. -/
theorem resolution_backwards : ∃ p, WalletPair.of (.ofNat 2) (.ofNat 1) = .ok p ∧
    p.resolve [bare 1, bare 2] (.ofNat 2) (.ofNat 1) = .ok (bare 2, bare 1) ∧
    (∃ detail, p.resolve [bare 1, bare 2, bare 1] (.ofNat 2) (.ofNat 1) =
      .error (.invariantViolation detail)) ∧
    p.resolve [bare 1] (.ofNat 2) (.ofNat 1) = .error (.walletNotFound (.ofNat 2)) := by
  have made : WalletPair.of (.ofNat 2) (.ofNat 1) = .ok ⟨.ofNat 1, .ofNat 2, by decide⟩ := by decide
  have roles : Roles (.ofNat 2) (.ofNat 1) (.ofNat 2) (.ofNat 1) :=
    ⟨by decide, by decide, by decide⟩
  have whole := resolution made (.ofNat 2) (.ofNat 1)
  refine ⟨_, made, ?_, ?_, ?_⟩
  · exact ((whole _).filled roles _ _).mpr ⟨.swap _ _ _, rfl, rfl⟩
  · exact ((whole _).refused roles).mpr (Or.inr (by decide +kernel))
  · exact ((whole _).missing roles _).mpr ⟨⟨by decide +kernel, by decide +kernel⟩, by decide +kernel⟩

end WalletPair

end WalletLedger
