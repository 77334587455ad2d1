import Mathlib.Data.List.Basic
import WalletLedger.Proofs.Alone
import WalletLedger.Proofs.Contents
import WalletLedger.Proofs.Order

/-!
Serialisability. Calls that are served one at a time, each to its end before the next one begins,
do what deeds do that are performed one after the other. So a run can be replayed in the order in
which its calls took effect: everyone gets the same answer, and the books say the same.
-/
namespace WalletLedger

namespace TransferCall
variable {s : Store} {supply : Supply}

theorem alone_start (coherent : s.books.Coherent) (unclaimed : s.claims = []) (r : TransferRequest)
    (unused : s.books.transaction? supply.id = none) : Alone supply.id (start r) s supply := by
  obtain ⟨unit, draft⟩ := start_idle r
  refine ⟨coherent, start_sound r _, claiming_idle unit, ?_, fun _ => unclaimed, fun _ => unused,
    fun _ => rfl, ?_⟩
  · intro u h
    rw [unit] at h
    contradiction
  · intro x h
    rw [draft] at h
    contradiction

/-- A call from its start on: what the ledger does in one step, or a fault strikes and nothing is
done. -/
theorem Ends.of_start {id : TransactionId} {r : TransferRequest} {x : TransferResult} {b' : Books}
    (ends : Ends id (start r) s x b') : Performs id s.books r x b' ∨
      s.faults ≠ [] ∧ (∃ e, x = .error (.store e)) ∧ b' = s.books := by
  cases ends with
  | decided decided same =>
    rcases start_cases r with ⟨e, invalid, started⟩ | ⟨-, started⟩
    · rw [started] at decided
      cases decided
      have result : s.books.transfer r (.of id ⟨0, .epoch⟩) = (.error e, s.books) := by
        simp only [Books.transfer, Books.settle_invalid invalid]
      have reads := Books.not_posted_of_same result
      exact Or.inl ⟨_, same ▸ result, fun t p posts => absurd posts (reads t p),
        fun t p posts => absurd posts (reads t p)⟩
    · rw [started] at decided
      contradiction
  | performs undecided performs =>
    rw [start_request] at performs
    exact Or.inl performs
  | struck undecided faulty failed same => exact Or.inr ⟨faulty, failed, same⟩

end TransferCall

namespace Store

def serve (s : Store) (supply : Supply) : Request → Option (Outcome × Store)
  | .opening _ owner kind opening =>
    let (r, s) := s.openWallet supply owner kind opening
    some (.opened r, s)
  | .transfer r => ((TransferCall.start r).finish s supply).map fun (x, s) => (.transferred x, s)

def serveAll (s : Store) : List (Request × Supply) → Option (List Outcome × Store)
  | [] => some ([], s)
  | (r, supply) :: rest =>
    (s.serve supply r).bind fun (x, s) => (s.serveAll rest).map fun (xs, s) => (x :: xs, s)

structure Idle (s : Store) : Prop where
  grown : s.books.Grown
  calm : s.faults = []
  unclaimed : s.claims = []

variable {s : Store} {supply : Supply}

theorem idle_start : ({} : Store).Idle := ⟨.empty, rfl, rfl⟩

theorem serveAll_snoc {s' s'' : Store} {x : Outcome} {xs : List Outcome} {r : Request}
    {calls : List (Request × Supply)} (first : s.serveAll calls = some (xs, s'))
    (last : s'.serve supply r = some (x, s'')) :
    s.serveAll (calls ++ [(r, supply)]) = some (xs ++ [x], s'') := by
  induction calls generalizing s xs with
  | nil =>
    cases first
    simp only [List.nil_append, serveAll, last, Option.bind_some, Option.map_some]
  | cons call calls ih =>
    obtain ⟨r', supply'⟩ := call
    obtain ⟨⟨y, t⟩, served, rest⟩ := Option.bind_eq_some_iff.mp first
    obtain ⟨⟨ys, u⟩, later, same⟩ := Option.map_eq_some_iff.mp rest
    cases same
    simp only [List.cons_append, serveAll, served, Option.bind_some, ih later, Option.map_some]

theorem Idle.serves_transfer (idle : s.Idle) (r : TransferRequest)
    (unused : s.books.transaction? supply.id = none) :
    ∃ x s' d, s.serve supply (.transfer r) = some (x, s') ∧ s'.Idle ∧
      s.books.perform d (.transfer r) = (x, s'.books) ∧ (Request.transfer r).Suits s.books d ∧
      ∀ t ∈ s'.books.transactions, t ∈ s.books.transactions ∨ t.id = supply.id := by
  obtain ⟨x, s', finished, kept, unclaimed, ends⟩ :=
    (TransferCall.alone_start idle.grown.coherent idle.unclaimed r unused).finishes
  have calm := kept idle.calm
  have served : s.serve supply (.transfer r) = some (.transferred x, s') := by
    simp only [serve, finished, Option.map_some]
  rcases ends.of_start with ⟨d, result, suits, drawn⟩ | ⟨faulty, -, -⟩
  · have performed : s.books.perform d (.transfer r) = (.transferred x, s'.books) := by
      simp only [Books.perform, result]
    have effect := idle.grown.effect suits
    rw [performed] at effect
    refine ⟨_, s', d, served, ⟨effect.grown idle.grown, calm, unclaimed⟩, performed, suits,
      fun t mem => ?_⟩
    cases settled : s.books.settle r d with
    | reject e | replay u =>
      have same : s'.books = s.books := by
        have := congrArg Prod.snd result
        simpa only [Books.transfer, settled] using this.symm
      exact Or.inl (same ▸ mem)
    | post u p =>
      have posted : s'.books = s.books.post u p d := by
        have := congrArg Prod.snd result
        simpa only [Books.transfer, settled] using this.symm
      rw [posted] at mem
      rcases List.mem_append.mp mem with mem | mem
      · exact Or.inl mem
      · rw [List.mem_singleton.mp mem]
        exact Or.inr (drawn u p settled)
  · exact absurd idle.calm faulty

theorem Idle.serves_opening (idle : s.Idle) {id : WalletId} (owner : UserId) (kind : WalletKind)
    (opening : Money) (named : supply.id = id) (new : s.books.wallet? id = none) :
    ∃ x s' d, s.serve supply (.opening id owner kind opening) = some (x, s') ∧ s'.Idle ∧
      s.books.perform d (.opening id owner kind opening) = (x, s'.books) ∧
      (Request.opening id owner kind opening).Suits s.books d ∧
      s'.books.transactions = s.books.transactions := by
  let d := Draw.of supply.id supply
  have suits : (Request.opening id owner kind opening).Suits s.books d := new
  have performed : s.books.perform d (.opening id owner kind opening) =
      (.opened (s.books.openWallet id supply.now owner kind opening).1,
        (s.books.openWallet id supply.now owner kind opening).2) := by
    simp only [Books.perform, d, Draw.of]
  have served : s.serve supply (.opening id owner kind opening) =
      some (.opened (s.books.openWallet id supply.now owner kind opening).1,
        { s with books := (s.books.openWallet id supply.now owner kind opening).2 }) := by
    simp only [serve, openWallet_eq, named]
  have effect := idle.grown.effect suits
  rw [performed] at effect
  refine ⟨_, _, d, served, ⟨effect.grown idle.grown, idle.calm, idle.unclaimed⟩, performed, suits,
    ?_⟩
  rcases Books.openWallet_cases new supply.now owner kind opening with
    ⟨e, -, failed⟩ | ⟨-, w, -, opened, -⟩
  · rw [failed]
  · rw [opened]
    rfl

end Store

structure Deed.Supplied (supply : CallId → Supply) (ds : List Deed) : Prop where
  wallets : ∀ d ∈ ds, ∀ id owner kind opening, d.request = .opening id owner kind opening →
    (supply d.call).id = id
  distinct : ds.Pairwise fun d e => ∀ r q, d.request = .transfer r → e.request = .transfer q →
    (supply d.call).id ≠ (supply e.call).id

/-- Deeds can be done again by serving one call after the other. -/
theorem Performed.serves {ds : List Deed} {b : Books} (h : Performed ds b)
    (supply : CallId → Supply) (supplied : Deed.Supplied supply ds) :
    ∃ outcomes store,
      ({} : Store).serveAll (ds.map fun d => (d.request, supply d.call)) = some (outcomes, store) ∧
      store.Idle ∧ outcomes.map (·.contents) = ds.map (·.outcome.contents) ∧
      store.books.contents = b.contents ∧
      ∀ t ∈ store.books.transactions, ∃ d ∈ ds, (∃ r, d.request = .transfer r) ∧
        t.id = (supply d.call).id := by
  induction h with
  | start => exact ⟨[], {}, rfl, Store.idle_start, rfl, rfl, fun _ => List.not_mem_nil.elim⟩
  | @next ds b d before suits outcome ih =>
    obtain ⟨pairs, -, apart⟩ := List.pairwise_append.mp supplied.distinct
    have earlier : Deed.Supplied supply ds :=
      ⟨fun e mem => supplied.wallets e (List.mem_append_left _ mem), pairs⟩
    obtain ⟨outcomes, s, served, idle, answers, books, drawn⟩ := ih earlier
    have last : ∃ x s' d', s.serve (supply d.call) d.request = some (x, s') ∧ s'.Idle ∧
        s.books.perform d' d.request = (x, s'.books) ∧ d.request.Suits s.books d' ∧
        ∀ t ∈ s'.books.transactions, t ∈ s.books.transactions ∨
          (∃ r, d.request = .transfer r) ∧ t.id = (supply d.call).id := by
      cases request : d.request with
      | opening id owner kind opening =>
        have named := supplied.wallets d (by simp) id owner kind opening request
        rw [request] at suits
        obtain ⟨x, s', d', rest, idle', performed, suits', same⟩ := idle.serves_opening owner kind
          opening named (Books.wallet?_none_alike books.symm suits)
        exact ⟨x, s', d', rest, idle', performed, suits', fun t mem => Or.inl (same ▸ mem)⟩
      | transfer r =>
        have unused : s.books.transaction? (supply d.call).id = none := by
          refine Table.find?_none_iff.mpr fun t mem same => ?_
          obtain ⟨e, there, ⟨q, asked⟩, drawn⟩ := drawn t mem
          exact apart e there d (by simp) q r asked request (drawn.symm.trans same)
        obtain ⟨x, s', d', rest, idle', performed, suits', fresh⟩ :=
          idle.serves_transfer r unused
        refine ⟨x, s', d', rest, idle', performed, suits', fun t mem => ?_⟩
        rcases fresh t mem with old | new
        · exact Or.inl old
        · exact Or.inr ⟨⟨r, rfl⟩, new⟩
    obtain ⟨x, s', d', rest, idle', performed, suits', fresh⟩ := last
    obtain ⟨answer, contents⟩ := idle.grown.perform_alike before.grown books suits' suits
    rw [performed, outcome] at answer
    rw [performed] at contents
    refine ⟨outcomes ++ [x], s', ?_, idle', ?_, contents, fun t mem => ?_⟩
    · rw [List.map_append]
      exact Store.serveAll_snoc served rest
    · rw [List.map_append, List.map_append, answers]
      exact congrArg (_ ++ [·]) answer
    · rcases fresh t mem with old | new
      · obtain ⟨e, there, rest⟩ := drawn t old
        exact ⟨e, List.mem_append_left _ there, rest⟩
      · exact ⟨d, by simp, new⟩

namespace System

/-- Identifiers and times for another run of the same calls: wallets get the identifiers by which
transfers name them, and no two transfers draw the same one. -/
structure Supplied (S : System) (supply : CallId → Supply) : Prop where
  wallets : ∀ i id owner kind opening, S.request? i = some (.opening id owner kind opening) →
    (supply i).id = id
  distinct : ∀ i j r q, i ≠ j → S.request? i = some (.transfer r) →
    S.request? j = some (.transfer q) → (supply i).id ≠ (supply j).id

/-- Serves calls of a run once more, one at a time, on a new store without faults. -/
def replay (S : System) (supply : CallId → Supply) (order : List CallId) :
    Option (List Outcome × Store) :=
  ({} : Store).serveAll (order.filterMap fun i => (S.request? i).map (·, supply i))

variable {S : System} {ds : List Deed} {i : CallId}

theorem Ordered.supplied {supply : CallId → Supply} (ordered : S.Ordered ds)
    (supplied : S.Supplied supply) : Deed.Supplied supply ds := by
  constructor
  · intro d mem id owner kind opening request
    exact supplied.wallets d.call id owner kind opening (request ▸ ordered.request? mem)
  · refine (List.pairwise_map.mp ordered.once).imp_of_mem fun {d e} memd meme other => ?_
    intro r q asked asked'
    exact supplied.distinct d.call e.call r q other (asked ▸ ordered.request? memd)
      (asked' ▸ ordered.request? meme)

/-- The calls that the ledger has answered can be put in an order that keeps to real time, and in
which a store that serves one call at a time gives everyone the same answer and comes to the same
contents. -/
theorem Reachable.serialisable (h : S.Reachable) :
    ∃ order : List CallId, order.Nodup ∧ (∀ i, i ∈ order ↔ S.counted i) ∧
      order.Pairwise (fun i j => ¬S.Before j i) ∧
      ∀ supply, S.Supplied supply → ∃ outcomes store,
        S.replay supply order = some (outcomes, store) ∧
        order.map (fun i => (S.outcome? i).map (·.contents)) =
          outcomes.map (fun x => some x.contents) ∧
        store.books.contents = S.store.books.contents := by
  obtain ⟨ds, ordered⟩ := h.ordered
  have reads : ∀ d ∈ ds, S.counted d.call = false → ¬d.outcome.Writes := by
    intro d mem uncounted writes
    rw [ordered.counted_of_writes mem writes] at uncounted
    contradiction
  have performed := ordered.performed.filter (fun d => S.counted d.call) reads
  have kept : ∀ d ∈ ds.filter (fun d => S.counted d.call), d ∈ ds ∧ S.counted d.call := by
    intro d mem
    simpa using mem
  refine ⟨(ds.filter fun d => S.counted d.call).map (·.call), ?_, fun i => ?_, ?_,
    fun supply supplied => ?_⟩
  · exact (List.filter_sublist.map _).nodup ordered.once
  · constructor
    · intro mem
      obtain ⟨d, there, rfl⟩ := List.mem_map.mp mem
      exact (kept d there).2
    · intro counted
      obtain ⟨d, there, rfl⟩ := ordered.covered counted
      exact List.mem_map.mpr ⟨d, List.mem_filter.mpr ⟨there, counted⟩, rfl⟩
  · exact List.pairwise_map.mpr (ordered.timely.filter _)
  · have some := ordered.supplied supplied
    obtain ⟨outcomes, store, served, -, answers, books, -⟩ := performed.serves supply
      ⟨fun d mem => some.wallets d (kept d mem).1, some.distinct.filter _⟩
    refine ⟨outcomes, store, ?_, ?_, books⟩
    · have calls : (ds.filter fun d => S.counted d.call).filterMap
          ((fun i => (S.request? i).map (·, supply i)) ∘ (·.call)) =
          (ds.filter fun d => S.counted d.call).map fun d => (d.request, supply d.call) := by
        apply List.filterMap_eq_map_iff_forall_eq_some.mpr
        intro d mem
        simp only [Function.comp_apply, ordered.request? (kept d mem).1, Option.map_some]
      rw [replay, List.filterMap_map, calls]
      exact served
    · have answers := congrArg (List.map Option.some) answers
      rw [List.map_map, List.map_map] at answers
      rw [List.map_map]
      refine (List.map_congr_left fun d mem => ?_).trans answers.symm
      simp only [Function.comp_apply, ordered.outcome? (kept d mem).1 (kept d mem).2,
        Option.map_some]

theorem supplied_exists (few : S.calls.length ≤ twoTo 128) : ∃ supply, S.Supplied supply := by
  let supply : CallId → Supply := fun i =>
    match S.request? i with
    | some (.opening id _ _ _) => ⟨id.value, .epoch⟩
    | _ => ⟨i, .epoch⟩
  refine ⟨supply, fun i id owner kind opening request => ?_, fun i j r q other asked asked' => ?_⟩
  · simp only [supply, request]
    exact id.ofNat_value
  · have bound : ∀ k, (∃ x, S.request? k = some x) → k < twoTo 128 := by
      rintro k ⟨x, known⟩
      obtain ⟨call, found, -⟩ := Option.map_eq_some_iff.mp known
      exact Nat.lt_of_lt_of_le (List.getElem?_eq_some_iff.mp found).1 few
    simp only [supply, asked, asked']
    intro same
    have values : i % twoTo 128 = j % twoTo 128 := congrArg Identifier.value same
    rw [Nat.mod_eq_of_lt (bound i ⟨_, asked⟩), Nat.mod_eq_of_lt (bound j ⟨_, asked'⟩)] at values
    exact other values

theorem serialisable_race : ∃ S, ({} : System).run? race = some S ∧
    ∃ order supply outcomes store, S.Supplied supply ∧
      S.replay supply order = some (outcomes, store) ∧
      store.books.contents = S.store.books.contents := by
  obtain ⟨S, ran⟩ := Option.isSome_iff_exists.mp race_runs
  have calls : (({} : System).run? race).all fun S => S.calls.length ≤ twoTo 128 := by
    decide +kernel
  obtain ⟨order, -, -, -, replays⟩ := (reachable_run .start ran).serialisable
  obtain ⟨supply, supplied⟩ := supplied_exists (S := S) (by simpa [ran] using calls)
  obtain ⟨outcomes, store, replayed, -, books⟩ := replays supply supplied
  exact ⟨S, ran, order, supply, outcomes, store, supplied, replayed, books⟩

end System

end WalletLedger
