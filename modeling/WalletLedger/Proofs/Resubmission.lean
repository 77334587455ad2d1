import WalletLedger.Proofs.Discipline
import WalletLedger.Proofs.Serial

/-!
A transfer on a store that no unit is open in, whatever clients have written to it before and
whatever faults wait in it. It creates a transaction or leaves the books exactly as they are, and no
lock stays behind. So a transfer that failed has left nothing that a second submission could stumble
over: it comes to what the first one would have come to without the faults. Nobody stands in its
way, so it never waits, and no deadline ends it.
-/
namespace WalletLedger

theorem Books.transfer_keeps (b : Books) (r : TransferRequest) (d : Draw) :
    (∃ t, (b.transfer r d).1 = .ok (.created t)) ∨ (b.transfer r d).2 = b := by
  unfold transfer
  cases b.settle r d with
  | post t p => exact Or.inl ⟨_, rfl⟩
  | reject e | replay t => exact Or.inr rfl

theorem Clients.Sound.unclaimed {K : Clients} (sound : K.Sound) (idle : K.live = []) :
    K.store.claims = [] := by
  refine List.eq_nil_iff_forall_not_mem.mpr fun claim mem => ?_
  obtain ⟨c, there, -⟩ := sound.claimed claim.resource claim.unit mem
  rw [idle] at there
  contradiction

namespace TransferCall
variable {s s' : Store} {supply again first : Supply} {r : TransferRequest} {x : TransferResult}

theorem finishes_start (coherent : s.books.Coherent) (unclaimed : s.claims = [])
    (r : TransferRequest) (unused : s.books.transaction? supply.id = none) :
    ∃ x s', (start r).finish s supply = some (x, s') ∧ s'.claims = [] ∧
      ((∃ t, x = .ok (.created t)) ∨ s'.books = s.books) ∧
      (s.faults = [] → s'.faults = [] ∧
        ∃ d, s.books.transfer r d = (x, s'.books) ∧ (Request.transfer r).Suits s.books d) := by
  obtain ⟨x, s', finished, calm, released, ends⟩ :=
    (alone_start coherent unclaimed r unused).finishes
  refine ⟨x, s', finished, released, ?_⟩
  -- The call is decided as on the books alone, unless a fault strikes it; then it is taken back.
  rcases ends.of_start with ⟨d, result, suits, -⟩ | ⟨faulty, ⟨e, failed⟩, same⟩
  · refine ⟨?_, fun none => ⟨calm none, d, result, suits⟩⟩
    have keeps := s.books.transfer_keeps r d
    rw [result] at keeps
    exact keeps
  · exact ⟨Or.inr same, fun none => absurd none faulty⟩

/-- Two stores without faults that hold the same books make the same of a transfer, up to the
identifiers and times that are drawn. -/
theorem finishes_alike (calm : s.faults = []) (calm' : s'.faults = [])
    (coherent : s.books.Coherent) (same : s'.books = s.books) (unclaimed : s.claims = [])
    (unclaimed' : s'.claims = []) (r : TransferRequest)
    (unused : s.books.transaction? first.id = none)
    (unused' : s.books.transaction? again.id = none) : ∃ y t z u,
    (start r).finish s' again = some (y, t) ∧ (start r).finish s first = some (z, u) ∧
    (Outcome.transferred y).contents = (Outcome.transferred z).contents ∧
    t.books.contents = u.books.contents ∧ t.claims = u.claims ∧ t.faults = u.faults := by
  obtain ⟨y, t, second, released, -, performs⟩ :=
    finishes_start (same ▸ coherent) unclaimed' r (same ▸ unused')
  obtain ⟨z, u, once, released', -, performs'⟩ := finishes_start coherent unclaimed r unused
  obtain ⟨quiet, d, result, suits⟩ := performs calm'
  obtain ⟨quiet', d', result', suits'⟩ := performs' calm
  obtain ⟨results, books⟩ := Books.Coherent.transfer_alike (same ▸ coherent) coherent
    (congrArg Books.contents same) suits suits'
  rw [result, result'] at results books
  exact ⟨y, t, z, u, second, once, congrArg Sum.inr results, books, released.trans released'.symm,
    quiet.trans quiet'.symm⟩

end TransferCall

namespace Clients
variable {K : Clients} {supply : Supply}

/-- Whatever clients have done before, as long as no unit is open: a transfer creates a transaction
or changes nothing, no lock stays held, and one that failed can be submitted again without faults
as if it had never been submitted. -/
theorem Reachable.resubmission (h : K.Reachable) (idle : K.live = []) (r : TransferRequest)
    (faults : List Fault) (unused : K.store.books.transaction? supply.id = none) :
    ∃ x s', (TransferCall.start r).finish { K.store with faults := faults } supply = some (x, s') ∧
      s'.claims = [] ∧ ((∃ t, x = .ok (.created t)) ∨ s'.books = K.store.books) ∧
      ∀ e, x = .error e → ∀ again first : Supply,
        K.store.books.transaction? again.id = none → K.store.books.transaction? first.id = none →
        ∃ y t z u, (TransferCall.start r).finish s'.clearFaults again = some (y, t) ∧
          (TransferCall.start r).finish K.store.clearFaults first = some (z, u) ∧
          (Outcome.transferred y).contents = (Outcome.transferred z).contents ∧
          t.books.contents = u.books.contents ∧ t.claims = u.claims ∧ t.faults = u.faults := by
  have coherent := h.sound.coherent
  have unclaimed := h.sound.unclaimed idle
  obtain ⟨x, s', finished, released, kept, -⟩ :=
    TransferCall.finishes_start (s := { K.store with faults := faults }) coherent unclaimed r unused
  refine ⟨x, s', finished, released, kept, ?_⟩
  rintro e rfl again first unused' unused''
  have calm : K.store.clearFaults.faults = [] := rfl
  have calm' : s'.clearFaults.faults = [] := rfl
  have same : s'.books = K.store.books := by
    rcases kept with ⟨t, created⟩ | same
    · contradiction
    · exact same
  exact TransferCall.finishes_alike calm calm' coherent same unclaimed released r unused'' unused'

/-- A unit is dropped with one wallet locked while it waits for the other. -/
def dropped : List ClientEvent :=
  opening ++ [.begin, .enter 0 .epoch (.lockWallets pair), .resume 0 .epoch, .discard 0]

/-- A transfer that fails at the second balance, with all its writes staged, is made after all when
it is submitted again. -/
theorem resubmission_dropped : ∃ K x s' y t, ({} : Clients).run? dropped = some K ∧
    (TransferCall.start (rent "rent")).finish
      { K.store with faults := [⟨.setBalance, 1, .contention "busy"⟩] } ⟨3, .epoch⟩ = some (x, s') ∧
    s'.claims = [] ∧ s'.books = K.store.books ∧
    (TransferCall.start (rent "rent")).finish s'.clearFaults ⟨6, .epoch⟩ = some (y, t) ∧
    t.books.contents.transfers = [⟨rent "rent", .completed⟩] := by
  let faults : List Fault := [⟨.setBalance, 1, .contention "busy"⟩]
  have facts : (({} : Clients).run? dropped).any (fun K =>
      K.live.isEmpty && K.store.books.transactions.isEmpty &&
      ((TransferCall.start (rent "rent")).finish { K.store with faults := faults } ⟨3, .epoch⟩).any
        (fun x => !x.1.isOk) &&
      ((TransferCall.start (rent "rent")).finish K.store.clearFaults ⟨3, .epoch⟩).any
        (fun z => z.2.books.contents.transfers = [⟨rent "rent", .completed⟩])) = true := by
    decide +kernel
  obtain ⟨K, ran, found⟩ := (Option.any_eq_true _ _).mp facts
  simp only [Bool.and_eq_true, List.isEmpty_iff, Option.any_eq_true, decide_eq_true_eq,
    Bool.not_eq_true'] at found
  obtain ⟨⟨⟨idle, empty⟩, failing, failed, error⟩, made, once, transfers⟩ := found
  have unused : ∀ id, K.store.books.transaction? id = none := by
    intro id
    rw [Books.transaction?, empty]
    rfl
  obtain ⟨x, s', finished, released, kept, resubmitted⟩ :=
    (reachable_of_run .start ran).resubmission idle (rent "rent") faults (unused _)
  cases failed.symm.trans finished
  cases x with
  | ok x => contradiction
  | error e =>
    obtain ⟨y, t, z, u, second, once', -, contents, -⟩ :=
      resubmitted e rfl ⟨6, .epoch⟩ ⟨3, .epoch⟩ (unused _) (unused _)
    cases once.symm.trans once'
    refine ⟨K, _, s', y, t, ran, finished, released, ?_, second, ?_⟩
    · rcases kept with ⟨t, created⟩ | same
      · contradiction
      · exact same
    · rw [contents]
      exact transfers

end Clients

end WalletLedger
