import WalletLedger.Proofs.Drafts
import WalletLedger.Proofs.Holding

/-!
What the commit of one transfer and the opening of a wallet leave alone. A transfer under way knows
the rows that it has locked, the key that it has taken and the identifier that it has drawn; others
lock other rows, take other keys and draw other identifiers.
-/
namespace WalletLedger

/-- Books that changed beside a unit: nothing has happened to its rows, to its keys and to the
identifier that it has drawn. -/
structure Beside (b b' : Books) (u : UnitOfWork) (drafted : Option TransactionId) : Prop where
  rows : ∀ id ∈ u.locked, ∀ w, b.wallet? id = some w → b'.wallet? id = some w
  free : ∀ k ∈ u.staged.keys, b.hasKey k = false → b'.hasKey k = false
  taken : ∀ k, b.hasKey k = true → b'.hasKey k = true
  unused : ∀ id, drafted = some id → b.transaction? id = none → b'.transaction? id = none

section
variable {b b' : Books} {r : TransferRequest} {u : UnitOfWork} {s q : Wallet} {d : Draw}
  {t : Transaction} {p : TransferPlan}

theorem Rows.beside {drafted : Option TransactionId} (rows : Rows b r u.locked s q)
    (beside : Beside b b' u drafted) : Rows b' r u.locked s q :=
  ⟨beside.rows _ rows.heldSender _ rows.sender, beside.rows _ rows.heldReceiver _ rows.receiver,
    rows.heldSender, rows.heldReceiver⟩

theorem Writing.beside (writing : Writing b r u.locked d t p) (keys : u.staged.keys = [t.key])
    (beside : Beside b b' u (some t.id)) : Writing b' r u.locked d t p := by
  obtain ⟨s, q, x⟩ := writing.postable
  have taken : r.key ∈ u.staged.keys := by
    rw [keys, x.key_eq]
    exact List.mem_singleton_self _
  have absent : b'.hasKey r.key = false := beside.free _ taken x.absent
  have postable : b'.Postable r d s q t p :=
    ⟨x.valid, beside.rows _ writing.heldSender _ x.sender,
      beside.rows _ writing.heldReceiver _ x.receiver, absent, x.allowed, x.pending, x.planned⟩
  exact ⟨⟨s, q, postable⟩, writing.heldSender, writing.heldReceiver,
    beside.unused _ rfl writing.unused⟩

theorem Work.Sound.beside {w : Work} {entered : Bool} (sound : w.Sound b r u entered)
    (beside : Beside b b' u w.drafted?) : w.Sound b' r u entered := by
  cases w with
  | locking pair => exact sound
  | lookingUp s q => exact ⟨sound.1.beside beside, sound.2⟩
  | inserting s q draft =>
    obtain ⟨rows, staged, allowed, same, status, unused⟩ := sound
    exact ⟨rows.beside beside, staged, allowed, same, status, beside.unused _ rfl unused⟩
  | lookingUpWinner =>
    obtain ⟨⟨s, q, rows⟩, staged, taken⟩ := sound
    exact ⟨⟨s, q, rows.beside beside⟩, staged, beside.taken _ taken⟩
  | debiting id p =>
    obtain ⟨d, t, writing, rfl, staged⟩ := sound
    exact ⟨d, t, writing.beside (congrArg Staged.keys staged) beside, rfl, staged⟩
  | crediting id p =>
    obtain ⟨d, t, writing, rfl, staged⟩ := sound
    exact ⟨d, t, writing.beside (congrArg Staged.keys staged) beside, rfl, staged⟩
  | settingSender id p =>
    obtain ⟨d, t, writing, rfl, staged⟩ := sound
    exact ⟨d, t, writing.beside (congrArg Staged.keys staged) beside, rfl, staged⟩
  | settingReceiver id p =>
    obtain ⟨d, t, writing, rfl, staged⟩ := sound
    exact ⟨d, t, writing.beside (congrArg Staged.keys staged) beside, rfl, staged⟩
  | completing id =>
    obtain ⟨d, t, p, writing, rfl, staged⟩ := sound
    exact ⟨d, t, p, writing.beside (congrArg Staged.keys staged) beside, rfl, staged⟩

end

namespace TransferCall
variable {b b' : Books} {c : TransferCall}

theorem Sound.beside (sound : c.Sound b)
    (beside : ∀ u, c.unit? = some u → Beside b b' u c.drafted?) : c.Sound b' := by
  obtain ⟨r, phase⟩ := c
  refine ⟨sound.valid, ?_⟩
  cases phase with
  | working u w entered => exact Work.Sound.beside sound.phase (beside u rfl)
  | committing u t =>
    obtain ⟨d, pending, p, writing, staged, rfl⟩ := sound.phase
    have written := writing.beside (congrArg Staged.keys staged) (beside u rfl)
    exact ⟨d, pending, p, written, staged, rfl⟩
  | undoing u x => exact sound.phase
  | opening | done x => trivial

theorem Sound.withWallet {w : Wallet} (sound : c.Sound b) (new : b.wallet? w.id = none) :
    c.Sound (b.withWallet w) := by
  refine sound.beside fun u _ =>
    ⟨fun id _ x found => ?_, fun _ _ h => h, fun _ h => h, fun _ _ h => h⟩
  rw [Books.wallet?_withWallet new]
  split
  · rename_i same
    rw [same, found] at new
    contradiction
  · exact found

/-- Posting a transfer leaves every other transfer sound: the rows and the key that it writes are
its own. -/
theorem Sound.post {cs : Claims} {u : UnitOfWork} {r : TransferRequest} {d : Draw} {t : Transaction}
    {p : TransferPlan} (sound : c.Sound b) (claiming : c.Claiming cs) (holds : u.Holds cs)
    (writing : Writing b r u.locked d t p) (key : t.key ∈ u.staged.keys)
    (other : ∀ v, c.unit? = some v → v.id ≠ u.id) (drafted : c.drafted? ≠ some t.id) :
    c.Sound (b.post t p d) := by
  refine sound.beside fun v running => ⟨fun id held w found => ?_, fun k staged absent => ?_,
    fun k taken => ?_, fun id draft unused => ?_⟩
  · have apart : ∀ x ∈ u.locked, w.id ≠ x := by
      rintro x mem rfl
      have mine := (claiming.holds v running).rows id held
      rw [← Books.wallet?_id found] at mine
      exact other v running (Claims.holds_unique mine (holds.rows _ mem))
    obtain ⟨sender, receiver⟩ := writing.wallets_eq
    rw [Books.wallet?_post, found, Option.map_some, Wallet.posted_other]
    · exact sender ▸ apart _ writing.heldSender
    · exact receiver ▸ apart _ writing.heldReceiver
  · have apart : t.key ≠ k := by
      rintro rfl
      have mine := (claiming.holds v running).keys _ staged
      exact other v running (Claims.holds_unique mine (holds.keys _ key))
    simp [Books.hasKey_post, absent, apart]
  · simp [Books.hasKey_post, taken]
  · have apart : t.id ≠ id := by
      rintro rfl
      exact drafted draft
    rw [Books.transaction?_post writing.unused, if_neg apart]
    exact unused

end TransferCall

end WalletLedger
