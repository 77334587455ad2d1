import WalletLedger.Proofs.Lookup

/-!
Who holds a lock. A claim that is made and claims that other units give up leave the holder of a
lock in place, and a lock has one holder.
-/
namespace WalletLedger.Claims
variable {cs : Claims} {u v : UnitId} {r q : Resource}

theorem holds_iff : cs.holds u r = true ↔ cs.holder? r = some u := by
  simp [holds]

theorem holds_unique (hu : cs.holds u r = true) (hv : cs.holds v r = true) : u = v :=
  Option.some.inj ((holds_iff.mp hu).symm.trans (holds_iff.mp hv))

theorem holds_cons (c : Claim) :
    holds (c :: cs) u r = if c.resource = r then decide (c.unit = u) else cs.holds u r := by
  by_cases h : c.resource = r <;> simp [holds, holder?, h]

theorem holds_claim (h : cs.holds u r = true) : (cs.claim v q).holds u r = true := by
  induction cs with
  | nil => simp [holds, holder?] at h
  | cons c cs ih =>
    simp only [claim, List.cons_append] at ih ⊢
    rw [holds_cons] at h ⊢
    split
    · rename_i same
      simpa [same] using h
    · rename_i differs
      exact ih (by simpa [differs] using h)

theorem holds_filter {keep : Claim → Bool} (kept : ∀ c ∈ cs, c.unit = u → c.resource = r → keep c)
    (h : cs.holds u r = true) : Claims.holds (cs.filter keep) u r = true := by
  induction cs with
  | nil => simp [holds, holder?] at h
  | cons c cs ih =>
    have rest : ∀ x ∈ cs, x.unit = u → x.resource = r → keep x := by
      intro x mem
      exact kept x (by simp [mem])
    rw [holds_cons] at h
    by_cases same : c.resource = r
    · have unit : c.unit = u := by simpa [same] using h
      have stays : keep c := kept c (by simp) unit same
      simp only [List.filter_cons, stays, if_true, holds_cons]
      simp [same, unit]
    · have later := ih rest (by simpa [same] using h)
      by_cases stays : keep c
      · simp only [List.filter_cons, stays, if_true, holds_cons]
        simpa [same] using later
      · simpa [List.filter_cons, stays] using later

theorem holds_release (other : u ≠ v) (h : cs.holds u r = true) :
    (cs.release v).holds u r = true :=
  holds_filter (fun c _ unit _ => by simpa [unit] using other) h

theorem holds_withdraw (other : u ≠ v ∨ r ≠ q) (h : cs.holds u r = true) :
    (cs.withdraw v q).holds u r = true := by
  refine holds_filter (fun c _ unit resource => ?_) h
  simp only [unit, resource]
  rcases other with other | other <;> simp [other]

theorem holds_alone (alone : ∀ c ∈ cs, c.unit = u) (mem : ⟨r, u⟩ ∈ cs) : cs.holds u r = true := by
  induction cs with
  | nil => simp at mem
  | cons c cs ih =>
    have unit := alone c (by simp)
    rw [holds_cons]
    split
    · simpa using unit
    · rename_i differs
      have mem : ⟨r, u⟩ ∈ cs := by
        rcases List.mem_cons.mp mem with same | mem
        · exact absurd (by rw [← same]) differs
        · exact mem
      exact ih (fun x hx => alone x (by simp [hx])) mem

structure OwnChange (u : UnitId) (cs cs' : Claims) : Prop where
  holds : ∀ v r, v ≠ u → cs.holds v r = true → cs'.holds v r = true
  kept : ∀ c ∈ cs, c.unit ≠ u → c ∈ cs'
  own : ∀ c ∈ cs', c ∈ cs ∨ c.unit = u

theorem OwnChange.refl (u : UnitId) (cs : Claims) : OwnChange u cs cs :=
  ⟨fun _ _ _ h => h, fun _ h _ => h, fun _ h => Or.inl h⟩

theorem ownChange_claim (u : UnitId) (cs : Claims) (r : Resource) :
    OwnChange u cs (cs.claim u r) := by
  refine ⟨fun v q _ h => holds_claim h, fun c mem _ => by simp [claim, mem], fun c mem => ?_⟩
  rcases List.mem_append.mp mem with mem | mem
  · exact Or.inl mem
  · exact Or.inr (by rw [List.mem_singleton.mp mem])

theorem ownChange_withdraw (u : UnitId) (cs : Claims) (r : Resource) :
    OwnChange u cs (cs.withdraw u r) := by
  refine ⟨fun v q other h => holds_withdraw (Or.inl other) h, fun c mem other => ?_,
    fun c mem => ?_⟩
  · simp [withdraw, mem, other]
  · exact Or.inl (List.mem_filter.mp mem).1

theorem ownChange_release (u : UnitId) (cs : Claims) : OwnChange u cs (cs.release u) := by
  refine ⟨fun v q other h => holds_release other h, fun c mem other => ?_, fun c mem => ?_⟩
  · simp [release, mem, other]
  · exact Or.inl (List.mem_filter.mp mem).1

theorem release_alone (alone : ∀ c ∈ cs, c.unit = u) : cs.release u = [] := by
  simpa [release, List.filter_eq_nil_iff] using alone

theorem mem_claim_self : (⟨r, u⟩ : Claim) ∈ cs.claim u r := by
  simp [claim]

end WalletLedger.Claims
