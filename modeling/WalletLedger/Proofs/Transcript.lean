import WalletLedger.Proofs.Moment
import WalletLedger.Proofs.Printed
import WalletLedger.Wire.Record

/-!
The JSON text of the ledger's records. What a record is written as is read back as that record,
whatever its texts hold and whatever the scales of its amounts are, and amounts are strings there.
-/
namespace WalletLedger

namespace Json
variable {members : List (String × Json)}

theorem Legible.record (each : ∀ m ∈ members, Legible m.2) : Legible (record members) := by
  refine Legible.object (fun m mem => ?_) fun m mem => ?_
  all_goals obtain ⟨member, inside, rfl⟩ := List.mem_map.mp mem
  · rfl
  · exact each member inside

theorem filter_record (distinct : (members.map Prod.fst).Nodup) {m : String × Json}
    (mem : m ∈ members) :
    (members.map fun m => (some m.1, m.2)).filter (·.1 = some m.1) = [(some m.1, m.2)] := by
  induction members with
  | nil => nomatch mem
  | cons k ks ih =>
    obtain ⟨other, rest⟩ := List.nodup_cons.mp distinct
    rcases List.mem_cons.mp mem with rfl | later
    · have none_ : (ks.map fun k => (some k.1, k.2)).filter (·.1 = some m.1) = [] := by
        rw [List.filter_eq_nil_iff]
        intro member inside
        obtain ⟨k, among, rfl⟩ := List.mem_map.mp inside
        simp only [Option.some.injEq, decide_eq_true_eq]
        exact fun same => other (List.mem_map.mpr ⟨k, among, same⟩)
      rw [List.map_cons, List.filter_cons_of_pos (by simp), none_]
    · have apart : k.1 ≠ m.1 := fun same => other (List.mem_map.mpr ⟨m, later, same.symm⟩)
      rw [List.map_cons, List.filter_cons_of_neg (by simpa using apart), ih rest later]

theorem fields?_record (distinct : (members.map Prod.fst).Nodup) (chosen : List (String × Json))
    (among : ∀ m ∈ chosen, m ∈ members) :
    (record members).fields? (chosen.map Prod.fst) = some (chosen.map fun m => some m.2) := by
  have named : (members.map fun m => (some m.1, m.2)).all (fun m => m.1.isSome) = true := by simp
  rw [record, fields?, if_pos named]
  induction chosen with
  | nil => rfl
  | cons m ms ih =>
    have first := filter_record distinct (among m List.mem_cons_self)
    have rest := ih fun i mem => among i (List.mem_cons_of_mem _ mem)
    rw [List.map_cons, List.mapM_cons, rest, first]
    rfl

theorem identifier?_text (id : Identifier) : identifier? (.text id.text) = some id := by
  rw [identifier?, string?, Option.bind_some, Identifier.ofText?, Identifier.text,
    String.toList_ofList, Identifier.read?_toChars]

theorem timestamp?_text {t : Timestamp} (writable : t.Rfc3339) :
    timestamp? (.text t.text) = some t := by
  rw [timestamp?, string?, Option.bind_some, Timestamp.ofText?, Timestamp.text,
    String.toList_ofList, Timestamp.read?_toChars writable]

theorem amount?_text (a : Amount) : amount? (.text a.text) = some a := by
  rw [amount?, Amount.text, String.toList_ofList, Amount.read?_toChars, Option.orElse_some]

theorem choice?_code (c : Currency) : choice? Currency.ofCode? (.text c.code) = some c :=
  Currency.ofCode?_code c

theorem choice?_walletKind (k : WalletKind) :
    choice? WalletKind.ofName? (.text k.name) = some k := by
  cases k <;> rfl

theorem choice?_transferKind (k : TransferKind) :
    choice? TransferKind.ofName? (.text k.name) = some k := by
  cases k <;> rfl

theorem choice?_status (s : TransactionStatus) :
    choice? TransactionStatus.ofName? (.text s.name) = some s := by
  cases s <;> rfl

theorem choice?_entryKind (k : EntryKind) : choice? EntryKind.ofName? (.text k.name) = some k := by
  cases k <;> rfl

end Json

open Json

/-- The text of `a` is JSON from which `a` is read, with strings for its amounts. -/
def ReadsBack {α : Type} (toJson : α → Json) (ofJson? : Json → Option α)
    (amounts : List (String × Amount)) (a : α) : Prop :=
  ∃ j, Json.ofText? (toJson a).toText = some j ∧ ofJson? j = some a ∧
    ∀ m ∈ amounts, j.fields? [m.1] = some [some (.text m.2.text)]

theorem ReadsBack.of_record {α : Type} {toJson : α → Json} {ofJson? : Json → Option α}
    {amounts : List (String × Amount)} {a : α} {members : List (String × Json)}
    (written : toJson a = record members) (distinct : (members.map Prod.fst).Nodup)
    (each : ∀ m ∈ members, Legible m.2)
    (strings : ∀ m ∈ amounts, (m.1, Json.text m.2.text) ∈ members)
    (read : (record members).fields? (members.map Prod.fst) = some (members.map fun m => some m.2) →
      ofJson? (record members) = some a) : ReadsBack toJson ofJson? amounts a := by
  refine ⟨record members, ?_, read (fields?_record distinct _ fun _ mem => mem), fun m mem => ?_⟩
  · rw [written, ofText?_toText (.record each)]
  · refine fields?_record distinct [(m.1, Json.text m.2.text)] fun member inside => ?_
    rw [List.mem_singleton.mp inside]
    exact strings m mem

theorem Money.readsBack (m : Money) : ReadsBack toJson ofJson? [("amount", m.amount)] m := by
  refine .of_record rfl (show ["amount", "currency"].Nodup by decide) (by simp [Legible.text])
    (by simp) fun fields => ?_
  simp only [List.map_cons, List.map_nil] at fields
  rw [ofJson?, fields]
  simp [need?, amount?_text, choice?_code]

theorem Wallet.readsBack {w : Wallet} (created : w.createdAt.Rfc3339)
    (updated : w.updatedAt.Rfc3339) : ReadsBack toJson ofJson? [("balance", w.balance)] w := by
  refine .of_record rfl (show fieldNames.Nodup by decide) (by simp [Legible.text])
    (by simp) fun fields => ?_
  simp only [List.map_cons, List.map_nil] at fields
  rw [ofJson?, fieldNames, fields]
  simp [need?, identifier?_text, choice?_walletKind, choice?_code, amount?_text,
    timestamp?_text created, timestamp?_text updated]

theorem Transaction.readsBack {t : Transaction} (created : t.createdAt.Rfc3339)
    (updated : t.updatedAt.Rfc3339) : ReadsBack toJson ofJson? [("amount", t.amount)] t := by
  refine .of_record rfl (show fieldNames.Nodup by decide) ?_ (by simp) fun fields => ?_
  · cases t.description <;> simp [Legible.text, Legible.null]
  · simp only [List.map_cons, List.map_nil] at fields
    rw [ofJson?, fieldNames, fields]
    obtain ⟨⟨⟨sender, receiver, amount, currency, kind, description, key⟩, id, status⟩, _, _⟩ := t
    cases description <;>
      simp [need?, optional?, identifier?_text, amount?_text, choice?_code, choice?_transferKind,
        choice?_status, string?, timestamp?_text created, timestamp?_text updated]

theorem Entry.readsBack {e : Entry} (created : e.createdAt.Rfc3339) :
    ReadsBack toJson ofJson?
      [("amount", e.amount), ("balance_before", e.before), ("balance_after", e.after)] e := by
  refine .of_record rfl (show fieldNames.Nodup by decide) (by simp [Legible.text])
    (by simp) fun fields => ?_
  simp only [List.map_cons, List.map_nil] at fields
  rw [ofJson?, fieldNames, fields]
  simp [need?, identifier?_text, amount?_text, choice?_entryKind, choice?_code,
    timestamp?_text created]

/-- Money, wallets, transfers and entries come back from their text as they were, whatever stands in
them, if the format of the timestamps has a text for theirs. -/
theorem records_read_back :
    (∀ m : Money, ReadsBack Money.toJson Money.ofJson? [("amount", m.amount)] m) ∧
    (∀ w : Wallet, w.createdAt.Rfc3339 → w.updatedAt.Rfc3339 →
      ReadsBack Wallet.toJson Wallet.ofJson? [("balance", w.balance)] w) ∧
    (∀ t : Transaction, t.createdAt.Rfc3339 → t.updatedAt.Rfc3339 →
      ReadsBack Transaction.toJson Transaction.ofJson? [("amount", t.amount)] t) ∧
    (∀ e : Entry, e.createdAt.Rfc3339 →
      ReadsBack Entry.toJson Entry.ofJson?
        [("amount", e.amount), ("balance_before", e.before), ("balance_after", e.after)] e) :=
  ⟨Money.readsBack, fun _ => Wallet.readsBack, fun _ => Transaction.readsBack,
    fun _ => Entry.readsBack⟩

/-- A transfer of nothing with all the fraction digits there can be, made in a leap second, and with
texts that need escapes of both kinds. -/
theorem Transaction.escaped_reads_back : ∃ t : Transaction, t.amount.scale = 28 ∧
    t.description = some "\x07\"\\é" ∧ t.key = ⟨"\n"⟩ ∧ tenTo 9 ≤ t.createdAt.nano ∧
    t.createdAt.Rfc3339 ∧ t.updatedAt.Rfc3339 ∧
    ReadsBack toJson ofJson? [("amount", t.amount)] t := by
  obtain ⟨leap, late, writable⟩ : ∃ t : Timestamp, tenTo 9 ≤ t.nano ∧ t.Rfc3339 :=
    ⟨⟨⟨2016, 12, 31, by decide, by decide, by decide, by decide⟩, 86399, 1500000000, by decide,
      by decide⟩, by decide, by decide⟩
  have epoch : Timestamp.epoch.Rfc3339 := by decide
  exact ⟨⟨⟨⟨.ofNat 1, .ofNat 2, ⟨0, 28, by decide, by decide⟩, .usd, .payment,
    some "\x07\"\\é", ⟨"\n"⟩⟩, .ofNat 3, .pending⟩, leap, .epoch⟩, rfl, rfl, rfl, late, writable,
    epoch, records_read_back.2.2.1 _ writable epoch⟩

end WalletLedger
