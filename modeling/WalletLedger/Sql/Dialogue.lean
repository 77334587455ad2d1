import WalletLedger.Sql.Statement

/-!
Dialogues with a database: statements, and what follows from each reply. A dialogue is run against
anything that answers statements, so one dialogue can meet a script of replies or a database.
-/
namespace WalletLedger.Sql

structure Outcome where
  rows : List Row := []
  affected : Nat := 1
  deriving DecidableEq, Repr

abbrev Reply := Except Failure Outcome

inductive Dialogue (α : Type) where
  | done (a : α)
  | say (s : Statement) (next : Reply → Dialogue α)

namespace Dialogue

variable {α β σ : Type}

def bind : Dialogue α → (α → Dialogue β) → Dialogue β
  | done a, f => f a
  | say s next, f => say s fun r => (next r).bind f

instance : Monad Dialogue where
  pure := done
  bind := bind

def run (answer : σ → Statement → Reply × σ) : Dialogue α → σ → α × σ
  | done a, c => (a, c)
  | say s next, c =>
    let (r, c) := answer c s
    (next r).run answer c

theorem run_bind (answer : σ → Statement → Reply × σ) (d : Dialogue α) (f : α → Dialogue β)
    (c : σ) : (d.bind f).run answer c = (f (d.run answer c).1).run answer (d.run answer c).2 := by
  induction d generalizing c with
  | done a => rfl
  | say s next ih => simp only [bind, run, ih]

end Dialogue

abbrev Asking (ε α : Type) := ExceptT ε Dialogue α

def ask (s : Statement) : Asking Failure Outcome := ExceptT.mk (.say s .done)

variable {α : Type}

def orFail {ε : Type} (r : Except ε α) : Asking ε α := ExceptT.mk (.done r)

def classified (m : Asking Failure α) : Asking StoreError α := ExceptT.adapt Failure.classify m

/-- A connection that answers from a script and keeps a log. Steps of a transaction take no reply;
when the script is at its end there are no rows, and one row is affected. -/
structure Script where
  replies : List Reply
  log : List Statement := []

namespace Script

def answer (c : Script) (s : Statement) : Reply × Script :=
  let log := c.log ++ [s]
  match s.manner, c.replies with
  | .step _, _ => (.ok {}, { c with log := log })
  | _, [] => (.ok {}, { c with log := log })
  | _, r :: rest => (r, ⟨rest, log⟩)

end Script

end WalletLedger.Sql
