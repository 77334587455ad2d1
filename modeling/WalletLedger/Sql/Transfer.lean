import WalletLedger.Sql.Unit
import WalletLedger.Transfer.Work

/-!
A transfer as a dialogue with a database. It opens one unit, asks the unit for the stages of the
work, and ends the unit: with its writes if the transfer was made, without them otherwise.
-/
namespace WalletLedger.Sql

def work (r : TransferRequest) (u : DatabaseUnit) (supply : Supply) (w : Work) :
    Dialogue (Conclusion × Supply) :=
  (u.perform supply.now (w.op r)).run.bind fun reply =>
    match _ : w.after r supply reply with
    | .inl next => work r (u.after (w.op r) reply) (supply.after w.draws) next
    | .inr c => .done (c, supply.after w.draws)
termination_by w.rank
decreasing_by exact w.rank_next_lt r supply next reply ‹_›

/-- Whether the unit could be ended without its writes changes nothing about the result. -/
def conclude : Conclusion → Dialogue TransferResult
  | .create t => .say .commit fun
    | .ok _ => .done (.ok (.created t))
    | .error f => .done (.error (.store f.classify))
  | .replay t => .say .rollback fun _ => .done (.ok (.replayed t))
  | .fail e => .say .rollback fun _ => .done (.error e)

def workAndConclude (r : TransferRequest) (u : DatabaseUnit) (supply : Supply) :
    Dialogue (TransferResult × Supply) :=
  match r.work with
  | .inl w => do
    let (c, supply) ← work r u supply w
    return (← conclude c, supply)
  | .inr c => do return (← conclude c, supply)

/-- A request that breaks a rule of its own reaches no database. -/
def transfer (wait : TimeSpan) (r : TransferRequest) (supply : Supply) :
    Dialogue (TransferResult × Supply) :=
  match r.validate with
  | .error e => .done (.error e, supply)
  | .ok () => do
    match ← DatabaseUnit.begin wait with
    | .error e => return (.error (.store e), supply)
    | .ok u => workAndConclude r u supply

end WalletLedger.Sql
