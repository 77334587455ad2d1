import WalletLedger.Session.Wait

/-!
What a caller does in a session. Each call leaves the session settled: every task is over or waits.
-/
namespace WalletLedger.Session

def openWallet (s : Session) (owner : UserId) (kind : WalletKind) (opening : Money) :
    Except StoreError Wallet × Session :=
  let (r, store) := s.store.openWallet s.supply owner kind opening
  (r, { s with store := store, supply := s.supply.after 1 })

def read (s : Session) (r : StoreRead) : Except StoreError r.Answer × Session :=
  let (a, store) := s.store.read r
  (a, { s with store := store })

def begin (s : Session) : Except StoreError UnitOfWork × Session :=
  let (r, store) := s.store.begin
  (r, { s with store := store })

def commit (s : Session) (u : UnitOfWork) : Except StoreError Unit × Session :=
  let (r, store) := s.store.commit u s.supply.now
  (r, ({ s with supply := s.supply.after 0 }.withStore store).settle)

def discard (s : Session) (u : UnitOfWork) : Session := (s.withStore (s.store.discard u)).settle

def perform (s : Session) (u : UnitOfWork) (op : UnitOp) (wait : TimeSpan) :
    Option (OperationEnd op) × Session :=
  s.await (.operation op) ⟨u, false, s.clock + wait.nanos⟩

def transfer (s : Session) (r : TransferRequest) (limit : TimeSpan) :
    Option TransferResult × Session :=
  s.await .transfer (.start r limit s.clock)

def join (s : Session) (id : TaskId) : Option TransferResult × Session := s.await .task id

def query (s : Session) (p : RetryPolicy) (stage : QueryStage) : Option QueryResult × Session :=
  s.await .query (.start p stage s.clock)

def pass (s : Session) (span : TimeSpan) : Session :=
  (s.await .clock (s.clock + span.nanos)).2

end WalletLedger.Session
