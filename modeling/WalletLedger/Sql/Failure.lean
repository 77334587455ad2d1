import WalletLedger.StoreError

/-!
Failures of statements and connections, as the database layer reports them, and what they mean to
the ledger. The five characters of an SQLSTATE decide where the database gives one.
-/
namespace WalletLedger.Sql

/-- What the driver of the connection reports. What PostgreSQL itself reports is told from what
another database does, and always has an SQLSTATE. -/
inductive DriverFailure where
  | postgres (state detail : String)
  | database (state : Option String) (detail : String)
  | io (detail : String)
  | tls (detail : String)
  | poolTimedOut
  | poolClosed
  | workerCrashed
  | rowNotFound
  | protocol (detail : String)
  | columnNotFound (name : String)
  /-- Anything else that the driver puts into words. -/
  | other (text : String)
  deriving DecidableEq, Repr

inductive Cause where
  | internal (detail : String)
  | driver (failure : DriverFailure)
  deriving DecidableEq, Repr

inductive Doing where
  | connecting | executing | querying
  deriving DecidableEq, Repr

inductive Failure where
  | raised (doing : Doing) (cause : Cause)
  | acquireTimedOut
  | acquireClosed
  | recordNotFound (detail : String)
  | custom (detail : String)
  | type (detail : String)
  | json (detail : String)
  | migration (detail : String)
  | attributeNotSet (name : String)
  | recordNotInserted
  | recordNotUpdated
  | noInsertId
  /-- Anything else that the layer puts into words. -/
  | other (text : String)
  deriving DecidableEq, Repr

def DriverFailure.message : DriverFailure → String
  | postgres _ detail | database _ detail => s!"error returned from database: {detail}"
  | io detail => s!"error communicating with database: {detail}"
  | tls detail => s!"error occurred while attempting to establish a TLS connection: {detail}"
  | poolTimedOut => "pool timed out while waiting for an open connection"
  | poolClosed => "attempted to acquire a connection on a closed pool"
  | workerCrashed => "attempted to communicate with a crashed background worker"
  | rowNotFound => "no rows returned by a query that expected to return at least one row"
  | protocol detail => s!"encountered unexpected or invalid data: {detail}"
  | columnNotFound name => s!"no column found for name: {name}"
  | other text => text

def Cause.message : Cause → String
  | internal detail => detail
  | driver failure => failure.message

def Doing.title : Doing → String
  | connecting => "Connection Error"
  | executing => "Execution Error"
  | querying => "Query Error"

def Failure.message : Failure → String
  | raised doing cause => s!"{doing.title}: {cause.message}"
  | acquireTimedOut => "Failed to acquire connection from pool: Connection pool timed out"
  | acquireClosed => "Failed to acquire connection from pool: Connection closed"
  | recordNotFound detail => s!"RecordNotFound Error: {detail}"
  | custom detail => s!"Custom Error: {detail}"
  | type detail => s!"Type Error: {detail}"
  | json detail => s!"Json Error: {detail}"
  | migration detail => s!"Migration Error: {detail}"
  | attributeNotSet name => s!"Attribute {name} is NotSet"
  | recordNotInserted => "None of the records are inserted"
  | recordNotUpdated => "None of the records are updated"
  | noInsertId => "Failed to unpack last_insert_id"
  | other text => text

/-- States of a transaction that lost to others, and may win when it is tried again. -/
def contentionStates : List String := ["40P01", "40001", "55P03", "57014"]

/-- States of a server that has too many connections or goes down. -/
def overloadStates : List String := ["53300", "57P01", "57P02", "57P03"]

/-- What an SQLSTATE means: classes `08` and `23` are connections and constraints. -/
def ofState (state detail : String) : StoreError :=
  if state ∈ contentionStates then .contention detail
  else if state ∈ overloadStates then .connection detail
  else if ['0', '8'].isPrefixOf state.toList then .connection detail
  else if ['2', '3'].isPrefixOf state.toList then .constraint detail
  else .backend detail

def DriverFailure.classify (detail : String) : DriverFailure → StoreError
  | postgres state _ | database (some state) _ => ofState state detail
  | io _ | tls _ | poolTimedOut | poolClosed | workerCrashed => .connection detail
  | database none _ | rowNotFound | protocol _ | columnNotFound _ | other _ => .backend detail

def Failure.classify (f : Failure) : StoreError :=
  match f with
  | acquireTimedOut | acquireClosed => .connection f.message
  | raised _ (.driver failure) => failure.classify f.message
  | raised .connecting (.internal _) => .connection f.message
  | _ => .backend f.message

/-- A statement would have put the same value into a unique column twice. Only PostgreSQL's own
report is read for this. -/
def Failure.breaksUniqueness : Failure → Bool
  | raised .executing (.driver (.postgres state _)) | raised .querying (.driver (.postgres state _)) =>
    state == "23505"
  | _ => false

end WalletLedger.Sql
