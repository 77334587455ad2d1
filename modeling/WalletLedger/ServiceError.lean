/-! Failures as a service reports them: a kind with a status and a code, and a text. -/
namespace WalletLedger

inductive ServiceErrorKind where
  | notFound | validation | businessRule | conflict | unavailable | timeout | database | internal
  deriving DecidableEq, Repr

structure ServiceError where
  kind : ServiceErrorKind
  detail : String
  deriving DecidableEq, Repr

namespace ServiceErrorKind

def all : List ServiceErrorKind :=
  [notFound, validation, businessRule, conflict, unavailable, timeout, database, internal]

def name : ServiceErrorKind → String
  | notFound => "NotFound"
  | validation => "Validation"
  | businessRule => "BusinessRule"
  | conflict => "Conflict"
  | unavailable => "Unavailable"
  | timeout => "Timeout"
  | database => "Database"
  | internal => "Internal"

def ofName? (s : String) : Option ServiceErrorKind := all.find? (·.name = s)

def title : ServiceErrorKind → String
  | notFound => "Not found"
  | validation => "Validation error"
  | businessRule => "Business rule violation"
  | conflict => "Conflict"
  | unavailable => "Service unavailable"
  | timeout => "Timed out"
  | database => "Database error"
  | internal => "Internal error"

def code : ServiceErrorKind → String
  | notFound => "NOT_FOUND"
  | validation => "VALIDATION_ERROR"
  | businessRule => "BUSINESS_RULE_VIOLATION"
  | conflict => "CONFLICT"
  | unavailable => "SERVICE_UNAVAILABLE"
  | timeout => "TIMEOUT"
  | database => "DATABASE_ERROR"
  | internal => "INTERNAL_ERROR"

def status : ServiceErrorKind → Nat
  | notFound => 404
  | validation => 400
  | businessRule => 422
  | conflict => 409
  | unavailable => 503
  | timeout => 504
  | database | internal => 500

def retryable : ServiceErrorKind → Bool
  | conflict | unavailable | timeout => true
  | _ => false

end ServiceErrorKind

def ServiceError.message (e : ServiceError) : String := s!"{e.kind.title}: {e.detail}"

end WalletLedger
