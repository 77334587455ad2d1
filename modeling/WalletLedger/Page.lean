/-!
Pages of a list. Pages count from 1 and hold 1 to 100 items; requests outside that are moved to
the nearest value inside.
-/
namespace WalletLedger

structure PageRequest where
  page : Nat
  perPage : Nat
  deriving DecidableEq, Repr

structure PageMeta where
  page : Nat
  perPage : Nat
  total : Nat
  totalPages : Nat
  deriving DecidableEq, Repr

structure PageResponse (α : Type) where
  data : List α
  info : PageMeta
  deriving DecidableEq, Repr

namespace PageRequest

def defaultPerPage : Nat := 20
def maxPerPage : Nat := 100

def standard : PageRequest := ⟨1, defaultPerPage⟩

def clamped (r : PageRequest) : PageRequest :=
  ⟨max r.page 1, min (max r.perPage 1) maxPerPage⟩

def offset (r : PageRequest) : Nat := (r.clamped.page - 1) * r.clamped.perPage
def limit (r : PageRequest) : Nat := r.clamped.perPage

end PageRequest

/-- Pages needed for `total` items; an empty list has one page. -/
def pageCount (total perPage : Nat) : Nat :=
  if total = 0 then 1 else (total + perPage - 1) / perPage

def PageResponse.of {α : Type} (data : List α) (request : PageRequest) (total : Nat) :
    PageResponse α :=
  let r := request.clamped
  ⟨data, ⟨r.page, r.perPage, total, pageCount total r.perPage⟩⟩

def effectiveLimit (limit : Nat) : Nat :=
  if limit = 0 then PageRequest.defaultPerPage else min limit PageRequest.maxPerPage

end WalletLedger
