/-! Rows kept under a key, in the order in which their keys first came in. -/
namespace WalletLedger.Table

variable {κ ρ : Type} [DecidableEq κ]

def find? (key : ρ → κ) (k : κ) (rows : List ρ) : Option ρ := rows.find? (key · = k)

def has (key : ρ → κ) (k : κ) (rows : List ρ) : Bool := rows.any (key · = k)

def put (key : ρ → κ) (row : ρ) : List ρ → List ρ
  | [] => [row]
  | r :: rows => if key r = key row then row :: rows else r :: put key row rows

theorem find?_put (key : ρ → κ) (row : ρ) (k : κ) (rows : List ρ) :
    find? key k (put key row rows) = if key row = k then some row else find? key k rows := by
  induction rows with
  | nil => by_cases h : key row = k <;> simp [find?, put, h]
  | cons r rows ih =>
    simp only [find?] at ih
    by_cases h : key r = key row <;> by_cases hk : key row = k <;> by_cases hr : key r = k <;>
      simp_all [find?, put]

end WalletLedger.Table
