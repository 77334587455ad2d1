import WalletLedger.LedgerError
import WalletLedger.Wallet

/-!
Two wallets in the order in which they are locked, the lower identifier first. Transfers in either
direction between two wallets thus queue at the same lock.
-/
namespace WalletLedger

structure WalletPair where
  first : WalletId
  second : WalletId
  first_lt : first < second
  deriving DecidableEq, Repr

namespace WalletPair

def of (a b : WalletId) : Except LedgerError WalletPair :=
  if h : a < b then .ok ⟨a, b, h⟩
  else if h : b < a then .ok ⟨b, a, h⟩
  else .error (.sameWallet a)

def ids (p : WalletPair) : List WalletId := [p.first, p.second]

def contains (p : WalletPair) (id : WalletId) : Bool := p.first = id || p.second = id

def assign (sender receiver : WalletId) :
    Option Wallet → Option Wallet → List Wallet → Except LedgerError (Option Wallet × Option Wallet)
  | s, r, [] => .ok (s, r)
  | s, r, row :: rows =>
    if row.id = sender ∧ s.isNone then assign sender receiver (some row) r rows
    else if row.id = receiver ∧ r.isNone then assign sender receiver s (some row) rows
    else .error (.invariantViolation s!"lock returned unexpected wallet row {row.id.text}")

def resolve (p : WalletPair) (rows : List Wallet) (sender receiver : WalletId) :
    Except LedgerError (Wallet × Wallet) :=
  if sender = receiver ∨ !p.contains sender ∨ !p.contains receiver then
    .error (.invariantViolation
      (s!"transfer {sender.text} -> {receiver.text} does not match locked pair " ++
        s!"{p.first.text} / {p.second.text}"))
  else
    match assign sender receiver none none rows with
    | .error e => .error e
    | .ok (none, _) => .error (.walletNotFound sender)
    | .ok (some _, none) => .error (.walletNotFound receiver)
    | .ok (some s, some r) => .ok (s, r)

end WalletPair

end WalletLedger
