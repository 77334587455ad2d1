import WalletLedger.LedgerError
import WalletLedger.Text.Blank

/-! The token by which repeated attempts of one transfer are recognised. Keys are opaque. -/
namespace WalletLedger

structure IdempotencyKey where
  text : String
  deriving DecidableEq, Repr

namespace IdempotencyKey

def maxBytes : Nat := 255

def check (text : String) : Except LedgerError IdempotencyKey :=
  if blankText text then .error (.invalidKey "key must not be blank")
  else if maxBytes < text.utf8ByteSize then
    .error (.invalidKey s!"key longer than {maxBytes} bytes")
  else .ok ⟨text⟩

end IdempotencyKey

end WalletLedger
