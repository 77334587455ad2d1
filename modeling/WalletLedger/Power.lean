/-! Powers of ten and of two. Numbers of `n` bits are those below `twoTo n`. -/
namespace WalletLedger

def tenTo (n : Nat) : Nat := Nat.pow 10 n

def twoTo (n : Nat) : Nat := Nat.pow 2 n

def signedWord? (n : Int) : Option Int :=
  if -(twoTo 63 : Int) ≤ n ∧ n < twoTo 63 then some n else none

end WalletLedger
