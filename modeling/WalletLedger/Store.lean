import WalletLedger.Store.Unit
import WalletLedger.Supply

/-! Opening wallets in the store, and reading what is committed. -/
namespace WalletLedger.Store

def checkOpening (s : Store) (owner : UserId) (kind : WalletKind) (opening : Money) :
    Except StoreError Unit :=
  if opening.amount.IsNegative then .error (.constraint "chk_wallet_balance_non_negative")
  else match opening.checkScale with
    | .error e => .error (.constraint e.message)
    | .ok () =>
      if (owner, kind) ∈ s.books.owners then .error (.constraint "uq_wallet_user_type") else .ok ()

def openWallet (s : Store) (supply : Supply) (owner : UserId) (kind : WalletKind)
    (opening : Money) : Except StoreError Wallet × Store :=
  match s.checkOpening owner kind opening with
  | .error e => (.error e, s)
  | .ok () =>
    let wallet : Wallet :=
      ⟨supply.id, owner, kind, opening.currency, opening.amount, supply.now, supply.now⟩
    (.ok wallet, { s with books := { s.books with
      wallets := Table.put Wallet.id wallet s.books.wallets
      owners := s.books.owners ++ [(owner, kind)] } })

def inject (s : Store) (f : Fault) : Store := { s with faults := s.faults ++ [f] }

def clearFaults (s : Store) : Store := { s with faults := [] }

def answer (b : Books) : (r : StoreRead) → r.Answer
  | .wallet id => b.wallet? id
  | .transaction id => b.transaction? id
  | .transactionByKey key => b.transactionByKey? key
  | .transactions wallet limit offset => ((b.history wallet).drop offset).take limit
  | .transactionCount wallet => (b.transactions.filter (·.involves wallet)).length
  | .entries transaction => b.entriesOf transaction

def read (s : Store) (r : StoreRead) : Except StoreError r.Answer × Store :=
  match s.strike .read with
  | (some e, s) => (.error e, s)
  | (none, s) => (.ok (answer s.books r), s)

end WalletLedger.Store
