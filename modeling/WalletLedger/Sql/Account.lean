import WalletLedger.Sql.Fetch
import WalletLedger.Supply

/-! Users and the wallets that are opened for them, in a database. -/
namespace WalletLedger.Sql

inductive OpeningError where
  | duplicate (owner : UserId) (kind : WalletKind)
  | negativeBalance (amount : Amount)
  | precision (error : MoneyError)
  | userNotFound (owner : UserId)
  | store (error : StoreError)
  | database (failure : Failure)
  deriving DecidableEq, Repr

namespace OpeningError

def message : OpeningError → String
  | duplicate owner kind => s!"User {owner.text} already has a {kind.title} wallet"
  | negativeBalance amount => s!"Opening balance cannot be negative: {amount.text}"
  | precision error => error.message
  | userNotFound owner => s!"User not found: {owner.text}"
  | store error => error.message
  | database failure => s!"Database error: {failure.message}"

/-- What a wallet that is not inserted comes to: another may have been opened since the owner was
found to have none. -/
def ofInsertion (owner : UserId) (kind : WalletKind) (f : Failure) : OpeningError :=
  if f.breaksUniqueness then duplicate owner kind else database f

def kind : OpeningError → String
  | duplicate _ _ => "Duplicate"
  | negativeBalance _ => "NegativeBalance"
  | precision _ => "Precision"
  | userNotFound _ => "UserNotFound"
  | store _ => "Store"
  | database _ => "Database"

end OpeningError

def checkOpening (opening : Money) : Except OpeningError Unit :=
  if opening.amount.IsNegative then .error (.negativeBalance opening.amount)
  else opening.checkScale.mapError .precision

def openWallet (supply : Supply) (owner : UserId) (kind : WalletKind) (opening : Money) :
    Asking OpeningError Wallet := do
  let failing {α : Type} (m : Asking Failure α) := ExceptT.adapt OpeningError.database m
  orFail (checkOpening opening)
  if (← failing (first UserRecord.ofRow (.selectUser owner))).isNone then
    throw (.userNotFound owner)
  if (← failing (first WalletRecord.ofRow (.selectWalletOfKind owner kind))).isSome then
    throw (.duplicate owner kind)
  let wallet : Wallet :=
    ⟨supply.id, owner, kind, opening.currency, opening.amount, supply.now, supply.now⟩
  let row ← ExceptT.adapt (.ofInsertion owner kind)
    (inserted WalletRecord.ofRow (.insertWallet wallet))
  orFail (row.toWallet.mapError .store)

def walletsOf (owner : UserId) : Asking StoreError (List Wallet) :=
  allAs WalletRecord.ofRow WalletRecord.toWallet (.selectWalletsOf owner)

def userByEmail (email : String) : Asking Failure (Option UserRecord) :=
  first UserRecord.ofRow (.selectUserByEmail email)

def userById (id : UserId) : Asking Failure (Option UserRecord) :=
  first UserRecord.ofRow (.selectUser id)

def createUser (supply : Supply) (email fullName : String) : Asking Failure UserRecord :=
  inserted UserRecord.ofRow
    (.insertUser ⟨supply.id, email, fullName, .ofUtc supply.now, .ofUtc supply.now⟩)

end WalletLedger.Sql
