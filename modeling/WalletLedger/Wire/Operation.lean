import WalletLedger.Operation
import WalletLedger.Wire.Record

/-! Answers of stores in JSON. A record that was not found is null. -/
namespace WalletLedger

namespace Json

def ofOption {α : Type} (write : α → Json) (a : Option α) : Json := (a.map write).getD null

def ofList {α : Type} (write : α → Json) (as : List α) : Json := array (as.map write)

end Json

open Json

def UnitOp.answerJson : (op : UnitOp) → op.Answer → Json
  | lockWallets _, rows => ofList Wallet.toJson rows
  | findByKey _, found => ofOption Transaction.toJson found
  | insertTransaction _, .inserted t => record [("inserted", t.toJson)]
  | insertTransaction _, .duplicateKey => .text "duplicate_key"
  | insertEntry _, e => Entry.toJson e
  | setBalance _ _, _ => null
  | setStatus _ _, t => Transaction.toJson t

def StoreRead.answerJson : (r : StoreRead) → r.Answer → Json
  | wallet _, found => ofOption Wallet.toJson found
  | transaction _, found => ofOption Transaction.toJson found
  | transactionByKey _, found => ofOption Transaction.toJson found
  | transactions _ _ _, found => ofList Transaction.toJson found
  | transactionCount _, n => integer (n : Nat)
  | entries _, found => ofList Entry.toJson found

end WalletLedger
