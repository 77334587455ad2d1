import WalletLedger.Wire.Record
import WalletLedger.Wire.Row
import WalletLedger.Wire.Settings

/-!
The types of the wire, the sections of the settings, and the enumerations and tables of a database
by name. The form of a type takes what can be read as the type, and writes it the one way in which
values of the type are written.
-/
namespace WalletLedger.Wire

open Json

abbrev Form := Json → Option Json

def through {α : Type} (read? : Json → Option α) (write : α → Json) : Form :=
  fun j => (read? j).map write

def named {α : Type} (ofName? : String → Option α) (name : α → String) : Form :=
  through (choice? ofName?) (fun a => text (name a))

def identifiers : Form := through identifier? (fun id => text id.text)

def forms : List (String × Form) :=
  [("Money", through Money.ofJson? Money.toJson),
    ("Currency", named Currency.ofCode? Currency.code),
    ("UserId", identifiers),
    ("WalletId", identifiers),
    ("PageRequest", through PageRequest.ofJson? PageRequest.toJson),
    ("PageMeta", through PageMeta.ofJson? PageMeta.toJson),
    ("PageResponse", through (PageResponse.ofJson? int64?) (PageResponse.toJson integer)),
    ("EntryType", named EntryKind.ofName? EntryKind.name),
    ("TransactionStatus", named TransactionStatus.ofName? TransactionStatus.name),
    ("TransactionType", named TransferKind.ofName? TransferKind.name),
    ("WalletType", named WalletKind.ofName? WalletKind.name),
    ("IdempotencyKey", through string? text),
    ("Wallet", through Wallet.ofJson? Wallet.toJson),
    ("Transaction", through Transaction.ofJson? Transaction.toJson),
    ("LedgerEntry", through Entry.ofJson? Entry.toJson)]

def lookup {α : Type} (table : List (String × α)) (name : String) : Option α :=
  (table.find? (·.1 = name)).map (·.2)

def form? (type : String) : Option Form := lookup forms type

def sections : List (String × Form) :=
  [("app", through settingsForm.settings? Settings.toJson),
    ("database", through settingsForm.database? DatabaseSettings.toJson),
    ("ledger", through settingsForm.ledger? LedgerSettings.toJson),
    ("retry", through settingsForm.retry? RetrySettings.toJson),
    ("logging", through settingsForm.logging? LoggingSettings.toJson)]

def section? (name : String) : Option Form := lookup sections name

abbrev Choice := String → Except Sql.Failure String

def choice {α : Type} (title : String) (ofName? : String → Option α) (name : α → String) :
    String × Choice :=
  (title, fun s => (Sql.choose title ofName? s).map name)

def choices : List (String × Choice) :=
  [choice "WalletType" WalletKind.ofName? WalletKind.name,
    choice "TransactionType" TransferKind.ofName? TransferKind.name,
    choice "TransactionStatus" TransactionStatus.ofName? TransactionStatus.name,
    choice "EntryType" EntryKind.ofName? EntryKind.name]

def choiceOf? (type : String) : Option Choice := lookup choices type

abbrev Conversion := Json → Option (Except StoreError Json)

def conversion {ρ α : Type} (read? : Json → Option ρ) (convert : ρ → Except StoreError α)
    (write : α → Json) : Conversion :=
  fun j => (read? j).map fun r => (convert r).map write

def conversions : List (String × Conversion) :=
  [("wallets", conversion Sql.WalletRecord.ofJson? (·.toWallet) Wallet.toJson),
    ("transactions",
      conversion Sql.TransactionRecord.ofJson? (·.toTransaction) Transaction.toJson),
    ("ledger_entries", conversion Sql.EntryRecord.ofJson? (·.toEntry) Entry.toJson)]

def conversion? (table : String) : Option Conversion := lookup conversions table

end WalletLedger.Wire
