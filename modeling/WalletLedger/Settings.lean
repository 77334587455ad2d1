import WalletLedger.Retry
import WalletLedger.Wire.Field

/-!
Settings by section. Only the database URL has no default. A `SettingsForm` says how the fields of
a section and their values are read from some kind of document.
-/
namespace WalletLedger

structure DatabaseSettings where
  url : String
  maxConnections : Nat := 10
  minConnections : Nat := 1
  connectTimeoutSecs : Nat := 8
  deriving DecidableEq, Repr

structure LedgerSettings where
  transferTimeoutMs : Nat := 5000
  lockTimeoutMs : Nat := 3000
  deriving DecidableEq, Repr

structure RetrySettings where
  attempts : Nat := 3
  baseDelayMs : Nat := 100
  deadlineMs : Nat := 8000
  deriving DecidableEq, Repr

structure LoggingSettings where
  filter : String := "paycore=info,sea_orm=warn"
  json : Bool := false
  deriving DecidableEq, Repr

structure Settings where
  database : DatabaseSettings
  ledger : LedgerSettings := {}
  retry : RetrySettings := {}
  logging : LoggingSettings := {}
  deriving DecidableEq, Repr

def LedgerSettings.transferTimeout (s : LedgerSettings) : TimeSpan := .ofMillis s.transferTimeoutMs
def LedgerSettings.lockTimeout (s : LedgerSettings) : TimeSpan := .ofMillis s.lockTimeoutMs

def RetrySettings.policy (s : RetrySettings) : RetryPolicy :=
  ⟨s.attempts, .ofMillis s.baseDelayMs, .ofMillis s.deadlineMs⟩

def RetryPolicy.standard : RetryPolicy := RetrySettings.policy {}

structure SettingsForm (ν : Type) where
  fields? : List String → ν → Option (List (Option ν))
  text? : ν → Option String
  word32? : ν → Option Nat
  word64? : ν → Option Nat
  flag? : ν → Option Bool

namespace SettingsForm

variable {ν : Type}

def database? (f : SettingsForm ν) (v : ν) : Option DatabaseSettings :=
  match f.fields? ["url", "max_connections", "min_connections", "connect_timeout_secs"] v with
  | some [some url, most, least, timeout] => do
    let d : DatabaseSettings := { url := ← f.text? url }
    some { d with
      maxConnections := ← orDefault? d.maxConnections f.word32? most
      minConnections := ← orDefault? d.minConnections f.word32? least
      connectTimeoutSecs := ← orDefault? d.connectTimeoutSecs f.word64? timeout }
  | _ => none

def ledger? (f : SettingsForm ν) (v : ν) : Option LedgerSettings :=
  match f.fields? ["transfer_timeout_ms", "lock_timeout_ms"] v with
  | some [transfer, lock] => do
    let d : LedgerSettings := {}
    some {
      transferTimeoutMs := ← orDefault? d.transferTimeoutMs f.word64? transfer
      lockTimeoutMs := ← orDefault? d.lockTimeoutMs f.word64? lock }
  | _ => none

def retry? (f : SettingsForm ν) (v : ν) : Option RetrySettings :=
  match f.fields? ["attempts", "base_delay_ms", "deadline_ms"] v with
  | some [attempts, base, deadline] => do
    let d : RetrySettings := {}
    some {
      attempts := ← orDefault? d.attempts f.word32? attempts
      baseDelayMs := ← orDefault? d.baseDelayMs f.word64? base
      deadlineMs := ← orDefault? d.deadlineMs f.word64? deadline }
  | _ => none

def logging? (f : SettingsForm ν) (v : ν) : Option LoggingSettings :=
  match f.fields? ["filter", "json"] v with
  | some [filter, json] => do
    let d : LoggingSettings := {}
    some {
      filter := ← orDefault? d.filter f.text? filter
      json := ← orDefault? d.json f.flag? json }
  | _ => none

def settings? (f : SettingsForm ν) (v : ν) : Option Settings :=
  match f.fields? ["database", "ledger", "retry", "logging"] v with
  | some [some database, ledger, retry, logging] => do
    some {
      database := ← f.database? database
      ledger := ← orDefault? {} f.ledger? ledger
      retry := ← orDefault? {} f.retry? retry
      logging := ← orDefault? {} f.logging? logging }
  | _ => none

end SettingsForm

def Json.settingsForm : SettingsForm Json :=
  ⟨Json.fields?, Json.string?, Json.word32?, Json.word64?, Json.bool?⟩

end WalletLedger
