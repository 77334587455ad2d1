import WalletLedger.Settings

/-! Settings as they are reported in JSON. The timeouts stand there in milliseconds and as spans. -/
namespace WalletLedger

def Json.natural (n : Nat) : Json := integer n

def TimeSpan.toJson (t : TimeSpan) : Json :=
  Json.record [("secs", .natural t.seconds), ("nanos", .natural t.subsecond)]

def DatabaseSettings.toJson (s : DatabaseSettings) : Json :=
  Json.record [("url", .text s.url), ("max_connections", .natural s.maxConnections),
    ("min_connections", .natural s.minConnections),
    ("connect_timeout_secs", .natural s.connectTimeoutSecs)]

def LedgerSettings.toJson (s : LedgerSettings) : Json :=
  Json.record [("transfer_timeout_ms", .natural s.transferTimeoutMs),
    ("lock_timeout_ms", .natural s.lockTimeoutMs),
    ("transfer_timeout", s.transferTimeout.toJson), ("lock_timeout", s.lockTimeout.toJson)]

def RetrySettings.toJson (s : RetrySettings) : Json :=
  Json.record [("attempts", .natural s.attempts), ("base_delay_ms", .natural s.baseDelayMs),
    ("deadline_ms", .natural s.deadlineMs)]

def LoggingSettings.toJson (s : LoggingSettings) : Json :=
  Json.record [("filter", .text s.filter), ("json", .bool s.json)]

def Settings.toJson (s : Settings) : Json :=
  Json.record [("database", s.database.toJson), ("ledger", s.ledger.toJson),
    ("retry", s.retry.toJson), ("logging", s.logging.toJson)]

end WalletLedger
