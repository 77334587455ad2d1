import WalletLedger.Proofs.Agreement
import WalletLedger.Proofs.Deadlock
import WalletLedger.Proofs.DoubleEntry
import WalletLedger.Proofs.KeyIndex
import WalletLedger.Proofs.Protocol
import WalletLedger.Proofs.Readers
import WalletLedger.Proofs.Resubmission
import WalletLedger.Proofs.Verdict
import WalletLedger.Proofs.WalletTable
import WalletLedger.Session.Call
import WalletLedger.Settings.Load
import WalletLedger.Sql.Read
import WalletLedger.Sql.Schema
import WalletLedger.Sql.Transfer
import WalletLedger.Wire.Catalog
import WalletLedger.Wire.Operation
import WalletLedger.Wire.Script
import WalletLedger.Proofs.Parts
import WalletLedger.Proofs.Roles
import WalletLedger.Proofs.Listing
import WalletLedger.Proofs.Repetition
import WalletLedger.Proofs.Asking
import WalletLedger.Proofs.Paging
import WalletLedger.Proofs.Backoff
import WalletLedger.Proofs.Readback
import WalletLedger.Proofs.Surfacing
import WalletLedger.Proofs.Finality
import WalletLedger.Proofs.Refusal
import WalletLedger.Proofs.Precision
import WalletLedger.Proofs.Spelling
import WalletLedger.Proofs.Numeral
import WalletLedger.Proofs.Moment
import WalletLedger.Proofs.Printed
import WalletLedger.Proofs.Transcript
import WalletLedger.Proofs.Faults
