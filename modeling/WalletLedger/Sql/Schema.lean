import WalletLedger.Sql.Dialogue

/-!
The tables of the ledger in a database, and the rules that the database keeps on its own. Their
definitions are sent one after the other, and a failure ends the sending.
-/
namespace WalletLedger.Sql

structure Migration where
  name : String
  up : List String
  down : List String

namespace Migration

def send (texts : List String) : Asking Failure Unit :=
  texts.forM fun text => do let _ ← ask (.define text)

def apply (m : Migration) : Asking Failure Unit := send m.up

def revert (m : Migration) : Asking Failure Unit := send m.down

end Migration

namespace Schema

def enumerations : String := "
CREATE TYPE wallet_type AS ENUM ('savings', 'fixed', 'miscellaneous');
CREATE TYPE transaction_type AS ENUM ('transfer', 'payment', 'withdrawal', 'deposit');
CREATE TYPE transaction_status AS ENUM ('pending', 'completed', 'failed');
CREATE TYPE entry_type AS ENUM ('debit', 'credit');
"

def userTable : String := "
CREATE TABLE users (
    id UUID PRIMARY KEY DEFAULT gen_random_uuid(),
    email VARCHAR(255) NOT NULL UNIQUE,
    full_name VARCHAR(255) NOT NULL,
    created_at TIMESTAMPTZ NOT NULL DEFAULT now(),
    updated_at TIMESTAMPTZ NOT NULL DEFAULT now()
);
"

def walletTable : String := "
CREATE TABLE wallets (
    id UUID PRIMARY KEY DEFAULT gen_random_uuid(),
    user_id UUID NOT NULL REFERENCES users(id) ON DELETE RESTRICT,
    wallet_type wallet_type NOT NULL,
    currency VARCHAR(3) NOT NULL,
    balance NUMERIC(28, 8) NOT NULL DEFAULT 0,
    created_at TIMESTAMPTZ NOT NULL DEFAULT now(),
    updated_at TIMESTAMPTZ NOT NULL DEFAULT now(),
    CONSTRAINT chk_wallet_balance_non_negative CHECK (balance >= 0),
    CONSTRAINT chk_wallet_currency_format CHECK (currency ~ '^[A-Z]\x7b3\x7d$'),
    CONSTRAINT uq_wallet_user_type UNIQUE (user_id, wallet_type)
);

CREATE INDEX idx_wallets_user ON wallets(user_id);
"

def transactionTable : String := "
CREATE TABLE transactions (
    id UUID PRIMARY KEY DEFAULT gen_random_uuid(),
    sender_wallet_id UUID NOT NULL REFERENCES wallets(id) ON DELETE RESTRICT,
    receiver_wallet_id UUID NOT NULL REFERENCES wallets(id) ON DELETE RESTRICT,
    amount NUMERIC(28, 8) NOT NULL,
    currency VARCHAR(3) NOT NULL,
    transaction_type transaction_type NOT NULL DEFAULT 'transfer',
    description TEXT,
    status transaction_status NOT NULL DEFAULT 'pending',
    idempotency_key VARCHAR(255) NOT NULL,
    created_at TIMESTAMPTZ NOT NULL DEFAULT now(),
    updated_at TIMESTAMPTZ NOT NULL DEFAULT now(),
    CONSTRAINT uq_transactions_idempotency_key UNIQUE (idempotency_key),
    CONSTRAINT chk_transaction_amount_positive CHECK (amount > 0),
    CONSTRAINT chk_transaction_distinct_wallets CHECK (sender_wallet_id <> receiver_wallet_id)
);

-- History queries cover both directions, newest first
CREATE INDEX idx_transactions_sender ON transactions(sender_wallet_id, created_at DESC);
CREATE INDEX idx_transactions_receiver ON transactions(receiver_wallet_id, created_at DESC);
"

def entryTable : String := "
CREATE TABLE ledger_entries (
    id UUID PRIMARY KEY DEFAULT gen_random_uuid(),
    wallet_id UUID NOT NULL REFERENCES wallets(id) ON DELETE RESTRICT,
    transaction_id UUID NOT NULL REFERENCES transactions(id) ON DELETE RESTRICT,
    amount NUMERIC(28, 8) NOT NULL,
    entry_type entry_type NOT NULL,
    currency VARCHAR(3) NOT NULL,
    balance_before NUMERIC(28, 8) NOT NULL,
    balance_after NUMERIC(28, 8) NOT NULL,
    created_at TIMESTAMPTZ NOT NULL DEFAULT now(),
    CONSTRAINT chk_entry_amount_positive CHECK (amount > 0),
    CONSTRAINT chk_entry_balance_arithmetic CHECK (
        (entry_type = 'debit' AND balance_after = balance_before - amount)
        OR (entry_type = 'credit' AND balance_after = balance_before + amount)
    ),
    CONSTRAINT uq_entry_per_side UNIQUE (transaction_id, entry_type)
);

CREATE INDEX idx_ledger_entries_transaction ON ledger_entries(transaction_id);
CREATE INDEX idx_ledger_entries_wallet ON ledger_entries(wallet_id, created_at DESC);
"

/-- Entries are only ever added, and a completed transaction keeps its status; at commit each new
entry checks that its completed transaction has a debit and a credit of its amount. -/
def triggers : String := "
-- ============================================================
-- FUNCTION: check_transaction_entries
-- A completed transaction has one debit and one credit of its amount
-- ============================================================
CREATE OR REPLACE FUNCTION check_transaction_entries()
RETURNS TRIGGER AS $$
DECLARE
    txn_amount NUMERIC(28, 8);
    txn_status transaction_status;
    total_debit NUMERIC(28, 8);
    total_credit NUMERIC(28, 8);
BEGIN
    SELECT amount, status INTO txn_amount, txn_status
    FROM transactions
    WHERE id = NEW.transaction_id;

    IF txn_status = 'completed' THEN
        SELECT
            COALESCE(SUM(amount) FILTER (WHERE entry_type = 'debit'), 0),
            COALESCE(SUM(amount) FILTER (WHERE entry_type = 'credit'), 0)
        INTO total_debit, total_credit
        FROM ledger_entries
        WHERE transaction_id = NEW.transaction_id;

        IF total_debit <> txn_amount OR total_credit <> txn_amount THEN
            RAISE EXCEPTION 'Transaction % is not balanced. Debit: %, Credit: %, Amount: %',
                NEW.transaction_id, total_debit, total_credit, txn_amount
                USING ERRCODE = 'check_violation';
        END IF;
    END IF;

    RETURN NEW;
END;
$$ LANGUAGE plpgsql;

CREATE CONSTRAINT TRIGGER trg_check_transaction_entries
AFTER INSERT ON ledger_entries
DEFERRABLE INITIALLY DEFERRED
FOR EACH ROW
EXECUTE FUNCTION check_transaction_entries();

-- ============================================================
-- FUNCTION: prevent_ledger_entry_mutation
-- Ledger entries are append-only
-- ============================================================
CREATE OR REPLACE FUNCTION prevent_ledger_entry_mutation()
RETURNS TRIGGER AS $$
BEGIN
    RAISE EXCEPTION 'ledger_entries is append-only'
        USING ERRCODE = 'restrict_violation';
END;
$$ LANGUAGE plpgsql;

CREATE TRIGGER trg_ledger_entries_append_only
BEFORE UPDATE OR DELETE ON ledger_entries
FOR EACH ROW
EXECUTE FUNCTION prevent_ledger_entry_mutation();

-- ============================================================
-- FUNCTION: prevent_terminal_transaction_change
-- Completed and failed transactions never change status again
-- ============================================================
CREATE OR REPLACE FUNCTION prevent_terminal_transaction_change()
RETURNS TRIGGER AS $$
BEGIN
    IF OLD.status <> 'pending' AND NEW.status <> OLD.status THEN
        RAISE EXCEPTION 'Cannot change status of % transaction %', OLD.status, OLD.id
            USING ERRCODE = 'restrict_violation';
    END IF;

    RETURN NEW;
END;
$$ LANGUAGE plpgsql;

CREATE TRIGGER trg_transactions_terminal_status
BEFORE UPDATE ON transactions
FOR EACH ROW
EXECUTE FUNCTION prevent_terminal_transaction_change();
"

def removal : String := "
DROP TABLE IF EXISTS ledger_entries CASCADE;
DROP TABLE IF EXISTS transactions CASCADE;
DROP TABLE IF EXISTS wallets CASCADE;
DROP TABLE IF EXISTS users CASCADE;
DROP FUNCTION IF EXISTS check_transaction_entries();
DROP FUNCTION IF EXISTS prevent_ledger_entry_mutation();
DROP FUNCTION IF EXISTS prevent_terminal_transaction_change();
DROP TYPE IF EXISTS entry_type;
DROP TYPE IF EXISTS transaction_status;
DROP TYPE IF EXISTS transaction_type;
DROP TYPE IF EXISTS wallet_type;
"

def initial : Migration where
  name := "m20261019_000001_initial"
  up := [enumerations, userTable, walletTable, transactionTable, entryTable, triggers]
  down := [removal]

def migrations : List Migration := [initial]

end Schema

end WalletLedger.Sql
