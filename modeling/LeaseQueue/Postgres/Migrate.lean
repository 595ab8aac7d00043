import LeaseQueue.Postgres.Column
import LeaseQueue.Postgres.Transaction
import LeaseQueue.Schema.Migration
/-! Applying schema migrations to a server. Each pending one is applied and recorded in a transaction
of its own, so an interruption leaves whole migrations. Several workers may apply them at once. -/
namespace LeaseQueue.Postgres

/-- A record of a migration that was applied. -/
structure AppliedMigration where
  name : String
  checksum : String
  appliedAt : Instant

namespace Statement

def createRecords : Statement where
  sql :=
    "CREATE TABLE IF NOT EXISTS _migrations ( name TEXT PRIMARY KEY, " ++
    "checksum TEXT NOT NULL, applied_at TIMESTAMPTZ NOT NULL DEFAULT NOW() )"
  arguments := []

def selectRecords : Statement where
  sql := "SELECT name, checksum, applied_at FROM _migrations ORDER BY applied_at, name"
  arguments := []

/-- Records a migration. A record that another worker made first stays. -/
def insertRecord (m : Migration) : Statement where
  sql :=
    "INSERT INTO _migrations (name, checksum) VALUES ($1, $2) ON CONFLICT (name) DO NOTHING"
  arguments := [.text m.name, .text m.checksum]

end Statement

/-- A part of a migration run: a session that can fail. -/
abbrev Migrating := Attempt MigrationError

namespace Migrating

def send (statement : Statement) : Migrating Reply := Attempt.send .database statement

def readRecord (row : Row) : Except DatabaseError AppliedMigration := do
  let name ← columnNamed asText "name" row
  let checksum ← columnNamed asText "checksum" row
  let appliedAt ← columnNamed asInstant "applied_at" row
  return { name, checksum, appliedAt }

/-- The recorded migrations in the order in which they were applied. -/
def applied : Migrating (List AppliedMigration) := do
  let _ ← send .createRecords
  let reply ← send .selectRecords
  Attempt.ofRead .database (reply.rows.mapM readRecord)

/-- The checksums by name. Of two records of a name the later one counts. -/
def checksums (records : List AppliedMigration) : Schema.Recorded :=
  records.reverse.map fun record => (record.name, record.checksum)

/-- Applies one migration and records it. -/
def apply (m : Migration) : Migrating Unit :=
  ExceptT.mk (transaction .database [begin] do
    let _ ← Attempt.send (.statementFailed m.name) ⟨m.sql, []⟩
    let _ ← send (.insertRecord m))

def applyAll : List Migration → Migrating Unit
  | [] => pure ()
  | m :: rest => do
    apply m
    applyAll rest

/-- Applies what is pending of a list of migrations and counts it. -/
def applyPending (migrations : List Migration) : Migrating Nat := do
  let _ ← send .createRecords
  let records ← applied
  let pending : List Migration ← ExceptT.mk (.ended (Schema.pending (checksums records) migrations))
  applyAll pending
  return pending.length

end Migrating

end LeaseQueue.Postgres
