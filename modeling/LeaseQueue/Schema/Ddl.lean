/-! The statements that create the tables and indexes of the work queues, for each kind of database.
Every statement has its own line breaks and can be run again without effect. -/
namespace LeaseQueue.Schema

/-- The kinds of database that hold the queues. -/
inductive Dialect where
  | postgres
  | sqlite
deriving DecidableEq

namespace Postgres

/-- The table of groupings. -/
def createGroupings : String :=
  "\n" ++
  "CREATE TABLE IF NOT EXISTS Groupings (\n" ++
  "    grouping_id BYTEA PRIMARY KEY,\n" ++
  "    keys JSONB NOT NULL\n" ++
  ")\n"

/-- The primary-branch work queue. -/
def createPrimaryWork : String :=
  "\n" ++
  "CREATE TABLE IF NOT EXISTS PrimaryBranchDiffCalculationWork (\n" ++
  "    grouping_id BYTEA PRIMARY KEY,\n" ++
  "    last_calculated_ts TIMESTAMPTZ NOT NULL,\n" ++
  "    calculation_lease_ends TIMESTAMPTZ NOT NULL\n" ++
  ")\n"

/-- The review-branch work queue. -/
def createSecondaryWork : String :=
  "\n" ++
  "CREATE TABLE IF NOT EXISTS SecondaryBranchDiffCalculationWork (\n" ++
  "    branch_name TEXT NOT NULL,\n" ++
  "    grouping_id BYTEA NOT NULL,\n" ++
  "    last_updated_ts TIMESTAMPTZ NOT NULL,\n" ++
  "    digests TEXT[] NOT NULL,\n" ++
  "    last_calculated_ts TIMESTAMPTZ NOT NULL,\n" ++
  "    calculation_lease_ends TIMESTAMPTZ NOT NULL,\n" ++
  "    PRIMARY KEY (branch_name, grouping_id)\n" ++
  ")\n"

/-- The index behind the oldest-first claim of primary-branch work. -/
def indexPrimaryWork : String :=
  "\n" ++
  "CREATE INDEX IF NOT EXISTS idx_primary_work_last_calculated\n" ++
  "    ON PrimaryBranchDiffCalculationWork (last_calculated_ts)\n"

/-- The index behind the oldest-first claims of review-branch work. -/
def indexSecondaryWork : String :=
  "\n" ++
  "CREATE INDEX IF NOT EXISTS idx_secondary_work_last_calculated\n" ++
  "    ON SecondaryBranchDiffCalculationWork (last_calculated_ts)\n"

end Postgres

namespace Sqlite

/-- The table of groupings. -/
def createGroupings : String :=
  "\n" ++
  "CREATE TABLE IF NOT EXISTS Groupings (\n" ++
  "    grouping_id BLOB PRIMARY KEY,\n" ++
  "    keys TEXT NOT NULL\n" ++
  ")\n"

/-- The primary-branch work queue. -/
def createPrimaryWork : String :=
  "\n" ++
  "CREATE TABLE IF NOT EXISTS PrimaryBranchDiffCalculationWork (\n" ++
  "    grouping_id BLOB PRIMARY KEY,\n" ++
  "    last_calculated_ts INTEGER NOT NULL,\n" ++
  "    calculation_lease_ends INTEGER NOT NULL\n" ++
  ")\n"

/-- The review-branch work queue. -/
def createSecondaryWork : String :=
  "\n" ++
  "CREATE TABLE IF NOT EXISTS SecondaryBranchDiffCalculationWork (\n" ++
  "    branch_name TEXT NOT NULL,\n" ++
  "    grouping_id BLOB NOT NULL,\n" ++
  "    last_updated_ts INTEGER NOT NULL,\n" ++
  "    digests TEXT NOT NULL,\n" ++
  "    last_calculated_ts INTEGER NOT NULL,\n" ++
  "    calculation_lease_ends INTEGER NOT NULL,\n" ++
  "    PRIMARY KEY (branch_name, grouping_id)\n" ++
  ")\n"

/-- The index behind the oldest-first claim of primary-branch work. -/
def indexPrimaryWork : String :=
  "\n" ++
  "CREATE INDEX IF NOT EXISTS idx_primary_work_last_calculated\n" ++
  "    ON PrimaryBranchDiffCalculationWork (last_calculated_ts)\n"

/-- The index behind the oldest-first claims of review-branch work. -/
def indexSecondaryWork : String :=
  "\n" ++
  "CREATE INDEX IF NOT EXISTS idx_secondary_work_last_calculated\n" ++
  "    ON SecondaryBranchDiffCalculationWork (last_calculated_ts)\n"

end Sqlite

/-- The statements in the order in which they are run. -/
def statements : Dialect → List String
  | .postgres =>
    [Postgres.createGroupings, Postgres.createPrimaryWork, Postgres.createSecondaryWork,
      Postgres.indexPrimaryWork, Postgres.indexSecondaryWork]
  | .sqlite =>
    [Sqlite.createGroupings, Sqlite.createPrimaryWork, Sqlite.createSecondaryWork,
      Sqlite.indexPrimaryWork, Sqlite.indexSecondaryWork]

/-- The names of the tables. -/
def tables : List String :=
  ["Groupings", "PrimaryBranchDiffCalculationWork", "SecondaryBranchDiffCalculationWork"]

end LeaseQueue.Schema
