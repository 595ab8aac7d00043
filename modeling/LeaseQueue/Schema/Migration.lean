import LeaseQueue.Hash.Sha256
import LeaseQueue.Schema.Ddl
import LeaseQueue.Store.Error
import LeaseQueue.Text.Blank
import LeaseQueue.Text.Hex
import LeaseQueue.Text.Utf8
/-! Named schema changes, each recorded with the checksum of its statement when it is applied. A
record whose checksum differs from the shipped one stops everything. -/
namespace LeaseQueue

structure Migration where
  name : String
  sql : String

/-- The hash of the statement without white space at its ends, in hexadecimal digits. -/
def Migration.checksum (m : Migration) : String :=
  Hex.encode (Sha256.hash (Utf8.encode (trimBlank m.sql)))

namespace Schema

/-- The changes that create the queues, in their order. -/
def migrations : List Migration :=
  [⟨"0001_create_groupings", Postgres.createGroupings⟩,
    ⟨"0002_create_primary_work", Postgres.createPrimaryWork⟩,
    ⟨"0003_create_secondary_work", Postgres.createSecondaryWork⟩,
    ⟨"0004_index_primary_work_claim_order", Postgres.indexPrimaryWork⟩,
    ⟨"0005_index_secondary_work_claim_order", Postgres.indexSecondaryWork⟩]

/-- Recorded checksums by the name of the migration. -/
abbrev Recorded := List (String × String)

/-- The migrations that are not recorded, or the first whose recorded checksum differs. -/
def pending (recorded : Recorded) : List Migration → Except MigrationError (List Migration)
  | [] => .ok []
  | m :: rest =>
    match recorded.lookup m.name with
    | none => (pending recorded rest).map (m :: ·)
    | some checksum =>
      if checksum = m.checksum then pending recorded rest
      else .error (.checksumMismatch m.name checksum m.checksum)

end Schema

end LeaseQueue
