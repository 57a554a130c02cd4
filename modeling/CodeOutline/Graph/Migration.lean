/-!
# Migrations

The schema of a database grows by numbered migrations. Those above the greatest version applied so far
are applied in order, and each is recorded.
-/

namespace CodeOutline.Graph

/-- The tables of a database and the versions recorded in it, in the order of recording. -/
structure Schema where
  tables : List String := []
  versions : List Int := []
  deriving Repr, DecidableEq

/-- A step of the schema: the tables that it adds. -/
structure Migration where
  version : Int
  /-- The tables that it makes. -/
  tables : List String

namespace Schema

/-- The table of the recorded versions, which is there before all migrations. -/
def versionTable : String := "schema_version"

/-- Every step, by ascending version. -/
def migrations : List Migration := [
  ⟨1, ["repositories", "namespaces", "files", "types", "members", "snapshots",
    "snapshot_namespaces"]⟩]

/-- The greatest recorded version; zero if there is none. -/
def current (s : Schema) : Int :=
  (s.versions.max?).getD 0

/-- The schema after a step. -/
def apply (s : Schema) (m : Migration) : Schema :=
  ⟨s.tables ++ m.tables.filter (!s.tables.contains ·), s.versions ++ [m.version]⟩

/-- The schema after all pending migrations. -/
def migrate (s : Schema) : Schema :=
  let started : Schema :=
    if s.tables.contains versionTable then s else { s with tables := s.tables ++ [versionTable] }
  (migrations.filter (started.current < ·.version)).foldl apply started

end Schema

end CodeOutline.Graph
