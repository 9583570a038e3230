import PulseQueue.Lib.Locking
import PulseQueue.Lib.SharedMemory
import PulseQueue.Model.InitSchema
import PulseQueue.Spec.Runs

/-!
# Processes that create the schema

Any number of processes run `init_schema` on one database, statement by statement and in any
interleaving. A statement may fail because the database does not answer, a transaction because another
process comes first with what it creates, a process may stop anywhere, and other programs may change the
rows meanwhile (`Serves`). The database may be empty or of an earlier version (`Upgradable`); in the end
it should have all tables, columns and indexes (`Complete`).
-/

namespace PulseQueue

open Interaction Ddl Shared

/-! ## Versions -/

def schemaTables : List (String × List String) :=
  [("jobs", jobsColumns), ("job_attempts", jobAttemptsColumns), ("dead_letters", deadLettersColumns),
    ("recurring_schedules", recurringSchedulesColumns), ("runtime_config", runtimeConfigColumns),
    ("worker_instances", workerInstancesColumns)]

def schemaIndexes : List Index :=
  [idxJobsClaim, idxJobAttemptUnique, idxRecurringSchedulesDue, idxJobsIdempotencyKey,
    idxJobsScheduleOccurrence]

/-- The columns of `jobs` that earlier versions did not have. -/
def addedColumns : List String := ["idempotency_key", "request_fingerprint", "schedule_id", "scheduled_for"]

/-- The columns that a table has in all versions. -/
def baseColumns (t : String) : List String :=
  match schemaTables.lookup t with
  | some columns => columns.filter fun column => ¬ (t = "jobs" ∧ column ∈ addedColumns)
  | none => []

section
variable {V : Type} [DecidableEq V]

/-- The database of some version, or a part of it: the tables there have the columns of all versions, and an
index with the name of one of ours is ours. -/
structure Upgradable (c : Catalog V) : Prop where
  columns : ∀ t d, c.tables t = some d → baseColumns t ⊆ d.columns
  indexes : ∀ i ∈ c.indexes, ∀ j ∈ schemaIndexes, i.name = j.name → i = j

/-- Nothing of the schema is missing. -/
structure Complete (c : Catalog V) : Prop where
  tables : ∀ x ∈ schemaTables, ∃ d, c.tables x.1 = some d ∧ x.2 ⊆ d.columns
  indexes : ∀ i ∈ schemaIndexes, i ∈ c.indexes

/-- Statements on rows, which keep to the indexes. -/
structure Serves (c c' : Catalog V) : Prop where
  columns : ∀ t, (c'.tables t).map (·.columns) = (c.tables t).map (·.columns)
  indexes : c'.indexes = c.indexes
  ok : c'.Ok

/-! ## Processes -/

def Engine.initSchema : Engine → SchemaBody Unit
  | .sqlite => Sqlite.initSchema
  | .postgres => Postgres.initSchema

variable (V) in
/-- The processes, by number, on one database. -/
def initializers (engine : Engine) : Machine Nat SchemaSql SchemaSql.Answer DbError Unit (Catalog V) where
  answers q c a c' := (a, c') = q.exec c ∨ (a = q.fails ∨ q.Collides c a) ∧ c' = c
  changes := Serves
  body _ := engine.initSchema
  again _ := False

/-- A process alone. -/
def schemaStatements : Locking.Statements SchemaSql SchemaSql.Answer (Catalog V) where
  exec := SchemaSql.exec
  locks _ _ := true
  reads _ _ h := Bool.noConfusion h

/-- `init_schema` of one process, with the catalog it leaves. -/
def Engine.initSchemaAlone (engine : Engine) (c : Catalog V) : Except DbError (Unit × Catalog V) :=
  Locking.run schemaStatements engine.initSchema c

end

end PulseQueue
