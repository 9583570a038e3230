import PulseQueue.Lib.Ddl
import PulseQueue.Lib.Interaction

/-!
# Creation of the schema (`init_schema`)

The statements that both repositories issue when they are created. The SQLite class commits each statement,
and asks for the columns of `jobs` before it adds those that came in with later versions; the Postgres class
runs one transaction. Column types and the constraints inside `CREATE TABLE` are left out.
-/

namespace PulseQueue

open Interaction Ddl

/-- What goes to the database: a statement by itself, `PRAGMA table_info`, or the statements up to a
commit. -/
inductive SchemaSql
  | run (s : Statement)
  | tableInfo (table : String)
  | transaction (ss : List Statement)

namespace SchemaSql

abbrev Answer : SchemaSql → Type
  | run _ => Except DbError Unit
  | tableInfo _ => Except DbError (List String)
  | transaction _ => Except DbError Unit

variable {V : Type} [DecidableEq V]

/-- What the new catalog is, or the error. -/
def outcome (c : Catalog V) : Except DbError (Catalog V) → Except DbError Unit × Catalog V
  | .ok c' => (.ok (), c')
  | .error e => (.error e, c)

def exec : (q : SchemaSql) → Catalog V → q.Answer × Catalog V
  | run s, c => outcome c (Ddl.exec s c)
  | tableInfo t, c => (.ok ((c.tables t).elim [] (·.columns)), c)
  | transaction ss, c => outcome c (execAll ss c)

/-- A table or an index was not there when the transaction looked, but somebody else has committed it
before the transaction could create it: Postgres checks `IF NOT EXISTS` without a lock and raises
`UniqueViolation`. -/
def Collides (c : Catalog V) : (q : SchemaSql) → q.Answer → Prop
  | transaction ss, a =>
    ∃ s ∈ ss, ∃ name, s.creates = some name ∧ s.Done c ∧ a = .error (.duplicateObject name)
  | _, _ => False

/-- The database does not get to the statement: it is busy, ends a deadlock or is out of reach. -/
def fails : (q : SchemaSql) → q.Answer
  | run _ => .error .operational
  | tableInfo _ => .error .operational
  | transaction _ => .error .operational

end SchemaSql

abbrev SchemaBody (α : Type) : Type := Prog SchemaSql SchemaSql.Answer DbError α

/-- `conn.execute`. -/
def execute (s : Statement) : SchemaBody Unit := .call (.run s) Prog.ofExcept

/-- `conn.executescript`, without an open transaction. -/
def executescript : List Statement → SchemaBody Unit
  | [] => pure ()
  | s :: ss => do
    execute s
    executescript ss

/-! ## Tables and indexes -/

def jobsColumns : List String :=
  ["id", "idempotency_key", "request_fingerprint", "schedule_id", "scheduled_for", "status", "payload",
    "result", "priority", "max_retries", "timeout_seconds", "attempt_count", "last_error", "run_at",
    "locked_by", "locked_at", "created_at", "updated_at", "finished_at"]

def jobAttemptsColumns : List String :=
  ["id", "job_id", "attempt_no", "worker_id", "status", "started_at", "finished_at", "error"]

def deadLettersColumns : List String :=
  ["job_id", "payload", "last_error", "attempt_count", "dead_lettered_at"]

def recurringSchedulesColumns : List String :=
  ["id", "name", "cron_expression", "timezone", "payload", "priority", "max_retries", "timeout_seconds",
    "enabled", "next_run_at", "last_run_at", "created_at", "updated_at"]

def runtimeConfigColumns : List String := ["id", "config_json", "updated_at"]

def workerInstancesColumns : List String :=
  ["instance_id", "active_threads", "busy_threads", "last_seen_at"]

def idxJobsClaim : Index :=
  ⟨"idx_jobs_claim", "jobs", ["status", "run_at", "priority", "created_at"], false, none⟩

def idxJobAttemptUnique : Index :=
  ⟨"idx_job_attempt_unique", "job_attempts", ["job_id", "attempt_no"], true, none⟩

def idxRecurringSchedulesDue : Index :=
  ⟨"idx_recurring_schedules_due", "recurring_schedules", ["enabled", "next_run_at"], false, none⟩

def idxJobsIdempotencyKey : Index :=
  ⟨"idx_jobs_idempotency_key", "jobs", ["idempotency_key"], true, some "idempotency_key"⟩

def idxJobsScheduleOccurrence : Index :=
  ⟨"idx_jobs_schedule_occurrence", "jobs", ["schedule_id", "scheduled_for"], true, some "schedule_id"⟩

/-! ## The SQLite class -/

namespace Sqlite

def schemaScript : List Statement :=
  [.createTable "jobs" jobsColumns,
    .createIndex idxJobsClaim,
    .createTable "job_attempts" jobAttemptsColumns,
    .createIndex idxJobAttemptUnique,
    .createTable "dead_letters" deadLettersColumns,
    .createTable "recurring_schedules" recurringSchedulesColumns,
    .createIndex idxRecurringSchedulesDue,
    .createTable "runtime_config" runtimeConfigColumns,
    .createTable "worker_instances" workerInstancesColumns]

/-- `if column not in columns: conn.execute("ALTER TABLE jobs ADD COLUMN column TEXT")`. -/
def addMissing (columns : List String) (column : String) : SchemaBody Unit :=
  if column ∈ columns then pure () else execute (.addColumn "jobs" column)

def initSchema : SchemaBody Unit := do
  executescript schemaScript
  let columns ← (.call (.tableInfo "jobs") Prog.ofExcept : SchemaBody (List String))
  addMissing columns "idempotency_key"
  addMissing columns "request_fingerprint"
  addMissing columns "schedule_id"
  addMissing columns "scheduled_for"
  execute (.createIndex idxJobsIdempotencyKey)
  execute (.createIndex idxJobAttemptUnique)
  execute (.createIndex idxJobsScheduleOccurrence)

end Sqlite

/-! ## The Postgres class -/

namespace Postgres

def schemaScript : List Statement :=
  [.createTable "jobs" jobsColumns,
    .addColumnIfNotExists "jobs" "idempotency_key",
    .addColumnIfNotExists "jobs" "request_fingerprint",
    .addColumnIfNotExists "jobs" "schedule_id",
    .addColumnIfNotExists "jobs" "scheduled_for",
    .createIndex idxJobsScheduleOccurrence,
    .createIndex idxJobsIdempotencyKey,
    .createIndex idxJobsClaim,
    .createTable "job_attempts" jobAttemptsColumns,
    .createIndex idxJobAttemptUnique,
    .createTable "dead_letters" deadLettersColumns,
    .createTable "recurring_schedules" recurringSchedulesColumns,
    .createIndex idxRecurringSchedulesDue,
    .createTable "runtime_config" runtimeConfigColumns,
    .createTable "worker_instances" workerInstancesColumns]

def initSchema : SchemaBody Unit := .call (.transaction schemaScript) Prog.ofExcept

end Postgres

end PulseQueue
