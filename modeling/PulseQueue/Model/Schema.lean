import PulseQueue.Lib.Table
import PulseQueue.Lib.Txn
import PulseQueue.Model.Models

/-!
# Tables and statements (`init_schema`)

The rows of the six tables, the constraints that `init_schema` declares, and the SQL statements the
two repositories are written with. Text columns are strings, except the timestamps (`DbTime`),
the status columns (enumerations) and `config_json` (its document). Nullable columns are options, and
a comparison with NULL is false (`sqlEq`). Surrogate ids of `job_attempts` are left out.
-/

namespace PulseQueue

open Txn Table

structure JobRow where
  id : String
  idempotencyKey : Option String
  requestFingerprint : Option String
  scheduleId : Option String
  scheduledFor : Option DbTime
  status : JobStatus
  payload : String
  result : Option String
  priority : Int
  maxRetries : Nat
  timeoutSeconds : ℚ
  attemptCount : Nat
  lastError : Option String
  runAt : DbTime
  lockedBy : Option String
  lockedAt : Option DbTime
  createdAt : DbTime
  updatedAt : DbTime
  finishedAt : Option DbTime
deriving DecidableEq

structure AttemptRow where
  jobId : String
  attemptNo : Nat
  workerId : String
  status : AttemptStatus
  startedAt : DbTime
  finishedAt : DbTime
  error : Option String
deriving DecidableEq

structure DeadLetterRow where
  jobId : String
  payload : String
  lastError : Option String
  attemptCount : Nat
  deadLetteredAt : DbTime
deriving DecidableEq

structure ScheduleRow where
  id : String
  name : String
  cronExpression : String
  timezone : String
  payload : String
  priority : Int
  maxRetries : Nat
  timeoutSeconds : ℚ
  enabled : Bool
  nextRunAt : DbTime
  lastRunAt : Option DbTime
  createdAt : DbTime
  updatedAt : DbTime
deriving DecidableEq

structure ConfigRow where
  configJson : ConfigJson
  updatedAt : DbTime
deriving DecidableEq

structure InstanceRow where
  instanceId : String
  activeThreads : Nat
  busyThreads : Nat
  lastSeenAt : DbTime
deriving DecidableEq

/-- The database. `runtime_config` has at most the row with id 1. -/
structure Store where
  jobs : List JobRow
  jobAttempts : List AttemptRow
  deadLetters : List DeadLetterRow
  recurringSchedules : List ScheduleRow
  runtimeConfig : Option ConfigRow
  workerInstances : List InstanceRow
deriving DecidableEq

def Store.empty : Store := ⟨[], [], [], [], none, []⟩

/-- SQL `a = b` on a nullable column: NULL equals nothing. -/
def sqlEq {α : Type} [DecidableEq α] (a b : Option α) : Bool := a.isSome && a == b

/-! ## Unique indexes -/

/-- `idx_jobs_schedule_occurrence`: unique `(schedule_id, scheduled_for)`. -/
def JobRow.sameOccurrence (r o : JobRow) : Bool :=
  sqlEq r.scheduleId o.scheduleId && sqlEq r.scheduledFor o.scheduledFor

/-- `idx_jobs_idempotency_key`: unique `idempotency_key` unless NULL. -/
def JobRow.sameKey (r o : JobRow) : Bool := sqlEq r.idempotencyKey o.idempotencyKey

/-- The rows `r` cannot be inserted next to. -/
def JobRow.clash (r o : JobRow) : Bool := r.id == o.id || r.sameKey o || r.sameOccurrence o

/-- `idx_job_attempt_unique`: unique `(job_id, attempt_no)`. -/
def AttemptRow.clash (r o : AttemptRow) : Bool := r.jobId == o.jobId && r.attemptNo == o.attemptNo

/-- The primary key of `dead_letters`. -/
def DeadLetterRow.clash (r o : DeadLetterRow) : Bool := r.jobId == o.jobId

/-! ## Statements -/

abbrev Body (α : Type) : Type := Tx Store Err α
abbrev Repo (α : Type) : Type := Conn Store Err α

/-- `SELECT * FROM jobs WHERE id = ?`. -/
def Store.job? (s : Store) (id : String) : Option JobRow := lookup JobRow.id id s.jobs

/-- `SELECT * FROM recurring_schedules WHERE id = ?`. -/
def Store.schedule? (s : Store) (id : String) : Option ScheduleRow :=
  lookup ScheduleRow.id id s.recurringSchedules

def selectJob (id : String) : Body (Option JobRow) := fun s => .ok (s.job? id, s)

/-- `UPDATE jobs SET f WHERE p`; the result is the row count. -/
def updateJobs (p : JobRow → Bool) (f : JobRow → JobRow) : Body Nat := fun s =>
  .ok (s.jobs.countP p, { s with jobs := updateWhere p f s.jobs })

/-- `UPDATE jobs SET f WHERE p RETURNING *`. -/
def updateJobsReturning (p : JobRow → Bool) (f : JobRow → JobRow) : Body (List JobRow) := fun s =>
  .ok ((s.jobs.filter p).map f, { s with jobs := updateWhere p f s.jobs })

/-- `INSERT INTO jobs`. -/
def insertJob (r : JobRow) : Body Unit := fun s =>
  if s.jobs.any r.clash then .error .integrity
  else .ok ((), { s with jobs := s.jobs ++ [r] })

/-- `INSERT OR IGNORE INTO jobs`; the result is `changes()`. -/
def insertJobOrIgnore (r : JobRow) : Body Nat := fun s =>
  if s.jobs.any r.clash then .ok (0, s)
  else .ok (1, { s with jobs := s.jobs ++ [r] })

/-- `INSERT INTO jobs ... ON CONFLICT (schedule_id, scheduled_for) DO NOTHING`; the result is the
row count. Other conflicts still raise. -/
def insertJobOnConflictDoNothing (r : JobRow) : Body Nat := fun s =>
  if s.jobs.any r.sameOccurrence then .ok (0, s)
  else if s.jobs.any r.clash then .error .integrity
  else .ok (1, { s with jobs := s.jobs ++ [r] })

/-- `INSERT INTO job_attempts`: unique index and foreign key. -/
def insertAttempt (r : AttemptRow) : Body Unit := fun s =>
  if s.jobAttempts.any r.clash || !s.jobs.any (·.id == r.jobId) then .error .integrity
  else .ok ((), { s with jobAttempts := s.jobAttempts ++ [r] })

/-- `INSERT OR REPLACE INTO dead_letters`. -/
def replaceDeadLetter (r : DeadLetterRow) : Body Unit := fun s =>
  if !s.jobs.any (·.id == r.jobId) then .error .integrity
  else .ok ((), { s with deadLetters := insertOrReplace DeadLetterRow.clash r s.deadLetters })

/-- `INSERT INTO dead_letters ... ON CONFLICT (job_id) DO UPDATE SET` every other column. -/
def upsertDeadLetter (r : DeadLetterRow) : Body Unit := fun s =>
  if !s.jobs.any (·.id == r.jobId) then .error .integrity
  else .ok ((), { s with
    deadLetters := upsert DeadLetterRow.clash
      (fun o => { o with payload := r.payload, lastError := r.lastError,
                         attemptCount := r.attemptCount, deadLetteredAt := r.deadLetteredAt })
      r s.deadLetters })

/-- `INSERT INTO recurring_schedules`. -/
def insertSchedule (r : ScheduleRow) : Body Unit := fun s =>
  if s.recurringSchedules.any (·.id == r.id) then .error .integrity
  else .ok ((), { s with recurringSchedules := s.recurringSchedules ++ [r] })

/-- `UPDATE recurring_schedules SET f WHERE id = ?`; the result is the row count. -/
def updateSchedule (id : String) (f : ScheduleRow → ScheduleRow) : Body Nat := fun s =>
  .ok (s.recurringSchedules.countP (·.id == id),
    { s with recurringSchedules := updateWhere (·.id == id) f s.recurringSchedules })

/-- `DELETE FROM recurring_schedules WHERE id = ?`; the result is the row count. -/
def deleteScheduleRow (id : String) : Body Nat := fun s =>
  .ok (s.recurringSchedules.countP (·.id == id),
    { s with recurringSchedules := s.recurringSchedules.filter fun r => !(r.id == id) })

end PulseQueue
