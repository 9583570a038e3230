import PulseQueue.Model.Schema

/-!
# Shared repository code (`app/repository.py`, `app/scheduling.py`)

What the two repository classes share: the request fingerprint, the conversion of rows to
dictionaries, `merge_runtime_config` and `next_cron_run`. `Deps` has the library functions they call.
-/

namespace PulseQueue

open Txn

/-- Library functions: `json.dumps` (compact, sorted keys) and `json.loads`, SHA-256 in hex,
pydantic's text of a datetime in JSON mode, and the next date of `croniter` (`none`: it raises). -/
structure Deps where
  dumps : Json → String
  loads : String → Json
  sha256 : String → String
  jsonDatetime : UtcTime → String
  croniter : String → UtcTime → Option UtcTime

/-! ## Fingerprint -/

/-- `request.model_dump(mode="json")`. -/
def JobCreate.modelDump (deps : Deps) (request : JobCreate) : Json :=
  .obj [("payload", .obj request.payload),
    ("priority", .int request.priority),
    ("max_retries", (request.maxRetries.map fun n => Json.int n).getD .null),
    ("timeout_seconds", (request.timeoutSeconds.map fun q => Json.float (.rat q)).getD .null),
    ("run_at", (request.runAt.map fun t => Json.str (deps.jsonDatetime t)).getD .null)]

def jobRequestFingerprint (deps : Deps) (request : JobCreate) (maxRetries : Nat)
    (timeoutSeconds : ℚ) : String :=
  deps.sha256 (deps.dumps (.obj [("request", request.modelDump deps),
    ("max_retries", .int maxRetries), ("timeout_seconds", .float (.rat timeoutSeconds))]))

/-! ## Rows as dictionaries -/

/-- The dictionary of a job. -/
structure Job where
  id : String
  idempotencyKey : Option String
  requestFingerprint : Option String
  scheduleId : Option String
  scheduledFor : Option UtcTime
  status : JobStatus
  payload : Json
  result : Option Json
  priority : Int
  maxRetries : Nat
  timeoutSeconds : ℚ
  attemptCount : Nat
  lastError : Option String
  runAt : UtcTime
  lockedBy : Option String
  lockedAt : Option UtcTime
  createdAt : UtcTime
  updatedAt : UtcTime
  finishedAt : Option UtcTime

/-- `_job_from_row`. -/
def jobFromRow (deps : Deps) (row : JobRow) : Job where
  id := row.id
  idempotencyKey := row.idempotencyKey
  requestFingerprint := row.requestFingerprint
  scheduleId := row.scheduleId
  scheduledFor := row.scheduledFor.map parseDbTime
  status := row.status
  payload := deps.loads row.payload
  result := row.result.bind fun text => if text = "" then none else some (deps.loads text)
  priority := row.priority
  maxRetries := row.maxRetries
  timeoutSeconds := row.timeoutSeconds
  attemptCount := row.attemptCount
  lastError := row.lastError
  runAt := parseDbTime row.runAt
  lockedBy := row.lockedBy
  lockedAt := row.lockedAt.map parseDbTime
  createdAt := parseDbTime row.createdAt
  updatedAt := parseDbTime row.updatedAt
  finishedAt := row.finishedAt.map parseDbTime

/-- The dictionary of a schedule. -/
structure Schedule where
  id : String
  name : String
  cronExpression : String
  timezone : String
  payload : Json
  priority : Int
  maxRetries : Nat
  timeoutSeconds : ℚ
  enabled : Bool
  nextRunAt : UtcTime
  lastRunAt : Option UtcTime
  createdAt : UtcTime
  updatedAt : UtcTime

/-- `_schedule_from_row`. -/
def scheduleFromRow (deps : Deps) (row : ScheduleRow) : Schedule where
  id := row.id
  name := row.name
  cronExpression := row.cronExpression
  timezone := row.timezone
  payload := deps.loads row.payload
  priority := row.priority
  maxRetries := row.maxRetries
  timeoutSeconds := row.timeoutSeconds
  enabled := row.enabled
  nextRunAt := parseDbTime row.nextRunAt
  lastRunAt := row.lastRunAt.map parseDbTime
  createdAt := parseDbTime row.createdAt
  updatedAt := parseDbTime row.updatedAt

/-! ## Scheduling -/

/-- `next_cron_run`: every croniter error becomes `InvalidCronExpressionError`. -/
def nextCronRun (deps : Deps) (expression : String) (after : UtcTime) : Except Err UtcTime :=
  match deps.croniter expression after with
  | some t => .ok t
  | none => .error (.invalidCron ("invalid cron expression: " ++ expression))

/-! ## Configuration -/

/-- `merge_runtime_config`: the set fields of the patch, then the two caps, then validation. -/
def mergeRuntimeConfig (current : RuntimeConfig) (patch : RuntimeConfigPatch) :
    Except Err RuntimeConfig :=
  let values : ConfigValues :=
    { defaultMaxRetries := patch.defaultMaxRetries.getD current.defaultMaxRetries
      defaultTimeoutSeconds := patch.defaultTimeoutSeconds.getD current.defaultTimeoutSeconds
      maxTimeoutSeconds := patch.maxTimeoutSeconds.getD current.maxTimeoutSeconds
      workerConcurrency := patch.workerConcurrency.getD current.workerConcurrency
      backoffBaseSeconds := patch.backoffBaseSeconds.getD current.backoffBaseSeconds
      backoffMaxSeconds := patch.backoffMaxSeconds.getD current.backoffMaxSeconds }
  RuntimeConfig.validate { values with
    defaultTimeoutSeconds := values.defaultTimeoutSeconds.min values.maxTimeoutSeconds
    backoffBaseSeconds := values.backoffBaseSeconds.min values.backoffMaxSeconds }

/-! ## Shared texts and results -/

def conflictMessage : String := "idempotency key was already used with a different request"
def notInitializedMessage : String := "runtime configuration is not initialized"
def leaseExpiredError : String := "worker lease expired before the attempt was committed"

/-- The dictionary of `worker_runtime_status`. -/
structure WorkerStatus where
  instances : Nat
  activeThreads : Nat
  busyThreads : Nat
deriving DecidableEq

/-- Python's truth value of an optional string. -/
def truthy : Option String → Bool
  | some k => k ≠ ""
  | none => false

def JobStatus.all : List JobStatus := [.queued, .running, .succeeded, .failed, .deadLettered, .cancelled]

/-- `ORDER BY priority DESC, run_at ASC, created_at ASC`. -/
def claimOrder (a b : JobRow) : Bool :=
  b.priority < a.priority || a.priority == b.priority &&
    (a.runAt < b.runAt || a.runAt == b.runAt && a.createdAt ≤ b.createdAt)

/-- `ORDER BY next_run_at ASC`. -/
def dueOrder (a b : ScheduleRow) : Bool := a.nextRunAt ≤ b.nextRunAt

end PulseQueue
