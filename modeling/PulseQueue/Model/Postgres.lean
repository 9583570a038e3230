import PulseQueue.Model.Repository

/-!
# `PostgresJobRepository` (`app/postgres_repository.py`)

The layout is that of the SQLite file. `FOR UPDATE SKIP LOCKED` leaves out the rows that other open
transactions have locked: `skipped` is an argument of the three transactions that use it, and a
method that runs alone skips nothing.
-/

namespace PulseQueue.Postgres

open Txn Table

variable (deps : Deps)

/-! ## Configuration and heartbeats -/

/-- `INSERT INTO runtime_config ... ON CONFLICT (id) DO NOTHING`. -/
def initializeRuntimeConfigTxn (now : UtcTime) (default : RuntimeConfig) : Body Unit := fun s =>
  if s.runtimeConfig.isSome then .ok ((), s)
  else .ok ((), { s with runtimeConfig := some ⟨default.modelDumpJson, toDbTime now⟩ })

def getRuntimeConfig : Repo RuntimeConfig := fun s =>
  match s.runtimeConfig with
  | none => (.error (.runtime notInitializedMessage), s)
  | some row => (RuntimeConfig.modelValidateJson row.configJson, s)

def initializeRuntimeConfig (now : UtcTime) (default : RuntimeConfig) : Repo RuntimeConfig := do
  Conn.run (initializeRuntimeConfigTxn now default)
  getRuntimeConfig

def patchRuntimeConfigTxn (now : UtcTime) (patch : RuntimeConfigPatch) : Body RuntimeConfig := do
  let s ← Tx.get
  match s.runtimeConfig with
  | none => Tx.raise (.runtime notInitializedMessage)
  | some row =>
    let updated ← Tx.ofExcept
      ((RuntimeConfig.modelValidateJson row.configJson).bind (mergeRuntimeConfig · patch))
    Tx.set { s with runtimeConfig := some ⟨updated.modelDumpJson, toDbTime now⟩ }
    pure updated

def patchRuntimeConfig (now : UtcTime) (patch : RuntimeConfigPatch) : Repo RuntimeConfig :=
  Conn.run (patchRuntimeConfigTxn now patch)

/-- `INSERT ... ON CONFLICT (instance_id) DO UPDATE`. -/
def heartbeatWorkerTxn (now : UtcTime) (instanceId : String) (activeThreads busyThreads : Nat) :
    Body Unit := fun s =>
  .ok ((), { s with
    workerInstances := upsert (fun r o : InstanceRow => r.instanceId == o.instanceId)
      (fun o => { o with activeThreads := activeThreads, busyThreads := busyThreads,
                         lastSeenAt := toDbTime now })
      ⟨instanceId, activeThreads, busyThreads, toDbTime now⟩ s.workerInstances })

def heartbeatWorker (now : UtcTime) (instanceId : String) (activeThreads busyThreads : Nat) :
    Repo Unit :=
  Conn.run (heartbeatWorkerTxn now instanceId activeThreads busyThreads)

def workerRuntimeStatus (now : UtcTime) (maxAgeSeconds : ℚ) : Repo WorkerStatus := fun s =>
  match UtcTime.fromtimestamp (now.timestamp - maxAgeSeconds) with
  | none => (.error .value, s)
  | some cutoff =>
    let rows := s.workerInstances.filter fun r => toDbTime cutoff ≤ r.lastSeenAt
    (.ok ⟨rows.length, (rows.map (·.activeThreads)).sum, (rows.map (·.busyThreads)).sum⟩, s)

/-! ## Reading jobs and schedules -/

def getJob (jobId : String) : Repo (Option Job) := fun s =>
  (.ok ((s.job? jobId).map (jobFromRow deps)), s)

def getJobByIdempotencyKey (key : String) : Repo (Option Job) := fun s =>
  (.ok ((s.jobs.find? fun r => r.idempotencyKey == some key).map (jobFromRow deps)), s)

def getSchedule (scheduleId : String) : Repo (Option Schedule) := fun s =>
  (.ok ((s.schedule? scheduleId).map (scheduleFromRow deps)), s)

/-! ## Submission -/

/-- The `INSERT` of `create_job`. -/
def createJobTxn (now : UtcTime) (jobId : String) (request : JobCreate) (maxRetries : Nat)
    (timeoutSeconds : ℚ) (idempotencyKey : Option String) : Body Unit :=
  insertJob
    { id := jobId
      idempotencyKey := idempotencyKey
      requestFingerprint := some (jobRequestFingerprint deps request maxRetries timeoutSeconds)
      scheduleId := none
      scheduledFor := none
      status := .queued
      payload := deps.dumps (.obj request.payload)
      result := none
      priority := request.priority
      maxRetries := maxRetries
      timeoutSeconds := timeoutSeconds
      attemptCount := 0
      lastError := none
      runAt := toDbTime (request.runAt.getD now)
      lockedBy := none
      lockedAt := none
      createdAt := toDbTime now
      updatedAt := toDbTime now
      finishedAt := none }

/-- The first lookup of `create_job`: the stored job of the key, a conflict, or nothing. -/
def lookupKey (fingerprint key : String) : Repo (Option Job) := do
  match ← getJobByIdempotencyKey deps key with
  | none => pure none
  | some existing =>
    if existing.requestFingerprint ≠ some fingerprint then
      Conn.raise (.idempotencyConflict conflictMessage)
    else pure (some existing)

/-- The lookup of `create_job` after a `UniqueViolation`. -/
def relookupKey (fingerprint key : String) : Repo (Option Job) := do
  match ← getJobByIdempotencyKey deps key with
  | some existing =>
    if existing.requestFingerprint = some fingerprint then pure (some existing)
    else Conn.raise (.idempotencyConflict conflictMessage)
  | none => Conn.raise (.idempotencyConflict conflictMessage)

/-- The part of `create_job` after the first lookup; `none` is the empty dictionary. -/
def insertOrFind (now : UtcTime) (jobId : String) (request : JobCreate) (maxRetries : Nat)
    (timeoutSeconds : ℚ) (idempotencyKey : Option String) : Repo (Option Job) := do
  match ← Conn.attempt (Conn.run
      (createJobTxn deps now jobId request maxRetries timeoutSeconds idempotencyKey)) with
  | .ok () => getJob deps jobId
  | .error .integrity =>
    match idempotencyKey with
    | some key =>
      if key ≠ "" then
        relookupKey deps (jobRequestFingerprint deps request maxRetries timeoutSeconds) key
      else Conn.raise .integrity
    | none => Conn.raise .integrity
  | .error e => Conn.raise e

def createJob (now : UtcTime) (jobId : String) (request : JobCreate) (maxRetries : Nat)
    (timeoutSeconds : ℚ) (idempotencyKey : Option String) : Repo (Option Job) := do
  match idempotencyKey with
  | some key =>
    if key ≠ "" then
      match ← lookupKey deps (jobRequestFingerprint deps request maxRetries timeoutSeconds) key with
      | some existing => pure (some existing)
      | none => insertOrFind deps now jobId request maxRetries timeoutSeconds idempotencyKey
    else insertOrFind deps now jobId request maxRetries timeoutSeconds idempotencyKey
  | none => insertOrFind deps now jobId request maxRetries timeoutSeconds idempotencyKey

def batchRow (now : UtcTime) (maxRetries : Nat) (timeoutSeconds : ℚ) (jobId : String)
    (request : JobCreate) : JobRow :=
  { id := jobId
    idempotencyKey := none
    requestFingerprint := none
    scheduleId := none
    scheduledFor := none
    status := .queued
    payload := deps.dumps (.obj request.payload)
    result := none
    priority := request.priority
    maxRetries := maxRetries
    timeoutSeconds := timeoutSeconds
    attemptCount := 0
    lastError := none
    runAt := toDbTime (request.runAt.getD now)
    lockedBy := none
    lockedAt := none
    createdAt := toDbTime now
    updatedAt := toDbTime now
    finishedAt := none }

/-- The rows of a batch, with the ids generated from index `i` on. -/
def batchRows (now : UtcTime) (uuids : Nat → String) (maxRetries : Nat) (timeoutSeconds : ℚ) :
    Nat → List JobCreate → List JobRow
  | _, [] => []
  | i, request :: requests =>
    batchRow deps now maxRetries timeoutSeconds (uuids i) request ::
      batchRows now uuids maxRetries timeoutSeconds (i + 1) requests

/-- `executemany` of the `INSERT`. -/
def insertJobs : List JobRow → Body Unit
  | [] => pure ()
  | row :: rows => do
    insertJob row
    insertJobs rows

def createJobsBatch (now : UtcTime) (uuids : Nat → String) (requests : List JobCreate)
    (maxRetries : Nat) (timeoutSeconds : ℚ) : Repo (List String) := do
  if requests.isEmpty then pure []
  else
    let rows := batchRows deps now uuids maxRetries timeoutSeconds 0 requests
    Conn.run (insertJobs rows)
    pure (rows.map (·.id))

/-! ## Schedules -/

/-- The `INSERT` of `create_schedule`. -/
def createScheduleTxn (now : UtcTime) (scheduleId : String) (request : ScheduleCreate)
    (maxRetries : Nat) (timeoutSeconds : ℚ) : Body Unit := do
  let nextRunAt ← Tx.ofExcept (nextCronRun deps request.cronExpression now)
  insertSchedule
    { id := scheduleId
      name := request.name
      cronExpression := request.cronExpression
      timezone := "UTC"
      payload := deps.dumps (.obj request.payload)
      priority := request.priority
      maxRetries := maxRetries
      timeoutSeconds := timeoutSeconds
      enabled := true
      nextRunAt := toDbTime nextRunAt
      lastRunAt := none
      createdAt := toDbTime now
      updatedAt := toDbTime now }

def createSchedule (now : UtcTime) (scheduleId : String) (request : ScheduleCreate)
    (maxRetries : Nat) (timeoutSeconds : ℚ) : Repo (Option Schedule) := do
  Conn.run (createScheduleTxn deps now scheduleId request maxRetries timeoutSeconds)
  getSchedule deps scheduleId

/-- The next run that `set_schedule_enabled` computes from the schedule it read. -/
def patchedNextRun (now : UtcTime) (current : Schedule) (enabled : Bool) : Except Err UtcTime :=
  if enabled then nextCronRun deps current.cronExpression now else .ok current.nextRunAt

/-- The `UPDATE` of `set_schedule_enabled`. -/
def writeScheduleTxn (now : UtcTime) (scheduleId : String) (enabled : Bool) (nextRunAt : UtcTime) :
    Body Nat :=
  updateSchedule scheduleId fun r =>
    { r with enabled := enabled, nextRunAt := toDbTime nextRunAt, updatedAt := toDbTime now }

/-- Unlike the SQLite method, this one does not look at the row count. -/
def setScheduleEnabled (now : UtcTime) (scheduleId : String) (enabled : Bool) :
    Repo (Option Schedule) := do
  match ← getSchedule deps scheduleId with
  | none => pure none
  | some current =>
    match patchedNextRun deps now current enabled with
    | .error e => Conn.raise e
    | .ok nextRunAt =>
      let _ ← Conn.run (writeScheduleTxn now scheduleId enabled nextRunAt)
      getSchedule deps scheduleId

def deleteSchedule (scheduleId : String) : Repo Bool := do
  let rowcount ← Conn.run (deleteScheduleRow scheduleId)
  pure (0 < rowcount)

/-- The job row of a due schedule; columns left out of the `INSERT` are NULL. -/
def occurrenceRow (now : UtcTime) (jobId : String) (row : ScheduleRow) : JobRow :=
  { id := jobId
    idempotencyKey := none
    requestFingerprint := none
    scheduleId := some row.id
    scheduledFor := some row.nextRunAt
    status := .queued
    payload := row.payload
    result := none
    priority := row.priority
    maxRetries := row.maxRetries
    timeoutSeconds := row.timeoutSeconds
    attemptCount := 0
    lastError := none
    runAt := row.nextRunAt
    lockedBy := none
    lockedAt := none
    createdAt := toDbTime now
    updatedAt := toDbTime now
    finishedAt := none }

/-- The loop of `materialize_due_schedules` from index `i` on; it adds up row counts. -/
def materializeRows (now : UtcTime) (uuids : Nat → String) :
    Nat → Nat → List ScheduleRow → Body Nat
  | _, materialized, [] => pure materialized
  | i, materialized, row :: rows => do
    let scheduledFor := parseDbTime row.nextRunAt
    let rowcount ← insertJobOnConflictDoNothing (occurrenceRow now (uuids i) row)
    let next ← Tx.ofExcept (nextCronRun deps row.cronExpression scheduledFor)
    let _ ← updateSchedule row.id fun r =>
      { r with lastRunAt := some row.nextRunAt, nextRunAt := toDbTime next,
               updatedAt := toDbTime now }
    materializeRows now uuids (i + 1) (materialized + rowcount) rows

/-- The due schedules that are not locked, oldest first. -/
def dueSchedules (skipped : String → Bool) (now : UtcTime) (limit : Nat) (s : Store) :
    List ScheduleRow :=
  (orderBy dueOrder (s.recurringSchedules.filter fun r =>
    r.enabled && r.nextRunAt ≤ toDbTime now && !skipped r.id)).take limit

def materializeDueSchedulesTxn (skipped : String → Bool) (now : UtcTime) (uuids : Nat → String)
    (limit : Nat) : Body Nat := do
  let s ← Tx.get
  materializeRows deps now uuids 0 0 (dueSchedules skipped now limit s)

def materializeDueSchedules (now : UtcTime) (uuids : Nat → String) (limit : Nat) : Repo Nat :=
  Conn.run (materializeDueSchedulesTxn deps (fun _ => false) now uuids limit)

/-! ## Claims and completions -/

/-- The `UPDATE` is not guarded by the status: the row is locked. -/
def claimNextJobTxn (skipped : String → Bool) (now : UtcTime) (workerId : String) :
    Body (Option Job) := do
  let s ← Tx.get
  let due := s.jobs.filter fun r =>
    r.status = .queued && r.runAt ≤ toDbTime now && !skipped r.id
  match (orderBy claimOrder due).head? with
  | none => pure none
  | some row =>
    let updated ← updateJobsReturning (fun r => r.id == row.id) fun r =>
      { r with status := .running, lockedBy := some workerId, lockedAt := some (toDbTime now),
               updatedAt := toDbTime now }
    pure (updated.head?.map (jobFromRow deps))

def claimNextJob (now : UtcTime) (workerId : String) : Repo (Option Job) :=
  Conn.run (claimNextJobTxn deps (fun _ => false) now workerId)

/-- `mark_succeeded`; without the lease it returns the current row from inside the transaction. -/
def markSucceededTxn (now : UtcTime) (jobId workerId : String) (attemptNo : Nat)
    (startedAt : UtcTime) (result : List (String × Json)) : Body (Option Job) := do
  let returned ← updateJobsReturning
    (fun r => r.id == jobId && r.status = .running && sqlEq r.lockedBy (some workerId)) fun r =>
    { r with status := .succeeded, result := some (deps.dumps (.obj result)),
             attemptCount := attemptNo, lastError := none, lockedBy := none, lockedAt := none,
             updatedAt := toDbTime now, finishedAt := some (toDbTime now) }
  match returned.head? with
  | none =>
    let current ← selectJob jobId
    pure (current.map (jobFromRow deps))
  | some row =>
    insertAttempt ⟨jobId, attemptNo, workerId, .succeeded, toDbTime startedAt, toDbTime now, none⟩
    pure (some (jobFromRow deps row))

def markSucceeded (now : UtcTime) (jobId workerId : String) (attemptNo : Nat) (startedAt : UtcTime)
    (result : List (String × Json)) : Repo (Option Job) :=
  Conn.run (markSucceededTxn deps now jobId workerId attemptNo startedAt result)

def markFailedAttemptTxn (now : UtcTime) (job : Job) (workerId : String) (attemptNo : Nat)
    (startedAt : UtcTime) (error : String) (timedOut : Bool) (backoffSeconds : ℚ) :
    Body (Option Job) := do
  let attemptStatus := if timedOut then AttemptStatus.timedOut else .failed
  let willRetry := decide (attemptNo ≤ job.maxRetries)
  let nextStatus := if willRetry then JobStatus.queued else .deadLettered
  let nextRunAt := if willRetry then now.timestamp + backoffSeconds else now.timestamp
  let nextRunAtDt ← Tx.ofExcept
    (match UtcTime.fromtimestamp nextRunAt with
    | some t => .ok t
    | none => .error .value)
  let finishedAt := if willRetry then none else some (toDbTime now)
  let returned ← updateJobsReturning
    (fun r => r.id == job.id && r.status = .running && sqlEq r.lockedBy (some workerId)) fun r =>
    { r with status := nextStatus, attemptCount := attemptNo, lastError := some error,
             runAt := toDbTime nextRunAtDt, lockedBy := none, lockedAt := none,
             updatedAt := toDbTime now, finishedAt := finishedAt }
  match returned.head? with
  | none =>
    let current ← selectJob job.id
    pure (current.map (jobFromRow deps))
  | some row =>
    insertAttempt
      ⟨job.id, attemptNo, workerId, attemptStatus, toDbTime startedAt, toDbTime now, some error⟩
    if willRetry then pure ()
    else upsertDeadLetter ⟨job.id, deps.dumps job.payload, some error, attemptNo, toDbTime now⟩
    pure (some (jobFromRow deps row))

def markFailedAttempt (now : UtcTime) (job : Job) (workerId : String) (attemptNo : Nat)
    (startedAt : UtcTime) (error : String) (timedOut : Bool) (backoffSeconds : ℚ) :
    Repo (Option Job) :=
  Conn.run (markFailedAttemptTxn deps now job workerId attemptNo startedAt error timedOut
    backoffSeconds)

/-! ## Lease reaper, cancellation, depth -/

/-- The lease of a running row has not expired. The difference and the sum are floats. -/
def leaseAlive (now : UtcTime) (leaseGraceSeconds : ℚ) (row : JobRow) : Bool :=
  match row.lockedAt with
  | none => true
  | some lockedAt =>
    Rounding.double (now.totalSeconds (parseDbTime lockedAt)) ≤
      Rounding.double (row.timeoutSeconds + leaseGraceSeconds)

/-- The loop of `recover_stale_jobs`. -/
def recoverRows (now : UtcTime) (leaseGraceSeconds : ℚ) : Nat → List JobRow → Body Nat
  | recovered, [] => pure recovered
  | recovered, row :: rows => do
    if leaseAlive now leaseGraceSeconds row then recoverRows now leaseGraceSeconds recovered rows
    else
      let attemptNo := row.attemptCount + 1
      let error := leaseExpiredError
      let willRetry := decide (attemptNo ≤ row.maxRetries)
      let nextStatus := if willRetry then JobStatus.queued else .deadLettered
      let finishedAt := if willRetry then none else some (toDbTime now)
      let rowcount ← updateJobs
        (fun r => r.id == row.id && r.status = .running && sqlEq r.lockedBy row.lockedBy &&
          sqlEq r.lockedAt row.lockedAt) fun r =>
        { r with status := nextStatus, attemptCount := attemptNo, lastError := some error,
                 runAt := toDbTime now, lockedBy := none, lockedAt := none,
                 updatedAt := toDbTime now, finishedAt := finishedAt }
      if rowcount = 0 then recoverRows now leaseGraceSeconds recovered rows
      else
        -- the guard matched, so `locked_by` and `locked_at` are not NULL
        insertAttempt ⟨row.id, attemptNo, row.lockedBy.getD "", .abandoned,
          row.lockedAt.getD (toDbTime now), toDbTime now, some error⟩
        if willRetry then pure ()
        else upsertDeadLetter ⟨row.id, row.payload, some error, attemptNo, toDbTime now⟩
        recoverRows now leaseGraceSeconds (recovered + 1) rows

def recoverStaleJobsTxn (skipped : String → Bool) (now : UtcTime) (leaseGraceSeconds : ℚ) :
    Body Nat := do
  let s ← Tx.get
  recoverRows now leaseGraceSeconds 0
    (s.jobs.filter fun r => r.status = .running && r.lockedAt.isSome && !skipped r.id)

def recoverStaleJobs (now : UtcTime) (leaseGraceSeconds : ℚ) : Repo Nat :=
  Conn.run (recoverStaleJobsTxn (fun _ => false) now leaseGraceSeconds)

def cancelJobTxn (now : UtcTime) (jobId : String) : Body Nat :=
  updateJobs (fun r => r.id == jobId && r.status = .queued) fun r =>
    { r with status := .cancelled, updatedAt := toDbTime now, finishedAt := some (toDbTime now) }

def cancelJob (now : UtcTime) (jobId : String) : Repo (Option Job) := do
  let _ ← Conn.run (cancelJobTxn now jobId)
  getJob deps jobId

def drainQueueTxn (now : UtcTime) : Body Nat :=
  updateJobs (fun r => r.status = .queued) fun r =>
    { r with status := .cancelled, updatedAt := toDbTime now, finishedAt := some (toDbTime now) }

def drainQueue (now : UtcTime) : Repo Nat := Conn.run (drainQueueTxn now)

/-- `SELECT status, COUNT(*) ... GROUP BY status`. -/
def statusCount (s : Store) (status : JobStatus) : Nat := s.jobs.countP fun r => r.status = status

/-- The second `SELECT` of `queue_depth`. -/
def dueCount (now : UtcTime) (s : Store) : Nat :=
  s.jobs.countP fun r => r.status = .queued && r.runAt ≤ toDbTime now

/-- `queue_depth` from the stores its two statements read. -/
def queueDepthOf (now : UtcTime) (s₁ s₂ : Store) : QueueDepth where
  queued := statusCount s₁ .queued
  running := statusCount s₁ .running
  succeeded := statusCount s₁ .succeeded
  failed := statusCount s₁ .failed
  deadLettered := statusCount s₁ .deadLettered
  cancelled := statusCount s₁ .cancelled
  total := (JobStatus.all.map (statusCount s₁)).sum
  dueQueued := dueCount now s₂
  scheduledQueued := statusCount s₁ .queued - dueCount now s₂

def queueDepth (now : UtcTime) : Repo QueueDepth := fun s => (.ok (queueDepthOf now s s), s)

end PulseQueue.Postgres
