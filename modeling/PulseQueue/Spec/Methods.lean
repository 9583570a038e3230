import PulseQueue.Spec.Runs

/-!
# Sequences of methods

The methods of the two repository classes with their arguments, clock readings and generated ids
(`Method`), and the sessions of one client that calls them one after another (`Session`). Between calls
the engine may list the rows in any other order. A session is regular where the claim compares the two
classes: no two rows that a statement sorts have the same key, and generated ids are new
(`Method.Regular`).
-/

namespace PulseQueue

open Txn

inductive Method
  | initializeRuntimeConfig (now : UtcTime) (default : RuntimeConfig)
  | getRuntimeConfig
  | patchRuntimeConfig (now : UtcTime) (patch : RuntimeConfigPatch)
  | heartbeatWorker (now : UtcTime) (instanceId : String) (activeThreads busyThreads : Nat)
  | workerRuntimeStatus (now : UtcTime) (maxAgeSeconds : ℚ)
  | createJob (now : UtcTime) (jobId : String) (request : JobCreate) (maxRetries : Nat)
      (timeoutSeconds : ℚ) (idempotencyKey : Option String)
  | createJobsBatch (now : UtcTime) (uuids : Nat → String) (requests : List JobCreate)
      (maxRetries : Nat) (timeoutSeconds : ℚ)
  | getJob (jobId : String)
  | getJobByIdempotencyKey (key : String)
  | createSchedule (now : UtcTime) (scheduleId : String) (request : ScheduleCreate)
      (maxRetries : Nat) (timeoutSeconds : ℚ)
  | getSchedule (scheduleId : String)
  | setScheduleEnabled (now : UtcTime) (scheduleId : String) (enabled : Bool)
  | deleteSchedule (scheduleId : String)
  | materializeDueSchedules (now : UtcTime) (uuids : Nat → String) (limit : Nat)
  | claimNextJob (now : UtcTime) (workerId : String)
  | markSucceeded (now : UtcTime) (jobId workerId : String) (attemptNo : Nat) (startedAt : UtcTime)
      (result : List (String × Json))
  | markFailedAttempt (now : UtcTime) (job : Job) (workerId : String) (attemptNo : Nat)
      (startedAt : UtcTime) (error : String) (timedOut : Bool) (backoffSeconds : ℚ)
  | recoverStaleJobs (now : UtcTime) (leaseGraceSeconds : ℚ)
  | cancelJob (now : UtcTime) (jobId : String)
  | drainQueue (now : UtcTime)
  | queueDepth (now : UtcTime)

/-- What a method returns. -/
inductive Value
  | unit
  | job (j : Option Job)
  | ids (l : List String)
  | schedule (s : Option Schedule)
  | flag (b : Bool)
  | count (n : Nat)
  | depth (d : QueueDepth)
  | config (c : RuntimeConfig)
  | status (w : WorkerStatus)

/-- A method with its result as a value. -/
def valued {α : Type} (f : α → Value) (x : Repo α) : Repo Value := do
  let a ← x
  pure (f a)

variable (deps : Deps)

def Method.sqlite : Method → Repo Value
  | initializeRuntimeConfig now c => valued .config (Sqlite.initializeRuntimeConfig now c)
  | getRuntimeConfig => valued .config Sqlite.getRuntimeConfig
  | patchRuntimeConfig now p => valued .config (Sqlite.patchRuntimeConfig now p)
  | heartbeatWorker now id active busy =>
    valued (fun _ => .unit) (Sqlite.heartbeatWorker now id active busy)
  | workerRuntimeStatus now age => valued .status (Sqlite.workerRuntimeStatus now age)
  | createJob now id request m t key => valued .job (Sqlite.createJob deps now id request m t key)
  | createJobsBatch now uuids requests m t =>
    valued .ids (Sqlite.createJobsBatch deps now uuids requests m t)
  | getJob id => valued .job (Sqlite.getJob deps id)
  | getJobByIdempotencyKey key => valued .job (Sqlite.getJobByIdempotencyKey deps key)
  | createSchedule now id request m t =>
    valued .schedule (Sqlite.createSchedule deps now id request m t)
  | getSchedule id => valued .schedule (Sqlite.getSchedule deps id)
  | setScheduleEnabled now id enabled =>
    valued .schedule (Sqlite.setScheduleEnabled deps now id enabled)
  | deleteSchedule id => valued .flag (Sqlite.deleteSchedule id)
  | materializeDueSchedules now uuids limit =>
    valued .count (Sqlite.materializeDueSchedules deps now uuids limit)
  | claimNextJob now w => valued .job (Sqlite.claimNextJob deps now w)
  | markSucceeded now id w n startedAt result =>
    valued .job (Sqlite.markSucceeded deps now id w n startedAt result)
  | markFailedAttempt now job w n startedAt error timedOut backoff =>
    valued .job (Sqlite.markFailedAttempt deps now job w n startedAt error timedOut backoff)
  | recoverStaleJobs now grace => valued .count (Sqlite.recoverStaleJobs now grace)
  | cancelJob now id => valued .job (Sqlite.cancelJob deps now id)
  | drainQueue now => valued .count (Sqlite.drainQueue now)
  | queueDepth now => valued .depth (Sqlite.queueDepth now)

def Method.postgres : Method → Repo Value
  | initializeRuntimeConfig now c => valued .config (Postgres.initializeRuntimeConfig now c)
  | getRuntimeConfig => valued .config Postgres.getRuntimeConfig
  | patchRuntimeConfig now p => valued .config (Postgres.patchRuntimeConfig now p)
  | heartbeatWorker now id active busy =>
    valued (fun _ => .unit) (Postgres.heartbeatWorker now id active busy)
  | workerRuntimeStatus now age => valued .status (Postgres.workerRuntimeStatus now age)
  | createJob now id request m t key => valued .job (Postgres.createJob deps now id request m t key)
  | createJobsBatch now uuids requests m t =>
    valued .ids (Postgres.createJobsBatch deps now uuids requests m t)
  | getJob id => valued .job (Postgres.getJob deps id)
  | getJobByIdempotencyKey key => valued .job (Postgres.getJobByIdempotencyKey deps key)
  | createSchedule now id request m t =>
    valued .schedule (Postgres.createSchedule deps now id request m t)
  | getSchedule id => valued .schedule (Postgres.getSchedule deps id)
  | setScheduleEnabled now id enabled =>
    valued .schedule (Postgres.setScheduleEnabled deps now id enabled)
  | deleteSchedule id => valued .flag (Postgres.deleteSchedule id)
  | materializeDueSchedules now uuids limit =>
    valued .count (Postgres.materializeDueSchedules deps now uuids limit)
  | claimNextJob now w => valued .job (Postgres.claimNextJob deps now w)
  | markSucceeded now id w n startedAt result =>
    valued .job (Postgres.markSucceeded deps now id w n startedAt result)
  | markFailedAttempt now job w n startedAt error timedOut backoff =>
    valued .job (Postgres.markFailedAttempt deps now job w n startedAt error timedOut backoff)
  | recoverStaleJobs now grace => valued .count (Postgres.recoverStaleJobs now grace)
  | cancelJob now id => valued .job (Postgres.cancelJob deps now id)
  | drainQueue now => valued .count (Postgres.drainQueue now)
  | queueDepth now => valued .depth (Postgres.queueDepth now)

def Method.run : Engine → Method → Repo Value
  | .sqlite, m => m.sqlite deps
  | .postgres, m => m.postgres deps

/-- The rows have different keys. -/
def NoTies {α κ : Type} (key : α → κ) (l : List α) : Prop := ∀ a ∈ l, ∀ b ∈ l, key a = key b → a = b

/-- The keys of the two `ORDER BY` clauses. -/
def JobRow.claimKey (r : JobRow) : Int × DbTime × DbTime := (r.priority, r.runAt, r.createdAt)

/-- No ties on an `ORDER BY` key, and new ids from `uuid4()`. -/
def Method.Regular (s : Store) : Method → Prop
  | materializeDueSchedules now uuids limit =>
    NoTies (·.nextRunAt) (s.recurringSchedules.filter fun r => r.enabled && r.nextRunAt ≤ toDbTime now) ∧
      FreshIds uuids 0 limit s
  | claimNextJob now _ =>
    NoTies JobRow.claimKey (s.jobs.filter fun r => r.status = .queued && r.runAt ≤ toDbTime now)
  | _ => True

/-- The regular sessions from `s`: the methods, what each returned or raised, and the store at the
end. -/
inductive Session (engine : Engine) :
    Store → List Method → List (Except Err Value) → Store → Prop
  | nil {s s' : Store} : s.Reordered s' → Session engine s [] [] s'
  | cons {s s₁ s' : Store} {m : Method} {ms : List Method} {vs : List (Except Err Value)} :
      s.Reordered s₁ → m.Regular s₁ → Session engine (m.run deps engine s₁).2 ms vs s' →
      Session engine s (m :: ms) ((m.run deps engine s₁).1 :: vs) s'

end PulseQueue
