import PulseQueue.Lib.Trace
import PulseQueue.Model.Postgres
import PulseQueue.Model.Sqlite

/-!
# Runs

A run of the system: any number of clients, workers and schedulers call the operations on one store,
in any order. Each call is a transaction that commits or raises; a call may also abort at any
statement (`Event.abort`), which rolls it back. A completion is called with the snapshot, the worker and
the number `attempt_count + 1` of some earlier claim, late, twice or never (`Allowed`). Rows have no
order: the engine may list them differently at any time (`Event.reorder`).
-/

namespace PulseQueue

open Txn Trace

inductive Engine
  | sqlite
  | postgres
deriving DecidableEq

/-- The transactions, with the clock readings and ids they use. `skipped` has the rows that other
open transactions lock (Postgres). -/
inductive Op
  | createJob (now : UtcTime) (jobId : String) (request : JobCreate) (maxRetries : Nat)
      (timeoutSeconds : ℚ) (idempotencyKey : Option String)
  | createJobsBatch (now : UtcTime) (uuids : Nat → String) (requests : List JobCreate)
      (maxRetries : Nat) (timeoutSeconds : ℚ)
  | createSchedule (now : UtcTime) (scheduleId : String) (request : ScheduleCreate)
      (maxRetries : Nat) (timeoutSeconds : ℚ)
  | writeSchedule (now : UtcTime) (scheduleId : String) (enabled : Bool) (nextRunAt : UtcTime)
  | deleteSchedule (scheduleId : String)
  | materialize (skipped : String → Bool) (now : UtcTime) (uuids : Nat → String) (limit : Nat)
  | claim (skipped : String → Bool) (now : UtcTime) (workerId : String)
  | markSucceeded (now : UtcTime) (job : Job) (workerId : String) (attemptNo : Nat)
      (startedAt : UtcTime) (result : List (String × Json))
  | markFailedAttempt (now : UtcTime) (job : Job) (workerId : String) (attemptNo : Nat)
      (startedAt : UtcTime) (error : String) (timedOut : Bool) (backoffSeconds : ℚ)
  | recoverStaleJobs (skipped : String → Bool) (now : UtcTime) (leaseGraceSeconds : ℚ)
  | cancelJob (now : UtcTime) (jobId : String)
  | drainQueue (now : UtcTime)
  | initializeRuntimeConfig (now : UtcTime) (default : RuntimeConfig)
  | patchRuntimeConfig (now : UtcTime) (patch : RuntimeConfigPatch)
  | heartbeatWorker (now : UtcTime) (instanceId : String) (activeThreads busyThreads : Nat)

inductive Reply
  | done
  | job (j : Option Job)
  | count (n : Nat)
  | config (c : RuntimeConfig)

/-- A body with its result as a reply. -/
def reply {α : Type} (f : α → Reply) (x : Body α) : Body Reply := do
  let a ← x
  pure (f a)

theorem reply_ok {α : Type} {f : α → Reply} {x : Body α} {s s' : Store} {r : Reply} :
    reply f x s = .ok (r, s') ↔ ∃ a, x s = .ok (a, s') ∧ r = f a := by
  unfold reply
  rw [Tx.bind_eq_ok]
  constructor
  · rintro ⟨a, s₁, hx, hp⟩
    cases hp
    exact ⟨a, hx, rfl⟩
  · rintro ⟨a, hx, rfl⟩
    exact ⟨a, s', hx, rfl⟩

theorem reply_congr {α : Type} {f : α → Reply} {x y : Body α} {s : Store} (h : x s = y s) :
    reply f x s = reply f y s := by
  unfold reply
  rw [Tx.bind_run, Tx.bind_run, h]

theorem atomically_reply {α : Type} (f : α → Reply) (x : Body α) (s : Store) :
    (atomically (reply f x) s).2 = (atomically x s).2 := by
  rcases atomically_cases x s with ⟨a, s', hx, hat⟩ | ⟨e, hx, hat⟩
  · rw [hat, atomically_ok (reply_ok.2 ⟨a, hx, rfl⟩)]
  · rw [hat, atomically_error (e := e)]
    unfold reply
    exact Tx.bind_error hx

variable (deps : Deps)

def Op.body : Engine → Op → Body Reply
  | .sqlite, .createJob now id request m t key =>
    reply (fun _ => .done) (Sqlite.createJobTxn deps now id request m t key)
  | .postgres, .createJob now id request m t key =>
    reply (fun _ => .done) (Postgres.createJobTxn deps now id request m t key)
  | .sqlite, .createJobsBatch now uuids requests m t =>
    reply (fun _ => .done) (Sqlite.insertJobs (Sqlite.batchRows deps now uuids m t 0 requests))
  | .postgres, .createJobsBatch now uuids requests m t =>
    reply (fun _ => .done) (Postgres.insertJobs (Postgres.batchRows deps now uuids m t 0 requests))
  | .sqlite, .createSchedule now id request m t =>
    reply (fun _ => .done) (Sqlite.createScheduleTxn deps now id request m t)
  | .postgres, .createSchedule now id request m t =>
    reply (fun _ => .done) (Postgres.createScheduleTxn deps now id request m t)
  | .sqlite, .writeSchedule now id enabled next =>
    reply .count (Sqlite.writeScheduleTxn now id enabled next)
  | .postgres, .writeSchedule now id enabled next =>
    reply .count (Postgres.writeScheduleTxn now id enabled next)
  | _, .deleteSchedule id => reply .count (deleteScheduleRow id)
  | .sqlite, .materialize _ now uuids limit =>
    reply .count (Sqlite.materializeDueSchedulesTxn deps now uuids limit)
  | .postgres, .materialize skipped now uuids limit =>
    reply .count (Postgres.materializeDueSchedulesTxn deps skipped now uuids limit)
  | .sqlite, .claim _ now w => reply .job (Sqlite.claimNextJobTxn deps now w)
  | .postgres, .claim skipped now w => reply .job (Postgres.claimNextJobTxn deps skipped now w)
  | .sqlite, .markSucceeded now job w n startedAt result =>
    reply .job (Sqlite.markSucceededTxn deps now job.id w n startedAt result)
  | .postgres, .markSucceeded now job w n startedAt result =>
    reply .job (Postgres.markSucceededTxn deps now job.id w n startedAt result)
  | .sqlite, .markFailedAttempt now job w n startedAt error timedOut backoff =>
    reply .job (Sqlite.markFailedAttemptTxn deps now job w n startedAt error timedOut backoff)
  | .postgres, .markFailedAttempt now job w n startedAt error timedOut backoff =>
    reply .job (Postgres.markFailedAttemptTxn deps now job w n startedAt error timedOut backoff)
  | .sqlite, .recoverStaleJobs _ now grace => reply .count (Sqlite.recoverStaleJobsTxn now grace)
  | .postgres, .recoverStaleJobs skipped now grace =>
    reply .count (Postgres.recoverStaleJobsTxn skipped now grace)
  | .sqlite, .cancelJob now id => reply .count (Sqlite.cancelJobTxn now id)
  | .postgres, .cancelJob now id => reply .count (Postgres.cancelJobTxn now id)
  | .sqlite, .drainQueue now => reply .count (Sqlite.drainQueueTxn now)
  | .postgres, .drainQueue now => reply .count (Postgres.drainQueueTxn now)
  | .sqlite, .initializeRuntimeConfig now c =>
    reply (fun _ => .done) (Sqlite.initializeRuntimeConfigTxn now c)
  | .postgres, .initializeRuntimeConfig now c =>
    reply (fun _ => .done) (Postgres.initializeRuntimeConfigTxn now c)
  | .sqlite, .patchRuntimeConfig now p => reply .config (Sqlite.patchRuntimeConfigTxn now p)
  | .postgres, .patchRuntimeConfig now p => reply .config (Postgres.patchRuntimeConfigTxn now p)
  | .sqlite, .heartbeatWorker now id active busy =>
    reply (fun _ => .done) (Sqlite.heartbeatWorkerTxn now id active busy)
  | .postgres, .heartbeatWorker now id active busy =>
    reply (fun _ => .done) (Postgres.heartbeatWorkerTxn now id active busy)

/-- The claim that a completion belongs to, its worker and its attempt number. -/
def Op.completes : Op → Option (Job × String × Nat)
  | .markSucceeded _ job w n _ _ => some (job, w, n)
  | .markFailedAttempt _ job w n _ _ _ _ => some (job, w, n)
  | _ => none

/-- How a completion marks its attempt. -/
def Op.mark : Op → Option AttemptStatus
  | .markSucceeded .. => some .succeeded
  | .markFailedAttempt _ _ _ _ _ _ timedOut _ => some (if timedOut then .timedOut else .failed)
  | _ => none

/-- The transactions about the configuration. -/
def Op.onConfig : Op → Bool
  | .initializeRuntimeConfig .. | .patchRuntimeConfig .. => true
  | _ => false

/-! ## Histories of the store -/

inductive Event
  | call (op : Op) (out : Except Err Reply)
  | abort (op : Op)
  | reorder

/-- The worker and the snapshot of a claim that returned a job. -/
def Event.claimed : Event → Option (String × Job)
  | .call (.claim _ _ w) (.ok (.job (some c))) => some (w, c)
  | _ => none

/-- Some call by `w` returned `c`. -/
def Claimed (h : History Event Store) (w : String) (c : Job) : Prop :=
  ∃ e ∈ h, e.event.claimed = some (w, c)

/-- Completions belong to earlier claims. -/
def Allowed (h : History Event Store) (op : Op) : Prop :=
  ∀ c w n, op.completes = some (c, w, n) → n = c.attemptCount + 1 ∧ Claimed h w c

/-- The same rows in some other order. -/
structure Store.Reordered (s s' : Store) : Prop where
  jobs : s.jobs.Perm s'.jobs
  jobAttempts : s.jobAttempts.Perm s'.jobAttempts
  deadLetters : s.deadLetters.Perm s'.deadLetters
  recurringSchedules : s.recurringSchedules.Perm s'.recurringSchedules
  runtimeConfig : s.runtimeConfig = s'.runtimeConfig
  workerInstances : s.workerInstances.Perm s'.workerInstances

/-- The generated ids from `i` to `n` are new and different. -/
structure FreshIds (uuids : Nat → String) (i n : Nat) (s : Store) : Prop where
  new : ∀ k, i ≤ k → k < n → ∀ o ∈ s.jobs, o.id ≠ uuids k
  inj : ∀ j < n, ∀ k < n, uuids j = uuids k → j = k

inductive RunStep (engine : Engine) (h : History Event Store) : Event → Store → Prop
  | call (op : Op) : Allowed h op → RunStep engine h
      (.call op (atomically (op.body deps engine) (now Store.empty h)).1)
      (atomically (op.body deps engine) (now Store.empty h)).2
  | abort (op : Op) : RunStep engine h (.abort op) (now Store.empty h)
  | reorder {s : Store} : (now Store.empty h).Reordered s → RunStep engine h .reorder s

variable {deps}

/-- A call commits its body's result, or raises and changes nothing. -/
theorem RunStep.call_cases {engine : Engine} {h : History Event Store} {op : Op}
    {out : Except Err Reply} {s : Store} (hs : RunStep deps engine h (.call op out) s) :
    Allowed h op ∧ ((∃ r, op.body deps engine (now Store.empty h) = .ok (r, s) ∧ out = .ok r) ∨
      ∃ e, out = .error e ∧ s = now Store.empty h) := by
  cases hs with
  | call _ ha =>
    refine ⟨ha, ?_⟩
    rcases atomically_cases (op.body deps engine) (now Store.empty h) with
      ⟨r, s', hx, hat⟩ | ⟨e, -, hat⟩
    · rw [hat]
      exact .inl ⟨r, hx, rfl⟩
    · rw [hat]
      exact .inr ⟨e, rfl, rfl⟩

variable (deps)

/-- The histories of the system, from the empty store. -/
abbrev Run (engine : Engine) (h : History Event Store) : Prop :=
  Valid Store.empty (RunStep deps engine) h

/-- The present store of a history. -/
abbrev present (h : History Event Store) : Store := now Store.empty h

variable {deps}

/-- The event creates the schedule `S`. -/
def Event.creates (S : String) : Event → Prop
  | .call (.createSchedule _ id _ _ _) _ => id = S
  | _ => False

/-- The event uses generated ids that are new: no `uuid4()` repeats. -/
def Event.Fresh (h : History Event Store) : Event → Prop
  | .call (.materialize _ _ uuids limit) _ => FreshIds uuids 0 limit (present h)
  | .call (.createSchedule _ id _ _ _) _ => ∀ x ∈ h, ¬ x.event.creates id
  | _ => True

/-- Every event of the history used new ids. -/
def FreshRun : History Event Store → Prop
  | [] => True
  | e :: h => e.event.Fresh h ∧ FreshRun h

/-- A history, one call later. -/
def afterCall (deps : Deps) (engine : Engine) (h : History Event Store) (op : Op) :
    History Event Store :=
  ⟨.call op (atomically (op.body deps engine) (present h)).1,
    (atomically (op.body deps engine) (present h)).2⟩ :: h

theorem Run.afterCall {engine : Engine} {h : History Event Store}
    (hr : Run deps engine h) {op : Op} (ha : Allowed h op) :
    Run deps engine (afterCall deps engine h op) :=
  Valid.cons hr (RunStep.call op ha)

/-- Operations that are no completions are always allowed. -/
theorem Allowed.of_none {h : History Event Store} {op : Op} (hop : op.completes = none) :
    Allowed h op := by
  intro c w n hc
  rw [hop] at hc
  cases hc

end PulseQueue
