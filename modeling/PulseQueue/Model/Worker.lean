import PulseQueue.Lib.Interaction
import PulseQueue.Model.Repository

/-!
# Workers (`app/worker.py`)

`process_one` and the worker loop as programs whose commands are what a thread asks of its
surroundings: the repository, the handler, the clocks, the pool's events, locks and counters, the
configuration store. Repository calls and thread starts may answer with an exception. Blocking locks
guard single reads and writes and are no commands. The result type `ρ` of the handler is arbitrary.
-/

namespace PulseQueue

open Interaction

/-- A Python exception: is it a `TimeoutError` (that of `concurrent.futures` is the builtin one), and what
`str(exc)` comes to. -/
inductive PyExc
  | plain (isTimeout : Bool) (text : String)
  /-- `str(exc)` raises in its turn -/
  | unprintable (isTimeout : Bool) (raised : PyExc)
deriving DecidableEq

namespace PyExc

/-- `isinstance(exc, TimeoutError)`. -/
def isTimeout : PyExc → Bool
  | plain timeout _ => timeout
  | unprintable timeout _ => timeout

/-- `str(exc)`. -/
def str : PyExc → Except PyExc String
  | plain _ text => .ok text
  | unprintable _ raised => .error raised

end PyExc

/-- The three guarded maintenance steps. -/
inductive Maintenance
  | configSync
  | scheduler
  | reaper
deriving DecidableEq

/-- What `future.result(timeout=...)` finds. -/
inductive HandlerOutcome (ρ : Type)
  | returned (result : ρ)
  | raised (exc : PyExc)
  /-- not finished within the timeout -/
  | late

/-- The repository calls of `process_one`. `mark_succeeded` gets `job["id"]`. -/
inductive JobCall (ρ : Type)
  | claimNextJob (workerId : String)
  | markSucceeded (job : Job) (workerId : String) (attemptNo : Nat) (startedAt : UtcTime) (result : ρ)
  | markFailedAttempt (job : Job) (workerId : String) (attemptNo : Nat) (startedAt : UtcTime)
      (error : String) (timedOut : Bool) (backoffSeconds : PyFloat)

inductive Command (ρ : Type)
  | jobs (call : JobCall ρ)
  | getRuntimeConfig
  | heartbeatWorker (instanceId : String) (activeThreads busyThreads : Nat)
  | materializeDueSchedules
  | recoverStaleJobs (leaseGraceSeconds : ℚ)
  /-- `executor.submit(self.handler, payload, attempt_no)`, which may raise before the handler is called, and
  `future.result(timeout=...)` -/
  | handler (payload : Json) (attemptNo : Nat) (timeout : ℚ)
  /-- `datetime.now(timezone.utc)` -/
  | utcnow
  /-- `time.monotonic()` -/
  | monotonic
  /-- `self._last_..._run` -/
  | lastRun (step : Maintenance)
  | setLastRun (step : Maintenance) (now : ℚ)
  /-- `self._..._lock.acquire(blocking=False)` -/
  | acquire (step : Maintenance)
  | release (step : Maintenance)
  /-- `self._stop_event.is_set()` -/
  | stopIsSet
  /-- `self._stop_event.wait(...)` -/
  | wait (seconds : ℚ)
  /-- `self.config.view()`: the pool's store has validated values once the pool has started. -/
  | configView
  /-- `self.config.replace(...)` -/
  | configReplace (config : RuntimeConfig)
  /-- `self._started` -/
  | started
  /-- `self._threads = [thread for thread in self._threads if thread.is_alive()]`, its length -/
  | aliveThreads
  /-- a new thread with `self._worker_loop(index)`, started -/
  | startThread (index : Nat)
  /-- `self._busy_workers` -/
  | busyWorkers
  /-- `self._busy_workers += n` -/
  | addBusy (n : Int)

def Command.Answer {ρ : Type} : Command ρ → Type
  | jobs _ => Except PyExc (Option Job)
  | getRuntimeConfig => Except PyExc RuntimeConfig
  | heartbeatWorker _ _ _ => Except PyExc Unit
  | materializeDueSchedules => Except PyExc Nat
  | recoverStaleJobs _ => Except PyExc Nat
  | handler _ _ _ => Except PyExc (HandlerOutcome ρ)
  | utcnow => UtcTime
  | monotonic => ℚ
  | lastRun _ => ℚ
  | setLastRun _ _ => Unit
  | acquire _ => Bool
  | release _ => Unit
  | stopIsSet => Bool
  | wait _ => Unit
  | configView => RuntimeConfig
  | configReplace _ => Unit
  | started => Bool
  | aliveThreads => Nat
  | startThread _ => Except PyExc Unit
  | busyWorkers => Nat
  | addBusy _ => Unit

/-- The code of a worker thread. -/
abbrev Code (ρ α : Type) := Prog (Command ρ) Command.Answer PyExc α

/-- What a worker thread asked, and the answers. -/
abbrev Talk (ρ : Type) := Conversation (Command ρ) Command.Answer

/-- The settings of a pool. -/
structure WorkerPool where
  instanceId : String
  pollIntervalSeconds : ℚ
  leaseGraceSeconds : ℚ
  leaseReaperIntervalSeconds : ℚ
  schedulerIntervalSeconds : ℚ
  configSyncIntervalSeconds : ℚ

section
variable {ρ : Type}

/-! ## The commands as code -/

namespace Code

def jobs (call : JobCall ρ) : Code ρ (Option Job) := .call (.jobs call) Prog.ofExcept
def getRuntimeConfig : Code ρ RuntimeConfig := .call .getRuntimeConfig Prog.ofExcept
def heartbeatWorker (instanceId : String) (activeThreads busyThreads : Nat) : Code ρ Unit :=
  .call (.heartbeatWorker instanceId activeThreads busyThreads) Prog.ofExcept
def materializeDueSchedules : Code ρ Nat := .call .materializeDueSchedules Prog.ofExcept
def recoverStaleJobs (leaseGraceSeconds : ℚ) : Code ρ Nat :=
  .call (.recoverStaleJobs leaseGraceSeconds) Prog.ofExcept
def startThread (index : Nat) : Code ρ Unit := .call (.startThread index) Prog.ofExcept
def handler (payload : Json) (attemptNo : Nat) (timeout : ℚ) : Code ρ (HandlerOutcome ρ) :=
  .call (.handler payload attemptNo timeout) Prog.ofExcept
def utcnow : Code ρ UtcTime := .call .utcnow .pure
def monotonic : Code ρ ℚ := .call .monotonic .pure
def lastRun (step : Maintenance) : Code ρ ℚ := .call (.lastRun step) .pure
def setLastRun (step : Maintenance) (now : ℚ) : Code ρ Unit := .call (.setLastRun step now) .pure
def acquire (step : Maintenance) : Code ρ Bool := .call (.acquire step) .pure
def release (step : Maintenance) : Code ρ Unit := .call (.release step) .pure
def stopIsSet : Code ρ Bool := .call .stopIsSet .pure
def wait (seconds : ℚ) : Code ρ Unit := .call (.wait seconds) .pure
def configView : Code ρ RuntimeConfig := .call .configView .pure
def configReplace (config : RuntimeConfig) : Code ρ Unit := .call (.configReplace config) .pure
def started : Code ρ Bool := .call .started .pure
def aliveThreads : Code ρ Nat := .call .aliveThreads .pure
def busyWorkers : Code ρ Nat := .call .busyWorkers .pure
def addBusy (n : Int) : Code ρ Unit := .call (.addBusy n) .pure

end Code

open Code

/-! ## One job -/

/-- `_run_with_timeout`; shutting down the executor waits for nothing. -/
def runWithTimeout (job : Job) (attemptNo : Nat) : Code ρ ρ := do
  match ← handler job.payload attemptNo job.timeoutSeconds with
  | .returned result => pure result
  | .raised exc => .raise exc
  | .late => .raise (.plain true "")

/-- `x * n`. The factor is a power of two, at most 2^20 for a job within its budget, so the product
is exact. -/
def PyFloat.scale : PyFloat → Nat → PyFloat
  | .rat q, n => .rat (q * n)
  | .nan, _ => .nan

/-- `_record_failure`. -/
def recordFailure (job : Job) (workerId : String) (attemptNo : Nat) (startedAt : UtcTime)
    (error : String) (timedOut : Bool) : Code ρ (Option Job) := do
  let config ← configView
  let backoffSeconds :=
    (config.backoffBaseSeconds.scale (2 ^ (attemptNo - 1))).min config.backoffMaxSeconds
  jobs (.markFailedAttempt job workerId attemptNo startedAt error timedOut backoffSeconds)

/-- `process_one`. Its second `except` clause asks for `str(exc)` outside of any `try`. -/
def processOne (workerId : String) : Code ρ (Option Job) := do
  match ← jobs (.claimNextJob workerId) with
  | none => pure none
  | some job =>
    let attemptNo := job.attemptCount + 1
    let startedAt ← utcnow
    addBusy 1
    Prog.tryFinally
      (Prog.tryCatch
        (do
          let result ← runWithTimeout job attemptNo
          jobs (.markSucceeded job workerId attemptNo startedAt result))
        fun exc =>
          if exc.isTimeout then
            recordFailure job workerId attemptNo startedAt "attempt timed out" true
          else do
            let error ← Prog.ofExcept exc.str
            recordFailure job workerId attemptNo startedAt error false)
      (addBusy (-1))

/-! ## Maintenance -/

/-- The frame of the three `_maybe_...` steps: at most every `interval` seconds and by one thread at
a time; every exception is logged and dropped. -/
def guarded (step : Maintenance) (interval : ℚ) (body : ℚ → Code ρ Unit) : Code ρ Unit := do
  let now ← monotonic
  let last ← lastRun step
  if now - last < interval then pure ()
  else
    if ← acquire step then
      Prog.tryFinally
        (Prog.tryCatch
          (do
            let now ← monotonic
            let last ← lastRun step
            if now - last < interval then pure () else body now)
          fun _ => pure ())
        (release step)
    else pure ()

/-- `for index in range(first, first + n)`: start the thread. -/
def startThreads (first : Nat) : Nat → Code ρ Unit
  | 0 => pure ()
  | n + 1 => do
    startThread first
    startThreads (first + 1) n

/-- `_ensure_threads_locked`. -/
def ensureThreadsLocked : Code ρ Unit := do
  let current ← aliveThreads
  let config ← configView
  startThreads (current + 1) (config.workerConcurrency.toNat - current)

def reconcile : Code ρ Unit := do
  if ← started then ensureThreadsLocked else pure ()

/-- `_maybe_sync_runtime_config`. -/
def maybeSyncRuntimeConfig (pool : WorkerPool) : Code ρ Unit :=
  guarded .configSync pool.configSyncIntervalSeconds fun now => do
    let shared ← getRuntimeConfig
    let view ← configView
    configReplace shared
    (if shared ≠ view then reconcile else pure ())
    let activeThreads ← aliveThreads
    let busy ← busyWorkers
    heartbeatWorker pool.instanceId activeThreads busy
    setLastRun .configSync now

/-- `_maybe_materialize_schedules`. -/
def maybeMaterializeSchedules (pool : WorkerPool) : Code ρ Unit :=
  guarded .scheduler pool.schedulerIntervalSeconds fun now => do
    let _created ← materializeDueSchedules
    setLastRun .scheduler now

/-- `_maybe_recover_stale_jobs`. -/
def maybeRecoverStaleJobs (pool : WorkerPool) : Code ρ Unit :=
  guarded .reaper pool.leaseReaperIntervalSeconds fun now => do
    let _recovered ← recoverStaleJobs pool.leaseGraceSeconds
    setLastRun .reaper now

/-! ## The loop -/

/-- One round of `_worker_loop`; `true` when it leaves the loop. -/
def workerRound (pool : WorkerPool) (slot : Nat) : Code ρ Bool := do
  if ← stopIsSet then pure true
  else
    maybeSyncRuntimeConfig pool
    let config ← configView
    if config.workerConcurrency < slot then pure true
    else
      maybeMaterializeSchedules pool
      maybeRecoverStaleJobs pool
      let processed ← processOne (pool.instanceId ++ "-" ++ toString slot)
      (if processed.isNone then wait pool.pollIntervalSeconds else pure ())
      pure false

/-- The runs of `_worker_loop` that end, by a return or by an exception. -/
inductive WorkerLoop (pool : WorkerPool) (slot : Nat) : Talk ρ → Except PyExc Unit → Prop
  | next {tr tr' : Talk ρ} {result : Except PyExc Unit} :
      After (workerRound pool slot) tr (.pure false) → WorkerLoop pool slot tr' result →
      WorkerLoop pool slot (tr ++ tr') result
  | leave {tr : Talk ρ} : After (workerRound pool slot) tr (.pure true) →
      WorkerLoop pool slot tr (.ok ())
  | raised {tr : Talk ρ} {exc : PyExc} : After (workerRound pool slot) tr (.raise exc) →
      WorkerLoop pool slot tr (.error exc)

end

end PulseQueue
