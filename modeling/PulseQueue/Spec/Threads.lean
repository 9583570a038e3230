import PulseQueue.Lib.SharedMemory
import PulseQueue.Model.Worker

/-!
# The worker threads of one process

Any number of threads in `_worker_loop`, command by command, on what they share: the monotonic clock, the
three maintenance locks with their last runs, `_busy_workers` and the stop event. What comes from
elsewhere (the repository, the handler, the configuration store, the list of threads) is arbitrary. Threads
may be started at any time, and `start` and `stop` may clear and set the event at any time.
-/

namespace PulseQueue

open Interaction Trace

structure PoolMemory where
  /-- the last answer of `time.monotonic()` -/
  clock : ℚ
  /-- `_last_config_sync`, `_last_scheduler_run`, `_last_reaper_run` -/
  lastRun : Maintenance → ℚ
  /-- `_config_sync_lock`, `_scheduler_lock`, `_reaper_lock` -/
  locked : Maintenance → Bool
  /-- `_busy_workers` -/
  busy : ℤ
  /-- `_stop_event` -/
  stopSet : Bool

/-- As `__init__` leaves it. -/
def PoolMemory.new (clock : ℚ) : PoolMemory := ⟨clock, fun _ => 0, fun _ => false, 0, false⟩

section
variable {ρ : Type}

/-- The answer of the memory to a command, and what it leaves. -/
def PoolMemory.Answers : (c : Command ρ) → PoolMemory → c.Answer → PoolMemory → Prop
  | .monotonic, m, t, m' => m.clock ≤ t ∧ m' = { m with clock := t }
  | .lastRun step, m, t, m' => t = m.lastRun step ∧ m' = m
  | .setLastRun step t, m, _, m' => m' = { m with lastRun := Function.update m.lastRun step t }
  | .acquire step, m, b, m' =>
    b = !m.locked step ∧ m' = { m with locked := Function.update m.locked step true }
  | .release step, m, _, m' => m' = { m with locked := Function.update m.locked step false }
  | .stopIsSet, m, b, m' => b = m.stopSet ∧ m' = m
  | .busyWorkers, m, n, m' => Int.ofNat n = m.busy ∧ m' = m
  | .addBusy n, m, _, m' => m' = { m with busy := m.busy + n }
  | _, m, _, m' => m' = m

/-- `stop` sets the event, `start` clears it. -/
def PoolMemory.Changes (m m' : PoolMemory) : Prop := ∃ b, m' = { m with stopSet := b }

/-- The threads of a pool, by their slots. -/
def workerThreads (ρ : Type) (pool : WorkerPool) :
    Shared.Machine Nat (Command ρ) Command.Answer PyExc Bool PoolMemory where
  answers := PoolMemory.Answers
  changes := PoolMemory.Changes
  body := workerRound pool
  again := fun leaves => leaves = false

abbrev WorkerThread (ρ : Type) := Shared.Thread Nat (Command ρ) Command.Answer PyExc Bool
abbrev ThreadsState (ρ : Type) := Shared.State Nat (Command ρ) Command.Answer PyExc Bool PoolMemory
abbrev ThreadEvent (ρ : Type) := Shared.Event Nat (Command ρ) Command.Answer

/-- The threads of a new pool at the time `clock`. -/
abbrev ThreadsRun (pool : WorkerPool) (clock : ℚ) (h : History (ThreadEvent ρ) (ThreadsState ρ)) : Prop :=
  Shared.Run (workerThreads ρ pool) (.new clock) h

/-- The present state of the threads. -/
abbrev threadsNow (clock : ℚ) (h : History (ThreadEvent ρ) (ThreadsState ρ)) : ThreadsState ρ :=
  now ⟨.new clock, []⟩ h

/-! ## Maintenance -/

/-- The interval of a step. -/
def WorkerPool.interval (pool : WorkerPool) : Maintenance → ℚ
  | .configSync => pool.configSyncIntervalSeconds
  | .scheduler => pool.schedulerIntervalSeconds
  | .reaper => pool.leaseReaperIntervalSeconds

/-- The step that makes this repository call. -/
def Command.maintains : Command ρ → Option Maintenance
  | .getRuntimeConfig | .heartbeatWorker _ _ _ => some .configSync
  | .materializeDueSchedules => some .scheduler
  | .recoverStaleJobs _ => some .reaper
  | _ => none

/-- The thread waits for the answer to a command with `p`. -/
def Awaits (p : Command ρ → Prop) (t : WorkerThread ρ) : Prop := ∃ c k, t.rest = .call c k ∧ p c

/-- The thread waits for a repository call of the step. -/
def Maintaining (step : Maintenance) : WorkerThread ρ → Prop := Awaits fun c => c.maintains = some step

/-- The time that the event records as the last run of the step. -/
def recordedBy (step : Maintenance) : ThreadEvent ρ → Option ℚ
  | .act ⟨.setLastRun s t, _⟩ => if s = step then some t else none
  | _ => none

/-- The event ends a pass of the step: its last repository call has returned. -/
def endsPass (step : Maintenance) : ThreadEvent ρ → Bool
  | .act ⟨.heartbeatWorker _ _ _, .ok _⟩ => step = .configSync
  | .act ⟨.materializeDueSchedules, .ok _⟩ => step = .scheduler
  | .act ⟨.recoverStaleJobs _, .ok _⟩ => step = .reaper
  | _ => false

/-- The recorded times of the step, latest first. -/
def recorded (step : Maintenance) (h : History (ThreadEvent ρ) (ThreadsState ρ)) : List ℚ :=
  h.filterMap fun e => recordedBy step e.event

/-- The number of passes of the step that did not fail. -/
def passCount (step : Maintenance) (h : History (ThreadEvent ρ) (ThreadsState ρ)) : ℕ :=
  h.countP fun e => endsPass step e.event

/-! ## Jobs -/

/-- What a thread does with a job it has claimed. -/
def Command.works : Command ρ → Prop
  | .handler _ _ _ | .jobs (.markSucceeded ..) | .jobs (.markFailedAttempt ..) => True
  | _ => False

/-- What a thread does without a job. -/
def Command.rests : Command ρ → Prop
  | .stopIsSet | .jobs (.claimNextJob _) | .wait _ | .getRuntimeConfig | .heartbeatWorker _ _ _
  | .materializeDueSchedules | .recoverStaleJobs _ => True
  | _ => False

/-- The thread has ended, by a return or an exception. -/
def Ended (t : WorkerThread ρ) : Prop := t.rest = .pure true ∨ ∃ exc, t.rest = .raise exc

/-- A claim hands a job to the thread, and the `-= 1` of `process_one` lets go of it. -/
def holdCheck (b : Bool) : Exchange (Command ρ) Command.Answer → Bool
  | ⟨.jobs (.claimNextJob _), .ok (some _)⟩ => true
  | ⟨.addBusy (.negSucc _), _⟩ => false
  | _ => b

/-- After these exchanges the thread holds a job. -/
def holdsJob (past : Talk ρ) : Bool := past.foldl holdCheck false

/-- The two commands between the claim and its `+= 1`, and that itself. -/
def Command.enters : Command ρ → Bool
  | .utcnow | .addBusy (.ofNat _) => true
  | _ => false

/-- The thread holds a job, and `process_one` has got past its `+= 1`. -/
def countsBusy (t : WorkerThread ρ) : Bool :=
  holdsJob t.past && match t.rest with
    | .call c _ => !c.enters
    | _ => true

/-- The event is a call of `claim_next_job`. -/
def claims : ThreadEvent ρ → Bool
  | .act ⟨.jobs (.claimNextJob _), _⟩ => true
  | _ => false

/-- The claims in these exchanges. -/
def claimCount (past : Talk ρ) : ℕ := past.countP fun x => claims (.act x)

/-- Finding the stop event not set allows a claim, which uses this up. -/
def claimCheck (b : Bool) : Exchange (Command ρ) Command.Answer → Bool
  | ⟨.stopIsSet, stop⟩ => b || !stop
  | ⟨.jobs (.claimNextJob _), _⟩ => false
  | _ => b

/-- After these exchanges a claim is allowed. -/
def claimState (past : Talk ρ) : Bool := past.foldl claimCheck false

/-- The thread found the stop event not set, and has not claimed since. -/
def mayClaim (t : WorkerThread ρ) : Bool := claimState t.past

end

end PulseQueue
