import PulseQueue.Lib.Trace
import PulseQueue.Model.ConfigStore
import PulseQueue.Model.Worker

/-!
# One process and its worker pool

The threads of a `WorkerPool`, its lock, its store and the shared row, while requests start, stop,
resize and reconcile the pool and refresh the store, a worker synchronizes, worker threads leave their
loop, and other processes change the row, in any interleaving. `start`, `reconcile` and
`_ensure_threads_locked` run under `_lock`, so one of them at a time (`Critical`); the synchronization runs
under `_config_sync_lock` (`Sync`).

A thread that has left its loop is still alive for a while. A count of the live threads is one step: that
the code asks them one after the other gives the number of some moment in between.
-/

namespace PulseQueue

open Trace Interaction

/-- A live thread of the pool; has it left its loop? -/
structure Thread where
  slot : Nat
  leaving : Bool
deriving DecidableEq

/-- What the holder of `_lock` does next. -/
inductive Critical
  /-- `start`: `repository.get_runtime_config()` -/
  | fetch
  /-- `start`: `config.replace(...)` -/
  | replace (config : RuntimeConfig)
  /-- `start`: `_started = True` and `_stop_event.clear()` -/
  | started
  /-- `_ensure_threads_locked`: count the live threads -/
  | count
  /-- read `desired_concurrency` -/
  | desired (current : Nat)
  /-- start the threads from `next` to `last` -/
  | create (next last : Nat)
deriving DecidableEq

/-- Who has the lock. -/
inductive Caller
  | request
  | sync
deriving DecidableEq

/-- Where the synchronization is. -/
inductive Sync
  | idle
  /-- `get_runtime_config()` returned `shared` -/
  | read (shared : RuntimeConfig)
  /-- `changed = shared != self.config.view()` -/
  | compared (shared : RuntimeConfig) (changed : Bool)
  /-- the store is replaced; `reconcile()` is next -/
  | changed (shared : RuntimeConfig)
  | reconciling (shared : RuntimeConfig)
  /-- the heartbeat is next -/
  | finishing (shared : RuntimeConfig)
deriving DecidableEq

structure Process where
  /-- the shared row, as a read returns it -/
  row : RuntimeConfig
  config : RuntimeConfigStore
  started : Bool
  /-- `_stop_event` -/
  stopSet : Bool
  /-- the live threads -/
  threads : List Thread
  lock : Option (Caller × Critical)
  sync : Sync
  /-- read by `GET /config` and `GET /metrics`, not yet put into the store -/
  reads : List RuntimeConfig
  /-- committed by `PATCH /config` here, not yet put into the store -/
  patches : List RuntimeConfig
  /-- the reconciles that requests still have to make -/
  waiting : Nat
  /-- the calls of `stop` in progress -/
  stopping : Nat
deriving DecidableEq

/-- `desired_concurrency`. -/
def RuntimeConfig.size (config : RuntimeConfig) : Nat := config.workerConcurrency.toNat

def Process.desired (p : Process) : Nat := p.config.view.size

/-- The slots of the live threads. -/
def Process.slots (p : Process) : List Nat := p.threads.map (·.slot)

/-- `worker_id` of a thread. -/
def workerId (instanceId : String) (slot : Nat) : String := instanceId ++ "-" ++ toString slot

/-- A new pool in a process that has put the row into its store. -/
def Process.new (row : RuntimeConfig) : Process where
  row := row
  config := ⟨row.toConfigValues, row.isValid⟩
  started := false
  stopSet := false
  threads := []
  lock := none
  sync := .idle
  reads := []
  patches := []
  waiting := 0
  stopping := 0

/-- The synchronization after its reconcile. -/
def Sync.reconciled : Sync → Sync
  | .reconciling shared => .finishing shared
  | s => s

/-- The lock is let go. -/
def Process.release (p : Process) : Caller → Process
  | .request => { p with lock := none }
  | .sync => { p with lock := none, sync := p.sync.reconciled }

/-- The lock is let go by an exception; a synchronization ends with it. -/
def Process.abandon (p : Process) : Caller → Process
  | .request => { p with lock := none }
  | .sync => { p with lock := none, sync := .idle }

/-- `range(current + 1, desired + 1)`, if not empty. -/
def Process.range (p : Process) (caller : Caller) (current desired : Nat) : Process :=
  if current < desired then { p with lock := some (caller, .create (current + 1) desired) }
  else p.release caller

/-- After the thread `next` is started. -/
def Process.created (p : Process) (caller : Caller) (next last : Nat) : Process :=
  let p := { p with threads := ⟨next, false⟩ :: p.threads }
  if next < last then { p with lock := some (caller, .create (next + 1) last) } else p.release caller

section
variable {p : Process}

@[simp] theorem release_threads (p : Process) (caller : Caller) :
    (p.release caller).threads = p.threads := by
  cases caller <;> rfl

@[simp] theorem release_lock (p : Process) (caller : Caller) : (p.release caller).lock = none := by
  cases caller <;> rfl

@[simp] theorem abandon_threads (p : Process) (caller : Caller) :
    (p.abandon caller).threads = p.threads := by
  cases caller <;> rfl

@[simp] theorem abandon_lock (p : Process) (caller : Caller) : (p.abandon caller).lock = none := by
  cases caller <;> rfl

@[simp] theorem range_threads (p : Process) (caller : Caller) (current size : Nat) :
    (p.range caller current size).threads = p.threads := by
  unfold Process.range
  split
  · rfl
  · exact release_threads p caller

/-- What is left of a range. -/
theorem range_lock {caller c : Caller} {current size next last : Nat}
    (h : (p.range caller current size).lock = some (c, .create next last)) :
    c = caller ∧ next = current + 1 ∧ last = size ∧ current < size := by
  unfold Process.range at h
  split at h
  · cases h
    exact ⟨rfl, rfl, rfl, ‹_›⟩
  · rw [release_lock] at h
    cases h

@[simp] theorem created_threads (p : Process) (caller : Caller) (next last : Nat) :
    (p.created caller next last).threads = ⟨next, false⟩ :: p.threads := by
  unfold Process.created
  dsimp only
  split
  · rfl
  · exact release_threads _ caller

theorem created_lock {caller c : Caller} {next last n l : Nat}
    (h : (p.created caller next last).lock = some (c, .create n l)) :
    c = caller ∧ n = next + 1 ∧ l = last ∧ next < last := by
  unfold Process.created at h
  dsimp only at h
  split at h
  · cases h
    exact ⟨rfl, rfl, rfl, ‹_›⟩
  · rw [release_lock] at h
    cases h

/-- The lock and the synchronization after a step of the thread creation: threads are still to be started,
or the lock is let go. -/
def Process.Handed (p : Process) (caller : Caller) (lock : Option (Caller × Critical)) (sync : Sync) :
    Prop :=
  (∃ next last, lock = some (caller, .create next last)) ∧ sync = p.sync ∨
    lock = none ∧ sync = if caller = .sync then p.sync.reconciled else p.sync

theorem range_handed (p : Process) (caller : Caller) (current size : Nat) :
    ∃ lock sync, p.range caller current size = { p with lock := lock, sync := sync } ∧
      p.Handed caller lock sync := by
  unfold Process.range
  split
  · exact ⟨_, _, rfl, .inl ⟨⟨_, _, rfl⟩, rfl⟩⟩
  · cases caller <;> exact ⟨_, _, rfl, .inr ⟨rfl, rfl⟩⟩

theorem created_handed (p : Process) (caller : Caller) (next last : Nat) :
    ∃ lock sync, p.created caller next last =
        { p with threads := ⟨next, false⟩ :: p.threads, lock := lock, sync := sync } ∧
      p.Handed caller lock sync := by
  unfold Process.created
  dsimp only
  split
  · exact ⟨_, _, rfl, .inl ⟨⟨_, _, rfl⟩, rfl⟩⟩
  · cases caller <;> exact ⟨_, _, rfl, .inr ⟨rfl, rfl⟩⟩

theorem Process.Handed.request {lock : Option (Caller × Critical)} {sync : Sync}
    (hh : p.Handed .request lock sync) : sync = p.sync := by
  rcases hh with ⟨-, hs⟩ | ⟨-, hs⟩
  · exact hs
  · exact hs

end

/-! ## Steps -/

inductive ProcessEvent
  /-- another process changes the row -/
  | remote (row : RuntimeConfig)
  /-- `PATCH /config` here: the row -/
  | patch (row : RuntimeConfig)
  /-- `PATCH /config` here: `config.replace(updated)` -/
  | replacePatched (config : RuntimeConfig)
  /-- `GET /config` or `GET /metrics` here: the row -/
  | read
  /-- the same: `config.replace(...)` -/
  | replaceRead (config : RuntimeConfig)
  /-- `resize`: `config.patch(...)` -/
  | resize (patch : RuntimeConfigPatch)
  | start
  | fetch
  | fetchFails
  | replaceFetched
  | setStarted
  | stop
  | stopped
  /-- `with self._lock` of `reconcile` -/
  | acquire (caller : Caller)
  | count
  | desired (size : Nat)
  | create
  /-- `thread.start()` raises -/
  | createFails
  | syncRead
  | syncCompare
  | syncReplace
  | syncEnd (shared : RuntimeConfig)
  /-- an exception ends the synchronization -/
  | syncFails
  /-- a thread finds the stop event set, or `slot > desired_concurrency` -/
  | leave (slot : Nat)
  | exit (slot : Nat)
  /-- a thread ends for any other reason -/
  | die (thread : Thread)

/-- No exception. -/
def ProcessEvent.Orderly : ProcessEvent → Prop
  | .die _ | .createFails | .fetchFails | .syncFails => False
  | _ => True

inductive ProcessStep (p : Process) : ProcessEvent → Process → Prop
  | remote (row : RuntimeConfig) : ProcessStep p (.remote row) { p with row := row }
  | patch (row : RuntimeConfig) :
      ProcessStep p (.patch row) { p with row := row, patches := row :: p.patches }
  | replacePatched {c : RuntimeConfig} : c ∈ p.patches →
      ProcessStep p (.replacePatched c) { p with config := p.config.replace c
                                                 patches := p.patches.erase c
                                                 waiting := p.waiting + 1 }
  | read : ProcessStep p .read { p with reads := p.row :: p.reads }
  | replaceRead {c : RuntimeConfig} : c ∈ p.reads →
      ProcessStep p (.replaceRead c) { p with config := p.config.replace c, reads := p.reads.erase c }
  | resize (patch : RuntimeConfigPatch) :
      ProcessStep p (.resize patch) { p with config := p.config.patch patch
                                             waiting := p.waiting + 1 }
  | start : p.lock = none → p.started = false →
      ProcessStep p .start { p with lock := some (.request, .fetch) }
  | fetch {caller : Caller} : p.lock = some (caller, .fetch) →
      ProcessStep p .fetch { p with lock := some (caller, .replace p.row) }
  | fetchFails {caller : Caller} : p.lock = some (caller, .fetch) →
      ProcessStep p .fetchFails (p.abandon caller)
  | replaceFetched {caller : Caller} {c : RuntimeConfig} : p.lock = some (caller, .replace c) →
      ProcessStep p .replaceFetched { p with config := p.config.replace c
                                             lock := some (caller, .started) }
  | setStarted {caller : Caller} : p.lock = some (caller, .started) →
      ProcessStep p .setStarted { p with started := true, stopSet := false
                                         lock := some (caller, .count) }
  | stop : ProcessStep p .stop { p with stopSet := true, stopping := p.stopping + 1 }
  | stopped {n : Nat} : p.stopping = n + 1 → p.lock = none →
      ProcessStep p .stopped { p with started := false, stopping := n }
  | acquire {n : Nat} : p.lock = none → p.waiting = n + 1 → p.started = true →
      ProcessStep p (.acquire .request) { p with waiting := n, lock := some (.request, .count) }
  | skip {n : Nat} : p.lock = none → p.waiting = n + 1 → p.started = false →
      ProcessStep p (.acquire .request) { p with waiting := n }
  | syncAcquire {c : RuntimeConfig} : p.lock = none → p.sync = .changed c → p.started = true →
      ProcessStep p (.acquire .sync) { p with sync := .reconciling c, lock := some (.sync, .count) }
  | syncSkip {c : RuntimeConfig} : p.lock = none → p.sync = .changed c → p.started = false →
      ProcessStep p (.acquire .sync) { p with sync := .finishing c }
  | count {caller : Caller} : p.lock = some (caller, .count) →
      ProcessStep p .count { p with lock := some (caller, .desired p.threads.length) }
  | desired {caller : Caller} {current : Nat} : p.lock = some (caller, .desired current) →
      ProcessStep p (.desired p.desired) (p.range caller current p.desired)
  | create {caller : Caller} {next last : Nat} : p.lock = some (caller, .create next last) →
      ProcessStep p .create (p.created caller next last)
  | createFails {caller : Caller} {next last : Nat} : p.lock = some (caller, .create next last) →
      ProcessStep p .createFails (p.abandon caller)
  /-- by a thread in its loop -/
  | syncRead {slot : Nat} : ⟨slot, false⟩ ∈ p.threads → p.sync = .idle →
      ProcessStep p .syncRead { p with sync := .read p.row }
  | syncCompare {c : RuntimeConfig} : p.sync = .read c →
      ProcessStep p .syncCompare { p with sync := .compared c (decide (c ≠ p.config.view)) }
  | syncReplace {c : RuntimeConfig} {changed : Bool} : p.sync = .compared c changed →
      ProcessStep p .syncReplace { p with config := p.config.replace c
                                          sync := if changed then .changed c else .finishing c }
  | syncEnd {c : RuntimeConfig} : p.sync = .finishing c →
      ProcessStep p (.syncEnd c) { p with sync := .idle }
  | syncFails : (∀ c, p.sync ≠ .reconciling c) → ProcessStep p .syncFails { p with sync := .idle }
  | leave {slot : Nat} : ⟨slot, false⟩ ∈ p.threads → p.stopSet = true ∨ p.desired < slot →
      ProcessStep p (.leave slot)
        { p with threads := ⟨slot, true⟩ :: p.threads.erase ⟨slot, false⟩ }
  | exit {slot : Nat} : ⟨slot, true⟩ ∈ p.threads →
      ProcessStep p (.exit slot) { p with threads := p.threads.erase ⟨slot, true⟩ }
  | die {t : Thread} : t ∈ p.threads →
      ProcessStep p (.die t) { p with threads := p.threads.erase t }

/-- The runs of a process. -/
abbrev ProcessRun (row : RuntimeConfig) (h : History ProcessEvent Process) : Prop :=
  Valid (Process.new row) (fun h => ProcessStep (now (Process.new row) h)) h

end PulseQueue
