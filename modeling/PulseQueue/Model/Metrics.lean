import PulseQueue.Model.Api
import PulseQueue.Model.Sqlite

/-!
# Metrics (`app/main.py`)

`percentile`, the values that `GET /metrics` reads of the jobs and what it makes of them. Numbers are
exact rationals.
-/

namespace PulseQueue

open Table

/-! ## Percentiles -/

/-- Python's `IndexError`. -/
inductive IndexError
  | listIndexOutOfRange
deriving DecidableEq

/-- `l[i]`: a negative index counts from the end. -/
def pyGet {α : Type} (l : List α) (i : Int) : Except IndexError α :=
  let j := if i < 0 then i + l.length else i
  if j < 0 then .error .listIndexOutOfRange
  else
    match l[j.toNat]? with
    | some a => .ok a
    | none => .error .listIndexOutOfRange

/-- `int(x)`: towards zero. -/
def pyInt (x : ℚ) : Int := if x < 0 then ⌈x⌉ else ⌊x⌋

/-- `round(x, 4)`, of the exact number. -/
def round4 (x : ℚ) : ℚ := Rounding.halfEven (x * 10000) / 10000

/-- `sorted(values)`. -/
def pySorted (values : List ℚ) : List ℚ := orderBy (fun a b => a ≤ b) values

/-- The `index` of `percentile`. -/
def percentileIndex (ordered : List ℚ) (p : ℚ) : ℚ := ((ordered.length : ℚ) - 1) * p

def percentile (values : List ℚ) (p : ℚ) : Except IndexError (Option ℚ) :=
  if values.isEmpty then .ok none
  else
    let ordered := pySorted values
    let index := percentileIndex ordered p
    let lower := ⌊index⌋
    let upper := ⌈index⌉
    if lower = upper then do
      let value ← pyGet ordered (pyInt index)
      pure (some (round4 value))
    else do
      let weight := index - lower
      let low ← pyGet ordered lower
      let high ← pyGet ordered upper
      pure (some (round4 (low * (1 - weight) + high * weight)))

/-! ## The values read -/

/-- `max((b - a).total_seconds(), 0.0)`. -/
def elapsedSeconds (a b : UtcTime) : ℚ := max (b.totalSeconds a) 0

/-- `latency_seconds`, the same in both repositories: the latest finished jobs. -/
def latencySeconds (limit : Nat) (s : Store) : List ℚ :=
  let rows := s.jobs.filterMap fun r =>
    if r.status = .succeeded ∨ r.status = .deadLettered ∨ r.status = .cancelled then
      r.finishedAt.map fun finishedAt => (r.createdAt, finishedAt)
    else none
  ((orderBy (fun a b => b.2 ≤ a.2) rows).take limit).map fun row =>
    elapsedSeconds (parseDbTime row.1) (parseDbTime row.2)

/-- `oldest_queued_age_seconds` with its two clock readings, the same in both repositories. -/
def oldestQueuedAgeSeconds (now now' : UtcTime) (s : Store) : Option ℚ :=
  let due := s.jobs.filter fun r => r.status = .queued && r.runAt ≤ toDbTime now
  (orderBy (fun a b => a.createdAt ≤ b.createdAt) due).head?.map fun row =>
    elapsedSeconds (parseDbTime row.createdAt) now'

/-! ## The view -/

inductive Pressure
  | idle
  | normal
  | high
deriving DecidableEq

structure MetricsView where
  queueDepth : QueueDepth
  workerConcurrency : Int
  busyWorkers : Nat
  activeWorkerInstances : Nat
  activeWorkerThreads : Nat
  activeBusyThreads : Nat
  workerUtilization : ℚ
  jobLatencyP50Seconds : Option ℚ
  jobLatencyP95Seconds : Option ℚ
  deadLetterRate : ℚ
  pressure : Pressure
  oldestQueuedAgeSeconds : Option ℚ

/-- `round(a / b, 4) if b else 0.0`. -/
def roundedRate (a b : Int) : ℚ := if b = 0 then 0 else round4 (a / b)

/-- The view of `metrics` from the values it read; `busy` and `busy'` are its two readings of
`pool.busy_workers`. -/
def Api.metrics (depth : QueueDepth) (configView : RuntimeConfig) (workerStatus : WorkerStatus)
    (latencies : List ℚ) (oldestAge : Option ℚ) (busy busy' : Nat) :
    Except IndexError MetricsView := do
  let completed := depth.succeeded + depth.failed + depth.deadLettered
  let observedBusy := if workerStatus.busyThreads = 0 then busy else workerStatus.busyThreads
  let observedThreads : Int :=
    if workerStatus.activeThreads = 0 then configView.workerConcurrency else workerStatus.activeThreads
  let utilization := roundedRate observedBusy observedThreads
  let pressure :=
    if depth.dueQueued = 0 ∧ utilization = 0 then Pressure.idle
    else if configView.workerConcurrency * 20 < depth.dueQueued ∨ 4 / 5 < utilization then .high
    else .normal
  let p50 ← percentile latencies (50 / 100)
  let p95 ← percentile latencies (95 / 100)
  pure
    { queueDepth := depth
      workerConcurrency := configView.workerConcurrency
      busyWorkers := busy'
      activeWorkerInstances := workerStatus.instances
      activeWorkerThreads := workerStatus.activeThreads
      activeBusyThreads := workerStatus.busyThreads
      workerUtilization := utilization
      jobLatencyP50Seconds := p50
      jobLatencyP95Seconds := p95
      deadLetterRate := roundedRate depth.deadLettered completed
      pressure := pressure
      oldestQueuedAgeSeconds := oldestAge.map round4 }

end PulseQueue
