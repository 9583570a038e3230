import PulseQueue.Model.ConfigStore

/-!
# The routes that submit (`app/main.py`)

What `create_job`, `create_schedule` and `create_load_test` make of a request and of the configuration
they view: an HTTP error, or the repository call with the defaults filled in.
-/

namespace PulseQueue

/-- The `detail` of an `HTTPException`. -/
inductive Detail
  /-- `f"timeout_seconds cannot exceed {config_view.max_timeout_seconds}"` -/
  | timeoutCannotExceed (maxTimeoutSeconds : PyFloat)
  /-- `str(exc)` of a repository or cron error -/
  | error (e : Err)
deriving DecidableEq

structure HTTPException where
  statusCode : Nat
  detail : Detail
deriving DecidableEq

/-! ## Requests -/

/-- The pattern of `LoadTestRequest.kind`. -/
inductive LoadKind
  | echo
  | flaky
  | poison
  | timeout
  | mixed
deriving DecidableEq

structure LoadTestRequest where
  count : Nat
  kind : LoadKind
  priority : Int
  count_range : 1 ≤ count ∧ count ≤ 10000
  priority_range : -100 ≤ priority ∧ priority ≤ 100

def loadTestEcho (index : Nat) : List (String × Json) :=
  [("action", .str "echo"), ("source", .str "load-test"), ("index", .int index)]

def loadTestFail (failures : Int) (index : Nat) : List (String × Json) :=
  [("action", .str "fail"), ("failures_before_success", .int failures), ("source", .str "load-test"),
    ("index", .int index)]

def loadTestSleep (seconds : Int) (index : Nat) : List (String × Json) :=
  [("action", .str "sleep"), ("seconds", .int seconds), ("source", .str "load-test"),
    ("index", .int index)]

/-- `load_test_payload`. -/
def loadTestPayload : LoadKind → Nat → List (String × Json)
  | .echo, index => loadTestEcho index
  | .flaky, index => loadTestFail 1 index
  | .poison, index => loadTestFail 9999 index
  | .timeout, index => loadTestSleep 2 index
  | .mixed, index =>
    if index % 25 = 0 then loadTestFail 9999 index
    else if index % 10 = 0 then loadTestFail 1 index
    else if index % 15 = 0 then loadTestSleep 1 index
    else loadTestEcho index

/-- `JobCreate(payload=..., priority=...)` for each index. -/
def loadTestJobs (request : LoadTestRequest) : List JobCreate :=
  (List.range request.count).map fun index =>
    { payload := loadTestPayload request.kind index
      priority := request.priority
      maxRetries := none
      timeoutSeconds := none
      runAt := none
      priority_range := request.priority_range
      maxRetries_le := maxRetries_default
      timeout_pos := timeout_default }

/-! ## Routes -/

/-- The repository calls of the three routes. -/
inductive RepoCall
  | createJob (request : JobCreate) (maxRetries : Nat) (timeoutSeconds : PyFloat)
      (idempotencyKey : Option String)
  | createSchedule (request : ScheduleCreate) (maxRetries : Nat) (timeoutSeconds : PyFloat)
  | createJobsBatch (requests : List JobCreate) (maxRetries : Nat) (timeoutSeconds : PyFloat)

/-- The requests. A schedule is checked against the clock. -/
inductive SubmitRequest
  | job (request : JobCreate) (idempotencyKey : Option String)
  | schedule (request : ScheduleCreate) (now : UtcTime)
  | loadTest (request : LoadTestRequest)

/-- The retries of the request or the default; a validated default is not negative. -/
def RuntimeConfig.effectiveRetries (config : RuntimeConfig) (maxRetries : Option Nat) : Nat :=
  maxRetries.getD config.defaultMaxRetries.toNat

/-- The timeout of the request or the default. -/
def RuntimeConfig.effectiveTimeout (config : RuntimeConfig) (timeoutSeconds : Option ℚ) : PyFloat :=
  (timeoutSeconds.map PyFloat.rat).getD config.defaultTimeoutSeconds

/-- The answer to a timeout above the maximum. -/
def timeoutTooLong (config : RuntimeConfig) : HTTPException :=
  ⟨422, .timeoutCannotExceed config.maxTimeoutSeconds⟩

namespace Api

def createJob (config : RuntimeConfig) (request : JobCreate) (idempotencyKey : Option String) :
    Except HTTPException RepoCall :=
  let maxRetries := config.effectiveRetries request.maxRetries
  let timeoutSeconds := config.effectiveTimeout request.timeoutSeconds
  if config.maxTimeoutSeconds.lt timeoutSeconds then .error (timeoutTooLong config)
  else .ok (.createJob request maxRetries timeoutSeconds idempotencyKey)

def createSchedule (deps : Deps) (config : RuntimeConfig) (request : ScheduleCreate) (now : UtcTime) :
    Except HTTPException RepoCall :=
  let maxRetries := config.effectiveRetries request.maxRetries
  let timeoutSeconds := config.effectiveTimeout request.timeoutSeconds
  if config.maxTimeoutSeconds.lt timeoutSeconds then .error (timeoutTooLong config)
  else
    match nextCronRun deps request.cronExpression now with
    | .error e => .error ⟨422, .error e⟩
    | .ok _ => .ok (.createSchedule request maxRetries timeoutSeconds)

/-- Unlike the other two, this route does not check the maximum. -/
def createLoadTest (config : RuntimeConfig) (request : LoadTestRequest) :
    Except HTTPException RepoCall :=
  .ok (.createJobsBatch (loadTestJobs request) config.defaultMaxRetries.toNat
    config.defaultTimeoutSeconds)

/-- The route of a request. -/
def submit (deps : Deps) (config : RuntimeConfig) : SubmitRequest → Except HTTPException RepoCall
  | .job request idempotencyKey => createJob config request idempotencyKey
  | .schedule request now => createSchedule deps config request now
  | .loadTest request => createLoadTest config request

end Api

end PulseQueue
