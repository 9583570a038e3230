import PulseQueue.Model.Time

/-!
# Values (`app/models.py`)

JSON values, the two status enumerations, requests and the runtime configuration. The pydantic
models carry their validated ranges as fields.
-/

namespace PulseQueue

/-- A Python float: an exact number or NaN. -/
inductive PyFloat
  | rat (q : ℚ)
  | nan
deriving DecidableEq

namespace PyFloat

/-- `a < b`; comparisons with NaN are false. -/
def lt : PyFloat → PyFloat → Bool
  | rat a, rat b => a < b
  | _, _ => false

/-- `a <= b`. -/
def le : PyFloat → PyFloat → Bool
  | rat a, rat b => a ≤ b
  | _, _ => false

/-- `min(a, b)`: the first argument unless the second is smaller. -/
def min (a b : PyFloat) : PyFloat := if b.lt a then b else a

end PyFloat

inductive Json
  | null
  | bool (b : Bool)
  | int (n : Int)
  | float (x : PyFloat)
  | str (s : String)
  | arr (l : List Json)
  | obj (kv : List (String × Json))

inductive JobStatus
  | queued
  | running
  | succeeded
  | failed
  | deadLettered
  | cancelled
deriving DecidableEq

inductive AttemptStatus
  | succeeded
  | failed
  | timedOut
  | abandoned
deriving DecidableEq

/-- A validated job submission. Its numbers are finite: no NaN is above zero. -/
structure JobCreate where
  payload : List (String × Json)
  priority : Int
  maxRetries : Option Nat
  timeoutSeconds : Option ℚ
  runAt : Option UtcTime
  priority_range : -100 ≤ priority ∧ priority ≤ 100
  maxRetries_le : ∀ n ∈ maxRetries, n ≤ 20
  timeout_pos : ∀ t ∈ timeoutSeconds, 0 < t

/-! The defaults of a submission pass its checks. -/

theorem priority_default : -100 ≤ (0 : Int) ∧ (0 : Int) ≤ 100 := by decide

theorem maxRetries_default : ∀ n ∈ (none : Option Nat), n ≤ 20 := by simp

theorem timeout_default : ∀ t ∈ (none : Option ℚ), 0 < t := by simp

/-- A validated schedule definition. -/
structure ScheduleCreate where
  name : String
  cronExpression : String
  payload : List (String × Json)
  priority : Int
  maxRetries : Option Nat
  timeoutSeconds : Option ℚ
  name_length : 1 ≤ name.length ∧ name.length ≤ 120
  cron_length : 5 ≤ cronExpression.length ∧ cronExpression.length ≤ 120
  priority_range : -100 ≤ priority ∧ priority ≤ 100
  maxRetries_le : ∀ n ∈ maxRetries, n ≤ 20
  timeout_pos : ∀ t ∈ timeoutSeconds, 0 < t

structure QueueDepth where
  queued : Nat
  running : Nat
  succeeded : Nat
  failed : Nat
  deadLettered : Nat
  cancelled : Nat
  total : Nat
  dueQueued : Nat
  scheduledQueued : Nat
deriving DecidableEq

/-! ## Runtime configuration -/

/-- The values of a configuration before validation (`model_dump()`). -/
structure ConfigValues where
  defaultMaxRetries : Int
  defaultTimeoutSeconds : PyFloat
  maxTimeoutSeconds : PyFloat
  workerConcurrency : Int
  backoffBaseSeconds : PyFloat
  backoffMaxSeconds : PyFloat
deriving DecidableEq

/-- `Field(gt=lo, le=hi)` on a float; a NaN is in no range. -/
def inFloatRange (lo hi : ℚ) (x : PyFloat) : Bool := (PyFloat.rat lo).lt x && x.le (.rat hi)

theorem inFloatRange_iff {lo hi : ℚ} {x : PyFloat} :
    inFloatRange lo hi x = true ↔ ∃ q, x = .rat q ∧ lo < q ∧ q ≤ hi := by
  cases x with
  | nan => simp [inFloatRange, PyFloat.lt]
  | rat q => simp [inFloatRange, PyFloat.lt, PyFloat.le]

/-- `Field(ge=lo, le=hi)` on an integer. -/
def inIntRange (lo hi : Int) (x : Int) : Bool := lo ≤ x && x ≤ hi

/-- The field ranges of `RuntimeConfig`. -/
def ConfigValues.valid (c : ConfigValues) : Bool :=
  inIntRange 0 20 c.defaultMaxRetries && inFloatRange 0 3600 c.defaultTimeoutSeconds &&
    inFloatRange 0 3600 c.maxTimeoutSeconds && inIntRange 1 64 c.workerConcurrency &&
    inFloatRange 0 60 c.backoffBaseSeconds && inFloatRange 0 600 c.backoffMaxSeconds

theorem ConfigValues.valid_iff {c : ConfigValues} : c.valid = true ↔
    inIntRange 0 20 c.defaultMaxRetries ∧ inFloatRange 0 3600 c.defaultTimeoutSeconds ∧
      inFloatRange 0 3600 c.maxTimeoutSeconds ∧ inIntRange 1 64 c.workerConcurrency ∧
      inFloatRange 0 60 c.backoffBaseSeconds ∧ inFloatRange 0 600 c.backoffMaxSeconds := by
  simp only [ConfigValues.valid, Bool.and_eq_true, and_assoc]

structure RuntimeConfig extends ConfigValues where
  isValid : toConfigValues.valid = true
deriving DecidableEq

structure RuntimeConfigPatch where
  defaultMaxRetries : Option Int
  defaultTimeoutSeconds : Option PyFloat
  maxTimeoutSeconds : Option PyFloat
  workerConcurrency : Option Int
  backoffBaseSeconds : Option PyFloat
  backoffMaxSeconds : Option PyFloat
  defaultMaxRetries_range : ∀ x ∈ defaultMaxRetries, inIntRange 0 20 x
  defaultTimeout_range : ∀ x ∈ defaultTimeoutSeconds, inFloatRange 0 3600 x
  maxTimeout_range : ∀ x ∈ maxTimeoutSeconds, inFloatRange 0 3600 x
  workerConcurrency_range : ∀ x ∈ workerConcurrency, inIntRange 1 64 x
  backoffBase_range : ∀ x ∈ backoffBaseSeconds, inFloatRange 0 60 x
  backoffMax_range : ∀ x ∈ backoffMaxSeconds, inFloatRange 0 600 x

/-- The `config_json` document: a NaN float is written as null. -/
structure ConfigJson where
  defaultMaxRetries : Int
  defaultTimeoutSeconds : Option ℚ
  maxTimeoutSeconds : Option ℚ
  workerConcurrency : Int
  backoffBaseSeconds : Option ℚ
  backoffMaxSeconds : Option ℚ
deriving DecidableEq

def PyFloat.toJson : PyFloat → Option ℚ
  | rat q => some q
  | nan => none

/-- `model_dump_json()`. -/
def RuntimeConfig.modelDumpJson (c : RuntimeConfig) : ConfigJson where
  defaultMaxRetries := c.defaultMaxRetries
  defaultTimeoutSeconds := c.defaultTimeoutSeconds.toJson
  maxTimeoutSeconds := c.maxTimeoutSeconds.toJson
  workerConcurrency := c.workerConcurrency
  backoffBaseSeconds := c.backoffBaseSeconds.toJson
  backoffMaxSeconds := c.backoffMaxSeconds.toJson

/-! ## Errors -/

inductive Err
  /-- `IdempotencyConflictError` -/
  | idempotencyConflict (message : String)
  /-- the driver's `IntegrityError` (psycopg's `UniqueViolation` is one) -/
  | integrity
  /-- `InvalidCronExpressionError` -/
  | invalidCron (message : String)
  /-- `RuntimeError` -/
  | runtime (message : String)
  /-- pydantic's `ValidationError` -/
  | validation
  /-- `ValueError` of a timestamp out of range -/
  | value
deriving DecidableEq

/-- `RuntimeConfig(**values)`. -/
def RuntimeConfig.validate (v : ConfigValues) : Except Err RuntimeConfig :=
  if h : v.valid then .ok ⟨v, h⟩ else .error .validation

/-- `RuntimeConfig.model_validate_json`: null is no float. -/
def RuntimeConfig.modelValidateJson (j : ConfigJson) : Except Err RuntimeConfig :=
  match j.defaultTimeoutSeconds, j.maxTimeoutSeconds, j.backoffBaseSeconds, j.backoffMaxSeconds with
  | some dt, some mt, some bb, some bm =>
    RuntimeConfig.validate ⟨j.defaultMaxRetries, .rat dt, .rat mt, j.workerConcurrency, .rat bb, .rat bm⟩
  | _, _, _, _ => .error .validation

/-- A configuration reads back as it is. -/
theorem RuntimeConfig.validate_dump (c : RuntimeConfig) :
    RuntimeConfig.modelValidateJson c.modelDumpJson = .ok c := by
  obtain ⟨⟨retries, dt, mt, conc, bb, bm⟩, hv⟩ := c
  obtain ⟨-, hdt, hmt, -, hbb, hbm⟩ := ConfigValues.valid_iff.1 hv
  obtain ⟨dt, rfl, -⟩ := inFloatRange_iff.1 hdt
  obtain ⟨mt, rfl, -⟩ := inFloatRange_iff.1 hmt
  obtain ⟨bb, rfl, -⟩ := inFloatRange_iff.1 hbb
  obtain ⟨bm, rfl, -⟩ := inFloatRange_iff.1 hbm
  exact dif_pos hv

end PulseQueue
