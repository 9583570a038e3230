import PulseQueue.Model.Api
import PulseQueue.Model.Handler
import PulseQueue.Spec.Retries

/-!
# What the handler makes of a job

An `ExecutedRun` is a run of the retry loop of one job whose handler is `execute_job`; the pool may find any
of its answers too late. `Fate` says what becomes of the job: every attempt that was waited for is the
`execute_job` of the stored payload and the number of the attempt, and it decides the status, the result and
the last error. `FailFate` is the case of the action `fail`.
-/

namespace PulseQueue

open Txn Trace

/-- What `future.result(timeout=...)` may find of the execution. -/
inductive Finds : Except PyExc JsonObject → HandlerOutcome JsonObject → Prop
  | returned (result : JsonObject) : Finds (.ok result) (.returned result)
  | raised (exc : PyExc) : Finds (.error exc) (.raised exc)
  | late (execution : Except PyExc JsonObject) : Finds execution .late

/-- The handler of the step, if any, is `execute_job`. -/
def Move.Executes (py : Builtins) : Move → Prop
  | .inform _ ⟨.handler payload n _, .ok o⟩ => ∀ kv, payload = .obj kv → Finds (executeJob py kv n) o
  | _ => True

/-- The runs of `RetryRun` whose handler is `execute_job`. -/
inductive ExecutedRun (py : Builtins) (deps : Deps) (engine : Engine) (id : String) : Attempts → Pool → Prop
  | empty : ExecutedRun py deps engine id [] Pool.empty
  | move {l : Attempts} {σ σ' : Pool} {m : Move} : ExecutedRun py deps engine id l σ →
      Pool.Moves deps engine σ m σ' → m.Spares id σ σ' → m.Executes py →
      ExecutedRun py deps engine id (m.note id ++ l) σ'

/-- No answer of the handler came too late. -/
def InTime (l : Attempts) : Prop := ∀ n, .invoked n .late ∉ l

/-- The attempt `n` came to nothing. -/
def Fails (py : Builtins) (payload : JsonObject) (l : Attempts) (n : Nat) : Prop :=
  .invoked n .late ∈ l ∨ ∃ exc, executeJob py payload n = .error exc

/-- The last error of a job whose last attempt is the attempt `n`. -/
def FailsWith (py : Builtins) (payload : JsonObject) (l : Attempts) (n : Nat) (error : Option String) :
    Prop :=
  .invoked n .late ∈ l ∧ error = some "attempt timed out" ∨
    ∃ exc text, executeJob py payload n = .error exc ∧ exc.str = .ok text ∧ error = some text

structure Fate (py : Builtins) (deps : Deps) (payload : JsonObject) (l : Attempts) (r : JobRow) : Prop where
  /-- the first attempt that did not fail -/
  succeeded : r.status = .succeeded → 1 ≤ r.attemptCount ∧ r.attemptCount ≤ r.maxRetries + 1 ∧
    (∃ result, executeJob py payload r.attemptCount = .ok result ∧
      r.result = some (deps.dumps (.obj result))) ∧
    ∀ n, 1 ≤ n → n < r.attemptCount → Fails py payload l n
  /-- all attempts failed -/
  dead : r.status = .deadLettered → r.attemptCount = r.maxRetries + 1 ∧
    (∀ n, 1 ≤ n → n ≤ r.maxRetries + 1 → Fails py payload l n) ∧
    FailsWith py payload l (r.maxRetries + 1) r.lastError

/-- The payload asks for `f` failures. -/
structure AsksFailures (py : Builtins) (payload : JsonObject) (f : Int) : Prop where
  action : payload.lookup "action" = some (.str "fail")
  failures : py.int ((payload.lookup "failures_before_success").getD (.int 0)) = .ok f

/-- A job that is told to fail its first `f` attempts. -/
structure FailFate (deps : Deps) (f : Int) (l : Attempts) (r : JobRow) : Prop where
  succeeded : r.status = .succeeded → f < r.attemptCount ∧
    r.result = some (deps.dumps (.obj [("recovered", .bool true), ("attempt", .int r.attemptCount)]))
  /-- more failures than retries -/
  dead : r.maxRetries < f → r.status.terminal = true → r.status = .deadLettered
  recovers : f ≤ r.maxRetries → InTime l → r.status.terminal = true →
    r.status = .succeeded ∧ r.attemptCount = f.toNat + 1
  error : r.status = .deadLettered → InTime l →
    r.lastError = some ("simulated transient failure on attempt " ++ toString (r.maxRetries + 1))

/-- The failures that the payload of a load test asks for; none when it does not ask for any. -/
def failuresOf : LoadKind → Nat → Option Int
  | .flaky, _ => some 1
  | .poison, _ => some 9999
  | .mixed, index => if index % 25 = 0 then some 9999 else if index % 10 = 0 then some 1 else none
  | _, _ => none

/-- The job `index` of a load test of the kind, submitted under `config`. -/
structure LoadTestFate (py : Builtins) (deps : Deps) (config : RuntimeConfig) (kind : LoadKind) (index : Nat)
    (l : Attempts) (r : JobRow) : Prop where
  fate : Fate py deps (loadTestPayload kind index) l r
  retries : r.maxRetries = config.defaultMaxRetries.toNat
  failing : ∀ f, failuresOf kind index = some f → FailFate deps f l r
  /-- no configuration has enough retries -/
  poisoned : failuresOf kind index = some 9999 → r.status.terminal = true →
    r.status = .deadLettered ∧ r.attemptCount = config.defaultMaxRetries.toNat + 1
  /-- only a timeout keeps the others from their success, where one and two seconds can be slept -/
  steady : failuresOf kind index = none → py.sleepError 1 = none → py.sleepError 2 = none →
    (r.status = .deadLettered → ∀ n, 1 ≤ n → n ≤ r.maxRetries + 1 → .invoked n .late ∈ l) ∧
      (InTime l → r.status.terminal = true → r.status = .succeeded ∧ r.attemptCount = 1)

end PulseQueue
