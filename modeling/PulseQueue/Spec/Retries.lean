import PulseQueue.Lib.RetryLoop
import PulseQueue.Spec.Workers

/-!
# The attempts at one job

`Pool.Moves` is a step of a pool with a label that says what was done. Read for one job, a label is a
happening of the reference `RetryLoop`, or nothing (`Move.note`); a `RetryRun` is a run of a pool that
leaves the job to its workers (`Move.Spares`), with these happenings. `LoopsAs` says that they, the job's
row and its attempt rows are what the reference makes of the handler's outcomes.
-/

namespace PulseQueue

open Txn Trace Interaction

/-! ## Outcomes -/

namespace HandlerOutcome

variable {ρ : Type}

def Returns : HandlerOutcome ρ → Prop
  | returned _ => True
  | _ => False

/-- The status that the attempt deserves. -/
def mark : HandlerOutcome ρ → AttemptStatus
  | returned _ => .succeeded
  | raised _ => .failed
  | late => .timedOut

/-- The error that the attempt deserves, as far as it can be printed. -/
def error : HandlerOutcome ρ → Option String
  | returned _ => none
  | raised exc => exc.str.toOption
  | late => some "attempt timed out"

/-- The handler raised a `TimeoutError` of its own. -/
def RaisesTimeout : HandlerOutcome ρ → Prop
  | raised exc => exc.isTimeout = true
  | _ => False

end HandlerOutcome

/-- The time `due` follows from the failure of the attempt `n`, recorded under `config`. The run time is a
datetime, so the sum is rounded to the microsecond. -/
def nextAttempt (config : RuntimeConfig) (n : Nat) (recorded due : UtcTime) : Prop :=
  ∃ q, backoffOf config n = .rat q ∧ UtcTime.fromtimestamp (recorded.timestamp + q) = some due

/-! ## Labelled steps -/

/-- What a step of a pool does. Answers come with what the call said before. -/
inductive Move
  | start
  | inform (talk : Talk JsonObject) (said : Exchange (Command JsonObject) Command.Answer)
  | perform (talk : Talk JsonObject) (now : UtcTime) (call : JobCall JsonObject)
      (answer : Except PyExc (Option Job))
  | fault (call : JobCall JsonObject)
  | other (event : Event)

/-- The steps of `Pool.Step`, labelled. -/
inductive Pool.Moves (deps : Deps) (engine : Engine) : Pool → Move → Pool → Prop
  | start {h : History Event Store} {cs : List Call} {ps : List Performed} (w : String) :
      Moves deps engine ⟨h, cs, ps⟩ .start ⟨h, cs ++ [⟨w, [], processOne w, .nil⟩], ps⟩
  | inform {h : History Event Store} {before after : List Call} {ps : List Performed} {w : String}
      {tr : Talk JsonObject} {c : Command JsonObject} {k : c.Answer → Code JsonObject (Option Job)}
      {hr : After (processOne w) tr (.call c k)} (x : c.Answer) : (∀ q, c ≠ .jobs q) →
      Moves deps engine ⟨h, before ++ ⟨w, tr, .call c k, hr⟩ :: after, ps⟩ (.inform tr ⟨c, x⟩)
        ⟨h, before ++ ⟨w, tr ++ [⟨c, x⟩], k x, hr.snoc x⟩ :: after, ps⟩
  | perform {h : History Event Store} {before after : List Call} {ps : List Performed} {w : String}
      {tr : Talk JsonObject} {q : JobCall JsonObject}
      {k : Except PyExc (Option Job) → Code JsonObject (Option Job)}
      {hr : After (processOne w) tr (.call (.jobs q) k)} {skipped : String → Bool} {now : UtcTime}
      {op : Op} {x : Except PyExc (Option Job)} : q.op skipped now = some op →
      q.Answers (atomically (op.body deps engine) (present h)).1 x →
      Moves deps engine ⟨h, before ++ ⟨w, tr, .call (.jobs q) k, hr⟩ :: after, ps⟩
        (.perform tr now q x)
        ⟨afterCall deps engine h op, before ++ ⟨w, tr ++ [⟨.jobs q, x⟩], k x, hr.snoc x⟩ :: after,
          ⟨w, tr, q, x, present h, present (afterCall deps engine h op)⟩ :: ps⟩
  | fault {h : History Event Store} {before after : List Call} {ps : List Performed} {w : String}
      {tr : Talk JsonObject} {q : JobCall JsonObject}
      {k : Except PyExc (Option Job) → Code JsonObject (Option Job)}
      {hr : After (processOne w) tr (.call (.jobs q) k)} (exc : PyExc) :
      Moves deps engine ⟨h, before ++ ⟨w, tr, .call (.jobs q) k, hr⟩ :: after, ps⟩ (.fault q)
        ⟨h, before ++ ⟨w, tr ++ [⟨.jobs q, .error exc⟩], k (.error exc), hr.snoc (.error exc)⟩ :: after,
          ⟨w, tr, q, .error exc, present h, present h⟩ :: ps⟩
  | other {h : History Event Store} {cs : List Call} {ps : List Performed} {e : Event} {s : Store} :
      RunStep deps engine h e s → Moves deps engine ⟨h, cs, ps⟩ (.other e) ⟨⟨e, s⟩ :: h, cs, ps⟩

theorem Pool.Moves.step {deps : Deps} {engine : Engine} {σ σ' : Pool} {m : Move}
    (hm : Pool.Moves deps engine σ m σ') : Pool.Step deps engine σ σ' := by
  cases hm with
  | start w => exact .start w
  | inform x hne => exact .inform x hne
  | perform hop hans => exact .perform hop hans
  | fault exc => exact .fault exc
  | other he => exact .other he

/-- Every step has a label. -/
theorem Pool.Step.moves {deps : Deps} {engine : Engine} {σ σ' : Pool} (hs : Pool.Step deps engine σ σ') :
    ∃ m, Pool.Moves deps engine σ m σ' := by
  cases hs with
  | start w => exact ⟨_, .start w⟩
  | inform x hne => exact ⟨_, .inform x hne⟩
  | perform hop hans => exact ⟨_, .perform hop hans⟩
  | fault exc => exact ⟨_, .fault exc⟩
  | other he => exact ⟨_, .other he⟩

/-! ## The attempts in a run -/

/-- The job that the call has claimed. -/
def workingOn (tr : Talk JsonObject) : Option Job := (tr.filterMap taken).head?

/-- The job whose attempt the call records. -/
def JobCall.completes : JobCall JsonObject → Option Job
  | claimNextJob _ => none
  | markSucceeded job _ _ _ _ => some job
  | markFailedAttempt job _ _ _ _ _ _ => some job

abbrev Attempts := List (RetryLoop.Happening (HandlerOutcome JsonObject) UtcTime RuntimeConfig)

/-- What the step means for the attempts at the job `id`. A failure is recorded with the configuration that
was viewed just before. -/
def Move.note (id : String) : Move → Attempts
  | .inform talk ⟨.handler _ n _, .ok o⟩ =>
    if (workingOn talk).any (·.id == id) then [.invoked n o] else []
  | .perform _ now (.claimNextJob _) (.ok (some job)) =>
    if job.id = id then [.claimed now (job.attemptCount + 1)] else []
  | .perform _ now (.markSucceeded job _ n _ _) (.ok _) => if job.id = id then [.finished now n] else []
  | .perform talk now (.markFailedAttempt job _ n _ _ _ _) (.ok _) =>
    match talk.getLast? with
    | some ⟨.configView, config⟩ => if job.id = id then [.failed now n config] else []
    | _ => []
  | _ => []

/-- The call takes jobs away from their workers, or from the queue. -/
def Op.Takes : Op → Prop
  | .recoverStaleJobs .. | .cancelJob .. | .drainQueue .. => True
  | _ => False

/-- Jobs are claimed and attempts recorded by `process_one` only, and the job `id` is not reaped, cancelled
or drained. -/
def Event.Spares (id : String) (s s' : Store) : Event → Prop
  | .call op _ => op.completes = none ∧ (∀ skipped now w, op ≠ .claim skipped now w) ∧
      (op.Takes → s'.view id = s.view id)
  | _ => True

/-- The step leaves the job `id` to the workers, every attempt at it gets to the handler, and the
records of its attempts get through. -/
def Move.Spares (id : String) (σ σ' : Pool) : Move → Prop
  | .inform talk ⟨.handler _ _ _, .error _⟩ => (workingOn talk).any (·.id == id) = false
  | .perform _ _ q x => (∃ job, q.completes = some job ∧ job.id = id) → ∃ j, x = .ok j
  | .fault q => ¬ ∃ job, q.completes = some job ∧ job.id = id
  | .other e => e.Spares id (present σ.history) (present σ'.history)
  | _ => True

/-- The runs that spare the job, with its attempts so far, newest first. -/
inductive RetryRun (deps : Deps) (engine : Engine) (id : String) : Attempts → Pool → Prop
  | empty : RetryRun deps engine id [] Pool.empty
  | move {l : Attempts} {σ σ' : Pool} {m : Move} : RetryRun deps engine id l σ →
      Pool.Moves deps engine σ m σ' → m.Spares id σ σ' →
      RetryRun deps engine id (m.note id ++ l) σ'

/-- The attempt at the job `id` that the call is about to hand to the handler, or that the handler still
works on. -/
def Call.invoking (id : String) (c : Call) : Option Nat :=
  match c.code with
  | .call (.handler _ n _) _ => if (workingOn c.talk).any (·.id == id) then some n else none
  | _ => none

/-- What the exchange adds to `_busy_workers`. -/
def busyDelta : Exchange (Command JsonObject) Command.Answer → Int
  | ⟨.addBusy n, _⟩ => n
  | _ => 0

/-- What the call has added to `_busy_workers`. -/
def Call.busy (c : Call) : Int := (c.talk.map busyDelta).sum

def Call.Finished (c : Call) : Prop := ∃ r, c.code = Prog.ofExcept r

/-- The attempts `l` at the job `id` and its row `r` are those of the reference when the handler ends with
`o 1`, `o 2`, … -/
structure LoopsAs (deps : Deps) (id : String) (o : Nat → HandlerOutcome JsonObject) (l : Attempts)
    (σ : Pool) (r : JobRow) : Prop where
  /-- attempts 1, 2, 3, …, one at a time, and none after `max_retries + 1` -/
  order : ∃ k ≤ r.maxRetries + 1,
    (l.filterMap RetryLoop.Happening.invocation).reverse = (List.range' 1 k).map (fun n => (n, o n)) ∧
      (σ.calls.filterMap (·.invoking id) = [] ∨
        σ.calls.filterMap (·.invoking id) = [k + 1] ∧ k ≤ r.maxRetries)
  succeeds : ∀ k result, 1 ≤ k → k ≤ r.maxRetries + 1 → o k = .returned result →
    (∀ j, 1 ≤ j → j < k → ¬ (o j).Returns) → r.status.terminal = true →
    r.status = .succeeded ∧ r.attemptCount = k ∧ r.result = some (deps.dumps (.obj result))
  dies : (∀ j, 1 ≤ j → j ≤ r.maxRetries + 1 → ¬ (o j).Returns) → r.status.terminal = true →
    r.status = .deadLettered ∧ r.attemptCount = r.maxRetries + 1 ∧
      (¬ (o (r.maxRetries + 1)).RaisesTimeout → r.lastError = (o (r.maxRetries + 1)).error)
  /-- one attempt row for each recorded attempt -/
  numbers : (((present σ.history).view id).attempts.map (·.attemptNo)).Perm
    (List.range' 1 r.attemptCount)
  marks : ∀ a ∈ (present σ.history).jobAttempts, a.jobId = id → ¬ (o a.attemptNo).RaisesTimeout →
    a.status = (o a.attemptNo).mark
  /-- the backoff has passed when the next attempt is claimed -/
  due : ∀ j now, .claimed now (j + 1) ∈ l → j = 0 ∨ ∃ t config due, .failed t j config ∈ l ∧
    nextAttempt config j t due ∧ due ≤ now
  /-- no failure is recorded twice -/
  once : ∀ j t t' config config', .failed t j config ∈ l → .failed t' j config' ∈ l →
    t' = t ∧ config' = config

end PulseQueue
