import PulseQueue.Model.Worker
import PulseQueue.Spec.Runs
import PulseQueue.Spec.Steps

/-!
# Worker threads and the attempts they record

Two readings of the worker code. A thread may get any answers at all: `LeftByCheck` says that it left
its loop through one of the loop's two checks, `Fatal` are the answers that end it otherwise. In a
`Pool` any number of `process_one` calls run against one store, command by command, between whatever
else happens there; a repository call may also raise without a trace in the store. `Performed` keeps each
repository call with the store before and after it, and `Performed.Fair` says that what it wrote is what
the handler deserved.
-/

namespace PulseQueue

open Txn Trace Interaction

section
variable {ρ : Type}

/-! ## Leaving the loop -/

/-- The stop event is set, or the slot is surplus. -/
inductive ExitCheck (slot : Nat) : Exchange (Command ρ) Command.Answer → Prop
  | stop : ExitCheck slot ⟨.stopIsSet, true⟩
  | surplus (config : RuntimeConfig) : config.workerConcurrency < slot →
      ExitCheck slot ⟨.configView, config⟩

/-- The last thing the thread learned is that it has to leave. -/
def LeftByCheck (slot : Nat) (tr : Talk ρ) : Prop := ∃ x, tr.getLast? = some x ∧ ExitCheck slot x

/-- The exception is no `TimeoutError`, and `str(exc)` raises. -/
def PyExc.Unprintable (exc : PyExc) : Prop := exc.isTimeout = false ∧ ∃ raised, exc.str = .error raised

/-- The exception that the code sees for an outcome. -/
def HandlerOutcome.exc : HandlerOutcome ρ → Option PyExc
  | .returned _ => none
  | .raised exc => some exc
  | .late => some (.plain true "")

/-- What the `except` clauses of `process_one` get: an exception of the handler or of its submission, a
timeout, or an exception of `mark_succeeded`. -/
def caught : Exchange (Command ρ) Command.Answer → Option PyExc
  | ⟨.handler _ _ _, .error exc⟩ => some exc
  | ⟨.handler _ _ _, .ok o⟩ => o.exc
  | ⟨.jobs (.markSucceeded _ _ _ _ _), .error exc⟩ => some exc
  | _ => none

/-- `claim_next_job` or `mark_failed_attempt` raised, or the `except` clauses got what they cannot print. -/
inductive Fatal : Exchange (Command ρ) Command.Answer → Prop
  | claim (w : String) (e : PyExc) : Fatal ⟨.jobs (.claimNextJob w), .error e⟩
  | failure (job : Job) (w : String) (n : Nat) (t : UtcTime) (error : String) (timedOut : Bool)
      (backoff : PyFloat) (e : PyExc) :
      Fatal ⟨.jobs (.markFailedAttempt job w n t error timedOut backoff), .error e⟩
  | unprintable {x : Exchange (Command ρ) Command.Answer} {exc : PyExc} : caught x = some exc →
      exc.Unprintable → Fatal x

end

/-! ## The calls of a pool on one store -/

/-- A handler result that is a JSON object. -/
abbrev JsonObject := List (String × Json)

/-- The transaction of a repository call; `none` when the call raises before it begins, since the
time of a retry after NaN seconds is no date. -/
def JobCall.op (skipped : String → Bool) (now : UtcTime) : JobCall JsonObject → Option Op
  | claimNextJob w => some (.claim skipped now w)
  | markSucceeded job w n startedAt result => some (.markSucceeded now job w n startedAt result)
  | markFailedAttempt job w n startedAt error timedOut (.rat q) =>
    some (.markFailedAttempt now job w n startedAt error timedOut q)
  | markFailedAttempt job w n startedAt error timedOut .nan =>
    if n ≤ job.maxRetries then none
    else some (.markFailedAttempt now job w n startedAt error timedOut 0)

/-- What the call answers when its transaction ended with `out`. A completion may read the job once
more before it returns. The repository raises no `TimeoutError` of its own. -/
inductive JobCall.Answers : JobCall JsonObject → Except Err Reply → Except PyExc (Option Job) → Prop
  | claimed (w : String) (j : Option Job) : Answers (.claimNextJob w) (.ok (.job j)) (.ok j)
  | succeeded (job : Job) (w : String) (n : Nat) (t : UtcTime) (result : JsonObject) (r : Reply)
      (j : Option Job) : Answers (.markSucceeded job w n t result) (.ok r) (.ok j)
  | failed (job : Job) (w : String) (n : Nat) (t : UtcTime) (error : String) (timedOut : Bool)
      (backoff : PyFloat) (r : Reply) (j : Option Job) :
      Answers (.markFailedAttempt job w n t error timedOut backoff) (.ok r) (.ok j)
  | raised (q : JobCall JsonObject) (err : Err) (text : String) :
      Answers q (.error err) (.error (.plain false text))

/-- A `process_one` call on its way: what it asked so far and the code that is left. -/
structure Call where
  workerId : String
  talk : Talk JsonObject
  code : Code JsonObject (Option Job)
  reached : After (processOne workerId) talk code

/-- A repository call of a `process_one` call: what was asked before it, its answer, and the store
before and after it. -/
structure Performed where
  workerId : String
  talk : Talk JsonObject
  call : JobCall JsonObject
  answer : Except PyExc (Option Job)
  before : Store
  after : Store

structure Pool where
  history : History Event Store
  calls : List Call
  performed : List Performed

def Pool.empty : Pool := ⟨[], [], []⟩

/-- A call begins; it gets an answer from elsewhere than the store; its next transaction commits or
raises; it raises without having changed the store; or something else happens to the store. -/
inductive Pool.Step (deps : Deps) (engine : Engine) : Pool → Pool → Prop
  | start {h : History Event Store} {cs : List Call} {ps : List Performed} (w : String) :
      Step deps engine ⟨h, cs, ps⟩ ⟨h, cs ++ [⟨w, [], processOne w, .nil⟩], ps⟩
  | inform {h : History Event Store} {before after : List Call} {ps : List Performed} {w : String}
      {tr : Talk JsonObject} {c : Command JsonObject} {k : c.Answer → Code JsonObject (Option Job)}
      {hr : After (processOne w) tr (.call c k)} (x : c.Answer) : (∀ q, c ≠ .jobs q) →
      Step deps engine ⟨h, before ++ ⟨w, tr, .call c k, hr⟩ :: after, ps⟩
        ⟨h, before ++ ⟨w, tr ++ [⟨c, x⟩], k x, hr.snoc x⟩ :: after, ps⟩
  | perform {h : History Event Store} {before after : List Call} {ps : List Performed} {w : String}
      {tr : Talk JsonObject} {q : JobCall JsonObject}
      {k : Except PyExc (Option Job) → Code JsonObject (Option Job)}
      {hr : After (processOne w) tr (.call (.jobs q) k)} {skipped : String → Bool} {now : UtcTime}
      {op : Op} {x : Except PyExc (Option Job)} : q.op skipped now = some op →
      q.Answers (atomically (op.body deps engine) (present h)).1 x →
      Step deps engine ⟨h, before ++ ⟨w, tr, .call (.jobs q) k, hr⟩ :: after, ps⟩
        ⟨afterCall deps engine h op, before ++ ⟨w, tr ++ [⟨.jobs q, x⟩], k x, hr.snoc x⟩ :: after,
          ⟨w, tr, q, x, present h, present (afterCall deps engine h op)⟩ :: ps⟩
  | fault {h : History Event Store} {before after : List Call} {ps : List Performed} {w : String}
      {tr : Talk JsonObject} {q : JobCall JsonObject}
      {k : Except PyExc (Option Job) → Code JsonObject (Option Job)}
      {hr : After (processOne w) tr (.call (.jobs q) k)} (exc : PyExc) :
      Step deps engine ⟨h, before ++ ⟨w, tr, .call (.jobs q) k, hr⟩ :: after, ps⟩
        ⟨h, before ++ ⟨w, tr ++ [⟨.jobs q, .error exc⟩], k (.error exc), hr.snoc (.error exc)⟩ :: after,
          ⟨w, tr, q, .error exc, present h, present h⟩ :: ps⟩
  | other {h : History Event Store} {cs : List Call} {ps : List Performed} {e : Event} {s : Store} :
      RunStep deps engine h e s → Step deps engine ⟨h, cs, ps⟩ ⟨⟨e, s⟩ :: h, cs, ps⟩

/-! ## What is recorded and what happened -/

/-- The outcome that the exchange reports. -/
def heard : Exchange (Command JsonObject) Command.Answer → Option (HandlerOutcome JsonObject)
  | ⟨.handler _ _ _, .ok o⟩ => some o
  | _ => none

/-- The job that the exchange claims. -/
def taken : Exchange (Command JsonObject) Command.Answer → Option Job
  | ⟨.jobs (.claimNextJob _), .ok j⟩ => j
  | _ => none

/-- `min(backoff_base * 2 ** (attempt_no - 1), backoff_max)`. -/
def backoffOf (config : RuntimeConfig) (attemptNo : Nat) : PyFloat :=
  (config.backoffBaseSeconds.scale (2 ^ (attemptNo - 1))).min config.backoffMaxSeconds

/-- The text that an exception leaves in the attempt row. -/
def recordedError (exc : PyExc) : Except PyExc String :=
  if exc.isTimeout then .ok "attempt timed out" else exc.str

/-- The call by `w` claimed `job`. -/
def Owns (w : String) (tr : Talk JsonObject) (job : Job) : Prop :=
  (⟨.jobs (.claimNextJob w), .ok (some job)⟩ : Exchange _ Command.Answer) ∈ tr

def Store.DeadLettered (s : Store) (id : String) : Prop :=
  ∃ r, s.job? id = some r ∧ r.status = .deadLettered

namespace Performed

/-- The call wrote this attempt row. -/
def Wrote (e : Performed) (a : AttemptRow) : Prop :=
  a ∈ e.after.jobAttempts ∧ a ∉ e.before.jobAttempts

/-- The row is about the attempt of this `process_one` call, whose handler ended with `o`. -/
def Handled (e : Performed) (a : AttemptRow) (o : HandlerOutcome JsonObject) : Prop :=
  ∃ job, Owns e.workerId e.talk job ∧ a.jobId = job.id ∧ a.attemptNo = job.attemptCount + 1 ∧
    a.workerId = e.workerId ∧
    (⟨.handler job.payload (job.attemptCount + 1) job.timeoutSeconds, .ok o⟩ :
      Exchange _ Command.Answer) ∈ e.talk

/-- A failure is charged only to a handler that raised, a timeout only to one that was late, a handler
that returned is recorded as succeeded if at all, and jobs are dead-lettered only after failures and
timeouts. -/
structure Fair (e : Performed) : Prop where
  failed : ∀ a, e.Wrote a → a.status = .failed → ∃ exc, e.Handled a (.raised exc)
  timedOut : ∀ a, e.Wrote a → a.status = .timedOut → e.Handled a .late
  returned : ∀ a result, e.Wrote a → e.Handled a (.returned result) → a.status = .succeeded
  deadLettered : ∀ id, e.after.DeadLettered id → ¬ e.before.DeadLettered id →
    ∃ a, e.Wrote a ∧ a.jobId = id ∧ ((∃ exc, e.Handled a (.raised exc)) ∨ e.Handled a .late)

end Performed

/-- The answers that the except clauses of `process_one` take for something else: a `TimeoutError`
that the handler raised itself, a submission that raised, so that the handler was never called, and a
`mark_succeeded` that raised. -/
inductive Misleading : Exchange (Command JsonObject) Command.Answer → Prop
  | timeoutError (payload : Json) (n : Nat) (timeout : ℚ) (exc : PyExc) : exc.isTimeout = true →
      Misleading ⟨.handler payload n timeout, .ok (.raised exc)⟩
  | refused (payload : Json) (n : Nat) (timeout : ℚ) (exc : PyExc) :
      Misleading ⟨.handler payload n timeout, .error exc⟩
  | lostSuccess (job : Job) (w : String) (n : Nat) (t : UtcTime) (result : JsonObject) (exc : PyExc) :
      Misleading ⟨.jobs (.markSucceeded job w n t result), .error exc⟩

/-- After a misleading answer the next repository call raises, or the lease is gone by then. -/
def Performed.Benign (e : Performed) : Prop :=
  (∃ x ∈ e.talk, Misleading x) →
    (∃ exc, e.answer = .error exc) ∨
      ∀ job, Owns e.workerId e.talk job → ¬ Leased e.before e.workerId job.id

end PulseQueue
