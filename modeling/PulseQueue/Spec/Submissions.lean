import PulseQueue.Spec.Runs

/-!
# Concurrent submissions

A call of `create_job` with an idempotency key is up to three transactions: the lookup of the key, the
guarded `INSERT`, and then the read of the new row or the second lookup (`Submission.advance`; run
without interruption they are `createJob`, `Submission.alone`). A `System` is the history of the store
and any number of such calls, each somewhere on its way. Its steps are the steps of the calls and
everything a run may do (`System.Step`).
-/

namespace PulseQueue

open Txn Trace

/-! ## The transactions of an engine -/

namespace Engine

variable (deps : Deps)

def lookupKey : Engine → String → String → Repo (Option Job)
  | .sqlite => Sqlite.lookupKey deps
  | .postgres => Postgres.lookupKey deps

def relookupKey : Engine → String → String → Repo (Option Job)
  | .sqlite => Sqlite.relookupKey deps
  | .postgres => Postgres.relookupKey deps

def createJobTxn : Engine → UtcTime → String → JobCreate → Nat → ℚ → Option String → Body Unit
  | .sqlite => Sqlite.createJobTxn deps
  | .postgres => Postgres.createJobTxn deps

def getJob : Engine → String → Repo (Option Job)
  | .sqlite => Sqlite.getJob deps
  | .postgres => Postgres.getJob deps

def createJob : Engine → UtcTime → String → JobCreate → Nat → ℚ → Option String → Repo (Option Job)
  | .sqlite => Sqlite.createJob deps
  | .postgres => Postgres.createJob deps

variable (engine : Engine)

/-! The two classes have the same text here. -/

theorem lookupKey_eq : engine.lookupKey deps = Sqlite.lookupKey deps := by cases engine <;> rfl
theorem relookupKey_eq : engine.relookupKey deps = Sqlite.relookupKey deps := by
  cases engine <;> rfl
theorem createJobTxn_eq : engine.createJobTxn deps = Sqlite.createJobTxn deps := by
  cases engine <;> rfl
theorem getJob_eq : engine.getJob deps = Sqlite.getJob deps := by cases engine <;> rfl
theorem createJob_eq : engine.createJob deps = Sqlite.createJob deps := by cases engine <;> rfl

end Engine

/-! ## One call -/

/-- The arguments of `create_job`, and the clock reading and id that the call uses. -/
structure Submission where
  now : UtcTime
  jobId : String
  request : JobCreate
  maxRetries : Nat
  timeoutSeconds : ℚ
  key : String
  key_ne : key ≠ ""

/-- The next transaction of a call, or its result. -/
inductive Progress
  | lookup
  | insert
  | read
  | relookup
  | done (result : Except Err (Option Job))

/-- A bound on the transactions that are left. -/
def Progress.remaining : Progress → Nat
  | .lookup => 3
  | .insert => 2
  | .read | .relookup => 1
  | .done _ => 0

namespace Submission

variable (deps : Deps) (engine : Engine) (c : Submission)

def fingerprint : String := jobRequestFingerprint deps c.request c.maxRetries c.timeoutSeconds

/-- The `INSERT` of the call as an operation of a run. -/
def op : Op := .createJob c.now c.jobId c.request c.maxRetries c.timeoutSeconds (some c.key)

/-- One transaction of the call. -/
def advance : Progress → Store → Progress × Store
  | .lookup, s =>
    match engine.lookupKey deps (c.fingerprint deps) c.key s with
    | (.ok none, s') => (.insert, s')
    | (.ok (some existing), s') => (.done (.ok (some existing)), s')
    | (.error e, s') => (.done (.error e), s')
  | .insert, s =>
    match Conn.run (engine.createJobTxn deps c.now c.jobId c.request c.maxRetries c.timeoutSeconds
        (some c.key)) s with
    | (.ok (), s') => (.read, s')
    | (.error .integrity, s') => (.relookup, s')
    | (.error e, s') => (.done (.error e), s')
  | .read, s => (.done (engine.getJob deps c.jobId s).1, (engine.getJob deps c.jobId s).2)
  | .relookup, s =>
    (.done (engine.relookupKey deps (c.fingerprint deps) c.key s).1,
      (engine.relookupKey deps (c.fingerprint deps) c.key s).2)
  | .done result, s => (.done result, s)

/-- The whole call. -/
def createJob : Repo (Option Job) :=
  engine.createJob deps c.now c.jobId c.request c.maxRetries c.timeoutSeconds (some c.key)

/-- The last two transactions. -/
theorem advance_insert (s : Store) :
    (fun p : Progress × Store => c.advance deps engine p.1 p.2)^[2] (.insert, s) =
      (.done (Sqlite.insertOrFind deps c.now c.jobId c.request c.maxRetries c.timeoutSeconds
        (some c.key) s).1, (Sqlite.insertOrFind deps c.now c.jobId c.request c.maxRetries
          c.timeoutSeconds (some c.key) s).2) := by
  simp only [Function.iterate_succ, Function.iterate_zero, Function.comp_apply, id_eq, advance,
    Engine.createJobTxn_eq, Sqlite.insertOrFind, Conn.bind_run, Conn.attempt_run]
  rcases Conn.run (Sqlite.createJobTxn deps c.now c.jobId c.request c.maxRetries c.timeoutSeconds
    (some c.key)) s with ⟨e | u, s₁⟩
  · have hkey := c.key_ne
    cases e
    case integrity =>
      simp only [Engine.relookupKey_eq, ne_eq, hkey, not_false_eq_true, if_true]
      rfl
    all_goals rfl
  · simp only [Engine.getJob_eq]

/-- A call whose transactions nothing comes between. -/
theorem alone (s : Store) :
    (fun p : Progress × Store => c.advance deps engine p.1 p.2)^[3] (.lookup, s) =
      (.done (c.createJob deps engine s).1, (c.createJob deps engine s).2) := by
  have hkey := c.key_ne
  have hfirst : c.advance deps engine .lookup s =
      match Sqlite.lookupKey deps (c.fingerprint deps) c.key s with
      | (.ok none, s') => (.insert, s')
      | (.ok (some existing), s') => (.done (.ok (some existing)), s')
      | (.error e, s') => (.done (.error e), s') := by
    rw [← Engine.lookupKey_eq deps engine]
    rfl
  have hcall : c.createJob deps engine s =
      match Sqlite.lookupKey deps (c.fingerprint deps) c.key s with
      | (.ok none, s') => Sqlite.insertOrFind deps c.now c.jobId c.request c.maxRetries
          c.timeoutSeconds (some c.key) s'
      | (.ok (some existing), s') => (.ok (some existing), s')
      | (.error e, s') => (.error e, s') := by
    simp only [createJob, Engine.createJob_eq, Sqlite.createJob, if_pos hkey, Conn.bind_run]
    unfold fingerprint
    rcases Sqlite.lookupKey deps _ c.key s with ⟨_ | (_ | _), _⟩ <;> rfl
  rw [Function.iterate_succ_apply, hfirst, hcall]
  rcases Sqlite.lookupKey deps (c.fingerprint deps) c.key s with ⟨e | (_ | existing), s₁⟩
  · rfl
  · exact c.advance_insert deps engine s₁
  · rfl

end Submission

/-! ## Any number of calls -/

/-- A call on its way. `wrote`: one of its transactions has changed the store. -/
structure Client where
  call : Submission
  progress : Progress
  wrote : Bool

structure System where
  history : History Event Store
  clients : List Client

namespace System

def empty : System := ⟨[], []⟩

def store (σ : System) : Store := present σ.history

end System

variable (deps : Deps) (engine : Engine)

/-- The call after its next transaction on `s`. -/
def Client.advance (s : Store) (c : Client) : Client :=
  let next := c.call.advance deps engine c.progress s
  ⟨c.call, next.1, c.wrote || decide (next.2 ≠ s)⟩

/-- Only the `INSERT` can write, so only it is recorded. -/
def Client.record (h : History Event Store) (c : Client) : History Event Store :=
  match c.progress with
  | .insert => afterCall deps engine h c.call.op
  | _ => h

/-- `uuid4()` gives the call an id that no job has. -/
def Client.Fresh (s : Store) (c : Client) : Prop :=
  c.progress = .insert → ∀ r ∈ s.jobs, r.id ≠ c.call.jobId

/-- A call begins, a call makes its next transaction, or something else happens to the store. -/
inductive System.Step : System → System → Prop
  | start {h : History Event Store} {cs : List Client} (call : Submission) :
      Step ⟨h, cs⟩ ⟨h, cs ++ [⟨call, .lookup, false⟩]⟩
  | advance {h : History Event Store} {before after : List Client} {c : Client} :
      c.Fresh (present h) → Step ⟨h, before ++ c :: after⟩
        ⟨c.record deps engine h, before ++ c.advance deps engine (present h) :: after⟩
  | other {h : History Event Store} {cs : List Client} {e : Event} {s : Store} :
      RunStep deps engine h e s → Step ⟨h, cs⟩ ⟨⟨e, s⟩ :: h, cs⟩

end PulseQueue
