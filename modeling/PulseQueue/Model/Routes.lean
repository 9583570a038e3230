import PulseQueue.Model.Postgres
import PulseQueue.Model.Sqlite

/-!
# The routes of the operator (`app/main.py`)

What is not there is answered with 404. The repository is one of the two classes
(`app/repository_factory.py`); the listings have the same text in both.
-/

namespace PulseQueue

open Table

/-! ## Listings -/

section
variable (deps : Deps)

/-- `list_scheduled_jobs`: the queued jobs that are not due, the next one first. -/
def listScheduledJobs (now : UtcTime) (limit : Nat) : Repo (List Job) := fun s =>
  let rows := s.jobs.filter fun r => r.status = .queued && toDbTime now < r.runAt
  (.ok (((orderBy (fun a b => a.runAt ≤ b.runAt) rows).take limit).map (jobFromRow deps)), s)

/-- `list_schedules`: the newest first. -/
def listSchedules : Repo (List Schedule) := fun s =>
  (.ok ((orderBy (fun a b => b.createdAt ≤ a.createdAt) s.recurringSchedules).map (scheduleFromRow deps)), s)

/-- An entry of `list_dead_letters`. -/
structure DeadLetter where
  jobId : String
  payload : Json
  lastError : Option String
  attemptCount : Nat
  deadLetteredAt : UtcTime

def deadLetterFromRow (row : DeadLetterRow) : DeadLetter where
  jobId := row.jobId
  payload := deps.loads row.payload
  lastError := row.lastError
  attemptCount := row.attemptCount
  deadLetteredAt := parseDbTime row.deadLetteredAt

/-- `list_dead_letters`: the latest first. -/
def listDeadLetters (limit : Nat) : Repo (List DeadLetter) := fun s =>
  (.ok (((orderBy (fun a b => b.deadLetteredAt ≤ a.deadLetteredAt) s.deadLetters).take limit).map
    (deadLetterFromRow deps)), s)

end

/-! ## Repositories -/

/-- The methods that these routes call. -/
structure JobRepository where
  getJob : String → Repo (Option Job)
  setScheduleEnabled : UtcTime → String → Bool → Repo (Option Schedule)
  deleteSchedule : String → Repo Bool
  cancelJob : UtcTime → String → Repo (Option Job)
  drainQueue : UtcTime → Repo Nat

def Sqlite.repository (deps : Deps) : JobRepository where
  getJob := Sqlite.getJob deps
  setScheduleEnabled := Sqlite.setScheduleEnabled deps
  deleteSchedule := Sqlite.deleteSchedule
  cancelJob := Sqlite.cancelJob deps
  drainQueue := Sqlite.drainQueue

def Postgres.repository (deps : Deps) : JobRepository where
  getJob := Postgres.getJob deps
  setScheduleEnabled := Postgres.setScheduleEnabled deps
  deleteSchedule := Postgres.deleteSchedule
  cancelJob := Postgres.cancelJob deps
  drainQueue := Postgres.drainQueue

/-- `create_repository`: the `ValueError`, or the class. An empty URL is none. -/
def createRepository (deps : Deps) (databaseUrl : Option String) : Except String JobRepository :=
  match databaseUrl with
  | none => .ok (Sqlite.repository deps)
  | some url =>
    if url = "" then .ok (Sqlite.repository deps)
    else if url.startsWith "postgres://" || url.startsWith "postgresql://" then
      .ok (Postgres.repository deps)
    else .error "DATABASE_URL must be a postgres:// or postgresql:// URL"

/-! ## Routes -/

/-- `HTTPException(status_code=404, detail=...)`. -/
structure NotFound where
  detail : String
deriving DecidableEq

def orNotFound {α : Type} (detail : String) : Option α → Except NotFound α
  | some a => .ok a
  | none => .error ⟨detail⟩

namespace Api

variable (repo : JobRepository)

def getJob (jobId : String) : Repo (Except NotFound Job) := do
  let job ← repo.getJob jobId
  pure (orNotFound "job not found" job)

def updateSchedule (now : UtcTime) (scheduleId : String) (enabled : Bool) :
    Repo (Except NotFound Schedule) := do
  let schedule ← repo.setScheduleEnabled now scheduleId enabled
  pure (orNotFound "schedule not found" schedule)

def deleteSchedule (scheduleId : String) : Repo (Except NotFound Unit) := do
  let deleted ← repo.deleteSchedule scheduleId
  pure (if deleted then .ok () else .error ⟨"schedule not found"⟩)

def cancelJob (now : UtcTime) (jobId : String) : Repo (Except NotFound Job) := do
  let job ← repo.cancelJob now jobId
  pure (orNotFound "job not found" job)

/-- The number under `cancelled`. -/
def drainQueue (now : UtcTime) : Repo Nat := repo.drainQueue now

end Api

end PulseQueue
