import PulseQueue.Model.Routes
import PulseQueue.Proof.LiveLease
import PulseQueue.Spec.Submissions

/-!
# Cancelled jobs stay cancelled

`cancel_job` and `drain_queue` cancel the queued jobs among theirs (`cancels_body`). A row that is terminal
does not change any more, so from then on a claim that returns one of their jobs returns one that was
running, or that came later.
-/

namespace PulseQueue

open Txn Trace Table

variable {deps : Deps} {engine : Engine}

/-- The clock reading of a cancellation and the jobs it is about. -/
def Op.cancels : Op → Option (UtcTime × (String → Bool))
  | .cancelJob now id => some (now, (· == id))
  | .drainQueue now => some (now, fun _ => true)
  | _ => none

/-- The rows that a cancellation takes. -/
def cancellable (p : String → Bool) (r : JobRow) : Bool := p r.id && r.status = .queued

theorem cancels_body {op : Op} {now : UtcTime} {p : String → Bool} (hop : op.cancels = some (now, p))
    (s : Store) : op.body deps engine s = .ok (.count (s.jobs.countP (cancellable p)),
      { s with jobs := updateWhere (cancellable p) (·.cancelled (toDbTime now)) s.jobs }) := by
  cases op with
  | cancelJob t id =>
    cases hop
    cases engine <;> exact reply_ok.2 ⟨_, rfl, rfl⟩
  | drainQueue t =>
    cases hop
    have hall : (fun r : JobRow => decide (r.status = .queued)) = cancellable fun _ => true := by
      funext r
      simp [cancellable]
    cases engine
    · exact reply_ok.2 ⟨_, by rw [← hall]; rfl, rfl⟩
    · exact reply_ok.2 ⟨_, by rw [← hall]; rfl, rfl⟩
  | _ => cases hop

/-- What the route of `cancel_job` answers when it reads the job in `s`. -/
def cancelAnswer (deps : Deps) (engine : Engine) (id : String) (s : Store) :
    Except Err (Except NotFound Job) :=
  ((engine.getJob deps id s).1).map (orNotFound "job not found")

/-- `create_repository` with the settings of the engine. -/
def Engine.repository (deps : Deps) : Engine → JobRepository
  | .sqlite => Sqlite.repository deps
  | .postgres => Postgres.repository deps

/-- `op` at `now`, about the jobs in `p`, after the history `pre` and with `post` after it. -/
structure Cancellation (deps : Deps) (engine : Engine) (op : Op) (now : UtcTime) (p : String → Bool)
    (pre post : History Event Store) : Prop where
  /-- the answer is the number of cancelled jobs -/
  count : (atomically (op.body deps engine) (present pre)).1 =
    .ok (.count ((present pre).jobs.countP (cancellable p)))
  taken : ∀ id r, (present pre).job? id = some r → cancellable p r = true →
    (present (post ++ afterCall deps engine pre op)).job? id = some (r.cancelled (toDbTime now))
  spared : ∀ id r, (present pre).job? id = some r → cancellable p r = false →
    (present (afterCall deps engine pre op)).job? id = some r
  /-- a job claimed later was running, or came later -/
  fence : ∀ e ∈ post, ∀ w c, e.event.claimed = some (w, c) → p c.id = true →
    (present pre).job? c.id = none ∨ ∃ r, (present pre).job? c.id = some r ∧ r.status = .running
  /-- the route when nothing comes between its two transactions -/
  alone : ∀ id, op = .cancelJob now id →
    (Api.cancelJob (engine.repository deps) now id (present pre)).1 =
      cancelAnswer deps engine id (present (afterCall deps engine pre op))
  /-- 404 only for a job that was not there -/
  missing : ∀ id, cancelAnswer deps engine id (present (post ++ afterCall deps engine pre op)) =
    .ok (.error ⟨"job not found"⟩) → (present pre).job? id = none
  found : ∀ id r, (present pre).job? id = some r → ∃ job,
    cancelAnswer deps engine id (present (post ++ afterCall deps engine pre op)) = .ok (.ok job) ∧
      job.id = id ∧ (cancellable p r = true → job = jobFromRow deps (r.cancelled (toDbTime now))) ∧
      (r.status.terminal = true → job = jobFromRow deps r)

theorem job?_cancel (s : Store) (p : String → Bool) (t : DbTime) (id : String) :
    Store.job? { s with jobs := updateWhere (cancellable p) (·.cancelled t) s.jobs } id =
      (s.job? id).map fun r => if cancellable p r then r.cancelled t else r :=
  lookup_updateWhere fun _ _ => rfl

theorem cancelAnswer_some {id : String} {s : Store} {r : JobRow} (hr : s.job? id = some r) :
    cancelAnswer deps engine id s = .ok (.ok (jobFromRow deps r)) := by
  simp only [cancelAnswer, Engine.getJob_eq, Sqlite.getJob, hr, Option.map_some]
  rfl

section
variable {op : Op} {now : UtcTime} {p : String → Bool} {pre post : History Event Store}

/-- The row of a job right after a cancellation. -/
theorem cancelled_row (hop : op.cancels = some (now, p)) (id : String) :
    (present (afterCall deps engine pre op)).job? id =
      ((present pre).job? id).map fun r => if cancellable p r then r.cancelled (toDbTime now) else r := by
  have hbody : op.body deps engine (present pre) = _ := cancels_body hop (present pre)
  have hstore : present (afterCall deps engine pre op) = _ := congrArg Prod.snd (atomically_ok hbody)
  rw [hstore]
  exact job?_cancel (present pre) p (toDbTime now) id

/-- A cancelled row stays. -/
theorem cancelled_stays (hop : op.cancels = some (now, p))
    (hr : Run deps engine (post ++ afterCall deps engine pre op)) {id : String} {r : JobRow}
    (hj : (present pre).job? id = some r) (hp : cancellable p r = true) :
    (present (post ++ afterCall deps engine pre op)).job? id = some (r.cancelled (toDbTime now)) := by
  have hafter := @cancelled_row deps engine op now p pre hop id
  rw [hj, Option.map_some, if_pos hp] at hafter
  obtain ⟨r', hr', hl⟩ := Run.later hr hafter
  rw [hl.frozen rfl] at hr'
  exact hr'

theorem spared_row (hop : op.cancels = some (now, p)) {id : String} {r : JobRow}
    (hj : (present pre).job? id = some r) (hp : cancellable p r = false) :
    (present (afterCall deps engine pre op)).job? id = some r := by
  rw [cancelled_row hop, hj, Option.map_some, if_neg (by simp [hp])]

/-- A job that is queued now and was there before the cancellation was running then. -/
theorem queued_after (hop : op.cancels = some (now, p))
    (hr : Run deps engine (post ++ afterCall deps engine pre op)) {id : String} {r r' : JobRow}
    (hj : (present pre).job? id = some r) (hp : p id = true)
    (hj' : (present (post ++ afterCall deps engine pre op)).job? id = some r')
    (hq : r'.status = .queued) : r.status = .running := by
  have hid : r.id = id := (Store.job?_some hj).2
  cases hc : cancellable p r with
  | true =>
    cases hj'.symm.trans (cancelled_stays hop hr hj hc)
    cases hq
  | false =>
    obtain ⟨r₁, hr₁, hl⟩ := Run.later hr (spared_row hop hj hc)
    cases hj'.symm.trans hr₁
    have hfrozen : r.status.terminal = true → r.status = .queued := fun ht => by rw [← hl.frozen ht, hq]
    have hsound : PulseQueue.Sound deps pre := Run.sound (hr.suffix.tail)
    have hnot := (hsound.coherent id r hj).notFailed
    simp only [cancellable, hid, hp, Bool.true_and, decide_eq_false_iff_not] at hc
    cases hst : r.status with
    | queued => exact absurd hst hc
    | running => rfl
    | failed => exact absurd hst hnot
    | succeeded | deadLettered | cancelled =>
      rw [hst] at hfrozen
      cases hfrozen rfl

theorem cancelJob_alone (pre : History Event Store) (now : UtcTime) (id : String) :
    (Api.cancelJob (engine.repository deps) now id (present pre)).1 =
      cancelAnswer deps engine id (present (afterCall deps engine pre (.cancelJob now id))) := by
  cases engine <;> rfl

/-- A cancellation is final, whatever happens after it. -/
theorem cancellation_final (hop : op.cancels = some (now, p))
    (hr : Run deps engine (post ++ afterCall deps engine pre op)) :
    Cancellation deps engine op now p pre post where
  count := congrArg Prod.fst (atomically_ok (cancels_body hop (present pre)))
  taken _ _ hj hp := cancelled_stays hop hr hj hp
  spared _ _ hj hp := spared_row hop hj hp
  fence := by
    rintro e he w c hclaimed hp
    obtain ⟨late, early, rfl⟩ := mem_split he
    rw [List.append_assoc, List.cons_append] at hr
    obtain ⟨hrun, hstep⟩ := hr.split
    obtain ⟨r, t, hmem, hq, rfl, -⟩ := claimed_row (Run.sound hrun) hstep hclaimed
    cases hj : (present pre).job? r.id with
    | none => exact .inl hj
    | some r₀ =>
      exact .inr ⟨r₀, hj, queued_after hop hrun hj hp ((Run.sound hrun).ok.job?_mem hmem) hq⟩
  alone := by
    rintro id rfl
    exact cancelJob_alone pre now id
  missing := by
    intro id hanswer
    cases hj : (present pre).job? id with
    | none => rfl
    | some r =>
      obtain ⟨r', hr', -⟩ := Run.later hr (cancelled_row hop id ▸ congrArg (Option.map _) hj)
      rw [cancelAnswer_some hr'] at hanswer
      cases hanswer
  found := by
    intro id r hj
    cases hc : cancellable p r with
    | true =>
      have hstays := cancelled_stays hop hr hj hc
      refine ⟨_, cancelAnswer_some hstays, (Store.job?_some hstays).2, fun _ => rfl, fun ht => ?_⟩
      simp only [cancellable, Bool.and_eq_true, decide_eq_true_eq] at hc
      rw [hc.2] at ht
      cases ht
    | false =>
      obtain ⟨r', hr', hl⟩ := Run.later hr (spared_row hop hj hc)
      refine ⟨_, cancelAnswer_some hr', (Store.job?_some hr').2, fun h => absurd h (by simp), fun ht => ?_⟩
      rw [hl.frozen ht]

end

def sampleTwo : History Event Store :=
  afterCall sampleDeps .sqlite [] (.createJobsBatch (sampleTime 0) (fun i => if i = 0 then "j" else "k")
    [sampleRequest, sampleRequest] 1 300)

/-- Of two jobs one is cancelled; then a worker claims the other one, and its lease expires. -/
theorem cancellation_final_queued : ∃ post, (post.filterMap (·.event.claimed)).map (·.2.id) = ["k"] ∧
    Cancellation sampleDeps .sqlite (.cancelJob (sampleTime 1) "j") (sampleTime 1) (· == "j") sampleTwo
      post := by
  have hr : Run sampleDeps .sqlite
      (afterCall sampleDeps .sqlite (afterCall sampleDeps .sqlite
        (afterCall sampleDeps .sqlite sampleTwo (.cancelJob (sampleTime 1) "j"))
        (.claim (fun _ => false) (sampleTime 2) "w"))
        (.recoverStaleJobs (fun _ => false) (sampleTime 400) 0)) :=
    Run.afterCall (Run.afterCall (Run.afterCall (Run.afterCall .nil (Allowed.of_none rfl))
      (Allowed.of_none rfl)) (Allowed.of_none rfl)) (Allowed.of_none rfl)
  exact ⟨_, by decide +kernel, @cancellation_final _ _ _ _ _ sampleTwo [_, _] rfl hr⟩

end PulseQueue
