import PulseQueue.Proof.Reaper
import PulseQueue.Proof.Submissions

/-!
# A submitted job is there for good

A committed submission appends its rows (`Op.submits`), whose ids are new and different. From then on the
table has exactly one row with each of these ids, with the columns of the submission (`Stored`), and no claim
returns the job before its `run_at`.
-/

namespace PulseQueue

open Txn Trace Table

variable {deps : Deps} {engine : Engine}

/-- The rows that a submission inserts. -/
def Op.submits (deps : Deps) : Op → List JobRow
  | .createJob now id request m t key => [submittedRow deps now id request m t key]
  | .createJobsBatch now uuids requests m t => Sqlite.batchRows deps now uuids m t 0 requests
  | _ => []

/-! ## The insert -/

theorem insertJobs_append {s s' : Store} {u : Unit} : ∀ (rows : List JobRow),
    Sqlite.insertJobs rows s = .ok (u, s') → s' = { s with jobs := s.jobs ++ rows }
  | [], hx => by
    cases hx
    simp
  | row :: rows, hx => by
    obtain ⟨_, s₁, hrow, hrows⟩ := Tx.bind_eq_ok.1 hx
    obtain ⟨-, rfl⟩ := insertJob_ok hrow
    rw [insertJobs_append rows hrows]
    simp

theorem submits_ok {s s' : Store} {op : Op} {r : Reply} (hop : op.submits deps ≠ [])
    (hx : op.body deps engine s = .ok (r, s')) : s' = { s with jobs := s.jobs ++ op.submits deps } := by
  cases op with
  | createJob now id request m t key =>
    cases engine <;> obtain ⟨u, hx, -⟩ := reply_ok.1 hx <;> exact (insertJob_ok hx).2
  | createJobsBatch now uuids requests m t =>
    cases engine <;> obtain ⟨u, hx, -⟩ := reply_ok.1 hx
    · exact insertJobs_append _ hx
    · rw [Postgres.insertJobs_eq, Postgres.batchRows_eq] at hx
      exact insertJobs_append _ hx
  | _ => exact absurd rfl hop

/-! ## The row from then on -/

/-- The row `r'` of the job of `r` at a later time, which waits for the same time until an attempt ends. -/
structure LaterWaits (r r' : JobRow) : Prop extends Later r r' where
  runAt : r'.attemptCount = r.attemptCount → r'.runAt = r.runAt

theorem LaterWaits.refl (r : JobRow) : LaterWaits r r := ⟨Later.refl r, fun _ => rfl⟩

theorem LaterWaits.trans {r₁ r₂ r₃ : JobRow} (h : LaterWaits r₁ r₂) (h' : LaterWaits r₂ r₃) :
    LaterWaits r₁ r₃ := by
  refine ⟨h.toLater.trans h'.toLater, fun hcount => ?_⟩
  have hle := h.count
  have hle' := h'.count
  rw [h'.runAt (by omega), h.runAt (by omega)]

theorem LaterWaits.step {k : Kind} {r r' : JobRow} {as as' ds ds'}
    (hs : JobStep deps k ⟨some r, as, ds⟩ ⟨some r', as', ds'⟩) : LaterWaits r r' := by
  refine ⟨Later.step hs, fun hcount => ?_⟩
  cases hs with
  | claim | cancel | reorder => rfl
  | settle startedAt t hr hw hp =>
    rw [settled_count] at hcount
    omega

theorem Steps.waits {s s' : Store} {L : Kind → Prop} (hst : Steps deps L s s') (hok : s.Ok deps)
    {id : String} {r : JobRow} (hr : s.job? id = some r) :
    ∃ r', s'.job? id = some r' ∧ LaterWaits r r' := by
  have hview := hst.keeps (P := fun v => ∃ r', v.job = some r' ∧ LaterWaits r r') ?_ hok id
    ⟨r, hr, LaterWaits.refl r⟩
  · exact hview
  · rintro k v v' - ⟨r₁, hr₁, hl⟩ hstep
    rcases hstep.job_cases with ⟨r₂, r₃, hr₂, hr₃, hstep'⟩ | ⟨hnone, -⟩ | ⟨hnone, -⟩
    · cases hr₂.symm.trans hr₁
      exact ⟨r₃, hr₃, hl.trans (LaterWaits.step hstep')⟩
    · rw [hr₁] at hnone
      cases hnone
    · rw [hr₁] at hnone
      cases hnone

theorem Run.waits {post pre : History Event Store} (hr : Run deps engine (post ++ pre)) {id : String}
    {r : JobRow} (hj : (present pre).job? id = some r) :
    ∃ r', (present (post ++ pre)).job? id = some r' ∧ LaterWaits r r' := by
  refine Valid.related (R := fun s s' => ∀ id r, s.job? id = some r →
    ∃ r', s'.job? id = some r' ∧ LaterWaits r r') ?_ ?_ ?_ hr id r hj
  · intro s id r hr
    exact ⟨r, hr, LaterWaits.refl r⟩
  · intro a b c hab hbc id r hr
    obtain ⟨r₁, h1, hl⟩ := hab id r hr
    obtain ⟨r₂, h2, hl'⟩ := hbc id r₁ h1
    exact ⟨r₂, h2, hl.trans hl'⟩
  · intro h e s hv hstep id r hr
    obtain ⟨⟨L, hst⟩, -⟩ := (Run.sound hv).entry hstep
    exact hst.waits (Run.sound hv).ok hr

/-- No claim of the history returned the job of `r` before the time it waits for, but after another attempt
has ended. -/
def NotBefore (r : JobRow) (h : History Event Store) : Prop :=
  ∀ e ∈ h, ∀ skipped now w c, e.event = .call (.claim skipped now w) (.ok (.job (some c))) →
    c.id = r.id → c.attemptCount = r.attemptCount → r.runAt ≤ toDbTime now

theorem Run.notBefore {post pre : History Event Store} (hr : Run deps engine (post ++ pre)) {r : JobRow}
    (hj : (present pre).job? r.id = some r) : NotBefore r post := by
  rintro ⟨e, s'⟩ he skipped t w c rfl hid hcount
  obtain ⟨late, early, rfl⟩ := mem_split he
  rw [List.append_assoc, List.cons_append] at hr
  obtain ⟨hrun, hstep⟩ := hr.split
  obtain ⟨-, ⟨reply, hx, hout⟩ | ⟨err, hout, -⟩⟩ := hstep.call_cases
  · obtain ⟨j, rfl, htakes⟩ := claim_takes (Run.sound hrun).ok hx
    cases hout
    cases htakes with
    | @took r₁ hmem hq hdue =>
      obtain ⟨r', hr', hl⟩ := Run.waits hrun hj
      have hid : r₁.id = r.id := hid
      have hcount : r₁.attemptCount = r.attemptCount := hcount
      have hsame := (Run.sound hrun).ok.job?_mem hmem
      rw [hid] at hsame
      cases hsame.symm.trans hr'
      rw [← hl.runAt hcount]
      exact hdue
  · cases hout

/-! ## Submissions -/

/-- What is there of a submitted row: `get_job` finds the job, with the columns of the submission, and
until its first attempt has ended it waits for the time of the submission. -/
def Stored (deps : Deps) (engine : Engine) (row : JobRow) (s : Store) : Prop :=
  ∃ r, engine.getJob deps row.id s = (.ok (some (jobFromRow deps r)), s) ∧ r.fixed = row.fixed ∧
    (r.attemptCount = 0 → r.runAt = row.runAt)

/-- No claim of the history returned the job `id` for its first attempt before `runAt`. -/
def NotEarly (id : String) (runAt : DbTime) (h : History Event Store) : Prop :=
  ∀ e ∈ h, ∀ skipped now w c, e.event = .call (.claim skipped now w) (.ok (.job (some c))) →
    c.id = id → c.attemptCount = 0 → runAt ≤ toDbTime now

theorem submits_new {op : Op} {row : JobRow} (hrow : row ∈ op.submits deps) : row.attemptCount = 0 := by
  cases op with
  | createJob =>
    rw [List.mem_singleton.1 hrow]
    rfl
  | createJobsBatch =>
    obtain ⟨request, k, rfl⟩ := Sqlite.mem_batchRows hrow
    rfl
  | _ => cases hrow

/-- A committed submission has inserted its rows. -/
theorem submits_rows {pre : History Event Store} {op : Op} {reply : Reply} {row : JobRow}
    (hok : (atomically (op.body deps engine) (present pre)).1 = .ok reply)
    (hrow : row ∈ op.submits deps) :
    present (afterCall deps engine pre op) =
      { present pre with jobs := (present pre).jobs ++ op.submits deps } := by
  rcases atomically_cases (op.body deps engine) (present pre) with ⟨r, s', hx, hat⟩ | ⟨e, -, hat⟩
  · show (atomically (op.body deps engine) (present pre)).2 = _
    rw [hat]
    exact submits_ok (List.ne_nil_of_mem hrow) hx
  · rw [hat] at hok
    cases hok

/-- A submission that got through put jobs with new ids into the table. Whatever happens after it, each of
them is there with what was submitted, and it is not claimed before its time. -/
theorem submitted_jobs_kept {pre post : History Event Store} {op : Op} {reply : Reply}
    (hr : Run deps engine (post ++ afterCall deps engine pre op))
    (hok : (atomically (op.body deps engine) (present pre)).1 = .ok reply) :
    ((op.submits deps).map (·.id)).Nodup ∧ ∀ row ∈ op.submits deps,
      (∀ o ∈ (present pre).jobs, o.id ≠ row.id) ∧
        Stored deps engine row (present (post ++ afterCall deps engine pre op)) ∧
        NotEarly row.id row.runAt post := by
  have hs := Run.sound hr.suffix
  constructor
  · cases hsub : op.submits deps with
    | nil => exact List.nodup_nil
    | cons row rows =>
      have hmem : row ∈ op.submits deps := hsub ▸ List.mem_cons_self ..
      have hnodup := hs.ok.nodup
      rw [submits_rows hok hmem, List.map_append] at hnodup
      rw [← hsub]
      exact (List.nodup_append.1 hnodup).2.1
  · intro row hrow
    have hafter := submits_rows hok hrow
    have hthere : (present (afterCall deps engine pre op)).job? row.id = some row := by
      refine hs.ok.job?_mem ?_
      rw [hafter]
      exact List.mem_append_right _ hrow
    refine ⟨fun o ho hid => ?_, ?_, ?_⟩
    · have hnodup := hs.ok.nodup
      rw [hafter, List.map_append] at hnodup
      exact (List.nodup_append.1 hnodup).2.2 _ (List.mem_map_of_mem ho) _ (List.mem_map_of_mem hrow) hid
    · obtain ⟨r, hr', hl⟩ := Run.waits hr hthere
      refine ⟨r, ?_, hl.fixed, fun h0 => hl.runAt ?_⟩
      · rw [Engine.getJob_eq]
        simp only [Sqlite.getJob, hr', Option.map_some]
      · rw [h0, submits_new hrow]
    · intro e he skipped t w c hclaim hid hcount
      exact Run.notBefore hr hthere e he skipped t w c hclaim hid (by rw [hcount, submits_new hrow])

/-- The job of the small system, which is completed meanwhile. -/
theorem submitted_jobs_kept_sample : Stored sampleDeps .sqlite sampleRow (present sampleDone) :=
  ((@submitted_jobs_kept sampleDeps .sqlite [] (sampleDone.take 2) sampleSubmit .done sampleDone_run
    rfl).2 sampleRow (List.mem_singleton.2 rfl)).2.1

end PulseQueue
