import PulseQueue.Proof.ClaimLog
import PulseQueue.Proof.ConfigBounds
import PulseQueue.Proof.ConfigFreshness
import PulseQueue.Proof.LoadTests

/-!
# Limits of a deployment

Requests, settings and patches are validated, a configuration in force is made of them, and schedules pass on
what they were created with. So no job ever has more than 20 retries or a timeout above 3600 seconds
(`Deploys.limited`), and this limits how often a job is claimed and how long it can be stuck
(`work_limited`).
-/

namespace PulseQueue

open Txn Trace Table

/-- Retries and a timeout within the ranges of `RuntimeConfig`. -/
structure Limits (m : Nat) (t : ℚ) : Prop where
  retries : m ≤ 20
  positive : 0 < t
  timeout : t ≤ 3600

/-! ## Configurations -/

theorem RuntimeConfig.default_limits (config : RuntimeConfig) {t : ℚ}
    (ht : config.defaultTimeoutSeconds = .rat t) : 0 < t ∧ t ≤ 3600 := by
  obtain ⟨-, hdefault, -⟩ := ConfigValues.valid_iff.1 config.isValid
  obtain ⟨q, hq, hpos, hle⟩ := inFloatRange_iff.1 hdefault
  cases ht.symm.trans hq
  exact ⟨hpos, hle⟩

/-- What is not above the maximum. -/
theorem RuntimeConfig.checked_limits (config : RuntimeConfig) {t : ℚ}
    (ht : config.maxTimeoutSeconds.lt (.rat t) = false) : t ≤ 3600 := by
  obtain ⟨-, -, hmax, -⟩ := ConfigValues.valid_iff.1 config.isValid
  obtain ⟨q, hq, -, hle⟩ := inFloatRange_iff.1 hmax
  rw [hq] at ht
  simp only [PyFloat.lt, decide_eq_false_iff_not, not_lt] at ht
  exact ht.trans hle

/-! ## Submissions -/

section
variable {deps : Deps} {engine : Engine}

theorem effective_limits {config : RuntimeConfig} {m : Option Nat} {o : Option ℚ} (hm : ∀ n ∈ m, n ≤ 20)
    (ho : ∀ t ∈ o, 0 < t)
    (hcheck : config.maxTimeoutSeconds.lt (config.effectiveTimeout o) = false) {t : ℚ}
    (ht : config.effectiveTimeout o = .rat t) : Limits (config.effectiveRetries m) t := by
  rw [ht] at hcheck
  refine ⟨getD_of_forall (P := fun n => n ≤ 20) hm config.retries_le, ?_, config.checked_limits hcheck⟩
  cases o with
  | none => exact (config.default_limits ht).1
  | some q =>
    cases ht
    exact ho t rfl

/-- What a route accepts. -/
theorem submit_limits {config : RuntimeConfig} {request : SubmitRequest} {call : RepoCall}
    (h : Api.submit deps config request = .ok call) {t : ℚ}
    (ht : call.timeoutSeconds = .rat t) : Limits call.maxRetries t := by
  cases request with
  | job request key =>
    simp only [Api.submit, Api.createJob] at h
    split at h
    · cases h
    · rename_i hcheck
      cases h
      exact effective_limits request.maxRetries_le request.timeout_pos (Bool.eq_false_iff.2 hcheck) ht
  | schedule request now =>
    simp only [Api.submit, Api.createSchedule] at h
    split at h
    · cases h
    · rename_i hcheck
      split at h
      · cases h
      · cases h
        exact effective_limits request.maxRetries_le request.timeout_pos (Bool.eq_false_iff.2 hcheck) ht
  | loadTest request =>
    cases h
    exact ⟨config.retries_le, (config.default_limits ht).1, (config.default_limits ht).2⟩

end

/-! ## Runs -/

def Task.Limited : Task → Prop
  | .refresh _ => True
  | .insert call => ∀ t, call.timeoutSeconds = .rat t → Limits call.maxRetries t

/-- The accepted submissions and the tables are within the limits. -/
structure Limited {ι ν : Type} (d : Deployment ι ν) : Prop where
  task : ∀ q, ∀ t ∈ d.task q, t.2.Limited
  tables : Carries (present d.database).runtimeConfig Limits (present d.database)

section
variable {ι ν : Type} {deps : Deps} {engine : Engine} {h : History (DeployEvent ι ν) (Deployment ι ν)}
  {d d' : Deployment ι ν} {e : DeployEvent ι ν}

theorem Limited.setConfig [DecidableEq ι] (hl : Limited d) (i : ι) (store : RuntimeConfigStore) :
    Limited (d.setConfig i store) where
  task := hl.task
  tables := hl.tables

theorem Limited.setTask [DecidableEq ν] (hl : Limited d) (q : ν) {t : Option (ι × Task)}
    (ht : ∀ x ∈ t, x.2.Limited) : Limited (d.setTask q t) where
  task := by
    intro q' x hx
    by_cases hq : q' = q
    · subst hq
      rw [setTask_self] at hx
      exact ht x hx
    · rw [setTask_other hq] at hx
      exact hl.task q' x hx
  tables := hl.tables

/-- A transaction that is not about the configuration. -/
theorem Limited.transaction (hl : Limited d) (hr : Run deps engine d.database) {e : Event} {s : Store}
    (hstep : RunStep deps engine d.database e s) (hop : ∀ op out, e = .call op out → op.onConfig = false)
    (hP : ∀ op out m t, e = .call op out → op.brings = some (m, t) → Limits m t) :
    Limited { d with database := ⟨e, s⟩ :: d.database } where
  task := hl.task
  tables := by
    have hc := (Run.sound hr).carries_event hstep hop hP hl.tables
    exact ⟨rfl, hc.jobs, hc.schedules⟩

/-- A transaction about the configuration. -/
theorem Limited.changeRow (hl : Limited d) {op : Op} {c : Option ConfigRow}
    (hx : (atomically (op.body deps engine) (present d.database)).2 =
      { present d.database with runtimeConfig := c }) :
    Limited { d with database := afterCall deps engine d.database op } where
  task := hl.task
  tables := by
    simp only [afterCall, now_cons, hx]
    exact ⟨rfl, hl.tables.jobs, hl.tables.schedules⟩

theorem Limited.empty : Limited (Deployment.empty : Deployment ι ν) where
  task := by
    intro q t ht
    cases ht
  tables := ⟨rfl, fun r hr => (by cases hr), fun r hr => (by cases hr)⟩

variable [DecidableEq ι] [DecidableEq ν]

theorem Limited.step (hl : Limited d) (hr : Run deps engine d.database)
    (hs : DeployStep deps engine d e d') : Limited d' := by
  cases hs with
  | fromSettings i settings hnone => exact hl.setConfig i _
  | @initializeRow i store now hi => exact hl.changeRow (initializeRow_ok now store.view _)
  | @read i store config q hi hq hread =>
    refine hl.setTask q fun x hx => ?_
    cases hx
    exact trivial
  | @patchRow i store now patch updated s q hi hq hx =>
    obtain ⟨row, current, -, -, -, hs⟩ := patchRow_ok hx
    have hnext : Limited (d.setTask q (some (i, .refresh updated))) := by
      refine hl.setTask q fun x hx => ?_
      cases hx
      exact trivial
    exact hnext.changeRow ((congrArg Prod.snd (atomically_ok hx)).trans hs)
  | @replace q i store config hi hq =>
    have hnext : Limited (d.setConfig i (store.replace config)) := hl.setConfig i _
    exact hnext.setTask q (by simp)
  | @patchStore i store patch hi => exact hl.setConfig i _
  | @accept i store request call q hi hq hcall =>
    refine hl.setTask q fun x hx => ?_
    cases hx
    exact fun t ht => submit_limits hcall ht
  | reject q hi hrej => exact hl
  | @insert q i call op now uuids hq hop =>
    obtain ⟨hconf, hcomp, t, ht, hbrings⟩ := RepoCall.op_brings hop
    refine (hl.setTask q (t := none) (by simp)).transaction hr (RunStep.call op (Allowed.of_none hcomp)) ?_ ?_
    · intro op' out heq
      cases heq
      exact hconf
    · intro op' out m t' heq hm
      cases heq
      rw [hbrings] at hm
      cases hm
      exact hl.task q _ hq t ht
  | leave q => exact hl.setTask q (by simp)
  | database hother hstep =>
    refine hl.transaction hr hstep (fun op out heq => (Op.brings_of_routed (hother op out heq)).1) ?_
    intro op out m t heq hm
    rw [(Op.brings_of_routed (hother op out heq)).2] at hm
    cases hm

theorem Deploys.limited (hr : Deploys deps engine h) : Limited (deployed h) := by
  induction hr with
  | nil => exact Limited.empty
  | @cons h e d hr hstep ih => exact ih.step (Deploys.run hr) hstep

/-! ## Consequences -/

theorem Deploys.claims_le (hr : Deploys deps engine h) (hl : Limited (deployed h)) {r : JobRow}
    (hm : r ∈ (present (deployed h).database).jobs) : (claimsOf r.id (deployed h).database).length ≤ 21 := by
  have hrun := Deploys.run hr
  have hrow := (Run.sound hrun).ok.job?_mem hm
  have hbudget := (Run.sound hrun).claims_le hrow
  have hretries := (hl.tables.jobs r hm).retries
  rw [Run.claims_length hrun hrow]
  omega

/-- What a pass of the reaper leaves running. -/
theorem reaper_leaves {s : Store} {skipped : String → Bool} {now : UtcTime} {grace : ℚ} {r : JobRow}
    (hm : r ∈ (s.recover now (Op.recovers engine skipped now grace s)).jobs)
    (hrun : r.status = .running) (hskip : engine = .postgres → skipped r.id = false) :
    r ∈ s.jobs ∧ ¬ r.Stale now grace := by
  obtain ⟨o, ho, he⟩ := List.mem_map.1 hm
  split at he
  · rw [← he] at hrun
    simp only [JobRow.recovered] at hrun
    split at hrun <;> cases hrun
  · rename_i hnot
    subst he
    refine ⟨ho, fun hstale => hnot ?_⟩
    have hin : o ∈ s.staleJobs now grace := List.mem_filter.2 ⟨ho, decide_eq_true hstale⟩
    cases engine with
    | sqlite => exact hin
    | postgres => exact List.mem_filter.2 ⟨hin, by simp [hskip rfl]⟩

/-- In every deployment: every job and every schedule has at most 20 retries and a timeout of at most an
hour, no job is claimed more than 21 times, and a pass of the reaper that does not skip a job leaves it
running only if it was claimed within an hour and the grace. -/
theorem work_limited (hr : Deploys deps engine h) :
    (∀ r ∈ (present (deployed h).database).jobs, Limits r.maxRetries r.timeoutSeconds ∧
      (claimsOf r.id (deployed h).database).length ≤ 21) ∧
    (∀ r ∈ (present (deployed h).database).recurringSchedules, Limits r.maxRetries r.timeoutSeconds) ∧
    ∀ skipped now grace out d,
      DeployStep deps engine (deployed h) (.database (.call (.recoverStaleJobs skipped now grace) out)) d →
      ∀ r ∈ (present d.database).jobs, r.status = .running → (engine = .postgres → skipped r.id = false) →
        ∀ t ∈ r.lockedAt,
          Rounding.double (now.totalSeconds (parseDbTime t)) ≤ Rounding.double (3600 + grace) := by
  have hl := Deploys.limited hr
  have hs := Run.sound (Deploys.run hr)
  refine ⟨fun r hm => ⟨hl.tables.jobs r hm, Deploys.claims_le hr hl hm⟩, hl.tables.schedules, ?_⟩
  intro skipped now grace out d hstep r hm hrun hskip t ht
  cases hstep with
  | @database _ s hother hstep =>
    cases hstep with
    | call op ha =>
      have hbody : (Op.recoverStaleJobs skipped now grace).body deps engine
          (present (deployed h).database) = _ :=
        hs.reaper skipped now grace
      have hpass : _ = _ := atomically_ok hbody
      rw [hpass] at hm
      obtain ⟨hmem, hfresh⟩ := reaper_leaves hm hrun hskip
      have htimeout := (hl.tables.jobs r hmem).timeout
      calc Rounding.double (now.totalSeconds (parseDbTime t))
          ≤ Rounding.double (r.timeoutSeconds + grace) := not_lt.1 fun hlt => hfresh ⟨hrun, t, ht, hlt⟩
        _ ≤ Rounding.double (3600 + grace) := Rounding.double_mono (by linarith)

end

/-- A process starts, accepts a job and inserts it. -/
theorem work_limited_sample : ∃ h : History (DeployEvent Nat Nat) (Deployment Nat Nat),
    Deploys sampleDeps .sqlite h ∧ ∃ r ∈ (present (deployed h).database).jobs,
      Limits r.maxRetries r.timeoutSeconds ∧ (claimsOf r.id (deployed h).database).length ≤ 21 := by
  have hout : Api.submit sampleDeps (RuntimeConfigStore.fromSettings defaultSettings).view
      (.job sampleRequest none) = .ok _ := submit_job_ok (by decide +kernel)
  have hop : (RepoCall.createJob sampleRequest 3 (.rat 5) none).op (sampleTime 0) (fun _ => "j") =
      some _ := rfl
  have h₁ : Deploys (ι := Nat) (ν := Nat) sampleDeps .sqlite _ :=
    Valid.cons .nil (.fromSettings 0 defaultSettings rfl)
  have h₂ := Valid.cons h₁ (.accept (i := 0) 1 rfl rfl hout)
  have h₃ := Valid.cons h₂ (.insert (q := 1) rfl hop)
  refine ⟨_, h₃, _, List.mem_singleton_self _, (work_limited h₃).1 _ (List.mem_singleton_self _)⟩

end PulseQueue
