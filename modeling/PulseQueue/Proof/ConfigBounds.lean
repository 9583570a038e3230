import PulseQueue.Proof.Carried
import PulseQueue.Proof.ConfigUpdates
import PulseQueue.Spec.Deployment

/-!
# Defaults within their maxima

The default timeout is to be at most the maximal timeout, and the base of the backoff at most its
maximum. A patch sees to it, `from_settings` and `initialize_runtime_config` do not. In a deployment whose
processes all start from such settings the row and every store are so (`config_bounds`), and no job gets a
timeout above the maximum of the configuration it was accepted under.
-/

namespace PulseQueue

open Txn Trace

/-! ## Ordered configurations -/

/-- `default_timeout_seconds <= max_timeout_seconds` and `backoff_base_seconds <= backoff_max_seconds`. -/
def ConfigValues.Ordered (c : ConfigValues) : Prop :=
  c.defaultTimeoutSeconds.le c.maxTimeoutSeconds = true ∧
    c.backoffBaseSeconds.le c.backoffMaxSeconds = true

/-- The default is not above the maximum. -/
def ConfigValues.Capped (c : ConfigValues) : Prop :=
  c.maxTimeoutSeconds.lt c.defaultTimeoutSeconds = false

/-- The same of a stored document; no number compares with null. -/
def ConfigJson.Ordered (j : ConfigJson) : Prop :=
  (∃ d ∈ j.defaultTimeoutSeconds, ∃ m ∈ j.maxTimeoutSeconds, d ≤ m) ∧
    ∃ b ∈ j.backoffBaseSeconds, ∃ m ∈ j.backoffMaxSeconds, b ≤ m

theorem PyFloat.le_iff {a b : PyFloat} :
    a.le b = true ↔ ∃ x ∈ a.toJson, ∃ y ∈ b.toJson, x ≤ y := by
  cases a <;> cases b <;> simp [PyFloat.le, PyFloat.toJson]

theorem PyFloat.not_lt_of_le {a b : PyFloat} (h : a.le b = true) : b.lt a = false := by
  cases a with
  | nan => cases b <;> rfl
  | rat a =>
    cases b with
    | nan => rfl
    | rat b =>
      simp only [PyFloat.le, PyFloat.lt, decide_eq_true_eq, decide_eq_false_iff_not, not_lt] at h ⊢
      exact h

theorem ConfigValues.Ordered.capped {c : ConfigValues} (h : c.Ordered) : c.Capped :=
  PyFloat.not_lt_of_le h.1

/-- The smaller of two validated numbers is at most the second one. -/
theorem PyFloat.min_le {lo lo' hi hi' : ℚ} {a b : PyFloat} (ha : inFloatRange lo hi a)
    (hb : inFloatRange lo' hi' b) : (a.min b).le b = true := by
  obtain ⟨a, rfl, -⟩ := inFloatRange_iff.1 ha
  obtain ⟨b, rfl, -⟩ := inFloatRange_iff.1 hb
  unfold PyFloat.min
  by_cases hlt : b < a
  · simp [PyFloat.lt, PyFloat.le, hlt]
  · simp only [PyFloat.lt, hlt, decide_false, Bool.false_eq_true, if_false, PyFloat.le, decide_eq_true_eq]
    exact not_lt.1 hlt

theorem ordered_dump {c : RuntimeConfig} :
    c.modelDumpJson.Ordered ↔ c.toConfigValues.Ordered := by
  unfold ConfigJson.Ordered ConfigValues.Ordered
  rw [PyFloat.le_iff, PyFloat.le_iff]
  rfl

/-- What a read returns is what the document says. -/
theorem validate_eq {j : ConfigJson} {c : RuntimeConfig}
    (h : RuntimeConfig.modelValidateJson j = .ok c) : j = c.modelDumpJson := by
  obtain ⟨retries, dt, mt, conc, bb, bm⟩ := j
  unfold RuntimeConfig.modelValidateJson at h
  split at h
  · rename_i dt mt bb bm h1 h2 h3 h4
    unfold RuntimeConfig.validate at h
    split at h
    · cases h
      simp only at h1 h2 h3 h4
      subst h1 h2 h3 h4
      rfl
    · cases h
  · cases h

theorem ConfigValues.capped_ordered {c : ConfigValues} (h : c.valid = true) : c.capped.Ordered := by
  obtain ⟨-, hdt, hmt, -, hbb, hbm⟩ := ConfigValues.valid_iff.1 h
  rw [ConfigValues.capped_eq]
  exact ⟨PyFloat.min_le hdt hmt, PyFloat.min_le hbb hbm⟩

/-- What a patch leaves in a store is ordered. -/
theorem RuntimeConfigStore.patch_ordered (store : RuntimeConfigStore) (p : RuntimeConfigPatch) :
    (store.patch p).toConfigValues.Ordered :=
  ConfigValues.capped_ordered (p.update_valid store.isValid)

/-- What a patch leaves in the row is ordered. -/
theorem mergeRuntimeConfig_ordered {current updated : RuntimeConfig} {p : RuntimeConfigPatch}
    (h : mergeRuntimeConfig current p = .ok updated) : updated.toConfigValues.Ordered := by
  rw [show current = RuntimeConfigStore.view ⟨current.toConfigValues, current.isValid⟩ from rfl,
    mergeRuntimeConfig_eq] at h
  cases h
  exact RuntimeConfigStore.patch_ordered _ p

/-! ## Submissions -/

/-- The timeout that the request asks for. -/
def SubmitRequest.timeoutSeconds : SubmitRequest → Option ℚ
  | .job request _ => request.timeoutSeconds
  | .schedule request _ => request.timeoutSeconds
  | .loadTest _ => none

/-- The retries that the request asks for. -/
def SubmitRequest.maxRetries : SubmitRequest → Option Nat
  | .job request _ => request.maxRetries
  | .schedule request _ => request.maxRetries
  | .loadTest _ => none

/-- The submission is made under the configuration: the call has its retries and timeout or the defaults,
none is above the maximum, and only what is above it is rejected for that. -/
structure Governed (config : RuntimeConfig) (request : SubmitRequest)
    (out : Except HTTPException RepoCall) : Prop where
  retries : ∀ call, out = .ok call → call.maxRetries = config.effectiveRetries request.maxRetries
  timeout : ∀ call, out = .ok call →
    call.timeoutSeconds = config.effectiveTimeout request.timeoutSeconds
  checked : ∀ call, out = .ok call → config.maxTimeoutSeconds.lt call.timeoutSeconds = false
  rejected : ∀ x limit, out = .error x → x.detail = .timeoutCannotExceed limit →
    limit = config.maxTimeoutSeconds ∧
      config.maxTimeoutSeconds.lt (config.effectiveTimeout request.timeoutSeconds) = true

section
variable {deps : Deps}

theorem submit_job_ok {config : RuntimeConfig} {request : JobCreate} {key : Option String}
    (h : config.maxTimeoutSeconds.lt (config.effectiveTimeout request.timeoutSeconds) = false) :
    Api.submit deps config (.job request key) =
      .ok (.createJob request (config.effectiveRetries request.maxRetries)
        (config.effectiveTimeout request.timeoutSeconds) key) := by
  simp [Api.submit, Api.createJob, h]

theorem submit_job_error {config : RuntimeConfig} {request : JobCreate} {key : Option String}
    (h : config.maxTimeoutSeconds.lt (config.effectiveTimeout request.timeoutSeconds) = true) :
    Api.submit deps config (.job request key) = .error (timeoutTooLong config) := by
  simp [Api.submit, Api.createJob, h]

theorem Governed.accepted {config : RuntimeConfig} {request : SubmitRequest} {call : RepoCall}
    (hm : call.maxRetries = config.effectiveRetries request.maxRetries)
    (ht : call.timeoutSeconds = config.effectiveTimeout request.timeoutSeconds)
    (hlt : config.maxTimeoutSeconds.lt (config.effectiveTimeout request.timeoutSeconds) = false) :
    Governed config request (.ok call) where
  retries := by
    intro c hc
    cases hc
    exact hm
  timeout := by
    intro c hc
    cases hc
    exact ht
  checked := by
    intro c hc
    cases hc
    rw [ht]
    exact hlt
  rejected := by simp

theorem Governed.tooLong {config : RuntimeConfig} {request : SubmitRequest}
    (hlt : config.maxTimeoutSeconds.lt (config.effectiveTimeout request.timeoutSeconds) = true) :
    Governed config request (.error (timeoutTooLong config)) := by
  refine ⟨by simp, by simp, by simp, fun x limit hx hl => ?_⟩
  cases hx
  cases hl
  exact ⟨rfl, hlt⟩

/-- Every route goes by the configuration it views; the load test is not checked, but its default is
capped. -/
theorem submit_governed {config : RuntimeConfig} (hc : config.toConfigValues.Capped)
    (request : SubmitRequest) : Governed config request (Api.submit deps config request) := by
  cases request with
  | job request key =>
    cases hlt : config.maxTimeoutSeconds.lt (config.effectiveTimeout request.timeoutSeconds) with
    | true =>
      rw [submit_job_error hlt]
      exact @Governed.tooLong config (.job request key) hlt
    | false =>
      rw [submit_job_ok hlt]
      exact @Governed.accepted config (.job request key) _ rfl rfl hlt
  | schedule request now =>
    simp only [Api.submit, Api.createSchedule]
    cases hlt : config.maxTimeoutSeconds.lt (config.effectiveTimeout request.timeoutSeconds) with
    | true =>
      rw [if_pos rfl]
      exact @Governed.tooLong config (.schedule request now) hlt
    | false =>
      rw [if_neg (by simp)]
      cases nextCronRun deps request.cronExpression now with
      | error e =>
        refine ⟨by simp, by simp, by simp, fun x limit hx hl => ?_⟩
        cases hx
        cases hl
      | ok t => exact @Governed.accepted config (.schedule request now) _ rfl rfl hlt
  | loadTest request => exact Governed.accepted rfl rfl hc

/-- Without a timeout of its own no request is rejected for it. -/
theorem Governed.default {config : RuntimeConfig} {request : SubmitRequest}
    {out : Except HTTPException RepoCall} (h : Governed config request out)
    (hc : config.toConfigValues.Capped) (hreq : request.timeoutSeconds = none) {x : HTTPException}
    (hx : out = .error x) (limit : PyFloat) : x.detail ≠ .timeoutCannotExceed limit := by
  intro hl
  have hlt := (h.rejected x limit hx hl).2
  rw [hreq] at hlt
  exact absurd (hc.symm.trans hlt) (by simp)

end

/-! ## The row -/

section
variable {deps : Deps} {engine : Engine} {s s' : Store}

theorem initializeRow_ok (now : UtcTime) (default : RuntimeConfig) (s : Store) :
    (atomically ((Op.initializeRuntimeConfig now default).body deps engine) s).2 =
      { s with runtimeConfig := s.runtimeConfig.or (some ⟨default.modelDumpJson, toDbTime now⟩) } := by
  have h := @config_txn deps engine (.initializeRuntimeConfig now default) s
  exact congrArg Prod.snd (atomically_ok h)

theorem patchRow_ok {now : UtcTime} {p : RuntimeConfigPatch} {updated : RuntimeConfig}
    (h : (Op.patchRuntimeConfig now p).body deps engine s = .ok (.config updated, s')) :
    ∃ row current, s.runtimeConfig = some row ∧
      RuntimeConfig.modelValidateJson row.configJson = .ok current ∧
      mergeRuntimeConfig current p = .ok updated ∧
      s' = { s with runtimeConfig := some ⟨updated.modelDumpJson, toDbTime now⟩ } := by
  have htxn := (@config_txn deps engine (.patchRuntimeConfig now p) s).symm.trans h
  cases heff : (ConfigCall.patchRuntimeConfig now p).effect s.runtimeConfig with
  | error e => simp [heff, Except.map] at htxn
  | ok x =>
    obtain ⟨a, row'⟩ := x
    obtain ⟨row, current, u, hrow, rfl, hcur, hmerge, rfl⟩ := effect_patch_ok heff
    simp only [heff, Except.map, Except.ok.injEq, Prod.mk.injEq, Reply.config.injEq] at htxn
    obtain ⟨rfl, rfl⟩ := htxn
    exact ⟨row, current, hrow, hcur, hmerge, rfl⟩

/-- The patch of a readable row. -/
theorem patchRow_run (now : UtcTime) (p : RuntimeConfigPatch) {row : ConfigRow}
    {store : RuntimeConfigStore} (hrow : s.runtimeConfig = some row)
    (hread : RuntimeConfig.modelValidateJson row.configJson = .ok store.view) :
    (Op.patchRuntimeConfig now p).body deps engine s = .ok (.config (store.patch p).view,
      { s with runtimeConfig := some ⟨(store.patch p).view.modelDumpJson, toDbTime now⟩ }) := by
  refine (config_txn (.patchRuntimeConfig now p) s).trans ?_
  rw [hrow, effect_patch_some, mergeRow, hread]
  dsimp only
  rw [mergeRuntimeConfig_eq]
  rfl

/-- A read returns what the row says. -/
theorem getRuntimeConfig_ok {c : RuntimeConfig} (h : (engine.getRuntimeConfig s).1 = .ok c) :
    ∃ row, s.runtimeConfig = some row ∧ row.configJson = c.modelDumpJson := by
  cases engine <;>
  · simp only [Engine.getRuntimeConfig, Sqlite.getRuntimeConfig, Postgres.getRuntimeConfig] at h
    split at h
    · cases h
    · rename_i row hrow
      exact ⟨row, hrow, validate_eq h⟩

end

/-! ## Runs -/

/-- The settings of a start are ordered. -/
def DeployEvent.Sane {ι ν : Type} : DeployEvent ι ν → Prop
  | .fromSettings _ settings => settings.toConfigValues.Ordered
  | _ => True

/-- A submission with these retries and this timeout was accepted, under a configuration whose maximum is
not below the timeout. -/
def Accepted {ι ν : Type} (h : History (DeployEvent ι ν) (Deployment ι ν)) (m : Nat) (t : ℚ) : Prop :=
  ∃ e ∈ h, ∃ q i request config call, e.event = .submit q i request config (.ok call) ∧
    call.maxRetries = m ∧ call.timeoutSeconds = .rat t ∧
    config.maxTimeoutSeconds.lt (.rat t) = false

theorem Accepted.cons {ι ν : Type} {h : History (DeployEvent ι ν) (Deployment ι ν)}
    {e : Entry (DeployEvent ι ν) (Deployment ι ν)} {m : Nat} {t : ℚ} (ha : Accepted h m t) :
    Accepted (e :: h) m t := by
  obtain ⟨x, hx, hrest⟩ := ha
  exact ⟨x, List.mem_cons_of_mem _ hx, hrest⟩

/-- The tasks in progress are in order. -/
def Task.Ordered {ι ν : Type} (h : History (DeployEvent ι ν) (Deployment ι ν)) : Task → Prop
  | .refresh config => config.toConfigValues.Ordered
  | .insert call => ∀ t, call.timeoutSeconds = .rat t → Accepted h call.maxRetries t

theorem Task.Ordered.cons {ι ν : Type} {h : History (DeployEvent ι ν) (Deployment ι ν)}
    {e : Entry (DeployEvent ι ν) (Deployment ι ν)} {t : Task} (ht : t.Ordered h) :
    t.Ordered (e :: h) := by
  cases t with
  | refresh config => exact ht
  | insert call => exact fun t he => (ht t he).cons

/-- What holds after every run with sane events. -/
structure Bounded {ι ν : Type} (deps : Deps) (engine : Engine)
    (h : History (DeployEvent ι ν) (Deployment ι ν)) (d : Deployment ι ν) : Prop where
  run : Run deps engine d.database
  row : ∀ r ∈ (present d.database).runtimeConfig, r.configJson.Ordered
  store : ∀ i, ∀ store ∈ d.config i, store.toConfigValues.Ordered
  task : ∀ q, ∀ t ∈ d.task q, t.2.Ordered h
  carries : Carries (present d.database).runtimeConfig (Accepted h) (present d.database)

section
variable {ι ν : Type} {deps : Deps} {engine : Engine}
  {h : History (DeployEvent ι ν) (Deployment ι ν)} {d d' : Deployment ι ν} {e : DeployEvent ι ν}

/-- One more event that none of the parts is about. -/
theorem Bounded.cons (hb : Bounded deps engine h d) {x : Entry (DeployEvent ι ν) (Deployment ι ν)} :
    Bounded deps engine (x :: h) d where
  run := hb.run
  row := hb.row
  store := hb.store
  task := fun q t ht => (hb.task q t ht).cons
  carries := hb.carries.mono fun _ _ => Accepted.cons

theorem Bounded.setConfig [DecidableEq ι] (hb : Bounded deps engine h d) (i : ι)
    (store : RuntimeConfigStore) (hs : store.toConfigValues.Ordered) :
    Bounded deps engine h (d.setConfig i store) where
  run := hb.run
  row := hb.row
  store := by
    intro j st hst
    by_cases hji : j = i
    · subst hji
      rw [setConfig_self] at hst
      cases hst
      exact hs
    · rw [setConfig_other hji] at hst
      exact hb.store j st hst
  task := hb.task
  carries := hb.carries

theorem Bounded.setTask [DecidableEq ν] (hb : Bounded deps engine h d) (q : ν) {t : Option (ι × Task)}
    (ht : ∀ x ∈ t, x.2.Ordered h) : Bounded deps engine h (d.setTask q t) where
  run := hb.run
  row := hb.row
  store := hb.store
  task := by
    intro q' x hx
    by_cases hq : q' = q
    · subst hq
      rw [setTask_self] at hx
      exact ht x hx
    · rw [setTask_other hq] at hx
      exact hb.task q' x hx
  carries := hb.carries

/-- A transaction that is not about the configuration. -/
theorem Bounded.transaction (hb : Bounded deps engine h d) {e : Event} {s : Store}
    (hstep : RunStep deps engine d.database e s)
    (hop : ∀ op out, e = .call op out → op.onConfig = false)
    (hP : ∀ op out m t, e = .call op out → op.brings = some (m, t) → Accepted h m t) :
    Bounded deps engine h { d with database := ⟨e, s⟩ :: d.database } := by
  have hc := (Run.sound hb.run).carries_event hstep hop hP hb.carries
  refine ⟨Valid.cons hb.run hstep, fun r hr => hb.row r ?_, hb.store, hb.task, ?_⟩
  · have hrow : s.runtimeConfig = (present d.database).runtimeConfig := hc.row
    rw [← hrow]
    exact hr
  · exact ⟨rfl, hc.jobs, hc.schedules⟩

/-- A change of the row. -/
theorem Bounded.changeRow (hb : Bounded deps engine h d) {op : Op} (hop : op.completes = none)
    {c : Option ConfigRow} (hc : ∀ r ∈ c, r.configJson.Ordered)
    (hx : (atomically (op.body deps engine) (present d.database)).2 =
      { present d.database with runtimeConfig := c }) :
    Bounded deps engine h { d with database := afterCall deps engine d.database op } where
  run := Run.afterCall hb.run (Allowed.of_none hop)
  row := by
    intro r hr
    simp only [afterCall, now_cons, hx] at hr
    exact hc r hr
  store := hb.store
  task := hb.task
  carries := by
    simp only [afterCall, now_cons, hx]
    exact ⟨rfl, hb.carries.jobs, hb.carries.schedules⟩

theorem RepoCall.op_brings {call : RepoCall} {now : UtcTime} {uuids : Nat → String} {op : Op}
    (h : call.op now uuids = some op) : op.onConfig = false ∧ op.completes = none ∧
      ∃ t, call.timeoutSeconds = .rat t ∧ op.brings = some (call.maxRetries, t) := by
  cases call with
  | createJob request m t key =>
    cases t with
    | nan => cases h
    | rat t =>
      cases h
      exact ⟨rfl, rfl, t, rfl, rfl⟩
  | createSchedule request m t =>
    cases t with
    | nan => cases h
    | rat t =>
      cases h
      exact ⟨rfl, rfl, t, rfl, rfl⟩
  | createJobsBatch requests m t =>
    cases t with
    | nan => cases h
    | rat t =>
      cases h
      exact ⟨rfl, rfl, t, rfl, rfl⟩

theorem Op.brings_of_routed {op : Op} (h : op.routed = false) :
    op.onConfig = false ∧ op.brings = none := by
  cases op <;> first | exact ⟨rfl, rfl⟩ | cases h

theorem Bounded.empty : Bounded deps engine ([] : History (DeployEvent ι ν) (Deployment ι ν))
    Deployment.empty where
  run := .nil
  row := by
    intro r hr
    cases hr
  store := by
    intro i st hst
    cases hst
  task := by
    intro q t ht
    cases ht
  carries := ⟨rfl, fun r hr => (by cases hr), fun r hr => (by cases hr)⟩

variable [DecidableEq ι] [DecidableEq ν]

theorem Bounded.step (hb : Bounded deps engine h d) (hs : DeployStep deps engine d e d')
    (he : e.Sane) : Bounded deps engine (⟨e, d'⟩ :: h) d' := by
  cases hs with
  | fromSettings i settings hnone => exact (hb.setConfig i (.fromSettings settings) he).cons
  | @initializeRow i store now hi =>
    refine (hb.changeRow rfl ?_ (initializeRow_ok now store.view _)).cons
    intro r hr
    cases hrow : (present d.database).runtimeConfig with
    | some row =>
      rw [hrow] at hr
      cases hr
      exact hb.row _ hrow
    | none =>
      rw [hrow] at hr
      cases hr
      exact ordered_dump.2 (hb.store i store hi)
  | @read i store config q hi hq hread =>
    obtain ⟨row, hrow, hjson⟩ := getRuntimeConfig_ok hread
    refine (hb.setTask q ?_).cons
    intro x hx
    cases hx
    have hord := hb.row row hrow
    rw [hjson] at hord
    exact ordered_dump.1 hord
  | @patchRow i store now patch updated s q hi hq hx =>
    obtain ⟨row, current, hrow, hcur, hmerge, hs⟩ := patchRow_ok hx
    have hupd := mergeRuntimeConfig_ordered hmerge
    have hnext : Bounded deps engine h (d.setTask q (some (i, .refresh updated))) := by
      refine hb.setTask q fun x hx => ?_
      cases hx
      exact hupd
    refine (hnext.changeRow rfl (c := some ⟨updated.modelDumpJson, toDbTime now⟩) ?_ ?_).cons
    · intro r hr
      cases hr
      exact ordered_dump.2 hupd
    · exact (congrArg Prod.snd (atomically_ok hx)).trans hs
  | @replace q i store config hi hq =>
    have hc : config.toConfigValues.Ordered := hb.task q _ hq
    exact ((hb.setConfig i (store.replace config) hc).setTask q (by simp)).cons
  | @patchStore i store patch hi =>
    exact (hb.setConfig i (store.patch patch) (store.patch_ordered patch)).cons
  | @accept i store request call q hi hq hcall =>
    have hgov := @submit_governed deps store.view (hb.store i store hi).capped request
    have hlt := hgov.checked call hcall
    refine hb.cons.setTask q fun x hx => ?_
    cases hx
    intro t ht
    rw [ht] at hlt
    exact ⟨_, List.mem_cons_self .., q, i, request, store.view, call, rfl, rfl, ht, hlt⟩
  | reject q hi hrej => exact hb.cons
  | @insert q i call op now uuids hq hop =>
    obtain ⟨hconf, hcomp, t, ht, hbr⟩ := RepoCall.op_brings hop
    refine (Bounded.transaction (hb.setTask q (t := none) (by simp))
      (RunStep.call op (Allowed.of_none hcomp)) ?_ ?_).cons
    · intro op' out heq
      cases heq
      exact hconf
    · intro op' out m t' heq hm
      cases heq
      rw [hbr] at hm
      cases hm
      exact hb.task q _ hq t ht
  | leave q => exact (hb.setTask q (by simp)).cons
  | database hother hstep =>
    refine (hb.transaction hstep ?_ ?_).cons
    · exact fun op out heq => (Op.brings_of_routed (hother op out heq)).1
    · intro op out m t heq hm
      rw [(Op.brings_of_routed (hother op out heq)).2] at hm
      cases hm

theorem Deploys.bounded (hr : Deploys deps engine h) (hsane : ∀ e ∈ h, e.event.Sane) :
    Bounded deps engine h (deployed h) := by
  induction hr with
  | nil => exact Bounded.empty
  | @cons h e d hr hstep ih =>
    obtain ⟨he, hh⟩ := List.forall_mem_cons.1 hsane
    exact (ih hh).step hstep he

/-- In a deployment whose processes all start from ordered settings: the row and every store stay ordered,
no submission without a timeout of its own is rejected for it, no submission is accepted with a timeout
above the maximum of the configuration it viewed, and the retries and the timeout of every job and schedule
are those of an accepted submission. -/
theorem config_bounds (hr : Deploys deps engine h) (hsane : ∀ e ∈ h, e.event.Sane) :
    (∀ row ∈ (present (deployed h).database).runtimeConfig, row.configJson.Ordered) ∧
      (∀ i, ∀ store ∈ (deployed h).config i, store.toConfigValues.Ordered) ∧
      (∀ e ∈ h, ∀ q i request config out, e.event = .submit q i request config out →
        (request.timeoutSeconds = none →
          ∀ x limit, out = .error x → x.detail ≠ .timeoutCannotExceed limit) ∧
        ∀ call, out = .ok call → config.maxTimeoutSeconds.lt call.timeoutSeconds = false) ∧
      (∀ job ∈ (present (deployed h).database).jobs,
        Accepted h job.maxRetries job.timeoutSeconds) ∧
      ∀ schedule ∈ (present (deployed h).database).recurringSchedules,
        Accepted h schedule.maxRetries schedule.timeoutSeconds := by
  have hb := hr.bounded hsane
  refine ⟨hb.row, hb.store, ?_, hb.carries.jobs, hb.carries.schedules⟩
  rintro ⟨e, d⟩ he q i request config out hev
  obtain ⟨post, pre, rfl⟩ := mem_split he
  obtain ⟨hpre, hstep⟩ := Valid.split hr
  have hbpre := Deploys.bounded hpre fun x hx =>
    hsane x (List.mem_append_right _ (List.mem_cons_of_mem _ hx))
  simp only at hev
  subst hev
  have hgov : Governed config request out ∧ config.toConfigValues.Capped := by
    cases hstep with
    | @accept _ store _ call _ hi hq hcall =>
      have hc := (hbpre.store i store hi).capped
      exact ⟨hcall ▸ @submit_governed deps store.view hc request, hc⟩
    | @reject _ store _ e _ hi hrej =>
      have hc := (hbpre.store i store hi).capped
      exact ⟨hrej ▸ @submit_governed deps store.view hc request, hc⟩
  exact ⟨fun hnone x limit hx => hgov.1.default hgov.2 hnone hx limit, hgov.1.checked⟩

end

/-- The defaults of the settings. -/
def defaultSettings : Settings :=
  ⟨⟨3, .rat 5, .rat 60, 2, .rat (1 / 4), .rat 30⟩, by decide +kernel⟩

/-- `DEFAULT_TIMEOUT_SECONDS=120` and the default maximum. -/
def longSettings : Settings :=
  ⟨⟨3, .rat 120, .rat 60, 2, .rat (1 / 4), .rat 30⟩, by decide +kernel⟩

/-- A process starts and accepts a job. -/
theorem config_bounds_sample : ∃ h : History (DeployEvent Nat Nat) (Deployment Nat Nat),
    (deployed h).config 0 = some (.fromSettings defaultSettings) ∧
      ∀ i, ∀ store ∈ (deployed h).config i, store.toConfigValues.Ordered := by
  have hord : defaultSettings.toConfigValues.Ordered := ⟨by decide +kernel, by decide +kernel⟩
  have hread := RuntimeConfig.validate_dump (RuntimeConfigStore.fromSettings defaultSettings).view
  have h₁ : Deploys (ι := Nat) (ν := Nat) sampleDeps .sqlite _ :=
    Valid.cons .nil (.fromSettings 0 defaultSettings rfl)
  have h₂ := Valid.cons h₁ (.initializeRow (i := 0) (sampleTime 0) rfl)
  have h₃ := Valid.cons h₂ (.read (i := 0) 0 rfl rfl hread)
  have h₄ := Valid.cons h₃ (.replace (q := 0) (i := 0) rfl rfl)
  have hout : Api.submit sampleDeps (RuntimeConfigStore.fromSettings defaultSettings).view
      (.job sampleRequest none) = .ok _ := submit_job_ok (by decide +kernel)
  have h₅ := Valid.cons h₄ (.accept (i := 0) 1 rfl rfl hout)
  refine ⟨_, rfl, (config_bounds h₅ ?_).2.1⟩
  simpa [DeployEvent.Sane] using hord

/-- A process that starts from a default timeout above the maximum: the row and its store say so, a job
without a timeout is rejected, and a load test is accepted with the timeout above the maximum. -/
theorem config_bounds_fails : ∃ h : History (DeployEvent Nat Nat) (Deployment Nat Nat),
    Deploys sampleDeps .sqlite h ∧
      (∃ row ∈ (present (deployed h).database).runtimeConfig, ¬ row.configJson.Ordered) ∧
      (∃ i, ∃ store ∈ (deployed h).config i, ¬ store.toConfigValues.Ordered) ∧
      (∃ e ∈ h, ∃ q i request config x limit, e.event = .submit q i request config (.error x) ∧
        request.timeoutSeconds = none ∧ x.detail = .timeoutCannotExceed limit) ∧
      ∃ e ∈ h, ∃ q i request config call, e.event = .submit q i request config (.ok call) ∧
        config.maxTimeoutSeconds.lt call.timeoutSeconds = true := by
  have hord : ¬ longSettings.toConfigValues.Ordered := fun h => absurd h.1 (by decide +kernel)
  have hread := RuntimeConfig.validate_dump (RuntimeConfigStore.fromSettings longSettings).view
  have h₁ : Deploys (ι := Nat) (ν := Nat) sampleDeps .sqlite _ :=
    Valid.cons .nil (.fromSettings 0 longSettings rfl)
  have h₂ := Valid.cons h₁ (.initializeRow (i := 0) (sampleTime 0) rfl)
  have h₃ := Valid.cons h₂ (.read (i := 0) 0 rfl rfl hread)
  have h₄ := Valid.cons h₃ (.replace (q := 0) (i := 0) rfl rfl)
  have hjob : Api.submit sampleDeps (RuntimeConfigStore.fromSettings longSettings).view
      (.job sampleRequest none) = .error _ := submit_job_error (by decide +kernel)
  have hload : Api.submit sampleDeps (RuntimeConfigStore.fromSettings longSettings).view
      (.loadTest ⟨1, .echo, 0, by decide, by decide⟩) = .ok _ := rfl
  have h₅ := Valid.cons h₄ (.reject (i := 0) 1 rfl hjob)
  have h₆ := Valid.cons h₅ (.accept (i := 0) 2 rfl rfl hload)
  refine ⟨_, h₆, ⟨_, rfl, fun h => hord (ordered_dump.1 h)⟩, ⟨0, _, rfl, hord⟩, ?_, ?_⟩
  · exact ⟨_, List.mem_cons_of_mem _ (List.mem_cons_self ..), _, _, _, _, _, _, rfl, rfl, rfl⟩
  · exact ⟨_, List.mem_cons_self .., _, _, _, _, _, rfl, by decide +kernel⟩

end PulseQueue
