import PulseQueue.Proof.ConfigBounds

/-!
# Which configuration governs a submission

A submission goes by the store of its process. The store shows the row as long as the value last put
into it was obtained since the row was last patched (`FreshStore`); nothing in the code sees to that: only
`PATCH /config`, `GET /config`, `GET /metrics` and the workers put values in, and the last three may put in
what they read before the patch. A submission at a process with a fresh store goes by the patched row
(`config_governs`).
-/

namespace PulseQueue

open Txn Trace

section
variable {ι ν : Type}

/-- The configuration that the request has in hand was obtained since the row was last patched. -/
def FreshTask (q : ν) : History (DeployEvent ι ν) (Deployment ι ν) → Prop
  | [] => False
  | ⟨.read q' _ _, _⟩ :: h => q' = q ∨ FreshTask q h
  | ⟨.patchRow q' _ _ _ _, _⟩ :: _ => q' = q
  | _ :: h => FreshTask q h

/-- What was last put into the store of the process was obtained since the row was last patched. -/
def FreshStore (i : ι) : History (DeployEvent ι ν) (Deployment ι ν) → Prop
  | [] => False
  | ⟨.replace q j _, _⟩ :: h => j = i ∧ FreshTask q h ∨ j ≠ i ∧ FreshStore i h
  | ⟨.fromSettings j _, _⟩ :: h => j ≠ i ∧ FreshStore i h
  | ⟨.patchStore j _, _⟩ :: h => j ≠ i ∧ FreshStore i h
  | ⟨.patchRow .., _⟩ :: _ => False
  | _ :: h => FreshStore i h

/-- The row shows the configuration. -/
def Deployment.Shows (d : Deployment ι ν) (c : RuntimeConfig) : Prop :=
  ∃ row, (present d.database).runtimeConfig = some row ∧ row.configJson = c.modelDumpJson

/-- Fresh values are those of the row. -/
structure Shown (h : History (DeployEvent ι ν) (Deployment ι ν)) (d : Deployment ι ν) : Prop where
  task : ∀ q i c, d.task q = some (i, .refresh c) → FreshTask q h → d.Shows c
  store : ∀ i store, d.config i = some store → FreshStore i h → d.Shows store.view

theorem PyFloat.toJson_injective {a b : PyFloat} (h : a.toJson = b.toJson) : a = b := by
  cases a <;> cases b <;> simp_all [PyFloat.toJson]

theorem modelDumpJson_injective {c c' : RuntimeConfig} (h : c.modelDumpJson = c'.modelDumpJson) :
    c = c' := by
  obtain ⟨⟨_, _, _, _, _, _⟩, _⟩ := c
  obtain ⟨⟨_, _, _, _, _, _⟩, _⟩ := c'
  simp only [RuntimeConfig.modelDumpJson, ConfigJson.mk.injEq] at h
  obtain ⟨h1, h2, h3, h4, h5, h6⟩ := h
  subst h1 h4
  cases PyFloat.toJson_injective h2
  cases PyFloat.toJson_injective h3
  cases PyFloat.toJson_injective h5
  cases PyFloat.toJson_injective h6
  rfl

/-- The row shows one configuration. -/
theorem Deployment.Shows.unique {d : Deployment ι ν} {c c' : RuntimeConfig} (h : d.Shows c)
    (h' : d.Shows c') : c = c' := by
  obtain ⟨row, hrow, hj⟩ := h
  obtain ⟨row', hrow', hj'⟩ := h'
  rw [hrow] at hrow'
  cases hrow'
  exact modelDumpJson_injective (hj.symm.trans hj')

theorem Deployment.Shows.congr {d d' : Deployment ι ν} {c : RuntimeConfig} (h : d.Shows c)
    (hrow : (present d'.database).runtimeConfig = (present d.database).runtimeConfig) : d'.Shows c := by
  obtain ⟨row, hr, hj⟩ := h
  exact ⟨row, hrow.trans hr, hj⟩

/-- An event that freshens nothing. -/
theorem Shown.frame {h : History (DeployEvent ι ν) (Deployment ι ν)} {d d' : Deployment ι ν}
    {e : DeployEvent ι ν} (hs : Shown h d) (hkeep : ∀ c, d.Shows c → d'.Shows c)
    (htask : ∀ q i c, d'.task q = some (i, .refresh c) → FreshTask q (⟨e, d'⟩ :: h) →
      d.task q = some (i, .refresh c) ∧ FreshTask q h)
    (hstore : ∀ i store, d'.config i = some store → FreshStore i (⟨e, d'⟩ :: h) →
      d.config i = some store ∧ FreshStore i h) : Shown (⟨e, d'⟩ :: h) d' where
  task := by
    intro q i c hq hf
    obtain ⟨hq, hf⟩ := htask q i c hq hf
    exact hkeep c (hs.task q i c hq hf)
  store := by
    intro i store hi hf
    obtain ⟨hi, hf⟩ := hstore i store hi hf
    exact hkeep _ (hs.store i store hi hf)

end

/-! ## Runs -/

section
variable {ι ν : Type} [DecidableEq ι] [DecidableEq ν] {deps : Deps} {engine : Engine}
  {h : History (DeployEvent ι ν) (Deployment ι ν)} {d d' : Deployment ι ν} {e : DeployEvent ι ν}

theorem Deploys.run (hr : Deploys deps engine h) : Run deps engine (deployed h).database := by
  induction hr with
  | nil => exact .nil
  | @cons h e d hr hstep ih =>
    cases hstep with
    | initializeRow now hi => exact Run.afterCall ih (Allowed.of_none rfl)
    | patchRow q hi hq hx => exact Run.afterCall ih (Allowed.of_none rfl)
    | insert hq hop => exact Run.afterCall ih (Allowed.of_none (RepoCall.op_brings hop).2.1)
    | database hother hstep => exact Valid.cons ih hstep
    | _ => exact ih

/-- A transaction that is not about the configuration leaves the row. -/
theorem Sound.row {l : History Event Store} (hs : Sound deps l) {e : Event} {s : Store}
    (hstep : RunStep deps engine l e s) (hop : ∀ op out, e = .call op out → op.onConfig = false) :
    s.runtimeConfig = (present l).runtimeConfig :=
  (hs.carries_event (P := fun _ _ => True) hstep hop (fun _ _ _ _ _ _ => trivial)
    ⟨rfl, fun _ _ => trivial, fun _ _ => trivial⟩).row

/-- The event patches the row. -/
def DeployEvent.Patches : DeployEvent ι ν → Prop
  | .patchRow .. => True
  | _ => False

/-- Only a patch makes the row show something else. -/
theorem Deployment.Shows.step (hr : Run deps engine d.database) (hstep : DeployStep deps engine d e d')
    (he : ¬ e.Patches) {c : RuntimeConfig} (hs : d.Shows c) : d'.Shows c := by
  cases hstep with
  | @initializeRow i store now hi =>
    obtain ⟨row, hrow, hj⟩ := hs
    refine ⟨row, ?_, hj⟩
    simp only [afterCall, now_cons, initializeRow_ok, hrow, Option.some_or]
  | patchRow => exact absurd trivial he
  | @insert q i call op now uuids hq hop =>
    obtain ⟨hconf, hcomp, -⟩ := RepoCall.op_brings hop
    have hrow := Sound.row (Run.sound hr) (@RunStep.call deps engine _ op (Allowed.of_none hcomp))
      fun op' out he => by
        cases he
        exact hconf
    exact hs.congr hrow
  | database hother hstep =>
    exact hs.congr (Sound.row (Run.sound hr) hstep fun op out he =>
      (Op.brings_of_routed (hother op out he)).1)
  | _ => exact hs

theorem Shown.step (hr : Run deps engine d.database) (hs : Shown h d)
    (hstep : DeployStep deps engine d e d') : Shown (⟨e, d'⟩ :: h) d' := by
  have hkeep := fun (he : ¬ e.Patches) c => Deployment.Shows.step (c := c) hr hstep he
  cases hstep with
  | fromSettings i settings hnone =>
    refine hs.frame (hkeep id) (fun q j c hq hf => ⟨hq, hf⟩) fun j store hj hf => ?_
    obtain ⟨hne, hf⟩ := hf
    rw [setConfig_other (Ne.symm hne)] at hj
    exact ⟨hj, hf⟩
  | @read i store config q hi hq hread =>
    have hshow : d.Shows config := getRuntimeConfig_ok hread
    refine ⟨fun q' j c hq' hf => ?_, fun j st hj hf => hs.store j st hj hf⟩
    by_cases hqq : q' = q
    · subst hqq
      rw [setTask_self] at hq'
      cases hq'
      exact hshow
    · rw [setTask_other hqq] at hq'
      rcases hf with he | hf
      · exact absurd he.symm hqq
      · exact hs.task q' j c hq' hf
  | @patchRow i store now patch updated s q hi hq hx =>
    obtain ⟨row, current, -, -, -, hs'⟩ := patchRow_ok hx
    refine ⟨fun q' j c hq' hf => ?_, fun j st hj hf => absurd hf id⟩
    have hqq : q = q' := hf
    subst hqq
    have hset : (d.setTask q (some (i, .refresh updated))).task q = some (j, .refresh c) := hq'
    rw [setTask_self] at hset
    cases hset
    refine ⟨⟨updated.modelDumpJson, toDbTime now⟩, ?_, rfl⟩
    simp only [afterCall, now_cons, atomically_ok hx, hs']
  | @replace q i store config hi hq =>
    refine ⟨fun q' j c hq' hf => ?_, fun j st hj hf => ?_⟩
    · exact hs.task q' j c (setTask_refresh (by simp) hq') hf
    · have hj' : (d.setConfig i (store.replace config)).config j = some st := hj
      rcases hf with ⟨he, hf⟩ | ⟨hne, hf⟩
      · subst he
        rw [setConfig_self] at hj'
        cases hj'
        exact hs.task q i config hq hf
      · rw [setConfig_other (Ne.symm hne)] at hj'
        exact hs.store j st hj' hf
  | @patchStore i store patch hi =>
    refine hs.frame (hkeep id) (fun q j c hq hf => ⟨hq, hf⟩) fun j st hj hf => ?_
    obtain ⟨hne, hf⟩ := hf
    rw [setConfig_other (Ne.symm hne)] at hj
    exact ⟨hj, hf⟩
  | accept | insert | leave =>
    exact hs.frame (hkeep id) (fun q' j c hq' hf => ⟨setTask_refresh (by simp) hq', hf⟩)
      fun j st hj hf => ⟨hj, hf⟩
  | initializeRow | reject | database =>
    exact hs.frame (hkeep id) (fun q' j c hq' hf => ⟨hq', hf⟩) fun j st hj hf => ⟨hj, hf⟩

theorem Deploys.shown (hr : Deploys deps engine h) : Shown h (deployed h) := by
  induction hr with
  | nil => exact ⟨fun q i c hq => (by cases hq), fun i st hi => (by cases hi)⟩
  | cons hr hstep ih => exact ih.step (Deploys.run hr) hstep

/-- The row shows the last patch. -/
theorem Deploys.shows_kept {mid pre : History (DeployEvent ι ν) (Deployment ι ν)}
    (hr : Deploys deps engine (mid ++ pre)) (hno : ∀ e ∈ mid, ¬ e.event.Patches) {c : RuntimeConfig}
    (hs : (deployed pre).Shows c) : (deployed (mid ++ pre)).Shows c := by
  induction mid with
  | nil => exact hs
  | cons e mid ih =>
    obtain ⟨he, hmid⟩ := List.forall_mem_cons.1 hno
    exact (ih hr.tail hmid).step (Deploys.run hr.tail) hr.head he

/-- The event ends the request. -/
def DeployEvent.Ends (q : ν) : DeployEvent ι ν → Prop
  | .insert q' _ _ | .leave q' => q' = q
  | _ => False

/-- An accepted submission stays in hand until it is inserted or left. -/
theorem Deploys.task_kept {mid pre : History (DeployEvent ι ν) (Deployment ι ν)}
    (hr : Deploys deps engine (mid ++ pre)) {q : ν} {i : ι} {call : RepoCall}
    (hno : ∀ e ∈ mid, ¬ e.event.Ends q) (ht : (deployed pre).task q = some (i, .insert call)) :
    (deployed (mid ++ pre)).task q = some (i, .insert call) := by
  induction mid with
  | nil => exact ht
  | cons e mid ih =>
    obtain ⟨ev, d⟩ := e
    obtain ⟨he, hmid⟩ := List.forall_mem_cons.1 hno
    have hq := ih hr.tail hmid
    have hstep : DeployStep deps engine (deployed (mid ++ pre)) ev d := hr.head
    show d.task q = _
    have hne : ∀ q' t, (deployed (mid ++ pre)).task q' = t → t ≠ some (i, .insert call) → q ≠ q' := by
      intro q' t hq' htn he
      subst he
      exact htn (hq'.symm.trans hq)
    cases hstep with
    | read q' _ hq' _ | accept q' _ hq' _ => exact (setTask_other (hne q' _ hq' (by simp))).trans hq
    | patchRow q' _ hq' _ => exact (setTask_other (hne q' _ hq' (by simp))).trans hq
    | replace _ hq' => exact (setTask_other (hne _ _ hq' (by simp))).trans hq
    | insert | leave => exact (setTask_other fun h => he h.symm).trans hq
    | _ => exact hq

end

/-! ## Submissions -/

section
variable {deps : Deps} {engine : Engine} {s s' : Store}

/-- Every job and schedule that is new has the retries and the timeout. -/
structure Adds (m : Nat) (t : PyFloat) (s s' : Store) : Prop where
  jobs : ∀ job ∈ s'.jobs, job ∈ s.jobs ∨ job.maxRetries = m ∧ .rat job.timeoutSeconds = t
  schedules : ∀ schedule ∈ s'.recurringSchedules, schedule ∈ s.recurringSchedules ∨
    schedule.maxRetries = m ∧ .rat schedule.timeoutSeconds = t

theorem Adds.refl (m : Nat) (t : PyFloat) (s : Store) : Adds m t s s :=
  ⟨fun _ => .inl, fun _ => .inl⟩

theorem Adds.trans {m : Nat} {t : PyFloat} {s₁ s₂ s₃ : Store} (h : Adds m t s₁ s₂)
    (h' : Adds m t s₂ s₃) : Adds m t s₁ s₃ :=
  ⟨fun job hj => (h'.jobs job hj).elim (h.jobs job) .inr,
    fun row hr => (h'.schedules row hr).elim (h.schedules row) .inr⟩

theorem insertJob_adds {r : JobRow} {u : Unit} (hx : insertJob r s = .ok (u, s')) :
    Adds r.maxRetries (.rat r.timeoutSeconds) s s' := by
  obtain ⟨-, rfl⟩ := insertJob_ok hx
  refine ⟨fun job hj => ?_, fun _ => .inl⟩
  rcases List.mem_append.1 hj with hj | hj
  · exact .inl hj
  · rw [List.mem_singleton.1 hj]
    exact .inr ⟨rfl, rfl⟩

theorem insertJobs_adds {m : Nat} {t : ℚ} (rows : List JobRow) {u : Unit}
    (hrows : ∀ r ∈ rows, r.maxRetries = m ∧ r.timeoutSeconds = t)
    (hx : Sqlite.insertJobs rows s = .ok (u, s')) : Adds m (.rat t) s s' := by
  refine Sqlite.insertJobs_keeps (Adds.refl m (.rat t)) Adds.trans rows ?_ s u s' hx
  intro row hrow s₁ u₁ s₂ h
  obtain ⟨rfl, rfl⟩ := hrows row hrow
  exact insertJob_adds h

theorem insertSchedule_adds {r : ScheduleRow} {u : Unit} (hx : insertSchedule r s = .ok (u, s')) :
    Adds r.maxRetries (.rat r.timeoutSeconds) s s' := by
  unfold insertSchedule at hx
  split at hx
  · cases hx
  · cases hx
    refine ⟨fun _ => .inl, fun row hr => ?_⟩
    rcases List.mem_append.1 hr with hr | hr
    · exact .inl hr
    · rw [List.mem_singleton.1 hr]
      exact .inr ⟨rfl, rfl⟩

/-- The transaction of an accepted submission stores the retries and the timeout of its call. -/
theorem RepoCall.op_adds {call : RepoCall} {now : UtcTime} {uuids : Nat → String} {op : Op}
    (hop : call.op now uuids = some op) {r : Reply} (hx : op.body deps engine s = .ok (r, s')) :
    Adds call.maxRetries call.timeoutSeconds s s' := by
  cases call with
  | createJob request m t key =>
    cases t with
    | nan => cases hop
    | rat t =>
      cases hop
      cases engine <;> obtain ⟨_, hx, -⟩ := reply_ok.1 hx <;> exact insertJob_adds hx
  | createSchedule request m t =>
    cases t with
    | nan => cases hop
    | rat t =>
      cases hop
      cases engine <;> obtain ⟨_, hx, -⟩ := reply_ok.1 hx <;>
        obtain ⟨next, s₀, hnext, hx⟩ := Tx.bind_eq_ok.1 hx <;>
        obtain ⟨-, rfl⟩ := Tx.ofExcept_eq_ok.1 hnext <;> exact insertSchedule_adds hx
  | createJobsBatch requests m t =>
    cases t with
    | nan => cases hop
    | rat t =>
      cases hop
      have hrows := @batchRows_carried deps (fun m' t' => m' = m ∧ t' = t) now uuids m t ⟨rfl, rfl⟩
        requests 0
      cases engine <;> obtain ⟨_, hx, -⟩ := reply_ok.1 hx
      · exact insertJobs_adds _ hrows hx
      · rw [Postgres.insertJobs_eq, Postgres.batchRows_eq] at hx
        exact insertJobs_adds _ hrows hx

end

theorem PyFloat.not_lt_self (a : PyFloat) : a.lt a = false := by
  cases a <;> simp [PyFloat.lt]

theorem PyFloat.not_lt_min (a b : PyFloat) : b.lt (a.min b) = false := by
  unfold PyFloat.min
  by_cases h : b.lt a = true
  · rw [if_pos h]
    exact b.not_lt_self
  · rw [if_neg h]
    exact Bool.eq_false_iff.2 h

/-- What a patch returns is capped. -/
theorem mergeRuntimeConfig_capped {current updated : RuntimeConfig} {p : RuntimeConfigPatch}
    (h : mergeRuntimeConfig current p = .ok updated) : updated.toConfigValues.Capped := by
  rw [show current = RuntimeConfigStore.view ⟨current.toConfigValues, current.isValid⟩ from rfl,
    mergeRuntimeConfig_eq] at h
  cases h
  show ConfigValues.Capped (p.update current.toConfigValues).capped
  rw [ConfigValues.capped_eq]
  exact PyFloat.not_lt_min _ _

section
variable {ι ν : Type} [DecidableEq ι] [DecidableEq ν] {deps : Deps} {engine : Engine}

/-- A submission after a patch of the row, with no other patch since, at a process whose store was last
given a value obtained since that patch: it views what the patch returned, goes by it, and the
transaction that it later makes stores the retries and the timeout that follow from it. -/
theorem config_governs {post mid pre : History (DeployEvent ι ν) (Deployment ι ν)} {q q₀ : ν} {i j : ι}
    {request : SubmitRequest} {config updated : RuntimeConfig} {out : Except HTTPException RepoCall}
    {now : UtcTime} {p : RuntimeConfigPatch} {d d₀ : Deployment ι ν}
    (hr : Deploys deps engine (post ++ ⟨.submit q i request config out, d⟩ ::
      (mid ++ ⟨.patchRow q₀ j now p updated, d₀⟩ :: pre)))
    (honly : ∀ e ∈ mid, ¬ e.event.Patches)
    (hfresh : FreshStore i (mid ++ ⟨.patchRow q₀ j now p updated, d₀⟩ :: pre)) :
    config = updated ∧ Governed updated request out ∧
      ∀ call, out = .ok call → ∀ after between now' uuids d',
        post = after ++ ⟨.insert q now' uuids, d'⟩ :: between → (∀ e ∈ between, ¬ e.event.Ends q) →
        Adds (updated.effectiveRetries request.maxRetries)
          (updated.effectiveTimeout request.timeoutSeconds)
          (present (deployed (between ++ ⟨.submit q i request config out, d⟩ ::
            (mid ++ ⟨.patchRow q₀ j now p updated, d₀⟩ :: pre))).database) (present d'.database) := by
  obtain ⟨hmid, hsubmit⟩ := Valid.split hr
  obtain ⟨-, hpatch⟩ := Valid.split hmid
  -- the row shows what the patch returned, and so does the fresh store
  have hcap : d₀.Shows updated ∧ updated.toConfigValues.Capped := by
    cases hpatch with
    | patchRow q hi hq hx =>
      obtain ⟨row, current, -, -, hmerge, hs⟩ := patchRow_ok hx
      refine ⟨⟨⟨updated.modelDumpJson, toDbTime now⟩, ?_, rfl⟩, mergeRuntimeConfig_capped hmerge⟩
      simp only [afterCall, now_cons, atomically_ok hx, hs]
  have hshows := Deploys.shows_kept hmid honly hcap.1
  have hstore : ∀ store, (deployed (mid ++ ⟨.patchRow q₀ j now p updated, d₀⟩ :: pre)).config i =
      some store → store.view = updated :=
    fun store hi => ((Deploys.shown hmid).store i store hi hfresh).unique hshows
  have hgov : config = updated ∧ Governed updated request out := by
    cases hsubmit with
    | @accept _ store _ call _ hi hq hcall =>
      have he := hstore store hi
      rw [he] at hcall ⊢
      exact ⟨rfl, hcall ▸ submit_governed hcap.2 request⟩
    | @reject _ store _ e _ hi hrej =>
      have he := hstore store hi
      rw [he] at hrej ⊢
      exact ⟨rfl, hrej ▸ submit_governed hcap.2 request⟩
  refine ⟨hgov.1, hgov.2, ?_⟩
  rintro call rfl after between now' uuids d' rfl hends
  have htask : d.task q = some (i, .insert call) := by
    cases hsubmit with
    | accept q hi hq hcall => exact setTask_self
  rw [List.append_assoc, List.cons_append] at hr
  obtain ⟨hbetween, hinsert⟩ := Valid.split hr
  have hkept := Deploys.task_kept hbetween hends htask
  rw [← hgov.2.retries call rfl, ← hgov.2.timeout call rfl]
  cases hinsert with
  | @insert q' i' call' op now'' uuids' hq hop =>
    cases hkept.symm.trans hq
    simp only [afterCall, now_cons]
    rcases atomically_cases (op.body deps engine) (present (deployed (between ++
      ⟨.submit q i request config (.ok call), d⟩ :: (mid ++
        ⟨.patchRow q₀ j now p updated, d₀⟩ :: pre))).database) with ⟨r, s', hx, hat⟩ | ⟨e, -, hat⟩
    · rw [hat]
      exact RepoCall.op_adds hop hx
    · rw [hat]
      exact Adds.refl _ _ _

end

/-- Two processes start from the defaults; the first one patches the default of the retries and puts the
result into its store. -/
theorem patched_sample : ∃ (d d₀ : Deployment Nat Nat)
    (pre : History (DeployEvent Nat Nat) (Deployment Nat Nat)) (updated : RuntimeConfig),
    Deploys sampleDeps .sqlite (⟨.replace 2 0 updated, d⟩ ::
      ⟨.patchRow 2 0 (sampleTime 2) retriesPatch updated, d₀⟩ :: pre) ∧
      (∀ e ∈ pre, ¬ e.event.Patches) ∧ updated.effectiveRetries none = 4 ∧
      (∃ store, d.config 0 = some store ∧ store.view = updated) ∧
      d.config 1 = some (.fromSettings defaultSettings) ∧ d.task 3 = none := by
  have hread := RuntimeConfig.validate_dump (RuntimeConfigStore.fromSettings defaultSettings).view
  have h₁ : Deploys (ι := Nat) (ν := Nat) sampleDeps .sqlite _ :=
    Valid.cons .nil (.fromSettings 0 defaultSettings rfl)
  have h₂ := Valid.cons h₁ (.initializeRow (i := 0) (sampleTime 0) rfl)
  have h₃ := Valid.cons h₂ (.read (i := 0) 0 rfl rfl hread)
  have h₄ := Valid.cons h₃ (.replace (q := 0) (i := 0) rfl rfl)
  have h₅ := Valid.cons h₄ (.fromSettings 1 defaultSettings rfl)
  have h₆ := Valid.cons h₅ (.initializeRow (i := 1) (sampleTime 1) rfl)
  have h₇ := Valid.cons h₆ (.read (i := 1) 1 rfl rfl hread)
  have h₈ := Valid.cons h₇ (.replace (q := 1) (i := 1) rfl rfl)
  have h₉ := Valid.cons h₈ (.patchRow (i := 0) 2 rfl rfl
    (patchRow_run (sampleTime 2) retriesPatch rfl hread))
  have h₁₀ := Valid.cons h₉ (.replace (q := 2) (i := 0) rfl rfl)
  refine ⟨_, _, _, _, h₁₀, ?_, by decide +kernel, ⟨_, rfl, rfl⟩, rfl, rfl⟩
  simp [DeployEvent.Patches]

/-- A job that the patching process accepts after its patch. -/
theorem config_governs_sample : ∃ (updated : RuntimeConfig) (out : Except HTTPException RepoCall),
    updated.effectiveRetries none = 4 ∧ Governed updated (.job sampleRequest none) out := by
  obtain ⟨d, d₀, pre, updated, hr, -, hfour, ⟨store, hstore, rfl⟩, -, htask⟩ := patched_sample
  obtain ⟨out, d', hsubmit⟩ : ∃ out d', DeployStep sampleDeps .sqlite d
      (.submit 3 0 (.job sampleRequest none) store.view out) d' := by
    cases hout : Api.submit sampleDeps store.view (.job sampleRequest none) with
    | ok call => exact ⟨_, _, .accept 3 hstore htask hout⟩
    | error e => exact ⟨_, _, .reject 3 hstore hout⟩
  have hgov := @config_governs Nat Nat _ _ sampleDeps .sqlite [] [⟨.replace 2 0 store.view, d⟩] pre 3 2
    0 0 _ _ _ out _ _ d' d₀ (Valid.cons hr hsubmit) (by simp [DeployEvent.Patches]) (.inl ⟨rfl, rfl⟩)
  exact ⟨store.view, out, hfour, hgov.2.1⟩

/-- A job that the other process accepts after the patch has returned: it gets the old retries. -/
theorem config_governs_fails : ∃ (mid pre : History (DeployEvent Nat Nat) (Deployment Nat Nat))
    (q q₀ i j : Nat) (request : SubmitRequest) (config updated : RuntimeConfig)
    (out : Except HTTPException RepoCall) (now : UtcTime) (p : RuntimeConfigPatch)
    (d d₀ : Deployment Nat Nat),
    Deploys sampleDeps .sqlite (⟨.submit q i request config out, d⟩ ::
      (mid ++ ⟨.patchRow q₀ j now p updated, d₀⟩ :: pre)) ∧
      (∃ e ∈ mid, e.event = .replace q₀ j updated) ∧ (∀ e ∈ mid ++ pre, ¬ e.event.Patches) ∧
      ¬ Governed updated request out := by
  obtain ⟨d, d₀, pre, updated, hr, hpre, hfour, -, hother, htask⟩ := patched_sample
  have hout : Api.submit sampleDeps (RuntimeConfigStore.fromSettings defaultSettings).view
      (.job sampleRequest none) = .ok _ := submit_job_ok (by decide +kernel)
  refine ⟨[⟨.replace 2 0 updated, d⟩], pre, 3, 2, 1, 0, _, _, updated, _, _, _, _, _,
    Valid.cons hr (.accept 3 hother htask hout), ⟨_, List.mem_cons_self .., rfl⟩, ?_, fun hgov => ?_⟩
  · simpa [DeployEvent.Patches] using hpre
  · have hretries : 3 = updated.effectiveRetries none := hgov.retries _ rfl
    omega

end PulseQueue
