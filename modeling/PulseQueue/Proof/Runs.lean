import PulseQueue.Proof.Transactions
import PulseQueue.Spec.Runs

/-!
# Invariants of runs

Every call of a run is a chain of steps (`Sound.call`), so what the steps of a job keep holds in every
state of every run: `Run.sound`. A job's later row is `Later` than its earlier one
(`Run.later`).
-/

namespace PulseQueue

open Txn Trace

/-! ## Chains of steps, job by job -/

section
variable {deps : Deps} {L : Kind → Prop} {s s' : Store}

/-- A property of jobs that every step keeps is kept by a chain. -/
theorem Steps.keeps {P : JobView → Prop}
    (hP : ∀ k v v', L k → P v → JobStep deps k v v' → P v') (h : s.Ok deps)
    (hs : Steps deps L s s') (id : String) (hv : P (s.view id)) : P (s'.view id) := by
  induction hs with
  | refl => exact hv
  | tail hs hstep ih =>
    obtain ⟨k, hk, hstep⟩ := hstep
    rcases hstep.view (Steps.ok h hs) id with he | hj
    · rw [he]
      exact ih
    · exact hP k _ _ hk ih hj

/-- Rows stay, and change as `Later` says. -/
theorem Steps.later (h : s.Ok deps) (hs : Steps deps L s s') {id : String} {r : JobRow}
    (hr : s.job? id = some r) : ∃ r', s'.job? id = some r' ∧ Later r r' := by
  refine Steps.keeps (P := fun v => ∃ r', v.job = some r' ∧ Later r r') ?_ h hs id
    ⟨r, hr, Later.refl r⟩
  rintro k v v' - ⟨r₁, hr₁, hl⟩ hstep
  rcases hstep.job_cases with ⟨r₂, r₃, hj, hj', hs'⟩ | ⟨hj, -⟩ | ⟨hj, -⟩
  · rw [hr₁] at hj
    cases hj
    exact ⟨r₃, hj', hl.trans (Later.step hs')⟩
  · rw [hr₁] at hj
    cases hj
  · rw [hr₁] at hj
    cases hj

/-- The columns of a job agree with its status. -/
def CoherentView (deps : Deps) (v : JobView) : Prop := ∀ r, v.job = some r → Coherent deps r

theorem CoherentView.step {k : Kind} {v v' : JobView} (h : CoherentView deps v)
    (hs : JobStep deps k v v') : CoherentView deps v' := by
  intro r' hr'
  rcases hs.job_cases with ⟨r, r₁, hj, hj', hs'⟩ | ⟨-, -, -, -, r, hr, rfl⟩ | ⟨-, hj', -⟩
  · rw [hj'] at hr'
    cases hr'
    exact (h r hj).step hs'
  · cases hr'
    exact Coherent.new hr
  · rw [hj'] at hr'
    cases hr'

/-- The attempts of a job are numbered without a gap. -/
theorem numbered_of_ledger (h : s.Ok deps) (hl : ∀ id, Ledger (s.view id)) : Numbered s := by
  intro r hr n h1 hn
  have hv := hl r.id
  simp only [Ledger, Store.view, h.job?_mem hr] at hv
  obtain ⟨σ, -, habs⟩ := hv
  have hlen : n ≤ σ.log.length := habs.count ▸ hn
  have hm : (n, σ.log[n - 1]) ∈ numbered σ.log :=
    mem_numbered.2 ⟨h1, List.getElem?_eq_getElem (by omega)⟩
  obtain ⟨a, ha, he⟩ := List.mem_map.1 (habs.rows.mem_iff.2 hm)
  simp only [List.mem_filter, beq_iff_eq] at ha
  exact ⟨a, ha.1, ha.2, by simpa using congrArg Prod.fst he⟩

end

/-! ## Calls -/

/-- No claim. -/
def Quiet (k : Kind) : Prop := ∀ w, k ≠ .claim w

theorem quiet_submit : Quiet .submit := fun _ => by simp
theorem quiet_settle : Quiet .settle := fun _ => by simp
theorem quiet_cancel : Quiet .cancel := fun _ => by simp
theorem quiet_reorder : Quiet .reorder := fun _ => by simp

/-- The kinds of steps that a call makes. -/
def Op.kinds : Op → Kind → Prop
  | .claim _ _ w => (· = .claim w)
  | .markSucceeded .. | .markFailedAttempt .. | .recoverStaleJobs .. => (· = .settle)
  | .cancelJob .. | .drainQueue .. => (· = .cancel)
  | _ => Mild

theorem Op.quiet_of_kinds {op : Op} (hop : ∀ skipped now w, op ≠ .claim skipped now w) {k : Kind}
    (hk : op.kinds k) : Quiet k := by
  cases op with
  | claim skipped now w => exact absurd rfl (hop skipped now w)
  | markSucceeded | markFailedAttempt | recoverStaleJobs =>
    rw [show k = .settle from hk]
    exact quiet_settle
  | cancelJob | drainQueue =>
    rw [show k = .cancel from hk]
    exact quiet_cancel
  | _ =>
    rcases (hk : Mild k) with rfl | rfl
    · exact quiet_submit
    · exact quiet_reorder

section
variable {deps : Deps} {engine : Engine} {h : History Event Store}

/-- What holds after every run. -/
structure Sound (deps : Deps) (h : History Event Store) : Prop where
  ok : (present h).Ok deps
  ledger : ∀ id, Ledger ((present h).view id)
  coherent : ∀ id, CoherentView deps ((present h).view id)
  claims : ∀ w c, Claimed h w c → Snapshot deps (present h) c

theorem Sound.numbered (hs : Sound deps h) : Numbered (present h) :=
  numbered_of_ledger hs.ok hs.ledger

/-- A completion without the lease changes nothing; with it, it settles the attempt of its claim. -/
theorem Sound.completion (hs : Sound deps h) {op : Op} (ha : Allowed h op) {c : Job} {w : String}
    {n : Nat} (hop : op.completes = some (c, w, n)) {r : Reply} {s' : Store}
    (hx : op.body deps engine (present h) = .ok (r, s')) :
    s' = present h ∧ ¬ Leased (present h) w c.id ∨ ∃ a, Settled deps (present h) s' a ∧
      a.jobId = c.id ∧ a.workerId = w ∧ a.attemptNo = c.attemptCount + 1 ∧ op.mark = some a.status := by
  obtain ⟨rfl, hc⟩ := ha _ _ _ hop
  have hc := hs.claims _ _ hc
  cases op with
  | markSucceeded now job w' n' startedAt result =>
    cases hop
    cases engine <;> obtain ⟨j, hx, -⟩ := reply_ok.1 hx
    · exact (Sqlite.markSucceededTxn_ok hs.ok hs.numbered hc hx).imp_right
        fun h => ⟨_, h, rfl, rfl, rfl, rfl⟩
    · exact (Postgres.markSucceededTxn_ok hs.ok hs.numbered hc hx).imp_right
        fun h => ⟨_, h, rfl, rfl, rfl, rfl⟩
  | markFailedAttempt now job w' n' startedAt error timedOut backoff =>
    cases hop
    cases engine <;> obtain ⟨j, hx, -⟩ := reply_ok.1 hx
    · exact (Sqlite.markFailedAttemptTxn_ok hs.ok hs.numbered hc hx).imp_right
        fun h => ⟨_, h, rfl, rfl, rfl, rfl⟩
    · exact (Postgres.markFailedAttemptTxn_ok hs.ok hs.numbered hc hx).imp_right
        fun h => ⟨_, h, rfl, rfl, rfl, rfl⟩
  | _ => cases hop

/-- A claim returns a due job, claimed. -/
theorem claim_takes {s s' : Store} (h : s.Ok deps) {skipped : String → Bool} {now : UtcTime}
    {w : String} {r : Reply} (hx : (Op.claim skipped now w).body deps engine s = .ok (r, s')) :
    ∃ j, r = .job j ∧ Takes deps now w s j s' := by
  cases engine <;> obtain ⟨j, hx, hr⟩ := reply_ok.1 hx
  · exact ⟨j, hr, Sqlite.claimNextJobTxn_takes h hx⟩
  · exact ⟨j, hr, Postgres.claimNextJobTxn_takes h hx⟩

theorem claim_ok {s s' : Store} (h : s.Ok deps) {skipped : String → Bool} {now : UtcTime}
    {w : String} {r : Reply} (hx : (Op.claim skipped now w).body deps engine s = .ok (r, s')) :
    ∃ j, r = .job j ∧ Claims deps w s j s' := by
  obtain ⟨j, hr, ht⟩ := claim_takes h hx
  exact ⟨j, hr, ht.claims⟩

theorem config_call {s s' : Store} {op : Op} (hop : op.onConfig = true) {r : Reply}
    (hx : op.body deps engine s = .ok (r, s')) : ∃ c, s' = { s with runtimeConfig := c } := by
  cases op with
  | initializeRuntimeConfig now c =>
    cases engine <;> obtain ⟨u, hx, -⟩ := reply_ok.1 hx
    · exact Sqlite.initializeRuntimeConfigTxn_ok hx
    · rw [Postgres.initializeRuntimeConfigTxn_eq] at hx
      exact Sqlite.initializeRuntimeConfigTxn_ok hx
  | patchRuntimeConfig now p =>
    cases engine <;> obtain ⟨u, hx, -⟩ := reply_ok.1 hx
    · exact Sqlite.patchRuntimeConfigTxn_ok hx
    · rw [Postgres.patchRuntimeConfigTxn_eq] at hx
      exact Sqlite.patchRuntimeConfigTxn_ok hx
  | _ => cases hop

theorem createSchedule_call {s s' : Store} {now : UtcTime} {id : String} {request : ScheduleCreate} {m : Nat}
    {t : ℚ} {r : Reply} (hx : (Op.createSchedule now id request m t).body deps engine s = .ok (r, s')) :
    ∃ row, s' = { s with recurringSchedules := s.recurringSchedules ++ [row] } := by
  have hx' : ∃ u, Sqlite.createScheduleTxn deps now id request m t s = .ok (u, s') := by
    cases engine <;> obtain ⟨u, hx, -⟩ := reply_ok.1 hx <;> exact ⟨u, hx⟩
  obtain ⟨u, hx⟩ := hx'
  obtain ⟨next, s₀, hn, hx⟩ := Tx.bind_eq_ok.1 hx
  obtain ⟨-, rfl⟩ := Tx.ofExcept_eq_ok.1 hn
  unfold insertSchedule at hx
  split at hx
  · cases hx
  · cases hx
    exact ⟨_, rfl⟩

theorem Sound.call (hs : Sound deps h) {op : Op} (ha : Allowed h op) {r : Reply} {s' : Store}
    (hx : op.body deps engine (present h) = .ok (r, s')) :
    Steps deps op.kinds (present h) s' := by
  have hok := hs.ok
  have hcomp : ∀ c w n, op.completes = some (c, w, n) →
      Steps deps (· = .settle) (present h) s' := by
    intro c w n hop
    rcases hs.completion ha hop hx with ⟨rfl, -⟩ | ⟨a, hset, -⟩
    · exact Steps.refl _
    · exact Steps.single (k := .settle) rfl hset.step
  cases op with
  | claim skipped now w =>
    obtain ⟨j, -, hc⟩ := claim_ok hok hx
    exact hc.steps
  | markSucceeded now job w n startedAt result => exact hcomp _ _ _ rfl
  | markFailedAttempt now job w n startedAt error timedOut backoff => exact hcomp _ _ _ rfl
  | createJob now id request m t key =>
    cases engine <;> obtain ⟨_, hx, -⟩ := reply_ok.1 hx <;> exact Sqlite.createJobTxn_ok hx
  | createJobsBatch now uuids requests m t =>
    cases engine <;> obtain ⟨_, hx, -⟩ := reply_ok.1 hx
    · exact Sqlite.insertJobs_ok _ (Sqlite.batchRows_new _ _) hx
    · rw [Postgres.insertJobs_eq, Postgres.batchRows_eq] at hx
      exact Sqlite.insertJobs_ok _ (Sqlite.batchRows_new _ _) hx
  | createSchedule now id request m t =>
    cases engine <;> obtain ⟨_, hx, -⟩ := reply_ok.1 hx <;>
      exact Sqlite.createScheduleTxn_ok hok hx
  | writeSchedule now id enabled next =>
    cases engine <;> obtain ⟨_, hx, -⟩ := reply_ok.1 hx <;>
      exact Sqlite.writeScheduleTxn_ok hok hx
  | deleteSchedule id =>
    cases engine <;> obtain ⟨_, hx, -⟩ := reply_ok.1 hx <;> exact deleteScheduleRow_steps hok hx
  | materialize skipped now uuids limit =>
    cases engine <;> obtain ⟨_, hx, -⟩ := reply_ok.1 hx
    · exact Sqlite.materializeDueSchedulesTxn_ok hok hx
    · exact Postgres.materializeDueSchedulesTxn_ok hok hx
  | recoverStaleJobs skipped now grace =>
    cases engine <;> obtain ⟨_, hx, -⟩ := reply_ok.1 hx
    · exact Sqlite.recoverStaleJobsTxn_ok hok hx
    · exact Postgres.recoverStaleJobsTxn_ok hok hx
  | cancelJob now id =>
    cases engine <;> obtain ⟨_, hx, -⟩ := reply_ok.1 hx <;> exact Sqlite.cancelJobTxn_ok hx
  | drainQueue now =>
    cases engine <;> obtain ⟨_, hx, -⟩ := reply_ok.1 hx <;> exact Sqlite.drainQueueTxn_ok hx
  | initializeRuntimeConfig now c =>
    cases engine <;> obtain ⟨_, hx, -⟩ := reply_ok.1 hx <;>
      (try rw [Postgres.initializeRuntimeConfigTxn_eq] at hx) <;>
      obtain ⟨c, rfl⟩ := Sqlite.initializeRuntimeConfigTxn_ok hx <;> exact config_steps hok c
  | patchRuntimeConfig now p =>
    cases engine <;> obtain ⟨_, hx, -⟩ := reply_ok.1 hx <;>
      (try rw [Postgres.patchRuntimeConfigTxn_eq] at hx) <;>
      obtain ⟨c, rfl⟩ := Sqlite.patchRuntimeConfigTxn_ok hx <;> exact config_steps hok c
  | heartbeatWorker now id active busy =>
    cases engine <;> obtain ⟨_, hx, -⟩ := reply_ok.1 hx <;>
      exact Sqlite.heartbeatWorkerTxn_ok hok hx

/-! ## Runs -/

/-- The rows of a reordered store satisfy the same constraints. -/
theorem reordered_step {s s' : Store} (h : s.Ok deps) (hr : s.Reordered s') :
    StoreStep deps .reorder s s' := by
  refine .reorder hr.jobs hr.jobAttempts hr.deadLetters ⟨?_, fun r hm => ?_, ?_⟩
  · exact (hr.recurringSchedules.map _).nodup_iff.1 h.side.schedules
  · exact h.side.payloads r (hr.recurringSchedules.mem_iff.2 hm)
  · exact (hr.workerInstances.map _).nodup_iff.1 h.side.instances

/-- Every entry of a run is a chain of steps, and a claim that returned a job is its last one. -/
theorem Sound.entry (hs : Sound deps h) {e : Event} {s' : Store}
    (hstep : RunStep deps engine h e s') :
    (∃ L, Steps deps L (present h) s') ∧
      ((Steps deps Quiet (present h) s' ∧ e.claimed = none) ∨
        ∃ w j, Claims deps w (present h) j s' ∧ e.claimed = j.map (w, ·)) := by
  have hall : (Steps deps Quiet (present h) s' ∧ e.claimed = none) ∨
      ∃ w j, Claims deps w (present h) j s' ∧ e.claimed = j.map (w, ·) := by
    cases e with
    | abort op =>
      cases hstep
      exact .inl ⟨Steps.refl _, rfl⟩
    | reorder =>
      cases hstep with
      | reorder hr => exact .inl ⟨Steps.single quiet_reorder (reordered_step hs.ok hr), rfl⟩
    | call op out =>
      obtain ⟨ha, ⟨r, hx, rfl⟩ | ⟨err, rfl, rfl⟩⟩ := hstep.call_cases
      · have hst := hs.call ha hx
        cases op with
        | claim skipped now w =>
          obtain ⟨j, rfl, hc⟩ := claim_ok hs.ok hx
          exact .inr ⟨w, j, hc, by cases j <;> rfl⟩
        | _ => exact .inl ⟨hst.mono fun _ => Op.quiet_of_kinds (by simp), rfl⟩
      · exact .inl ⟨Steps.refl _, by cases op <;> rfl⟩
  refine ⟨?_, hall⟩
  rcases hall with ⟨hq, -⟩ | ⟨w, j, hc, -⟩
  · exact ⟨_, hq⟩
  · exact ⟨_, hc.steps⟩

/-- The snapshot of a claim describes the claimed row. -/
theorem Claims.snapshot {s s' : Store} {w : String} {c : Job}
    (hc : Claims deps w s (some c) s') : Snapshot deps s' c := by
  cases hc with
  | @took r t hr hq =>
    exact ⟨r.claimed w t, Table.mem_updateWhere.2 ⟨r, hr, by simp⟩, rfl, Nat.le_refl _, rfl, rfl⟩

/-- A snapshot stays one. -/
theorem Snapshot.later {s s' : Store} (hok : s.Ok deps) {L : Kind → Prop}
    (hst : Steps deps L s s') {c : Job} (hc : Snapshot deps s c) : Snapshot deps s' c := by
  obtain ⟨r, hr, hid, hle, hmax, hpay⟩ := hc
  obtain ⟨r', hr', hl⟩ := hst.later hok (hok.job?_mem hr)
  refine ⟨r', (Store.job?_some hr').1, ?_, hle.trans hl.count, ?_, ?_⟩
  · rw [JobRow.id_eq hl.fixed, hid]
  · rw [JobRow.maxRetries_eq hl.fixed, hmax]
  · rw [JobRow.payload_eq hl.fixed, hpay]

theorem Sound.step (hs : Sound deps h) {e : Event} {s' : Store}
    (hstep : RunStep deps engine h e s') : Sound deps (⟨e, s'⟩ :: h) := by
  obtain ⟨⟨L, hst⟩, hcl⟩ := hs.entry hstep
  refine ⟨hst.ok hs.ok, fun id => ?_, fun id => ?_, ?_⟩
  · exact hst.keeps (fun _ _ _ _ hv hj => hv.step hj) hs.ok id (hs.ledger id)
  · exact hst.keeps (fun _ _ _ _ hv hj => hv.step hj) hs.ok id (hs.coherent id)
  · rintro w c ⟨x, hx, hxc⟩
    rcases List.mem_cons.1 hx with rfl | hx
    · rcases hcl with ⟨-, hn⟩ | ⟨w', j, hc, hj⟩
      · rw [hn] at hxc
        cases hxc
      · rw [hj] at hxc
        cases j with
        | none => cases hxc
        | some c' =>
          cases hxc
          exact hc.snapshot
    · exact (hs.claims w c ⟨x, hx, hxc⟩).later hs.ok hst

theorem Sound.empty : Sound deps [] where
  ok := Store.Ok.empty deps
  ledger := fun _ => rfl
  coherent := fun _ r hr => by cases hr
  claims := by
    rintro w c ⟨e, he, -⟩
    cases he

theorem Run.sound (hr : Run deps engine h) : Sound deps h :=
  hr.induct Sound.empty fun _ _ _ _ hs hstep => hs.step hstep

/-- The row of a job at any earlier time, and now. -/
theorem Run.later {post pre : History Event Store} (hr : Run deps engine (post ++ pre)) {id : String}
    {r : JobRow} (hj : (present pre).job? id = some r) :
    ∃ r', (present (post ++ pre)).job? id = some r' ∧ Later r r' := by
  refine Valid.related (R := fun s s' => ∀ id r, s.job? id = some r →
    ∃ r', s'.job? id = some r' ∧ Later r r') ?_ ?_ ?_ hr id r hj
  · exact fun s id r hr => ⟨r, hr, Later.refl r⟩
  · intro a b c hab hbc id r hr
    obtain ⟨r₁, h1, hl⟩ := hab id r hr
    obtain ⟨r₂, h2, hl'⟩ := hbc id r₁ h1
    exact ⟨r₂, h2, hl.trans hl'⟩
  · intro h e s hv hstep id r hr
    obtain ⟨⟨L, hst⟩, -⟩ := (Run.sound hv).entry hstep
    exact hst.later (Run.sound hv).ok hr

end

/-! ## A small system

One job with the empty payload and one retry, submitted, claimed and completed; for the concrete runs
that show hypotheses satisfiable. -/

/-- Empty payloads only. The expression with a year ends with 2024; any other stands for every
minute. -/
def sampleDeps : Deps where
  dumps := fun
    | .obj [] => "{}"
    | _ => "null"
  loads := fun s => if s = "{}" then .obj [] else .null
  sha256 := id
  jsonDatetime := fun t => String.ofList t.isoformat
  croniter := fun e t =>
    if e = "0 0 12 12 * 0 2024" then
      if t.micros < 63869558400000000 then some ⟨63869558400000000, by decide⟩ else none
    else if h : (t.micros / 60000000 + 1) * 60000000 < maxMicros then some ⟨_, h⟩ else none

theorem sampleDeps_json (x : Json) :
    sampleDeps.dumps (sampleDeps.loads (sampleDeps.dumps x)) = sampleDeps.dumps x := by
  by_cases hx : sampleDeps.dumps x = "{}"
  · rw [hx]
    rfl
  · have hnull : sampleDeps.loads (sampleDeps.dumps x) = .null := if_neg hx
    rw [hnull]
    simp only [sampleDeps] at hx ⊢
    split at hx
    · exact absurd rfl hx
    · rfl

theorem sampleDeps_later : ∀ e t t', sampleDeps.croniter e t = some t' → t < t' := by
  intro e t t' h
  simp only [sampleDeps] at h
  split at h
  · split at h
    · cases h
      assumption
    · cases h
  · split at h
    · cases h
      rw [UtcTime.lt_iff]
      show t.micros < (t.micros / 60000000 + 1) * 60000000
      omega
    · cases h

instance sampleRange : NeZero 1000 := ⟨by decide⟩

theorem sampleTime_lt (n : Fin 1000) : 63869568000000000 + n * 1000000 < maxMicros := by
  simp only [maxMicros]
  omega

/-- `n` seconds after 2024-12-12T02:40:00. -/
def sampleTime (n : Fin 1000) : UtcTime := ⟨63869568000000000 + n * 1000000, sampleTime_lt n⟩

def sampleRequest : JobCreate where
  payload := []
  priority := 0
  maxRetries := none
  timeoutSeconds := none
  runAt := none
  priority_range := priority_default
  maxRetries_le := maxRetries_default
  timeout_pos := timeout_default

def sampleSubmit : Op := .createJobsBatch (sampleTime 0) (fun _ => "j") [sampleRequest] 1 300

def sampleRow : JobRow := Sqlite.batchRow sampleDeps (sampleTime 0) 1 300 "j" sampleRequest

def sampleClaim : Op := .claim (fun _ => false) (sampleTime 1) "w"

def sampleClaimedRow : JobRow := sampleRow.claimed "w" (toDbTime (sampleTime 1))

def sampleJob : Job := jobFromRow sampleDeps sampleClaimedRow

def sampleSuccess : Op := .markSucceeded (sampleTime 2) sampleJob "w" 1 (sampleTime 1) []

def sampleDoneRow : JobRow := sampleClaimedRow.settled (.success "{}") (toDbTime (sampleTime 2))

/-- Submitted and claimed. -/
def sampleClaimed : History Event Store :=
  afterCall sampleDeps .sqlite (afterCall sampleDeps .sqlite [] sampleSubmit) sampleClaim

/-- Submitted, claimed and completed. -/
def sampleDone : History Event Store := afterCall sampleDeps .sqlite sampleClaimed sampleSuccess

theorem sampleClaimed_run : Run sampleDeps .sqlite sampleClaimed :=
  Run.afterCall (Run.afterCall .nil (Allowed.of_none rfl)) (Allowed.of_none rfl)

/-- The completion belongs to the claim. -/
theorem sampleSuccess_allowed {h : History Event Store} (hc : Claimed h "w" sampleJob) :
    Allowed h sampleSuccess := by
  intro c w n hop
  cases hop
  exact ⟨rfl, hc⟩

theorem sampleClaimed_claimed : Claimed sampleClaimed "w" sampleJob :=
  ⟨_, List.mem_cons_self .., rfl⟩

theorem sampleDone_run : Run sampleDeps .sqlite sampleDone :=
  Run.afterCall sampleClaimed_run (sampleSuccess_allowed sampleClaimed_claimed)

/-- A job without retries is submitted and claimed, and its lease expires. -/
def sampleDead : History Event Store :=
  afterCall sampleDeps .sqlite (afterCall sampleDeps .sqlite (afterCall sampleDeps .sqlite []
    (.createJobsBatch (sampleTime 0) (fun _ => "j") [sampleRequest] 0 300)) sampleClaim)
    (.recoverStaleJobs (fun _ => false) (sampleTime 400) 0)

theorem sampleDead_run : Run sampleDeps .sqlite sampleDead :=
  Run.afterCall (Run.afterCall (Run.afterCall .nil (Allowed.of_none rfl)) (Allowed.of_none rfl))
    (Allowed.of_none rfl)

end PulseQueue
