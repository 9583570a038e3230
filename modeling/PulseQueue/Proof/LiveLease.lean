import PulseQueue.Proof.Fencing
import PulseQueue.Proof.Reaper

/-!
# Live leases

A completion that finds its lease in place settles the attempt, and raises only when the run time of
the retry is no datetime (`Sound.completion_live`). Until the lease time, the timeout and the grace
have passed nobody takes the lease away (`HeldFrom.step`): cancels and claims take queued jobs, other
completions carry other attempt numbers, and the reaper, whose clock reading is not after its commit,
finds the lease alive. So a completion that commits in time takes effect (`live_lease_kept`).
-/

namespace PulseQueue

open Txn Trace Table

/-! ## Completions with the lease -/

/-- The store after the attempt of the job `r` ended. -/
def Store.settle (r : JobRow) (w : String) (startedAt : DbTime) (o : Outcome) (t : DbTime)
    (s : Store) : Store :=
  { s with
    jobs := updateWhere (·.id == r.id) (·.settled o t) s.jobs
    jobAttempts := s.jobAttempts ++ [r.attempt w startedAt o t]
    deadLetters := s.deadLetters ++ r.deadLetter o t }

/-- The run time that `mark_failed_attempt` computes. -/
def retryAt (now : UtcTime) (job : Job) (attemptNo : Nat) (backoff : ℚ) : Option UtcTime :=
  UtcTime.fromtimestamp
    (if decide (attemptNo ≤ job.maxRetries) then now.timestamp + backoff else now.timestamp)

/-- The end of the attempt that a completion records: the time, the start and the outcome; `none`
when the run time of the retry is no datetime. -/
def Op.ends (deps : Deps) : Op → Option (UtcTime × UtcTime × Outcome)
  | .markSucceeded now _ _ _ startedAt result =>
    some (now, startedAt, .success (deps.dumps (.obj result)))
  | .markFailedAttempt now job _ n startedAt error timedOut backoff =>
    (retryAt now job n backoff).map fun runAt => (now, startedAt,
      .failure (if timedOut then .timedOut else .failed) error (toDbTime runAt)
        (deps.dumps job.payload))
  | _ => none

section
variable {deps : Deps} {engine : Engine} {s : Store} {row : JobRow} {w : String}
  {now startedAt : UtcTime}

/-- The guarded update with the lease in place. -/
theorem leased_update (hn : (s.jobs.map (·.id)).Nodup) (h : Recoverable s row)
    (hw : row.lockedBy = some w) {f : JobRow → JobRow} {o : Outcome} {t : DbTime}
    (hf : f row = row.settled o t) :
    updateJobs
        (fun r => r.id == row.id && r.status = .running && sqlEq r.lockedBy (some w)) f s =
        .ok (1, { s with jobs := updateWhere (·.id == row.id) (·.settled o t) s.jobs }) ∧
      updateJobsReturning
        (fun r => r.id == row.id && r.status = .running && sqlEq r.lockedBy (some w)) f s =
        .ok ([row.settled o t],
          { s with jobs := updateWhere (·.id == row.id) (·.settled o t) s.jobs }) := by
  have hpr := lease_guard.2 ⟨rfl, h.status, hw⟩
  obtain ⟨h1, h2⟩ := updateJobs_row hn h.mem (f := f) (fun r hr => (lease_guard (w := w).1 hr).1) hpr
  rw [hf] at h2
  rw [updateWhere_id_congr hn h.mem hf.symm]
  exact ⟨h1, h2⟩

/-- The row of the settled job is there for the foreign keys and the last `SELECT`. -/
theorem settled_job? (hn : (s.jobs.map (·.id)).Nodup) (hr : row ∈ s.jobs) {s' : Store} {o : Outcome}
    {t : DbTime} (hs' : s'.jobs = updateWhere (·.id == row.id) (·.settled o t) s.jobs) :
    s'.job? row.id = some (row.settled o t) := by
  unfold Store.job?
  rw [hs', lookup_updateWhere fun r _ => settled_id o t r, lookup_of_mem hn hr]
  simp

theorem settled_fk (hr : row ∈ s.jobs) {o : Outcome} {t : DbTime} :
    ∃ r ∈ updateWhere (·.id == row.id) (·.settled o t) s.jobs, r.id = row.id :=
  ⟨row.settled o t, mem_updateWhere.2 ⟨row, hr, by simp⟩, settled_id o t row⟩

/-- The attempt row of the settled job. -/
theorem insertAttempt_settled (h : Recoverable s row) {o : Outcome} {t : DbTime} (a : AttemptRow)
    (ha : a = row.attempt w (toDbTime startedAt) o t) :
    insertAttempt a { s with jobs := updateWhere (·.id == row.id) (·.settled o t) s.jobs } =
      .ok ((), { s with jobs := updateWhere (·.id == row.id) (·.settled o t) s.jobs
                        jobAttempts := s.jobAttempts ++
                          [row.attempt w (toDbTime startedAt) o t] }) := by
  subst ha
  refine insertAttempt_new (fun b hb hid hno => ?_) (settled_fk h.mem)
  have hle := h.attempts b hb hid
  rw [hno] at hle
  exact Nat.not_succ_le_self _ hle

/-- The dead letter of the settled job. -/
theorem deadLetter_settled {ins : DeadLetterRow → Body Unit} (hins : Appends ins)
    (h : Recoverable s row) {m : AttemptStatus} {error payload : String} {runAt t : DbTime}
    {as : List AttemptRow} :
    (if row.attemptCount + 1 ≤ row.maxRetries then (pure () : Body Unit)
      else ins ⟨row.id, payload, some error, row.attemptCount + 1, t⟩)
        { s with jobs := updateWhere (·.id == row.id) (·.settled (.failure m error runAt payload) t)
                  s.jobs
                 jobAttempts := as } =
      .ok ((), { s with
        jobs := updateWhere (·.id == row.id) (·.settled (.failure m error runAt payload) t) s.jobs
        jobAttempts := as
        deadLetters := s.deadLetters ++ row.deadLetter (.failure m error runAt payload) t }) := by
  by_cases hretry : row.attemptCount + 1 ≤ row.maxRetries
  · simp [hretry, JobRow.deadLetter]
  · rw [if_neg hretry]
    refine (hins _ _ (settled_fk h.mem) h.deadLetters).trans ?_
    simp [hretry, JobRow.deadLetter]

end

namespace Sqlite

variable {deps : Deps} {s : Store} {row : JobRow} {w : String} {now startedAt : UtcTime}

theorem markSucceededTxn_live (hn : (s.jobs.map (·.id)).Nodup) (h : Recoverable s row)
    (hw : row.lockedBy = some w) {id : String} (hid : id = row.id) {result : List (String × Json)}
    {o : Outcome} (ho : o = .success (deps.dumps (.obj result))) :
    markSucceededTxn deps now id w (row.attemptCount + 1) startedAt result s =
      .ok (some (jobFromRow deps (row.settled o (toDbTime now))),
        s.settle row w (toDbTime startedAt) o (toDbTime now)) := by
  subst hid ho
  unfold markSucceededTxn
  rw [Tx.bind_ok (Tx.get_run s)]
  obtain ⟨hupd, -⟩ := leased_update hn h hw
    (succeededUpdate_eq (deps.dumps (.obj result)) (toDbTime now) row)
  refine (Tx.bind_ok hupd).trans ?_
  rw [if_neg Nat.one_ne_zero]
  refine (Tx.bind_ok (insertAttempt_settled h _ rfl)).trans ?_
  refine (Tx.bind_ok (x := selectJob row.id) (congrArg (fun r => Except.ok (r, _))
    (settled_job? hn h.mem rfl))).trans ?_
  simp [Store.settle, JobRow.deadLetter]

theorem markFailedAttemptTxn_live (hn : (s.jobs.map (·.id)).Nodup) (h : Recoverable s row)
    (hw : row.lockedBy = some w) {c : Job} (hid : c.id = row.id) (hmax : c.maxRetries = row.maxRetries)
    {error : String} {timedOut : Bool} {backoff : ℚ} {runAt : UtcTime}
    (hrun : retryAt now c (row.attemptCount + 1) backoff = some runAt) {o : Outcome}
    (ho : o = .failure (if timedOut then .timedOut else .failed) error (toDbTime runAt)
      (deps.dumps c.payload)) :
    markFailedAttemptTxn deps now c w (row.attemptCount + 1) startedAt error timedOut backoff s =
      .ok (some (jobFromRow deps (row.settled o (toDbTime now))),
        s.settle row w (toDbTime startedAt) o (toDbTime now)) := by
  subst ho
  unfold retryAt at hrun
  dsimp only [markFailedAttemptTxn]
  rw [hrun, Tx.bind_ok (Tx.ofExcept_ok runAt s), Tx.bind_ok (Tx.get_run s), hid, hmax]
  obtain ⟨hupd, -⟩ := leased_update hn h hw (failedUpdate_eq
    (if timedOut then .timedOut else .failed) error (deps.dumps c.payload) (toDbTime runAt)
    (toDbTime now) (r := row) rfl)
  refine (Tx.bind_ok hupd).trans ?_
  rw [if_neg Nat.one_ne_zero]
  refine (Tx.bind_ok (insertAttempt_settled h _ rfl)).trans ?_
  simp only [decide_eq_true_eq]
  refine (congrFun (Tx.ite_bind _ fun _ =>
    selectJob row.id >>= fun r => pure (r.map (jobFromRow deps))) _).trans ?_
  refine (Tx.bind_ok (deadLetter_settled replaceDeadLetter_appends h)).trans ?_
  refine (Tx.bind_ok (x := selectJob row.id) (congrArg (fun r => Except.ok (r, _))
    (settled_job? hn h.mem rfl))).trans ?_
  rfl

end Sqlite

namespace Postgres

variable {deps : Deps} {s : Store} {row : JobRow} {w : String} {now startedAt : UtcTime}

theorem markSucceededTxn_live (hn : (s.jobs.map (·.id)).Nodup) (h : Recoverable s row)
    (hw : row.lockedBy = some w) {id : String} (hid : id = row.id) {result : List (String × Json)}
    {o : Outcome} (ho : o = .success (deps.dumps (.obj result))) :
    markSucceededTxn deps now id w (row.attemptCount + 1) startedAt result s =
      .ok (some (jobFromRow deps (row.settled o (toDbTime now))),
        s.settle row w (toDbTime startedAt) o (toDbTime now)) := by
  subst hid ho
  unfold markSucceededTxn
  obtain ⟨-, hupd⟩ := leased_update hn h hw
    (succeededUpdate_eq (deps.dumps (.obj result)) (toDbTime now) row)
  refine (Tx.bind_ok hupd).trans ?_
  refine (Tx.bind_ok (insertAttempt_settled h _ rfl)).trans ?_
  simp [Store.settle, JobRow.deadLetter]

theorem markFailedAttemptTxn_live (hn : (s.jobs.map (·.id)).Nodup) (h : Recoverable s row)
    (hw : row.lockedBy = some w) {c : Job} (hid : c.id = row.id) (hmax : c.maxRetries = row.maxRetries)
    {error : String} {timedOut : Bool} {backoff : ℚ} {runAt : UtcTime}
    (hrun : retryAt now c (row.attemptCount + 1) backoff = some runAt) {o : Outcome}
    (ho : o = .failure (if timedOut then .timedOut else .failed) error (toDbTime runAt)
      (deps.dumps c.payload)) :
    markFailedAttemptTxn deps now c w (row.attemptCount + 1) startedAt error timedOut backoff s =
      .ok (some (jobFromRow deps (row.settled o (toDbTime now))),
        s.settle row w (toDbTime startedAt) o (toDbTime now)) := by
  subst ho
  unfold retryAt at hrun
  dsimp only [markFailedAttemptTxn]
  rw [hrun, Tx.bind_ok (Tx.ofExcept_ok runAt s), hid, hmax]
  obtain ⟨-, hupd⟩ := leased_update hn h hw (failedUpdate_eq
    (if timedOut then .timedOut else .failed) error (deps.dumps c.payload) (toDbTime runAt)
    (toDbTime now) (r := row) rfl)
  refine (Tx.bind_ok hupd).trans ?_
  refine (Tx.bind_ok (insertAttempt_settled h _ rfl)).trans ?_
  simp only [decide_eq_true_eq]
  refine (congrFun (Tx.ite_bind _ fun _ => pure (some (jobFromRow deps _))) _).trans ?_
  exact Tx.bind_ok (deadLetter_settled upsertDeadLetter_appends h)

end Postgres

/-- No completion marks its attempt as abandoned. -/
theorem ends_mark {deps : Deps} {op : Op} {now startedAt : UtcTime} {o : Outcome}
    (h : op.ends deps = some (now, startedAt, o)) : o.mark ≠ .abandoned := by
  cases op with
  | markSucceeded =>
    cases h
    simp [Outcome.mark]
  | markFailedAttempt now job w n startedAt error timedOut backoff =>
    obtain ⟨runAt, -, he⟩ := Option.map_eq_some_iff.1 h
    cases he
    cases timedOut <;> simp [Outcome.mark]
  | _ => cases h

section
variable {deps : Deps} {engine : Engine} {h : History Event Store}

/-- A completion whose lease is in place settles the attempt; only a run time that is no datetime makes
it raise. -/
theorem Sound.completion_live (hs : Sound deps h) {op : Op} (ha : Allowed h op) {c : Job} {w : String}
    {n : Nat} (hop : op.completes = some (c, w, n)) {row : JobRow}
    (hrow : (present h).job? c.id = some row) (hrun : row.status = .running)
    (hw : row.lockedBy = some w) (hcount : row.attemptCount = c.attemptCount) :
    op.body deps engine (present h) =
      match op.ends deps with
      | some (now, startedAt, o) =>
        .ok (.job (some (jobFromRow deps (row.settled o (toDbTime now)))),
          (present h).settle row w (toDbTime startedAt) o (toDbTime now))
      | none => .error .value := by
  obtain ⟨rfl, hclaimed⟩ := ha _ _ _ hop
  obtain ⟨hmem, hid⟩ := Store.job?_some hrow
  have hrec := hs.recoverable hmem hrun
  have hn := hs.ok.nodup
  obtain ⟨hmax, -⟩ := (hs.claims _ _ hclaimed).same hs.ok hmem hid
  rw [← hcount] at hop
  cases op with
  | markSucceeded now job w' n' startedAt result =>
    cases hop
    cases engine with
    | sqlite => exact reply_ok.2 ⟨_, Sqlite.markSucceededTxn_live hn hrec hw hid.symm rfl, rfl⟩
    | postgres => exact reply_ok.2 ⟨_, Postgres.markSucceededTxn_live hn hrec hw hid.symm rfl, rfl⟩
  | markFailedAttempt now job w' n' startedAt error timedOut backoff =>
    cases hop
    simp only [Op.ends]
    cases hretry : retryAt now c (row.attemptCount + 1) backoff with
    | none =>
      unfold retryAt at hretry
      cases engine with
      | sqlite =>
        refine Tx.bind_error ?_
        dsimp only [Sqlite.markFailedAttemptTxn]
        rw [hretry]
        exact Tx.bind_error (Tx.ofExcept_error _ _)
      | postgres =>
        refine Tx.bind_error ?_
        dsimp only [Postgres.markFailedAttemptTxn]
        rw [hretry]
        exact Tx.bind_error (Tx.ofExcept_error _ _)
    | some runAt =>
      cases engine with
      | sqlite =>
        exact reply_ok.2
          ⟨_, Sqlite.markFailedAttemptTxn_live hn hrec hw hid.symm hmax hretry rfl, rfl⟩
      | postgres =>
        exact reply_ok.2
          ⟨_, Postgres.markFailedAttemptTxn_live hn hrec hw hid.symm hmax hretry rfl, rfl⟩
  | _ => cases hop

/-- So does every one that commits. -/
theorem completion_commits (hs : Sound deps h) {op : Op} {out : Except Err Reply} {s' : Store}
    (hstep : RunStep deps engine h (.call op out) s') {c : Job} {w : String} {n : Nat}
    (hop : op.completes = some (c, w, n)) (hcommit : out ≠ .error .value) {row : JobRow}
    (hrow : (present h).job? c.id = some row) (hrun : row.status = .running)
    (hw : row.lockedBy = some w) (hcount : row.attemptCount = c.attemptCount) :
    ∃ now startedAt o, op.ends deps = some (now, startedAt, o) ∧
      s' = (present h).settle row w (toDbTime startedAt) o (toDbTime now) := by
  cases hstep with
  | call _ ha =>
    have hbody := @Sound.completion_live deps engine h hs op ha c w n hop row hrow hrun hw hcount
    cases hends : op.ends deps with
    | none =>
      rw [hends] at hbody
      exact absurd (congrArg Prod.fst (atomically_error hbody)) hcommit
    | some end' =>
      rw [hends] at hbody
      exact ⟨end'.1, end'.2.1, end'.2.2, rfl, congrArg Prod.snd (atomically_ok hbody)⟩

/-! ## The claim -/

/-- A claim that returned `c` left the row that `c` shows. -/
theorem claimed_row {e : Event} {s' : Store} {w : String} {c : Job} (hs : Sound deps h)
    (hstep : RunStep deps engine h e s') (hc : e.claimed = some (w, c)) :
    ∃ r t, r ∈ (present h).jobs ∧ r.status = .queued ∧ c = jobFromRow deps (r.claimed w t) ∧
      s'.job? c.id = some (r.claimed w t) := by
  obtain ⟨-, ⟨-, hn⟩ | ⟨w', j, hcl, hj⟩⟩ := hs.entry hstep
  · rw [hn] at hc
    cases hc
  · rw [hj] at hc
    cases hcl with
    | idle => cases hc
    | @took r t hr hq =>
      cases hc
      refine ⟨r, t, hr, hq, rfl, ?_⟩
      show Store.job? _ r.id = _
      rw [job?_update (present h) r.id (·.claimed w t) (fun _ => rfl), if_pos rfl, hs.ok.job?_mem hr]
      rfl

/-- While no other claim returns the job, only one claim carries its present attempt. -/
theorem claim_unique {e₀ : Entry Event Store} {mid pre : History Event Store} {w w' : String}
    {c c' : Job} (hr : Run deps engine (mid ++ e₀ :: pre)) (hc : e₀.event.claimed = some (w, c))
    (hmid : ∀ x ∈ mid, ¬ x.event.Claims c.id) (hc' : Claimed (mid ++ e₀ :: pre) w' c')
    (hid : c'.id = c.id) (hcount : c'.attemptCount = c.attemptCount) : c' = c := by
  obtain ⟨x, hx, hxc⟩ := hc'
  rcases List.mem_append.1 hx with hx | hx
  · exact absurd ⟨w', c', hxc, hid⟩ (hmid x hx)
  rcases List.mem_cons.1 hx with rfl | hx
  · cases hc.symm.trans hxc
    rfl
  · -- the earlier claim's attempt was over when this claim took the queued job
    exfalso
    obtain ⟨hrpre, hstep⟩ := hr.split
    obtain ⟨r, t, hmem, hq, hcr, -⟩ := claimed_row (Run.sound hrpre) hstep hc
    have hrow : (present pre).job? c'.id = some r := by
      rw [hid, hcr]
      exact (Run.sound hrpre).ok.job?_mem hmem
    obtain ⟨post', pre', hsplit⟩ := mem_split hx
    rw [hsplit] at hrpre hrow
    rcases held_or_spent hxc hrpre with ⟨-, r', hr', hrun, -⟩ | ⟨⟨r', hr', hlt⟩, -⟩
    · cases hrow.symm.trans hr'
      rw [hq] at hrun
      cases hrun
    · cases hrow.symm.trans hr'
      rw [hcount, hcr] at hlt
      exact Nat.lt_irrefl _ hlt

/-! ## The clock -/

/-- The clock reading of a call. -/
def Op.now? : Op → Option UtcTime
  | .createJob now .. | .createJobsBatch now .. | .createSchedule now .. | .writeSchedule now ..
  | .materialize _ now .. | .claim _ now .. | .markSucceeded now .. | .markFailedAttempt now ..
  | .recoverStaleJobs _ now .. | .cancelJob now .. | .drainQueue now
  | .initializeRuntimeConfig now .. | .patchRuntimeConfig now .. | .heartbeatWorker now .. => some now
  | .deleteSchedule _ => none

/-- A reaper gives leases at least `g` seconds of grace. -/
def Op.Patient (g : ℚ) : Op → Prop
  | .recoverStaleJobs _ _ grace => g ≤ grace
  | _ => True

/-- The `i`th event commits at `clock i`, and read its `now` before. -/
def Clocked (clock : Nat → UtcTime) (g : ℚ) : History Event Store → Prop
  | [] => True
  | e :: pre => (∀ op out, e.event = .call op out →
      (∀ now, op.now? = some now → now ≤ clock pre.length) ∧ op.Patient g) ∧ Clocked clock g pre

theorem totalSeconds_mono {a a' b : UtcTime} (h : a ≤ a') : a.totalSeconds b ≤ a'.totalSeconds b := by
  have hm : (a.micros : ℚ) ≤ a'.micros := by exact_mod_cast UtcTime.le_iff.1 h
  unfold UtcTime.totalSeconds
  linarith

/-- One more call, with a clock reading from before its commit. -/
theorem Clocked.afterCall {clock : Nat → UtcTime} {g : ℚ} {h : History Event Store} {op : Op}
    {now : UtcTime} (hop : op.now? = some now) (hle : now ≤ clock h.length) (hp : op.Patient g)
    (hc : Clocked clock g h) : Clocked clock g (afterCall deps engine h op) := by
  refine ⟨fun op' out he => ?_, hc⟩
  obtain ⟨rfl, -⟩ := Event.call.inj he
  refine ⟨fun now' hnow => ?_, hp⟩
  rw [hop] at hnow
  cases hnow
  exact hle

theorem Clocked.suffix {clock : Nat → UtcTime} {g : ℚ} {pre : History Event Store} :
    ∀ {post : History Event Store}, Clocked clock g (post ++ pre) → Clocked clock g pre
  | [], h => h
  | _ :: _, h => Clocked.suffix h.2

/-! ## Between the claim and the completion -/

/-- An attempt of another job does not touch this one. -/
theorem Settled.other {s s' : Store} {a : AttemptRow} (hset : Settled deps s s' a) (hok : s.Ok deps)
    {id : String} (hne : a.jobId ≠ id) : s'.job? id = s.job? id := by
  rcases hset.step.view hok id with hv | hj
  · exact congrArg JobView.job hv
  · have hsame : (s'.view id).attempts = (s.view id).attempts := by
      simp only [Store.view, hset.attempts, List.filter_append]
      simp [hne]
    generalize hv : s.view id = v at hj hsame
    generalize hv' : s'.view id = v' at hj hsame
    cases hj with
    | settle => simp at hsame

/-- Steps that settle nothing keep the row of a running job. -/
theorem Steps.running {s s' : Store} {L : Kind → Prop} (hL : ¬ L .settle) (hok : s.Ok deps)
    (hst : Steps deps L s s') {id : String} {r : JobRow} (hr : s.job? id = some r)
    (hrun : r.status = .running) : s'.job? id = some r := by
  refine Steps.keeps (P := fun v => v.job = some r) ?_ hok hst id hr
  intro k v v' hk hv hstep
  cases hstep with
  | submit hnew => cases hv
  | claim w t hq =>
    cases hv
    rw [hrun] at hq
    cases hq
  | settle => exact absurd hk hL
  | cancel t hq =>
    cases hv
    rw [hrun] at hq
    cases hq
  | reorder => exact hv

/-- A call that neither recovers the job nor completes this attempt leaves its row alone. -/
theorem lease_step (hs : Sound deps h) {op : Op} {out : Except Err Reply} {s' : Store}
    (hstep : RunStep deps engine h (.call op out) s') {w : String} {c : Job} {r : JobRow}
    (hr : (present h).job? c.id = some r) (hrun : r.status = .running) (hw : r.lockedBy = some w)
    (hcount : r.attemptCount = c.attemptCount)
    (hreap : ∀ skipped now grace, op = .recoverStaleJobs skipped now grace → ¬ r.Stale now grace)
    (hcomp : ∀ c' n rep, out = .ok rep → op.completes = some (c', w, n) → c'.id = c.id →
      c'.attemptCount ≠ c.attemptCount) :
    s'.job? c.id = some r := by
  obtain ⟨ha, ⟨rep, hx, hout⟩ | ⟨err, -, rfl⟩⟩ := hstep.call_cases
  · obtain ⟨hmem, hid⟩ := Store.job?_some hr
    have hcompletion : ∀ c' w' n, op.completes = some (c', w', n) → s'.job? c.id = some r := by
      intro c' w' n hop
      rcases hs.completion ha hop hx with ⟨rfl, -⟩ | ⟨a, hset, hj, hwa, hno, -⟩
      · exact hr
      · by_cases hne : c'.id = c.id
        · -- the settled row is this one, so worker and attempt are those of the claim
          obtain ⟨r', hr', hid', -, hw', hno'⟩ := hset.row
          have he : r' = r := hs.ok.unique hmem hr' (by rw [hid', hj, hne, hid])
          subst he
          rw [hw] at hw'
          cases hw'
          exact absurd (by omega) (hcomp c' n rep hout (hwa ▸ hop) hne)
        · rw [hset.other hs.ok (by rw [hj]; exact hne)]
          exact hr
    have hsteps := hs.call ha hx
    cases op with
    | markSucceeded => exact hcompletion _ _ _ rfl
    | markFailedAttempt => exact hcompletion _ _ _ rfl
    | recoverStaleJobs skipped now grace =>
      cases (hs.reaper skipped now grace).symm.trans hx
      have hout : r ∉ Op.recovers engine skipped now grace (present h) := by
        intro hm
        refine hreap skipped now grace rfl ?_
        cases engine with
        | sqlite => exact of_decide_eq_true (List.mem_filter.1 hm).2
        | postgres => exact of_decide_eq_true (List.mem_filter.1 (List.mem_filter.1 hm).1).2
      have hkept : r ∈ ((present h).recover now
          (Op.recovers engine skipped now grace (present h))).jobs :=
        List.mem_map.2 ⟨r, hmem, if_neg hout⟩
      rw [← hid]
      exact lookup_of_mem (recover_nodup hs.ok.nodup _) hkept
    | claim | cancelJob | drainQueue =>
      exact hsteps.running (by simp [Op.kinds]) hs.ok hr hrun
    | _ => exact hsteps.running (by simp [Op.kinds, Mild]) hs.ok hr hrun
  · exact hr

/-- From a claim to its first completion, before the grace is over, the row of the job stays as the
claim left it, and no other claim returns the job. -/
theorem lease_kept {e₀ : Entry Event Store} {pre : History Event Store} {w : String} {c : Job}
    (hc : e₀.event.claimed = some (w, c)) {g : ℚ} {clock : Nat → UtcTime} {lockedAt deadline : UtcTime}
    (hl : c.lockedAt = some lockedAt) (hlive : deadline.totalSeconds lockedAt ≤ c.timeoutSeconds + g) :
    ∀ {mid : History Event Store}, Run deps engine (mid ++ e₀ :: pre) →
      Clocked clock g (mid ++ e₀ :: pre) → (∀ i < (mid ++ e₀ :: pre).length, clock i ≤ deadline) →
      (∀ x ∈ mid, ∀ op rep n, x.event = .call op (.ok rep) → op.completes ≠ some (c, w, n)) →
      ∃ r, c = jobFromRow deps r ∧ r.status = .running ∧ r.lockedBy = some w ∧
        (present (mid ++ e₀ :: pre)).job? c.id = some r ∧
        ∀ x ∈ mid, x.after.job? c.id = some r ∧ ¬ x.event.Claims c.id
  | [], hr, _, _, _ => by
    obtain ⟨r, t, -, -, hcr, hrow⟩ := claimed_row (Run.sound (Valid.tail hr)) (Valid.head hr) hc
    exact ⟨r.claimed w t, hcr, rfl, rfl, hrow, by simp⟩
  | x :: mid, hr, hclock, htime, hfirst => by
    have hr' : Run deps engine (mid ++ e₀ :: pre) := Valid.tail hr
    have hs := Run.sound hr'
    obtain ⟨r, hcr, hrun, hw, hrow, hmid⟩ := lease_kept hc hl hlive hr' hclock.2
      (fun i hi => htime i (Nat.lt_succ_of_lt hi))
      (fun x hx => hfirst x (List.mem_cons_of_mem _ hx))
    have hcount : r.attemptCount = c.attemptCount := by rw [hcr]; rfl
    have hheld : Held (present (mid ++ e₀ :: pre)) w c := ⟨r, hrow, hrun, hw, hcount⟩
    have hnot : ¬ x.event.Claims c.id := hheld.not_claimed hs (Valid.head hr)
    have hnext : x.after.job? c.id = some r := by
      obtain ⟨ev, s'⟩ := x
      cases ev with
      | abort op =>
        cases Valid.head hr
        exact hrow
      | reorder =>
        cases Valid.head hr with
        | reorder hre => exact (lookup_perm hs.ok.nodup hre.jobs).symm.trans hrow
      | call op out =>
        refine lease_step hs (Valid.head hr) hrow hrun hw hcount ?_ ?_
        · rintro skipped now grace rfl ⟨-, t, ht, hstale⟩
          obtain ⟨hnow, hpatient⟩ := hclock.1 _ _ rfl
          have hle : now ≤ deadline := (hnow now rfl).trans (htime _ (Nat.lt_succ_self _))
          have hgrace : g ≤ grace := hpatient
          have hlocked : parseDbTime t = lockedAt := by
            rw [hcr] at hl
            simp only [jobFromRow, Option.mem_def.1 ht, Option.map_some, Option.some.injEq] at hl
            exact hl
          have htimeout : c.timeoutSeconds = r.timeoutSeconds := by rw [hcr]; rfl
          have hlast : now.totalSeconds lockedAt ≤ r.timeoutSeconds + grace := by
            have hmono := totalSeconds_mono (b := lockedAt) hle
            linarith
          rw [hlocked] at hstale
          exact absurd (Rounding.double_mono hlast) (not_le.2 hstale)
        · intro c' n rep hout hop hid hcnt
          obtain ⟨-, hclaimed⟩ := (RunStep.call_cases (Valid.head hr)).1 _ _ _ hop
          have he := claim_unique hr' hc (fun y hy => (hmid y hy).2) hclaimed hid hcnt
          subst he
          exact hfirst _ (List.mem_cons_self ..) op rep n (by rw [hout]) hop
    refine ⟨r, hcr, hrun, hw, hnext, fun y hy => ?_⟩
    rcases List.mem_cons.1 hy with rfl | hy
    · exact ⟨hnext, hnot⟩
    · exact hmid y hy

/-! ## Attempt rows stay -/

theorem Steps.attempts {s s' : Store} {L : Kind → Prop} (hst : Steps deps L s s') {a : AttemptRow}
    (ha : a ∈ s.jobAttempts) : a ∈ s'.jobAttempts := by
  induction hst with
  | refl => exact ha
  | tail _ hstep ih =>
    obtain ⟨k, -, hstep⟩ := hstep
    cases hstep with
    | submit => exact ih
    | claim => exact ih
    | settle => exact List.mem_append_left _ ih
    | cancel => exact ih
    | side _ hatt => exact hatt ▸ ih
    | reorder _ hatt => exact hatt.mem_iff.1 ih

/-- An attempt row that is there stays, and keeps its number to itself. -/
theorem attempt_kept {post pre : History Event Store} (hr : Run deps engine (post ++ pre))
    {a b : AttemptRow} (ha : a ∈ (present pre).jobAttempts)
    (hb : b ∈ (present (post ++ pre)).jobAttempts) (hid : b.jobId = a.jobId)
    (hno : b.attemptNo = a.attemptNo) : b = a := by
  have ha' : a ∈ (present (post ++ pre)).jobAttempts := by
    refine Valid.related (R := fun s s' => a ∈ s.jobAttempts → a ∈ s'.jobAttempts) ?_ ?_ ?_ hr ha
    · exact fun s h => h
    · exact fun hab hbc h => hbc (hab h)
    · intro h e s hv hstep hm
      obtain ⟨⟨L, hst⟩, -⟩ := (Run.sound hv).entry hstep
      exact hst.attempts hm
  by_contra hne
  have hsymm : Std.Symm fun x y : AttemptRow => x.clash y = false := ⟨fun x y hxy => by
    rw [AttemptRow.clash_comm]
    exact hxy⟩
  have hclash := (Run.sound hr).ok.attempts.forall hb ha' hne
  simp [AttemptRow.clash, hid, hno] at hclash

/-- A worker claims a job, and its first completion for this claim commits before lease time, timeout
and grace have passed. Then the row stays as the claim left it and no other claim returns the job until
the completion, the completion settles the attempt, and at no later time is the attempt recorded as
abandoned. (Only a run time outside the range of `datetime` keeps a completion from committing.) -/
theorem live_lease_kept {e e₀ : Entry Event Store} {post mid pre : History Event Store}
    (hr : Run deps engine (post ++ e :: (mid ++ e₀ :: pre))) {clock : Nat → UtcTime} {g : ℚ}
    (hmono : Monotone clock) (hclock : Clocked clock g (post ++ e :: (mid ++ e₀ :: pre)))
    {w : String} {c : Job} (hc : e₀.event.claimed = some (w, c)) {lockedAt : UtcTime}
    (hl : c.lockedAt = some lockedAt) {op : Op} {out : Except Err Reply} {n : Nat}
    (he : e.event = .call op out) (hop : op.completes = some (c, w, n)) (hcommit : out ≠ .error .value)
    (hfirst : ∀ x ∈ mid, ∀ op' rep n', x.event = .call op' (.ok rep) →
      op'.completes ≠ some (c, w, n'))
    (hlive : (clock (mid ++ e₀ :: pre).length).totalSeconds lockedAt ≤ c.timeoutSeconds + g) :
    ∃ r, c = jobFromRow deps r ∧
      (∀ x ∈ mid, x.after.job? c.id = some r ∧ ¬ x.event.Claims c.id) ∧
      (∃ now startedAt o, op.ends deps = some (now, startedAt, o) ∧ e.after =
        (present (mid ++ e₀ :: pre)).settle r w (toDbTime startedAt) o (toDbTime now)) ∧
      ∀ a ∈ (present (post ++ e :: (mid ++ e₀ :: pre))).jobAttempts, a.jobId = c.id →
        a.attemptNo = n → a.status ≠ .abandoned := by
  have hr' : Run deps engine (e :: (mid ++ e₀ :: pre)) := hr.suffix
  have hpre : Run deps engine (mid ++ e₀ :: pre) := Valid.tail hr'
  obtain ⟨r, hcr, hrun, hw, hrow, hmid⟩ := lease_kept hc hl hlive hpre hclock.suffix.2
    (fun i hi => hmono (Nat.le_of_lt hi)) hfirst
  obtain ⟨ev, s'⟩ := e
  cases he
  obtain ⟨rfl, -⟩ := (RunStep.call_cases (Valid.head hr')).1 _ _ _ hop
  have hcount : r.attemptCount = c.attemptCount := by rw [hcr]; rfl
  obtain ⟨now, startedAt, o, hends, hafter⟩ :=
    completion_commits (Run.sound hpre) (Valid.head hr') hop hcommit hrow hrun hw hcount
  refine ⟨r, hcr, hmid, ⟨now, startedAt, o, hends, hafter⟩, fun a ha hid hno => ?_⟩
  have hnew : r.attempt w (toDbTime startedAt) o (toDbTime now) ∈ s'.jobAttempts := by
    have hs' : s' = _ := hafter
    rw [hs']
    exact List.mem_append_right _ (List.mem_singleton_self _)
  have hrid : r.id = c.id := (Store.job?_some hrow).2
  have ha' := attempt_kept (a := r.attempt w (toDbTime startedAt) o (toDbTime now)) hr hnew ha
    (hid.trans hrid.symm) (hno.trans (congrArg (· + 1) hcount.symm))
  rw [ha']
  exact ends_mark hends

end

/-- A reaper pass spares the lease, and another worker finds no job. -/
def sampleSpared : History Event Store :=
  afterCall sampleDeps .sqlite
    (afterCall sampleDeps .sqlite sampleClaimed (.recoverStaleJobs (fun _ => false) (sampleTime 180) 60))
    (.claim (fun _ => false) (sampleTime 270) "v")

theorem sampleSpared_run : Run sampleDeps .sqlite sampleSpared :=
  Run.afterCall (Run.afterCall sampleClaimed_run (Allowed.of_none rfl)) (Allowed.of_none rfl)

/-- After the timeout, within the grace. -/
def lateSuccess : Op := .markSucceeded (sampleTime 355) sampleJob "w" 1 (sampleTime 1) []

theorem lateSuccess_run :
    Run sampleDeps .sqlite (afterCall sampleDeps .sqlite sampleSpared lateSuccess) := by
  refine Run.afterCall sampleSpared_run ?_
  intro c w n hop
  cases hop
  obtain ⟨e, he, hclaimed⟩ := sampleClaimed_claimed
  exact ⟨rfl, e, List.mem_cons_of_mem _ (List.mem_cons_of_mem _ he), hclaimed⟩

/-- Every event commits ninety seconds after the one before it. -/
def sampleClock (i : Nat) : UtcTime := sampleTime ⟨90 * min i 11, by omega⟩

theorem sampleClock_mono : Monotone sampleClock := by
  intro i j hij
  rw [UtcTime.le_iff]
  simp only [sampleClock, sampleTime]
  omega

theorem lateSuccess_clocked :
    Clocked sampleClock 60 (afterCall sampleDeps .sqlite sampleSpared lateSuccess) := by
  have hclaimed : Clocked sampleClock 60 sampleClaimed :=
    Clocked.afterCall rfl (by decide) trivial (Clocked.afterCall rfl (by decide) trivial trivial)
  have hspared : Clocked sampleClock 60 sampleSpared :=
    Clocked.afterCall rfl (by decide) trivial (Clocked.afterCall rfl (by decide) (le_refl _) hclaimed)
  exact hspared.afterCall rfl (by decide) trivial

/-- The completion finds the lease as the claim left it. -/
theorem live_lease_kept_sample : ∃ r now startedAt o, sampleJob = jobFromRow sampleDeps r ∧
    (present sampleSpared).job? "j" = some r ∧ lateSuccess.ends sampleDeps = some (now, startedAt, o) ∧
      present (afterCall sampleDeps .sqlite sampleSpared lateSuccess) =
        (present sampleSpared).settle r "w" (toDbTime startedAt) o (toDbTime now) := by
  have hok : (atomically (lateSuccess.body sampleDeps .sqlite) (present sampleSpared)).1.isOk = true := by
    decide +kernel
  obtain ⟨r, hcr, hmid, ⟨now, startedAt, o, hends, hafter⟩, -⟩ :=
    @live_lease_kept sampleDeps .sqlite ⟨.call lateSuccess _, _⟩ _ [] [_, _] _
      lateSuccess_run sampleClock 60 sampleClock_mono lateSuccess_clocked
      "w" sampleJob rfl (sampleTime 1) rfl _ _ _ rfl rfl
      (by
        intro hraised
        rw [hraised] at hok
        cases hok)
      (by
        intro x hx op rep n he hop
        simp only [List.mem_cons, List.not_mem_nil, or_false] at hx
        rcases hx with rfl | rfl
        · obtain ⟨rfl, -⟩ := Event.call.inj he
          cases hop
        · obtain ⟨rfl, -⟩ := Event.call.inj he
          cases hop)
      (by decide +kernel)
  exact ⟨r, now, startedAt, o, hcr, (hmid _ (List.mem_cons_self ..)).1, hends, hafter⟩

end PulseQueue
