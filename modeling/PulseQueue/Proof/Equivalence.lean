import PulseQueue.Proof.Reaper
import PulseQueue.Proof.Reordering
import PulseQueue.Proof.Selection

/-!
# The two repositories are one store

For every method: the SQLite version on one store and the Postgres version on a store with the same
rows in some order return the same value or raise the same error, and leave the same rows
(`method_agree`). Most methods have the same text. The others differ in how they find out whether a row
was updated, in their upserts, and in the loop of the reaper, whose iterations commute because each
touches its own job (`reap_comm`). From this, sessions on the two engines cannot be told apart
(`repositories_equivalent`).
-/

namespace PulseQueue

open Txn Table

/-! ## Configuration, heartbeats -/

section
variable {deps : Deps} {s t : Store}

theorem Same.config (h : Same s t) (c : Option ConfigRow) :
    Same { s with runtimeConfig := c } { t with runtimeConfig := c } :=
  ⟨⟨h.jobs, h.jobAttempts, h.deadLetters, h.recurringSchedules, rfl, h.workerInstances⟩,
    ⟨h.keys.jobs, h.keys.deadLetters, h.keys.schedules⟩⟩

theorem initializeRuntimeConfigTxn_agree (now : UtcTime) (default : RuntimeConfig) :
    Agree Same (Sqlite.initializeRuntimeConfigTxn now default)
      (Sqlite.initializeRuntimeConfigTxn now default) := by
  intro s t h
  unfold Sqlite.initializeRuntimeConfigTxn
  rw [← h.runtimeConfig]
  cases s.runtimeConfig with
  | none => exact .ok _ (h.config _)
  | some row => exact .ok _ h

theorem patchRuntimeConfigTxn_agree (now : UtcTime) (patch : RuntimeConfigPatch) :
    Agree Same (Sqlite.patchRuntimeConfigTxn now patch)
      (Sqlite.patchRuntimeConfigTxn now patch) := by
  intro s t h
  unfold Sqlite.patchRuntimeConfigTxn
  rw [Tx.bind_ok (Tx.get_run s), Tx.bind_ok (Tx.get_run t), ← h.runtimeConfig]
  cases s.runtimeConfig with
  | none => exact .error _
  | some row =>
    refine Outcomes.bind (Agree.ofExcept _ s t h) fun current s' t' _ => ?_
    refine Outcomes.bind (Agree.ofExcept _ s' t' ‹_›) fun updated s'' t'' _ => ?_
    exact .ok updated (h.config _)

theorem getRuntimeConfig_agree : AgreeConn Same Sqlite.getRuntimeConfig Sqlite.getRuntimeConfig := by
  intro s t h
  unfold Sqlite.getRuntimeConfig
  rw [← h.runtimeConfig]
  cases s.runtimeConfig <;> exact ⟨rfl, h⟩

theorem heartbeatWorkerTxn_agree (now : UtcTime) (id : String) (active busy : Nat) :
    Agree Same (Sqlite.heartbeatWorkerTxn now id active busy)
      (Sqlite.heartbeatWorkerTxn now id active busy) := by
  intro s t h
  refine .ok _ ⟨⟨h.jobs, h.jobAttempts, h.deadLetters, h.recurringSchedules, h.runtimeConfig, ?_⟩,
    ⟨h.keys.jobs, h.keys.deadLetters, h.keys.schedules⟩⟩
  dsimp only
  exact upsert_perm h.workerInstances

theorem workerRuntimeStatus_agree (now : UtcTime) (age : ℚ) :
    AgreeConn Same (Sqlite.workerRuntimeStatus now age) (Sqlite.workerRuntimeStatus now age) := by
  intro s t h
  unfold Sqlite.workerRuntimeStatus
  cases UtcTime.fromtimestamp (now.timestamp - age) with
  | none => exact ⟨rfl, h⟩
  | some cutoff =>
    have hp := h.workerInstances.filter fun r => toDbTime cutoff ≤ r.lastSeenAt
    refine ⟨?_, h⟩
    simp only [hp.length_eq, (hp.map _).sum_eq]

/-! ## Reading jobs and schedules -/

theorem getJob_agree (id : String) : AgreeConn Same (Sqlite.getJob deps id) (Sqlite.getJob deps id) := by
  refine AgreeConn.query fun s t h => ?_
  rw [h.job? id]

theorem getJobByIdempotencyKey_agree (key : String) :
    AgreeConn Same (Sqlite.getJobByIdempotencyKey deps key)
      (Sqlite.getJobByIdempotencyKey deps key) := by
  intro s t h
  unfold Sqlite.getJobByIdempotencyKey
  have hf : (s.jobs.find? fun r => r.idempotencyKey == some key) =
      t.jobs.find? fun r => r.idempotencyKey == some key := by
    refine find?_perm h.jobs fun a ha b hb hka hkb => ?_
    by_contra hne
    have : Std.Symm fun a b : JobRow => a.clash b = false := ⟨fun a b hab => by
      rw [JobRow.clash_comm]
      exact hab⟩
    have hc := h.keys.jobs.forall ha hb hne
    simp only [beq_iff_eq] at hka hkb
    simp [JobRow.clash, JobRow.sameKey, hka, hkb, sqlEq] at hc
  rw [hf]
  exact ⟨rfl, h⟩

theorem getSchedule_agree (id : String) :
    AgreeConn Same (Sqlite.getSchedule deps id) (Sqlite.getSchedule deps id) := by
  refine AgreeConn.query fun s t h => ?_
  rw [h.schedule? id]

theorem queueDepth_agree (now : UtcTime) :
    AgreeConn Same (Sqlite.queueDepth now) (Sqlite.queueDepth now) := by
  refine AgreeConn.query fun s t h => ?_
  have hc : Sqlite.statusCount s = Sqlite.statusCount t := by
    funext status
    exact h.jobs.countP_eq _
  have hd : Sqlite.dueCount now s = Sqlite.dueCount now t := h.jobs.countP_eq _
  simp only [Sqlite.queueDepthOf, hc, hd]

/-! ## Submission -/

theorem lookupKey_agree (fp key : String) :
    AgreeConn Same (Sqlite.lookupKey deps fp key) (Sqlite.lookupKey deps fp key) := by
  refine (getJobByIdempotencyKey_agree key).bind fun existing => ?_
  cases existing with
  | none => exact AgreeConn.pure none
  | some job =>
    dsimp only
    split
    · exact AgreeConn.raise _
    · exact AgreeConn.pure _

theorem relookupKey_agree (fp key : String) :
    AgreeConn Same (Sqlite.relookupKey deps fp key) (Sqlite.relookupKey deps fp key) := by
  refine (getJobByIdempotencyKey_agree key).bind fun existing => ?_
  cases existing with
  | none => exact AgreeConn.raise _
  | some job =>
    dsimp only
    split
    · exact AgreeConn.pure _
    · exact AgreeConn.raise _

theorem insertOrFind_agree (now : UtcTime) (id : String) (request : JobCreate) (m : Nat) (t : ℚ)
    (key : Option String) :
    AgreeConn Same (Sqlite.insertOrFind deps now id request m t key)
      (Sqlite.insertOrFind deps now id request m t key) := by
  refine (AgreeConn.attempt (AgreeConn.run (insertJob_agree _))).bind fun outcome => ?_
  cases outcome with
  | ok u => exact getJob_agree id
  | error e =>
    cases e with
    | integrity =>
      cases key with
      | none => exact AgreeConn.raise _
      | some k =>
        dsimp only
        split
        · exact relookupKey_agree _ k
        · exact AgreeConn.raise _
    | _ => exact AgreeConn.raise _

theorem createJob_agree (now : UtcTime) (id : String) (request : JobCreate) (m : Nat) (t : ℚ)
    (key : Option String) :
    AgreeConn Same (Sqlite.createJob deps now id request m t key)
      (Sqlite.createJob deps now id request m t key) := by
  unfold Sqlite.createJob
  cases key with
  | none => exact insertOrFind_agree now id request m t none
  | some k =>
    dsimp only
    split
    · refine (lookupKey_agree _ k).bind fun existing => ?_
      cases existing with
      | none => exact insertOrFind_agree now id request m t (some k)
      | some job => exact AgreeConn.pure _
    · exact insertOrFind_agree now id request m t (some k)

theorem insertJobs_agree : ∀ rows : List JobRow,
    Agree Same (Sqlite.insertJobs rows) (Sqlite.insertJobs rows)
  | [] => Agree.pure ()
  | row :: rows => (insertJob_agree row).bind fun _ => insertJobs_agree rows

theorem createJobsBatch_agree (now : UtcTime) (uuids : Nat → String) (requests : List JobCreate)
    (m : Nat) (t : ℚ) :
    AgreeConn Same (Sqlite.createJobsBatch deps now uuids requests m t)
      (Sqlite.createJobsBatch deps now uuids requests m t) := by
  unfold Sqlite.createJobsBatch
  split
  · exact AgreeConn.pure []
  · exact (AgreeConn.run (insertJobs_agree _)).bind fun _ => AgreeConn.pure _

theorem Postgres.createJobsBatch_eq :
    Postgres.createJobsBatch deps = Sqlite.createJobsBatch deps := by
  funext now uuids requests m t
  unfold Postgres.createJobsBatch Sqlite.createJobsBatch
  simp only [Postgres.batchRows_eq, Postgres.insertJobs_eq]

/-! ## Schedules -/

theorem createSchedule_agree (now : UtcTime) (id : String) (request : ScheduleCreate) (m : Nat)
    (t : ℚ) :
    AgreeConn Same (Sqlite.createSchedule deps now id request m t)
      (Sqlite.createSchedule deps now id request m t) := by
  refine AgreeConn.bind (AgreeConn.run ?_) fun _ => getSchedule_agree id
  exact (Agree.ofExcept _).bind fun next => insertSchedule_agree _

/-- Where the update finds no row there is no schedule to read. -/
theorem Postgres.setScheduleEnabled_eq :
    Postgres.setScheduleEnabled deps = Sqlite.setScheduleEnabled deps := by
  funext now id enabled s
  have hget : Sqlite.getSchedule deps id s = (.ok ((s.schedule? id).map (scheduleFromRow deps)), s) :=
    rfl
  show (Sqlite.getSchedule deps id >>= _) s = (Sqlite.getSchedule deps id >>= _) s
  rw [Conn.bind_ok hget, Conn.bind_ok hget]
  cases hrow : s.schedule? id with
  | none => rfl
  | some row =>
    dsimp only [Option.map_some]
    rw [show Postgres.patchedNextRun deps = Sqlite.patchedNextRun deps from rfl]
    cases Sqlite.patchedNextRun deps now (scheduleFromRow deps row) enabled with
    | error e => rfl
    | ok next =>
      have hn : s.recurringSchedules.countP (·.id == id) ≠ 0 := by
        obtain ⟨hmem, hid⟩ := lookup_some hrow
        exact (List.countP_pos_iff.2 ⟨row, hmem, by simpa using hid⟩).ne'
      show _ = (if _ = 0 then _ else _ : Repo (Option Schedule)) _
      rw [if_neg hn]
      rfl

theorem setScheduleEnabled_agree (now : UtcTime) (id : String) (enabled : Bool) :
    AgreeConn Same (Sqlite.setScheduleEnabled deps now id enabled)
      (Sqlite.setScheduleEnabled deps now id enabled) := by
  refine (getSchedule_agree id).bind fun current => ?_
  cases current with
  | none => exact AgreeConn.pure none
  | some current =>
    dsimp only
    cases Sqlite.patchedNextRun deps now current enabled with
    | error e => exact AgreeConn.raise e
    | ok next =>
      refine AgreeConn.bind (AgreeConn.run (updateSchedule_agree id fun _ => rfl)) fun rowcount => ?_
      split
      · exact AgreeConn.pure none
      · exact getSchedule_agree id

theorem deleteSchedule_agree (id : String) :
    AgreeConn Same (Sqlite.deleteSchedule id) (Sqlite.deleteSchedule id) :=
  (AgreeConn.run (deleteScheduleRow_agree id)).bind fun _ => AgreeConn.pure _

/-! ## The materializer -/

theorem materializeRows_agree {now : UtcTime} {uuids : Nat → String} : ∀ (rows : List ScheduleRow)
    (i n : Nat), Agree Same (Sqlite.materializeRows deps now uuids i n rows)
      (Sqlite.materializeRows deps now uuids i n rows)
  | [], _, n => Agree.pure n
  | row :: rows, i, n => by
    refine (insertJobOrIgnore_agree _).bind fun changes => (Agree.ofExcept _).bind fun next => ?_
    refine Agree.bind (updateSchedule_agree row.id ?_) fun _ => materializeRows_agree rows (i + 1) _
    exact fun _ => rfl

theorem dueOrder_ties {l : List ScheduleRow} (h : NoTies (·.nextRunAt) l) :
    ∀ a ∈ l, ∀ b ∈ l, dueOrder a b = true → dueOrder b a = true → a = b := by
  intro a ha b hb hab hba
  simp only [dueOrder, decide_eq_true_eq] at hab hba
  exact h a ha b hb (le_antisymm hab hba)

/-- Without ties both engines see the due schedules in the same order. -/
theorem dueSchedules_agree (h : Same s t) {now : UtcTime} {limit : Nat}
    (hties : NoTies (·.nextRunAt)
      (s.recurringSchedules.filter fun r => r.enabled && r.nextRunAt ≤ toDbTime now)) :
    Sqlite.dueSchedules now limit s = Postgres.dueSchedules (fun _ => false) now limit t := by
  unfold Sqlite.dueSchedules Postgres.dueSchedules
  simp only [Bool.not_false, Bool.and_true]
  rw [orderBy_eq_of_perm ?_ ?_ (dueOrder_ties hties) (h.recurringSchedules.filter _)]
  · intro a b
    simp only [dueOrder, decide_eq_true_eq]
    exact le_total _ _
  · intro a b c
    simp only [dueOrder, decide_eq_true_eq]
    exact le_trans

theorem materializeDueSchedules_agree (h : Same s t) {now : UtcTime} {uuids : Nat → String}
    {limit : Nat} (hties : NoTies (·.nextRunAt)
      (s.recurringSchedules.filter fun r => r.enabled && r.nextRunAt ≤ toDbTime now))
    (hfresh : FreshIds uuids 0 limit s) :
    Outcomes Same (Sqlite.materializeDueSchedulesTxn deps now uuids limit s)
      (Postgres.materializeDueSchedulesTxn deps (fun _ => false) now uuids limit t) := by
  unfold Sqlite.materializeDueSchedulesTxn Postgres.materializeDueSchedulesTxn
  rw [Tx.bind_ok (Tx.get_run s), Tx.bind_ok (Tx.get_run t), dueSchedules_agree h hties]
  have hfresh' : FreshIds uuids 0 limit t :=
    ⟨fun k hk hkn o ho => hfresh.new k hk hkn o (h.jobs.mem_iff.2 ho), hfresh.inj⟩
  have hlen : (Postgres.dueSchedules (fun _ => false) now limit t).length ≤ limit :=
    List.length_take_le _ _
  rw [Postgres.materializeRows_eq _ hfresh' (by omega)]
  exact materializeRows_agree _ 0 0 s t h

/-! ## Claims -/

theorem claimOrder_ties {l : List JobRow} (h : NoTies JobRow.claimKey l) :
    ∀ a ∈ l, ∀ b ∈ l, claimOrder a b = true → claimOrder b a = true → a = b := by
  intro a ha b hb hab hba
  rw [claimOrder_iff] at hab hba
  refine h a ha b hb ?_
  obtain ⟨hp, hab⟩ : a.priority = b.priority ∧
      (a.runAt < b.runAt ∨ a.runAt = b.runAt ∧ a.createdAt ≤ b.createdAt) := by
    rcases hab with hlt | hab
    · rcases hba with hlt' | ⟨hp, -⟩ <;> omega
    · exact hab
  have hba' : b.runAt < a.runAt ∨ b.runAt = a.runAt ∧ b.createdAt ≤ a.createdAt := by
    rcases hba with hlt | ⟨-, hba⟩
    · omega
    · exact hba
  obtain ⟨hr, hc⟩ : a.runAt = b.runAt ∧ a.createdAt = b.createdAt := by
    rcases hab with hlt | ⟨hr, hc⟩
    · rcases hba' with hlt' | ⟨hr, -⟩
      · exact absurd hlt (lt_asymm hlt')
      · exact absurd hr.symm hlt.ne
    · rcases hba' with hlt' | ⟨-, hc'⟩
      · exact absurd hr.symm hlt'.ne
      · exact ⟨hr, le_antisymm hc hc'⟩
  simp only [JobRow.claimKey, hp, hr, hc]

/-- The guarded update and the second `SELECT` of one class, and the `RETURNING` of the other. -/
theorem claimNextJob_agree (h : Same s t) {now : UtcTime} {w : String}
    (hties : NoTies JobRow.claimKey
      (s.jobs.filter fun r => r.status = .queued && r.runAt ≤ toDbTime now)) :
    Outcomes Same (Sqlite.claimNextJobTxn deps now w s)
      (Postgres.claimNextJobTxn deps (fun _ => false) now w t) := by
  unfold Sqlite.claimNextJobTxn Postgres.claimNextJobTxn
  rw [Tx.bind_ok (Tx.get_run s), Tx.bind_ok (Tx.get_run t)]
  simp only [Bool.not_false, Bool.and_true]
  rw [orderBy_eq_of_perm claimOrder_total claimOrder_trans (claimOrder_ties hties)
    (h.jobs.filter _)]
  generalize hhead : List.head? _ = first
  cases first with
  | none => exact .ok none h
  | some row =>
    obtain ⟨hrow', hdue⟩ := List.mem_filter.1 (head_orderBy_mem hhead)
    have hrow := h.jobs.mem_iff.2 hrow'
    simp only [Bool.and_eq_true, decide_eq_true_eq] at hdue
    obtain ⟨hs, -⟩ := updateJobs_row h.keys.nodup hrow (f := (·.claimed w (toDbTime now)))
      (p := fun r => r.id == row.id && r.status = .queued) (fun r hr => by simp at hr; exact hr.1)
      (by simp [hdue.1])
    obtain ⟨-, ht⟩ := updateJobs_row h.right.keys.nodup hrow' (f := (·.claimed w (toDbTime now)))
      (p := fun r => r.id == row.id) (fun r hr => by simpa using hr) (by simp)
    show Outcomes Same ((updateJobs _ (·.claimed w (toDbTime now)) >>= _) s)
      ((updateJobsReturning _ (·.claimed w (toDbTime now)) >>= _) t)
    rw [Tx.bind_ok hs, Tx.bind_ok ht]
    show Outcomes Same ((selectJob row.id >>= _) _) _
    rw [Tx.bind_ok (selectJob_updated h.keys.nodup hrow rfl (f := (·.claimed w (toDbTime now)))
      fun _ => rfl)]
    exact .ok _ (h.updateJobs fun _ => rfl)

/-! ## Completions -/

/-- The guarded `UPDATE` of one job, with a row count on one side and `RETURNING` on the other. -/
theorem guarded_cases (h : Same s t) {k : String} {p : JobRow → Bool} {f : JobRow → JobRow}
    (hp : ∀ r, p r = true → r.id = k) :
    (updateJobs p f s = .ok (0, s) ∧ updateJobsReturning p f t = .ok ([], t)) ∨
      ∃ row ∈ s.jobs, row.id = k ∧
        updateJobs p f s = .ok (1, { s with jobs := updateWhere (·.id == k) f s.jobs }) ∧
        updateJobsReturning p f t =
          .ok ([f row], { t with jobs := updateWhere (·.id == k) f t.jobs }) := by
  rcases updateJobs_key h.keys.nodup hp (f := f) with ⟨hs, -⟩ | ⟨row, hrow, hid, hpr, hs, -⟩
  · rcases updateJobs_key h.right.keys.nodup hp (f := f) with ⟨-, ht, -⟩ | ⟨row, hrow, -, hpr, -, -⟩
    · exact .inl ⟨hs, ht⟩
    · have hc : s.jobs.countP p = 0 := congrArg Prod.fst (Except.ok.inj hs)
      rw [countP_zero_iff.1 hc row (h.jobs.mem_iff.2 hrow)] at hpr
      cases hpr
  · obtain ⟨-, ht⟩ := updateJobs_row h.right.keys.nodup (h.jobs.mem_iff.1 hrow) (f := f)
      (fun r hr => (hp r hr).trans hid.symm) hpr
    rw [hid] at ht
    exact .inr ⟨row, hrow, hid, hs, ht⟩

/-- The SQLite completions: the transaction, or the current row when the lease is gone. -/
def orCurrent (deps : Deps) (x : Body (Option Job)) (jobId : String) : Repo (Option Job) := do
  match ← Conn.run x with
  | some job => pure (some job)
  | none => Sqlite.getJob deps jobId

theorem orCurrent_gone (h : Same s t) {x y : Body (Option Job)} {id : String}
    (hx : x s = .ok (none, s)) (hy : y t = .ok ((t.job? id).map (jobFromRow deps), t)) :
    (orCurrent deps x id s).1 = (Conn.run y t).1 ∧
      Same (orCurrent deps x id s).2 (Conn.run y t).2 := by
  have hxs : Conn.run x s = (.ok none, s) := atomically_ok hx
  have hyt : Conn.run y t = (.ok ((t.job? id).map (jobFromRow deps)), t) := atomically_ok hy
  unfold orCurrent
  rw [Conn.bind_ok hxs, hyt]
  exact getJob_agree id s t h

theorem orCurrent_held (h : Same s t) {x y : Body (Option Job)} {id : String}
    (hsome : ∀ s', x s ≠ .ok (none, s')) (hout : Outcomes Same (x s) (y t)) :
    (orCurrent deps x id s).1 = (Conn.run y t).1 ∧
      Same (orCurrent deps x id s).2 (Conn.run y t).2 := by
  unfold orCurrent
  rw [Conn.bind_run, Conn.run_run, Conn.run_run]
  unfold atomically
  generalize x s = xs at hout hsome
  generalize y t = yt at hout
  cases hout with
  | @ok a s' t' h' =>
    cases a with
    | none => exact absurd rfl (hsome s')
    | some j => exact ⟨rfl, h'⟩
  | error e => exact ⟨rfl, h⟩

theorem bind_some_ne {z : Body Unit} {j : Job} {s₁ : Store} (s' : Store) :
    (z >>= fun _ => pure (some j) : Body (Option Job)) s₁ ≠ .ok (none, s') := by
  intro hx
  obtain ⟨u, s₂, -, hp⟩ := Tx.bind_eq_ok.1 hx
  cases hp

/-- Reading the job after statements on other tables. -/
theorem selectJob_after {z : Body Unit} {id : String} {r : JobRow} {s₁ : Store}
    (hz : ∀ u s', z s₁ = .ok (u, s') → s'.jobs = s₁.jobs) (hr : s₁.job? id = some r) :
    (z >>= fun _ => selectJob id >>= fun row => pure (row.map (jobFromRow deps))) s₁ =
      (z >>= fun _ => pure (some (jobFromRow deps r))) s₁ := by
  rw [Tx.bind_run, Tx.bind_run]
  cases hx : z s₁ with
  | error e => rfl
  | ok p =>
    obtain ⟨u, s'⟩ := p
    have hr' : s'.job? id = some r := by
      unfold Store.job?
      rw [hz u s' hx]
      exact hr
    have hsel : selectJob id s' = .ok (some r, s') := by
      unfold selectJob
      rw [hr']
    show (selectJob id >>= _) s' = _
    rw [Tx.bind_ok hsel]
    rfl

/-- A completion that holds the lease: after the update the SQLite class inserts, reads the job again
and returns it; the Postgres class inserts and returns the updated row. -/
theorem completion_held (h : Same s t) {x y : Body (Option Job)} (zs zt : Body Unit) {id : String}
    {row : JobRow} (f : JobRow → JobRow) (hrow : row ∈ s.jobs) (hid : row.id = id)
    (hf : ∀ r, (f r).fixed = r.fixed) (hz : ∀ {s u s'}, zs s = .ok (u, s') → s'.jobs = s.jobs)
    (hagree : ∀ js, Agree (SameJobs js) zs zt)
    (hx : x s = (zs >>= fun _ => selectJob id >>= fun r => pure (r.map (jobFromRow deps)))
      { s with jobs := updateWhere (·.id == id) f s.jobs })
    (hy : y t = (zt >>= fun _ => pure (some (jobFromRow deps (f row))))
      { t with jobs := updateWhere (·.id == id) f t.jobs }) :
    (orCurrent deps x id s).1 = (Conn.run y t).1 ∧
      Same (orCurrent deps x id s).2 (Conn.run y t).2 := by
  have hjob : Store.job? { s with jobs := updateWhere (·.id == id) f s.jobs } id =
      some (f row) := by
    have hsel := selectJob_updated h.keys.nodup hrow hid (f := f) fun r => JobRow.id_eq (hf r)
    exact congrArg Prod.fst (Except.ok.inj hsel)
  have hx' := hx.trans (selectJob_after (fun u s' hu => hz hu) hjob)
  refine orCurrent_held h ?_ ?_
  · intro s'
    rw [hx']
    exact bind_some_ne s'
  · rw [hx', hy]
    exact (Agree.of_jobs hagree).bind (fun _ => Agree.pure _) _ _ (h.updateJobs hf)

theorem insertAttempt_jobs {a : AttemptRow} {u : Unit} (hx : insertAttempt a s = .ok (u, s')) :
    s'.jobs = s.jobs := by
  rw [(insertAttempt_ok hx).2]

theorem replaceDeadLetter_jobs {d : DeadLetterRow} {u : Unit}
    (hx : replaceDeadLetter d s = .ok (u, s')) : s'.jobs = s.jobs := by
  unfold replaceDeadLetter at hx
  split at hx
  · cases hx
  · cases hx
    rfl

theorem markSucceeded_agree (now : UtcTime) (id w : String) (n : Nat) (startedAt : UtcTime)
    (result : List (String × Json)) :
    AgreeConn Same (Sqlite.markSucceeded deps now id w n startedAt result)
      (Postgres.markSucceeded deps now id w n startedAt result) := by
  intro s t h
  have hguard : ∀ r : JobRow, (r.id == id && decide (r.status = .running) &&
      sqlEq r.lockedBy (some w)) = true → r.id = id := fun r hr => (lease_guard.1 hr).1
  rcases guarded_cases h hguard (f := succeededUpdate (deps.dumps (.obj result)) n (toDbTime now))
    with ⟨hs, ht⟩ | ⟨row, hrow, hid, hs, ht⟩
  · refine orCurrent_gone h ?_ ?_
    · unfold Sqlite.markSucceededTxn
      rw [Tx.bind_ok (Tx.get_run s)]
      show (updateJobs _ (succeededUpdate _ n (toDbTime now)) >>= _) s = _
      rw [Tx.bind_ok hs, if_pos rfl]
      rfl
    · unfold Postgres.markSucceededTxn
      show (updateJobsReturning _ (succeededUpdate _ n (toDbTime now)) >>= _) t = _
      rw [Tx.bind_ok ht]
      rfl
  · refine completion_held h
      (insertAttempt ⟨id, n, w, .succeeded, toDbTime startedAt, toDbTime now, none⟩) (insertAttempt _)
      (succeededUpdate (deps.dumps (.obj result)) n (toDbTime now)) hrow hid (fun _ => rfl)
      insertAttempt_jobs (fun js => insertAttempt_agree js _) ?_ ?_
    · unfold Sqlite.markSucceededTxn
      rw [Tx.bind_ok (Tx.get_run s)]
      show (updateJobs _ (succeededUpdate _ n (toDbTime now)) >>= _) s = _
      rw [Tx.bind_ok hs, if_neg Nat.one_ne_zero]
    · unfold Postgres.markSucceededTxn
      show (updateJobsReturning _ (succeededUpdate _ n (toDbTime now)) >>= _) t = _
      rw [Tx.bind_ok ht]
      rfl

/-- The statements of a failed attempt on the other tables. -/
theorem failed_inserts_agree {a : AttemptRow} {d : DeadLetterRow} (p : Prop) [Decidable p]
    (js : List JobRow) :
    Agree (SameJobs js) (insertAttempt a >>= fun _ => if p then pure () else replaceDeadLetter d)
      (insertAttempt a >>= fun _ => if p then pure () else upsertDeadLetter d) := by
  refine (insertAttempt_agree js a).bind fun _ => ?_
  split
  · exact Agree.pure ()
  · exact deadLetter_agree js d

theorem failed_inserts_jobs {a : AttemptRow} {d : DeadLetterRow} {p : Prop} [Decidable p] {u : Unit}
    (hx : (insertAttempt a >>= fun _ => if p then pure () else replaceDeadLetter d : Body Unit) s =
      .ok (u, s')) : s'.jobs = s.jobs := by
  obtain ⟨_, s₁, ha, hd⟩ := Tx.bind_eq_ok.1 hx
  refine Eq.trans ?_ (insertAttempt_jobs ha)
  split at hd
  · cases hd
    rfl
  · exact replaceDeadLetter_jobs hd

theorem markFailedAttempt_agree (now : UtcTime) (job : Job) (w : String) (n : Nat)
    (startedAt : UtcTime) (error : String) (timedOut : Bool) (backoff : ℚ) :
    AgreeConn Same (Sqlite.markFailedAttempt deps now job w n startedAt error timedOut backoff)
      (Postgres.markFailedAttempt deps now job w n startedAt error timedOut backoff) := by
  intro s t h
  have hguard : ∀ r : JobRow, (r.id == job.id && decide (r.status = .running) &&
      sqlEq r.lockedBy (some w)) = true → r.id = job.id := fun r hr => (lease_guard.1 hr).1
  cases hrun : UtcTime.fromtimestamp
      (if decide (n ≤ job.maxRetries) = true then now.timestamp + backoff else now.timestamp) with
  | none =>
    refine orCurrent_held h (fun s' hx => ?_) ?_
    · dsimp only [Sqlite.markFailedAttemptTxn] at hx
      rw [hrun] at hx
      cases hx
    · dsimp only [Sqlite.markFailedAttemptTxn, Postgres.markFailedAttemptTxn]
      rw [hrun]
      exact .error _
  | some runAt =>
    rcases guarded_cases h hguard (f := failedUpdate (decide (n ≤ job.maxRetries)) n error
      (toDbTime runAt) (toDbTime now)) with ⟨hs, ht⟩ | ⟨row, hrow, hid, hs, ht⟩
    · refine orCurrent_gone h ?_ ?_
      · dsimp only [Sqlite.markFailedAttemptTxn]
        rw [hrun]
        dsimp only
        rw [Tx.bind_ok (Tx.ofExcept_ok runAt s), Tx.bind_ok (Tx.get_run s)]
        show (updateJobs _ (failedUpdate _ n error (toDbTime runAt) (toDbTime now)) >>= _) s = _
        rw [Tx.bind_ok hs, if_pos rfl]
        rfl
      · dsimp only [Postgres.markFailedAttemptTxn]
        rw [hrun]
        dsimp only
        rw [Tx.bind_ok (Tx.ofExcept_ok runAt t)]
        show (updateJobsReturning _ (failedUpdate _ n error (toDbTime runAt) (toDbTime now)) >>= _) t = _
        rw [Tx.bind_ok ht]
        rfl
    · refine completion_held h _ _
        (failedUpdate (decide (n ≤ job.maxRetries)) n error (toDbTime runAt) (toDbTime now)) hrow hid
        (fun _ => rfl) failed_inserts_jobs
        (fun js => @failed_inserts_agree ⟨job.id, n, w, if timedOut then .timedOut else .failed,
          toDbTime startedAt, toDbTime now, some error⟩
          ⟨job.id, deps.dumps job.payload, some error, n, toDbTime now⟩
          (decide (n ≤ job.maxRetries) = true) _ js) ?_ ?_
      · dsimp only [Sqlite.markFailedAttemptTxn]
        rw [hrun]
        dsimp only
        rw [Tx.bind_ok (Tx.ofExcept_ok runAt s), Tx.bind_ok (Tx.get_run s)]
        show (updateJobs _ (failedUpdate _ n error (toDbTime runAt) (toDbTime now)) >>= _) s = _
        rw [Tx.bind_ok hs, if_neg Nat.one_ne_zero, Tx.bind_assoc]
        refine congrFun (congrArg (insertAttempt _ >>= ·) (funext fun _ => ?_)) _
        exact Tx.ite_bind _ fun _ => selectJob job.id >>= fun r => pure (r.map (jobFromRow deps))
      · dsimp only [Postgres.markFailedAttemptTxn]
        rw [hrun]
        dsimp only
        rw [Tx.bind_ok (Tx.ofExcept_ok runAt t)]
        show (updateJobsReturning _ (failedUpdate _ n error (toDbTime runAt) (toDbTime now)) >>= _) t = _
        rw [Tx.bind_ok ht, Tx.bind_assoc]
        refine congrFun (congrArg (insertAttempt _ >>= ·) (funext fun _ => ?_)) _
        exact Tx.ite_bind _ fun _ => pure (some (jobFromRow deps _))

/-! ## The reaper -/

/-- The two versions of an iteration agree when their inserts do. -/
theorem reap_agree {ins ins' : DeadLetterRow → Body Unit} {now : UtcTime} {grace : ℚ} {row : JobRow}
    (h : Agree Same (reapInserts ins now row) (reapInserts ins' now row)) :
    Agree Same (reap ins now grace row) (reap ins' now grace row) := by
  unfold reap
  split
  · exact Agree.pure 0
  · refine Agree.bind (updateJobs_agree fun _ => rfl) fun rowcount => ?_
    split
    · exact Agree.pure 0
    · exact h.bind fun _ => Agree.pure 1

theorem reapInserts_agree (now : UtcTime) (row : JobRow) :
    Agree Same (reapInserts replaceDeadLetter now row) (reapInserts upsertDeadLetter now row) :=
  Agree.of_jobs fun js => failed_inserts_agree _ js

theorem reapInserts_self (now : UtcTime) (row : JobRow) :
    Agree Same (reapInserts replaceDeadLetter now row) (reapInserts replaceDeadLetter now row) := by
  refine Agree.of_jobs fun js => (insertAttempt_agree js _).bind fun _ => ?_
  split
  · exact Agree.pure ()
  · exact replaceDeadLetter_agree js _

/-- The dead letters after an iteration. -/
def reapedDeadLetters (now : UtcTime) (row : JobRow) (ds : List DeadLetterRow) :
    List DeadLetterRow :=
  if decide (row.attemptCount + 1 ≤ row.maxRetries) = true then ds
  else insertOrReplace DeadLetterRow.clash (reapDeadLetter now row) ds

/-- The store after an iteration that recovers a job. -/
def reaped (now : UtcTime) (row : JobRow) (s : Store) : Store :=
  { s with
    jobs := updateWhere (reapGuard row) (reapUpdate now row) s.jobs
    jobAttempts := s.jobAttempts ++ [reapAttempt now row]
    deadLetters := reapedDeadLetters now row s.deadLetters }

/-- The iteration leaves the job alone. -/
def Skipped (now : UtcTime) (grace : ℚ) (row : JobRow) (s : Store) : Prop :=
  Sqlite.leaseAlive now grace row = true ∨ s.jobs.countP (reapGuard row) = 0

instance (now : UtcTime) (grace : ℚ) (row : JobRow) : Decidable (Skipped now grace row s) := by
  unfold Skipped
  infer_instance

theorem reapInserts_eq (now : UtcTime) (row : JobRow)
    (hfk : s.jobs.any (·.id == row.id) = true) :
    reapInserts replaceDeadLetter now row s =
      if s.jobAttempts.any (reapAttempt now row).clash then .error .integrity
      else .ok ((), { s with jobAttempts := s.jobAttempts ++ [reapAttempt now row]
                             deadLetters := reapedDeadLetters now row s.deadLetters }) := by
  unfold reapInserts
  have hfk' : s.jobs.any (·.id == (reapAttempt now row).jobId) = true := hfk
  by_cases hclash : s.jobAttempts.any (reapAttempt now row).clash = true
  · rw [if_pos hclash]
    refine Tx.bind_error ?_
    unfold insertAttempt
    rw [if_pos (by simp only [hclash, Bool.true_or])]
  · rw [if_neg hclash]
    have hins : insertAttempt (reapAttempt now row) s =
        .ok ((), { s with jobAttempts := s.jobAttempts ++ [reapAttempt now row] }) := by
      unfold insertAttempt
      rw [if_neg (by simp [hclash, hfk'])]
    rw [Tx.bind_ok hins]
    unfold reapedDeadLetters
    split
    · rfl
    · unfold replaceDeadLetter
      have hd : s.jobs.any (·.id == (reapDeadLetter now row).jobId) = true := hfk
      rw [if_neg (by simp [hd])]

/-- What one iteration does. -/
theorem reap_eq (now : UtcTime) (grace : ℚ) (row : JobRow) (s : Store) :
    reap replaceDeadLetter now grace row s =
      if Skipped now grace row s then .ok (0, s)
      else if s.jobAttempts.any (reapAttempt now row).clash then .error .integrity
      else .ok (1, reaped now row s) := by
  unfold reap
  by_cases ha : Sqlite.leaseAlive now grace row = true
  · have hskip : Skipped now grace row s := .inl ha
    rw [if_pos ha, if_pos hskip]
    rfl
  rw [if_neg ha]
  have hupd : updateJobs (reapGuard row) (reapUpdate now row) s = .ok (s.jobs.countP (reapGuard row),
      { s with jobs := updateWhere (reapGuard row) (reapUpdate now row) s.jobs }) := rfl
  rw [Tx.bind_ok hupd]
  by_cases hc : s.jobs.countP (reapGuard row) = 0
  · have hskip : Skipped now grace row s := .inr hc
    rw [if_pos hskip, if_pos hc, updateWhere_eq_self (countP_zero_iff.1 hc)]
    rfl
  have hskip : ¬ Skipped now grace row s := not_or.2 ⟨ha, hc⟩
  rw [if_neg hskip, if_neg hc, Tx.bind_run]
  -- the guard matched a row with this id, so the foreign key holds
  have hfk : (updateWhere (reapGuard row) (reapUpdate now row) s.jobs).any (·.id == row.id) = true := by
    obtain ⟨o, ho, hg⟩ := List.countP_pos_iff.1 (Nat.pos_of_ne_zero hc)
    refine List.any_eq_true.2 ⟨_, mem_updateWhere.2 ⟨o, ho, rfl⟩, ?_⟩
    rw [if_pos hg]
    simpa [reapUpdate, failedUpdate] using (reaper_guard row hg).1
  rw [reapInserts_eq now row hfk]
  by_cases hclash : s.jobAttempts.any (reapAttempt now row).clash = true
  · rw [if_pos hclash, if_pos hclash]
  · rw [if_neg hclash, if_neg hclash]
    rfl

/-! Iterations on different jobs. -/

theorem reapGuard_ne {a b r : JobRow} (hne : a.id ≠ b.id) (now : UtcTime) (hg : reapGuard a r = true) :
    reapGuard b r = false ∧ reapGuard b (reapUpdate now a r) = false := by
  have hid : r.id = a.id := (reaper_guard a hg).1
  constructor
  · simp [reapGuard, hid, hne]
  · simp [reapGuard, reapUpdate, failedUpdate, hid, hne]

theorem skipped_reaped {a b : JobRow} (hne : a.id ≠ b.id) {now : UtcTime} {grace : ℚ} :
    Skipped now grace b (reaped now a s) ↔ Skipped now grace b s := by
  unfold Skipped reaped
  have hc : (updateWhere (reapGuard a) (reapUpdate now a) s.jobs).countP (reapGuard b) =
      s.jobs.countP (reapGuard b) := by
    unfold updateWhere
    rw [List.countP_map]
    refine List.countP_congr fun r _ => ?_
    simp only [Function.comp_apply]
    by_cases hg : reapGuard a r = true
    · obtain ⟨h1, h2⟩ := reapGuard_ne hne now hg
      simp [hg, h1, h2]
    · simp [hg]
  rw [hc]

theorem clash_reaped {a b : JobRow} (hne : a.id ≠ b.id) {now : UtcTime} :
    (reaped now a s).jobAttempts.any (reapAttempt now b).clash =
      s.jobAttempts.any (reapAttempt now b).clash := by
  simp [reaped, reapAttempt, AttemptRow.clash, hne.symm]

theorem Keys.reaped (hk : Keys s) (now : UtcTime) (row : JobRow) : Keys (reaped now row s) := by
  refine ⟨jobs_update_pairwise hk.jobs fun _ => rfl, ?_, hk.schedules⟩
  show ((reapedDeadLetters now row s.deadLetters).map (·.jobId)).Nodup
  unfold reapedDeadLetters
  split
  · exact hk.deadLetters
  · exact replaced_nodup hk _

theorem reapedDeadLetters_comm {a b : JobRow} (hne : a.id ≠ b.id) (now : UtcTime)
    (ds : List DeadLetterRow) :
    (reapedDeadLetters now b (reapedDeadLetters now a ds)).Perm
      (reapedDeadLetters now a (reapedDeadLetters now b ds)) := by
  unfold reapedDeadLetters
  by_cases ha : decide (a.attemptCount + 1 ≤ a.maxRetries) = true
  · simp only [ha, if_true, List.Perm.refl]
  · by_cases hb : decide (b.attemptCount + 1 ≤ b.maxRetries) = true
    · simp only [hb, if_true, List.Perm.refl]
    · rw [if_neg ha, if_neg ha, if_neg hb, if_neg hb]
      refine insertOrReplace_comm ?_ ?_
      · simp [reapDeadLetter, DeadLetterRow.clash, hne.symm]
      · simp [reapDeadLetter, DeadLetterRow.clash, hne]

theorem reaped_comm {a b : JobRow} (hne : a.id ≠ b.id) {now : UtcTime} (hk : Keys s) :
    Same (reaped now b (reaped now a s)) (reaped now a (reaped now b s)) where
  jobs := List.Perm.of_eq (updateWhere_comm (fun _ hg => reapGuard_ne hne.symm now hg)
    fun _ hg => reapGuard_ne hne now hg)
  jobAttempts := by
    show (s.jobAttempts ++ [_] ++ [_]).Perm (s.jobAttempts ++ [_] ++ [_])
    rw [List.append_assoc, List.append_assoc]
    exact (List.Perm.swap _ _ _).append_left _
  deadLetters := reapedDeadLetters_comm hne now s.deadLetters
  recurringSchedules := .refl _
  runtimeConfig := rfl
  workerInstances := .refl _
  keys := (hk.reaped now a).reaped now b

/-- What two iterations do. -/
theorem inTurn_reap {a b : JobRow} (hne : a.id ≠ b.id) (now : UtcTime) (grace : ℚ) (s : Store) :
    inTurn (reap replaceDeadLetter now grace a) (reap replaceDeadLetter now grace b) s =
      if Skipped now grace a s then reap replaceDeadLetter now grace b s
      else if s.jobAttempts.any (reapAttempt now a).clash then .error .integrity
      else if Skipped now grace b s then .ok (1, reaped now a s)
      else if s.jobAttempts.any (reapAttempt now b).clash then .error .integrity
      else .ok (2, reaped now b (reaped now a s)) := by
  unfold inTurn
  have ha := reap_eq now grace a s
  by_cases hskip : Skipped now grace a s
  · rw [if_pos hskip] at ha ⊢
    rw [Tx.bind_ok ha, Tx.bind_run]
    cases reap replaceDeadLetter now grace b s with
    | error e => rfl
    | ok p => simp
  · rw [if_neg hskip] at ha ⊢
    by_cases hclash : s.jobAttempts.any (reapAttempt now a).clash = true
    · rw [if_pos hclash] at ha ⊢
      exact Tx.bind_error ha
    · rw [if_neg hclash] at ha ⊢
      rw [Tx.bind_ok ha, Tx.bind_run, reap_eq now grace b (reaped now a s), clash_reaped hne]
      simp only [skipped_reaped hne]
      by_cases hskip' : Skipped now grace b s
      · rw [if_pos hskip', if_pos hskip']
        rfl
      · rw [if_neg hskip', if_neg hskip']
        by_cases hclash' : s.jobAttempts.any (reapAttempt now b).clash = true
        · rw [if_pos hclash', if_pos hclash']
        · rw [if_neg hclash', if_neg hclash']
          rfl

/-- Two iterations, in either order. -/
theorem reap_comm {a b : JobRow} (hne : a.id ≠ b.id) {now : UtcTime} {grace : ℚ} (hk : Keys s) :
    Outcomes Same
      (inTurn (reap replaceDeadLetter now grace a) (reap replaceDeadLetter now grace b) s)
      (inTurn (reap replaceDeadLetter now grace b) (reap replaceDeadLetter now grace a) s) := by
  rw [inTurn_reap hne, inTurn_reap hne.symm, reap_eq now grace a s, reap_eq now grace b s]
  by_cases ha : Skipped now grace a s
  · rw [if_pos ha, if_pos ha]
    by_cases hb : Skipped now grace b s
    · rw [if_pos hb, if_pos hb]
      exact .ok 0 ⟨.refl s, hk⟩
    · rw [if_neg hb, if_neg hb]
      by_cases hcb : s.jobAttempts.any (reapAttempt now b).clash = true
      · rw [if_pos hcb, if_pos hcb]
        exact .error _
      · rw [if_neg hcb, if_neg hcb, if_pos ha]
        exact .ok 1 ⟨.refl _, hk.reaped now b⟩
  · rw [if_neg ha, if_neg ha]
    by_cases hca : s.jobAttempts.any (reapAttempt now a).clash = true
    · rw [if_pos hca, if_pos hca]
      split
      · exact .error _
      · split
        · exact .error _
        · exact .error _
    · rw [if_neg hca]
      by_cases hb : Skipped now grace b s
      · rw [if_pos hb, if_pos hb, if_neg hca]
        exact .ok 1 ⟨.refl _, hk.reaped now a⟩
      · rw [if_neg hb, if_neg hb]
        by_cases hcb : s.jobAttempts.any (reapAttempt now b).clash = true
        · rw [if_pos hcb, if_pos hcb]
          exact .error _
        · rw [if_neg hcb, if_neg hcb, if_neg ha, if_neg hca]
          exact .ok 2 (reaped_comm hne hk)

/-- The rows that the reaper reads may come in any order. -/
theorem recoverStaleJobs_agree (now : UtcTime) (grace : ℚ) :
    Agree Same (Sqlite.recoverStaleJobsTxn now grace)
      (Postgres.recoverStaleJobsTxn (fun _ => false) now grace) := by
  intro s t h
  unfold Sqlite.recoverStaleJobsTxn Postgres.recoverStaleJobsTxn
  rw [Tx.bind_ok (Tx.get_run s), Tx.bind_ok (Tx.get_run t), Sqlite.recoverRows_eq,
    Postgres.recoverRows_eq]
  simp only [Bool.not_false, Bool.and_true]
  have hids : ((s.jobs.filter fun r => r.status = .running && r.lockedAt.isSome).map (·.id)).Nodup :=
    h.keys.nodup.sublist (List.filter_sublist.map _)
  have hp := h.jobs.filter fun r => r.status = .running && r.lockedAt.isSome
  generalize s.jobs.filter _ = rows at hids hp ⊢
  generalize t.jobs.filter _ = rows' at hp ⊢
  have hperm : Agree Same (total (reap replaceDeadLetter now grace) 0 rows)
      (total (reap replaceDeadLetter now grace) 0 rows') := by
    refine total_perm (fun _ _ _ h h' => h.trans h') (fun _ _ h => h.right) hp hids.of_map ?_ ?_ 0
    · exact fun row _ => reap_agree (reapInserts_self now row)
    · intro a ha b hb hab s' hs'
      refine reap_comm (fun hid => hab ?_) hs'.keys
      exact List.inj_on_of_nodup_map hids ha hb hid
  refine (hperm s t h).trans (fun _ _ _ h h' => h.trans h') ?_
  exact Agree.total (fun row _ => reap_agree (reapInserts_agree now row)) 0 t t h.right

/-! ## Cancellation -/

theorem cancelJob_agree (now : UtcTime) (id : String) :
    AgreeConn Same (Sqlite.cancelJob deps now id) (Sqlite.cancelJob deps now id) := by
  refine AgreeConn.bind (AgreeConn.run (updateJobs_agree ?_)) fun _ => getJob_agree id
  exact fun _ => rfl

theorem drainQueue_agree (now : UtcTime) :
    AgreeConn Same (Sqlite.drainQueue now) (Sqlite.drainQueue now) := by
  refine AgreeConn.run (updateJobs_agree ?_)
  exact fun _ => rfl

/-! ## Sessions -/

theorem valued_agree {α : Type} {f : α → Value} {x y : Repo α}
    (h : (x s).1 = (y t).1 ∧ Same (x s).2 (y t).2) :
    (valued f x s).1 = (valued f y t).1 ∧ Same (valued f x s).2 (valued f y t).2 := by
  obtain ⟨h1, h2⟩ := h
  unfold valued
  rw [Conn.bind_run, Conn.bind_run]
  rcases hxs : x s with ⟨a, s'⟩
  rcases hyt : y t with ⟨b, t'⟩
  rw [hxs, hyt] at h1 h2
  obtain rfl : a = b := h1
  cases a with
  | ok a => exact ⟨rfl, h2⟩
  | error e => exact ⟨rfl, h2⟩

theorem method_agree (m : Method) (h : Same s t) (hm : m.Regular s) :
    (m.sqlite deps s).1 = (m.postgres deps t).1 ∧ Same (m.sqlite deps s).2 (m.postgres deps t).2 := by
  cases m with
  | initializeRuntimeConfig now c =>
    refine valued_agree ?_
    unfold Postgres.initializeRuntimeConfig
    rw [Postgres.initializeRuntimeConfigTxn_eq]
    refine AgreeConn.bind (AgreeConn.run (initializeRuntimeConfigTxn_agree now c)) ?_ s t h
    exact fun _ => getRuntimeConfig_agree
  | getRuntimeConfig => exact valued_agree (getRuntimeConfig_agree s t h)
  | patchRuntimeConfig now p =>
    refine valued_agree ?_
    unfold Postgres.patchRuntimeConfig
    rw [Postgres.patchRuntimeConfigTxn_eq]
    exact AgreeConn.run (patchRuntimeConfigTxn_agree now p) s t h
  | heartbeatWorker now id active busy =>
    exact valued_agree (AgreeConn.run (heartbeatWorkerTxn_agree now id active busy) s t h)
  | workerRuntimeStatus now age => exact valued_agree (workerRuntimeStatus_agree now age s t h)
  | createJob now id request m timeout key =>
    exact valued_agree (createJob_agree now id request m timeout key s t h)
  | createJobsBatch now uuids requests m timeout =>
    refine valued_agree ?_
    rw [Postgres.createJobsBatch_eq]
    exact createJobsBatch_agree now uuids requests m timeout s t h
  | getJob id => exact valued_agree (getJob_agree id s t h)
  | getJobByIdempotencyKey key => exact valued_agree (getJobByIdempotencyKey_agree key s t h)
  | createSchedule now id request m timeout =>
    exact valued_agree (createSchedule_agree now id request m timeout s t h)
  | getSchedule id => exact valued_agree (getSchedule_agree id s t h)
  | setScheduleEnabled now id enabled =>
    refine valued_agree ?_
    rw [Postgres.setScheduleEnabled_eq]
    exact setScheduleEnabled_agree now id enabled s t h
  | deleteSchedule id => exact valued_agree (deleteSchedule_agree id s t h)
  | materializeDueSchedules now uuids limit =>
    exact valued_agree ((materializeDueSchedules_agree h hm.1 hm.2).run h)
  | claimNextJob now w => exact valued_agree ((claimNextJob_agree h hm).run h)
  | markSucceeded now id w n startedAt result =>
    exact valued_agree (markSucceeded_agree now id w n startedAt result s t h)
  | markFailedAttempt now job w n startedAt error timedOut backoff =>
    exact valued_agree
      (markFailedAttempt_agree now job w n startedAt error timedOut backoff s t h)
  | recoverStaleJobs now grace =>
    exact valued_agree (AgreeConn.run (recoverStaleJobs_agree now grace) s t h)
  | cancelJob now id => exact valued_agree (cancelJob_agree now id s t h)
  | drainQueue now => exact valued_agree (drainQueue_agree now s t h)
  | queueDepth now => exact valued_agree (queueDepth_agree now s t h)

/-- Sessions with the same methods on stores with the same rows. -/
theorem session_agree {ms : List Method} : ∀ {s s' t t' : Store} {vs vs' : List (Except Err Value)},
    Same s t → Session deps .sqlite s ms vs s' → Session deps .postgres t ms vs' t' →
    vs = vs' ∧ s'.Reordered t' := by
  induction ms with
  | nil =>
    intro s s' t t' vs vs' h hs ht
    cases hs with
    | nil hr =>
      cases ht with
      | nil hr' => exact ⟨rfl, hr.symm.trans (h.toReordered.trans hr')⟩
  | cons m ms ih =>
    intro s s' t t' vs vs' h hs ht
    cases hs with
    | cons hr hm hs =>
      cases ht with
      | cons hr' _ ht =>
        have h₁ := Same.mk (hr.symm.trans (h.toReordered.trans hr')) (h.keys.reordered hr)
        obtain ⟨hv, h₂⟩ := @method_agree deps _ _ m h₁ hm
        obtain ⟨hvs, hend⟩ := ih h₂ hs ht
        exact ⟨congrArg₂ List.cons hv hvs, hend⟩

end

/-- Equal values or the same errors at every step, and at the end the same rows. -/
theorem repositories_equivalent (deps : Deps) (ms : List Method) (vs vs' : List (Except Err Value))
    (s t : Store) (hs : Session deps .sqlite Store.empty ms vs s)
    (ht : Session deps .postgres Store.empty ms vs' t) : vs = vs' ∧ s.Reordered t :=
  session_agree ⟨.refl _, Keys.empty⟩ hs ht

/-! A session in which no row moves, and one that ends with a dead letter. -/

/-- What the methods return, and the store after them. -/
def perform (deps : Deps) (engine : Engine) : Store → List Method → List (Except Err Value) × Store
  | s, [] => ([], s)
  | s, m :: ms =>
    let after := m.run deps engine s
    let rest := perform deps engine after.2 ms
    (after.1 :: rest.1, rest.2)

/-- Every method meets a regular store. -/
def RegularFrom (deps : Deps) (engine : Engine) : Store → List Method → Prop
  | _, [] => True
  | s, m :: ms => m.Regular s ∧ RegularFrom deps engine (m.run deps engine s).2 ms

theorem perform_session {deps : Deps} {engine : Engine} : ∀ {s : Store} {ms : List Method},
    RegularFrom deps engine s ms →
    Session deps engine s ms (perform deps engine s ms).1 (perform deps engine s ms).2
  | s, [], _ => .nil (.refl s)
  | s, _ :: _, h => .cons (.refl s) h.1 (perform_session h.2)

theorem NoTies.singleton {α κ : Type} (key : α → κ) (a : α) : NoTies key [a] := by
  intro x hx y hy _
  rw [List.mem_singleton.1 hx, List.mem_singleton.1 hy]

/-- Submitted without retries, claimed, and found expired. -/
def expiredSession : List Method :=
  [.createJobsBatch (sampleTime 0) (fun _ => "j") [sampleRequest] 0 1,
    .claimNextJob (sampleTime 1) "w", .recoverStaleJobs (sampleTime 100) 0,
    .queueDepth (sampleTime 101)]

theorem expiredSession_regular (engine : Engine) :
    RegularFrom sampleDeps engine Store.empty expiredSession := by
  refine ⟨trivial, ?_, trivial, trivial, trivial⟩
  cases engine <;> exact NoTies.singleton _ (Sqlite.batchRow sampleDeps (sampleTime 0) 0 1 "j" sampleRequest)

theorem repositories_equivalent_expired :
    (perform sampleDeps .sqlite Store.empty expiredSession).1 =
        (perform sampleDeps .postgres Store.empty expiredSession).1 ∧
      (perform sampleDeps .sqlite Store.empty expiredSession).2.Reordered
        (perform sampleDeps .postgres Store.empty expiredSession).2 :=
  repositories_equivalent sampleDeps expiredSession _ _ _ _
    (perform_session (expiredSession_regular .sqlite))
    (perform_session (expiredSession_regular .postgres))

/-- Both kinds of dead-letter insert have run. -/
example : (perform sampleDeps .postgres Store.empty expiredSession).2.deadLetters.map (·.jobId) =
    ["j"] := by decide +kernel

end PulseQueue
