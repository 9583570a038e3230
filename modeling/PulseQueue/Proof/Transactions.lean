import PulseQueue.Proof.Completions

/-!
# Transactions as steps

Every other transaction of the two repositories on a store that satisfies the schema: it makes steps
that change no existing job (`Mild`), or cancels queued jobs, except `claim_next_job`, which claims one
queued job and returns it as it then is, or does nothing (`Claims`).
-/

namespace PulseQueue

open Txn Table

/-- No existing job changes. -/
def Mild (k : Kind) : Prop := k = .submit ∨ k = .reorder

theorem mild_submit : Mild .submit := .inl rfl
theorem mild_reorder : Mild .reorder := .inr rfl

/-- A claim by `w` that returned `j`. -/
inductive Claims (deps : Deps) (w : String) (s : Store) : Option Job → Store → Prop
  | idle : Claims deps w s none s
  | took {r : JobRow} (t : DbTime) : r ∈ s.jobs → r.status = .queued →
      Claims deps w s (some (jobFromRow deps (r.claimed w t)))
        { s with jobs := updateWhere (·.id == r.id) (·.claimed w t) s.jobs }

/-- A claim at `now` takes a due job. -/
inductive Takes (deps : Deps) (now : UtcTime) (w : String) (s : Store) : Option Job → Store → Prop
  | idle : Takes deps now w s none s
  | took {r : JobRow} : r ∈ s.jobs → r.status = .queued → r.runAt ≤ toDbTime now →
      Takes deps now w s (some (jobFromRow deps (r.claimed w (toDbTime now))))
        { s with jobs := updateWhere (·.id == r.id) (·.claimed w (toDbTime now)) s.jobs }

theorem Takes.claims {deps : Deps} {now : UtcTime} {w : String} {s s' : Store} {j : Option Job}
    (h : Takes deps now w s j s') : Claims deps w s j s' := by
  cases h with
  | idle => exact .idle
  | took hr hq _ => exact .took _ hr hq

section
variable {deps : Deps} {s s' : Store}

/-! ## Tables that are not about jobs -/

theorem side_steps (hj : s'.jobs = s.jobs) (ha : s'.jobAttempts = s.jobAttempts)
    (hd : s'.deadLetters = s.deadLetters) (h : s'.SideOk deps) : Steps deps Mild s s' :=
  Steps.single mild_reorder (.side hj ha hd h)

/-- A change of the configuration only. -/
theorem config_steps (h : s.Ok deps) (c : Option ConfigRow) :
    Steps deps Mild s { s with runtimeConfig := c } :=
  side_steps rfl rfl rfl ⟨h.side.schedules, h.side.payloads, h.side.instances⟩

theorem insertSchedule_steps (h : s.Ok deps) {r : ScheduleRow} {u : Unit}
    (hp : ∃ v, r.payload = deps.dumps v) (hx : insertSchedule r s = .ok (u, s')) :
    Steps deps Mild s s' := by
  unfold insertSchedule at hx
  split at hx
  · cases hx
  · rename_i hc
    cases hx
    simp only [List.any_eq_true, beq_iff_eq, not_exists, not_and] at hc
    refine side_steps rfl rfl rfl ⟨?_, fun o ho => ?_, h.side.instances⟩
    · rw [List.map_append, List.nodup_append]
      refine ⟨h.side.schedules, by simp, fun x hx y hy => ?_⟩
      obtain ⟨o, ho, rfl⟩ := List.mem_map.1 hx
      rw [List.mem_singleton.1 hy]
      exact hc o ho
    · rcases List.mem_append.1 ho with ho | ho
      · exact h.side.payloads o ho
      · rw [List.mem_singleton.1 ho]
        exact hp

/-- An update of a schedule that assigns neither its id nor its payload. -/
theorem updateSchedule_steps (h : s.Ok deps) {id : String} {f : ScheduleRow → ScheduleRow} {n : Nat}
    (hx : updateSchedule id f s = .ok (n, s')) (hid : ∀ r, (f r).id = r.id)
    (hpay : ∀ r, (f r).payload = r.payload) : Steps deps Mild s s' := by
  cases hx
  refine side_steps rfl rfl rfl ⟨?_, fun o ho => ?_, h.side.instances⟩
  · rw [map_updateWhere fun r _ => hid r]
    exact h.side.schedules
  · obtain ⟨o', ho', rfl⟩ := mem_updateWhere.1 ho
    split
    · rw [hpay]
      exact h.side.payloads o' ho'
    · exact h.side.payloads o' ho'

theorem deleteScheduleRow_steps (h : s.Ok deps) {id : String} {n : Nat}
    (hx : deleteScheduleRow id s = .ok (n, s')) : Steps deps Mild s s' := by
  cases hx
  refine side_steps rfl rfl rfl ⟨?_, fun o ho => ?_, h.side.instances⟩
  · exact h.side.schedules.sublist (List.filter_sublist.map _)
  · exact h.side.payloads o (List.mem_filter.1 ho).1

/-! ## Submissions -/

theorem insertJob_steps {r : JobRow} {u : Unit} (hr : r.New deps)
    (hx : insertJob r s = .ok (u, s')) : Steps deps Mild s s' := by
  obtain ⟨hc, rfl⟩ := insertJob_ok hx
  exact Steps.single mild_submit (.submit hr hc)

/-- The row that a pass inserts for a due schedule. -/
theorem occurrenceRow_new (now : UtcTime) (id : String) {row : ScheduleRow}
    (hp : ∃ v, row.payload = deps.dumps v) : (Sqlite.occurrenceRow now id row).New deps :=
  ⟨rfl, rfl, rfl, rfl, rfl, rfl, rfl, hp⟩

/-! ## Cancellation -/

theorem cancel_steps (p : JobRow → Bool) (t : DbTime) {n : Nat}
    (hx : updateJobs (fun r => p r && r.status = .queued) (·.cancelled t) s = .ok (n, s')) :
    Steps deps (· = .cancel) s s' := by
  cases hx
  exact Steps.single (k := .cancel) rfl (.cancel p t)

/-! ## Claims -/

theorem head_orderBy_mem {α : Type} {le : α → α → Bool} {l : List α} {a : α}
    (h : (orderBy le l).head? = some a) : a ∈ l :=
  (orderBy_perm le l).mem_iff.1 (List.mem_of_head? h)

theorem Claims.steps {w : String} {j : Option Job} (h : Claims deps w s j s') :
    Steps deps (· = .claim w) s s' := by
  cases h with
  | idle => exact Steps.refl _
  | took t hr hq => exact Steps.single (k := .claim w) rfl (.claim w t hr hq)

end

/-! ## The loop of a pass -/

/-- The insert of an occurrence that may be there already. -/
def Occurs (r : JobRow) (s s' : Store) : Prop :=
  s' = s ∨ (∀ o ∈ s.jobs, r.clash o = false) ∧ s' = { s with jobs := s.jobs ++ [r] }

/-- Each iteration inserts the occurrence, or finds it, and moves the cursor. -/
inductive Materializes (now : UtcTime) (uuids : Nat → String) :
    Nat → List ScheduleRow → Store → Store → Prop
  | nil {i : Nat} {s : Store} : Materializes now uuids i [] s s
  | cons {i n : Nat} {row : ScheduleRow} {rows : List ScheduleRow} {s s₁ s₂ s' : Store}
      {next : UtcTime} : Occurs (Sqlite.occurrenceRow now (uuids i) row) s s₁ →
      updateSchedule row.id (fun r => { r with
        lastRunAt := some row.nextRunAt, nextRunAt := toDbTime next, updatedAt := toDbTime now })
        s₁ = .ok (n, s₂) →
      Materializes now uuids (i + 1) rows s₂ s' → Materializes now uuids i (row :: rows) s s'

theorem Materializes.steps {deps : Deps} {now : UtcTime} {uuids : Nat → String} {i : Nat}
    {rows : List ScheduleRow} {s s' : Store} (hm : Materializes now uuids i rows s s')
    (h : s.Ok deps) (hp : ∀ r ∈ rows, ∃ v, r.payload = deps.dumps v) : Steps deps Mild s s' := by
  induction hm with
  | nil => exact Steps.refl _
  | @cons i n row rows s s₁ s₂ s' next hins hupd _ ih =>
    obtain ⟨hrow, hrest⟩ := List.forall_mem_cons.1 hp
    have h1 : Steps deps Mild s s₁ := by
      rcases hins with rfl | ⟨hc, rfl⟩
      · exact Steps.refl _
      · exact Steps.single mild_submit (.submit (occurrenceRow_new now _ hrow) hc)
    have h2 := updateSchedule_steps (h1.ok h) hupd (fun _ => rfl) (fun _ => rfl)
    exact (h1.trans h2).trans (ih (h2.ok (h1.ok h)) hrest)

/-! ## SQLite -/

namespace Sqlite

variable {deps : Deps} {s s' : Store}

theorem createJobTxn_ok {now : UtcTime} {id : String} {request : JobCreate} {maxRetries : Nat}
    {timeout : ℚ} {key : Option String} {u : Unit}
    (hx : createJobTxn deps now id request maxRetries timeout key s = .ok (u, s')) :
    Steps deps Mild s s' :=
  insertJob_steps ⟨rfl, rfl, rfl, rfl, rfl, rfl, rfl, _, rfl⟩ hx

theorem mem_batchRows {now : UtcTime} {uuids : Nat → String} {maxRetries : Nat} {timeout : ℚ}
    {r : JobRow} : ∀ {requests : List JobCreate} {i : Nat},
      r ∈ batchRows deps now uuids maxRetries timeout i requests →
      ∃ request k, r = batchRow deps now maxRetries timeout (uuids k) request
  | [], _, hr => by cases hr
  | request :: _, i, hr => by
    rcases List.mem_cons.1 hr with rfl | hr
    · exact ⟨request, i, rfl⟩
    · exact mem_batchRows hr

/-- What one insert keeps, all of them keep. -/
theorem insertJobs_keeps {R : Store → Store → Prop} (hrefl : ∀ s, R s s)
    (htrans : ∀ {a b c}, R a b → R b c → R a c) : ∀ rows : List JobRow,
      (∀ row ∈ rows, Keeps R (insertJob row)) → Keeps R (insertJobs rows)
  | [], _ => Keeps.pure hrefl ()
  | _ :: rows, h => by
    obtain ⟨hrow, hrows⟩ := List.forall_mem_cons.1 h
    exact hrow.bind htrans fun _ => insertJobs_keeps hrefl htrans rows hrows

theorem batchRows_new {now : UtcTime} {uuids : Nat → String} {maxRetries : Nat} {timeout : ℚ}
    (requests : List JobCreate) (i : Nat) :
    ∀ r ∈ batchRows deps now uuids maxRetries timeout i requests, r.New deps := by
  intro r hr
  obtain ⟨request, k, rfl⟩ := mem_batchRows hr
  exact ⟨rfl, rfl, rfl, rfl, rfl, rfl, rfl, _, rfl⟩

theorem insertJobs_ok (rows : List JobRow) {u : Unit} (hn : ∀ r ∈ rows, r.New deps)
    (hx : insertJobs rows s = .ok (u, s')) : Steps deps Mild s s' :=
  insertJobs_keeps Steps.refl Steps.trans rows
    (fun row hrow _ _ _ h => insertJob_steps (hn row hrow) h) s u s' hx

theorem createScheduleTxn_ok (h : s.Ok deps) {now : UtcTime} {id : String}
    {request : ScheduleCreate} {maxRetries : Nat} {timeout : ℚ} {u : Unit}
    (hx : createScheduleTxn deps now id request maxRetries timeout s = .ok (u, s')) :
    Steps deps Mild s s' := by
  obtain ⟨next, s₀, hnext, hx⟩ := Tx.bind_eq_ok.1 hx
  obtain ⟨-, rfl⟩ := Tx.ofExcept_eq_ok.1 hnext
  exact insertSchedule_steps h ⟨_, rfl⟩ hx

theorem writeScheduleTxn_ok (h : s.Ok deps) {now next : UtcTime} {id : String} {enabled : Bool}
    {n : Nat} (hx : writeScheduleTxn now id enabled next s = .ok (n, s')) :
    Steps deps Mild s s' :=
  updateSchedule_steps h hx (fun _ => rfl) (fun _ => rfl)

theorem materializeRows_ok {now : UtcTime} {uuids : Nat → String} : ∀ (rows : List ScheduleRow)
    {s s' : Store} {i n m : Nat}, materializeRows deps now uuids i n rows s = .ok (m, s') →
    Materializes now uuids i rows s s'
  | [], _, _, _, _, _, hx => by
    cases hx
    exact .nil
  | row :: rows, s, s', i, n, m, hx => by
    obtain ⟨changes, s₁, hins, hx⟩ := Tx.bind_eq_ok.1 hx
    obtain ⟨next, s₂, hnext, hx⟩ := Tx.bind_eq_ok.1 hx
    obtain ⟨-, rfl⟩ := Tx.ofExcept_eq_ok.1 hnext
    obtain ⟨_, s₂, hupd, hx⟩ := Tx.bind_eq_ok.1 hx
    exact .cons ((insertJobOrIgnore_ok hins).imp And.right And.right) hupd (materializeRows_ok rows hx)

/-- The due schedules are rows of the table. -/
theorem mem_dueSchedules {now : UtcTime} {limit : Nat} {r : ScheduleRow}
    (hr : r ∈ dueSchedules now limit s) : r ∈ s.recurringSchedules :=
  (List.mem_filter.1 ((orderBy_perm _ _).mem_iff.1 (List.mem_of_mem_take hr))).1

theorem materializeDueSchedulesTxn_ok (h : s.Ok deps) {now : UtcTime} {uuids : Nat → String}
    {limit n : Nat} (hx : materializeDueSchedulesTxn deps now uuids limit s = .ok (n, s')) :
    Steps deps Mild s s' := by
  obtain ⟨begun, s₀, hget, hx⟩ := Tx.bind_eq_ok.1 hx
  cases hget
  exact (materializeRows_ok _ hx).steps h fun r hr => h.side.payloads r (mem_dueSchedules hr)

theorem claimNextJobTxn_takes (h : s.Ok deps) {now : UtcTime} {w : String} {j : Option Job}
    (hx : claimNextJobTxn deps now w s = .ok (j, s')) : Takes deps now w s j s' := by
  unfold claimNextJobTxn at hx
  obtain ⟨begun, s₀, hget, hx⟩ := Tx.bind_eq_ok.1 hx
  cases hget
  generalize hhead : List.head? _ = first at hx
  cases first with
  | none =>
    cases hx
    exact .idle
  | some row =>
    obtain ⟨hrow, hdue⟩ := List.mem_filter.1 (head_orderBy_mem hhead)
    simp only [Bool.and_eq_true, decide_eq_true_eq] at hdue
    obtain ⟨n, s₁, hupd, hx⟩ := Tx.bind_eq_ok.1 hx
    obtain ⟨r, s₂, hsel, hx⟩ := Tx.bind_eq_ok.1 hx
    cases hsel
    cases hx
    obtain ⟨h1, -⟩ := updateJobs_row h.nodup hrow (f := (·.claimed w (toDbTime now)))
      (p := fun r => r.id == row.id && r.status = .queued) (fun r hr => by simp at hr; exact hr.1)
      (by simp [hdue.1])
    cases h1.symm.trans hupd
    rw [job?_update s row.id (·.claimed w (toDbTime now)) (fun _ => rfl), if_pos rfl,
      h.job?_mem hrow]
    exact .took hrow hdue.1 hdue.2

theorem cancelJobTxn_ok {now : UtcTime} {id : String} {n : Nat}
    (hx : cancelJobTxn now id s = .ok (n, s')) : Steps deps (· = .cancel) s s' :=
  cancel_steps (·.id == id) (toDbTime now) hx

theorem drainQueueTxn_ok {now : UtcTime} {n : Nat} (hx : drainQueueTxn now s = .ok (n, s')) :
    Steps deps (· = .cancel) s s' := by
  refine cancel_steps (fun _ => true) (toDbTime now) (n := n) ?_
  simp only [Bool.true_and]
  exact hx

theorem initializeRuntimeConfigTxn_ok {now : UtcTime} {default : RuntimeConfig} {u : Unit}
    (hx : initializeRuntimeConfigTxn now default s = .ok (u, s')) :
    ∃ c, s' = { s with runtimeConfig := c } := by
  unfold initializeRuntimeConfigTxn at hx
  split at hx
  · cases hx
    exact ⟨s.runtimeConfig, rfl⟩
  · cases hx
    exact ⟨_, rfl⟩

theorem patchRuntimeConfigTxn_ok {now : UtcTime} {patch : RuntimeConfigPatch} {c : RuntimeConfig}
    (hx : patchRuntimeConfigTxn now patch s = .ok (c, s')) :
    ∃ c, s' = { s with runtimeConfig := c } := by
  unfold patchRuntimeConfigTxn at hx
  obtain ⟨begun, s₀, hget, hx⟩ := Tx.bind_eq_ok.1 hx
  cases hget
  generalize s.runtimeConfig = stored at hx
  cases stored with
  | none => cases hx
  | some row =>
    obtain ⟨current, s₀, h1, hx⟩ := Tx.bind_eq_ok.1 hx
    obtain ⟨-, rfl⟩ := Tx.ofExcept_eq_ok.1 h1
    obtain ⟨updated, s₁, h2, hx⟩ := Tx.bind_eq_ok.1 hx
    obtain ⟨-, rfl⟩ := Tx.ofExcept_eq_ok.1 h2
    obtain ⟨_, s₂, hset, hx⟩ := Tx.bind_eq_ok.1 hx
    cases hset
    cases hx
    exact ⟨_, rfl⟩

theorem heartbeatWorkerTxn_ok (h : s.Ok deps) {now : UtcTime} {id : String} {active busy : Nat}
    {u : Unit} (hx : heartbeatWorkerTxn now id active busy s = .ok (u, s')) :
    Steps deps Mild s s' := by
  cases hx
  refine side_steps rfl rfl rfl ⟨h.side.schedules, h.side.payloads, ?_⟩
  unfold upsert
  split
  · refine (congrArg List.Nodup (map_updateWhere ?_)).mpr h.side.instances
    exact fun _ _ => rfl
  · rename_i hc
    simp only [List.any_eq_true, beq_iff_eq, not_exists, not_and] at hc
    rw [List.map_append, List.nodup_append]
    refine ⟨h.side.instances, by simp, fun x hx y hy => ?_⟩
    obtain ⟨o, ho, rfl⟩ := List.mem_map.1 hx
    rw [List.mem_singleton.1 hy]
    exact fun he => hc o ho he.symm

end Sqlite

/-! ## Postgres -/

namespace Postgres

variable {deps : Deps} {s s' : Store}

/-! Bodies that are written as in the SQLite class. -/

theorem batchRows_eq {now : UtcTime} {uuids : Nat → String} {maxRetries : Nat} {timeout : ℚ} :
    ∀ (requests : List JobCreate) (i : Nat), batchRows deps now uuids maxRetries timeout i requests =
      Sqlite.batchRows deps now uuids maxRetries timeout i requests
  | [], _ => rfl
  | _ :: requests, i => congrArg (List.cons _) (batchRows_eq requests (i + 1))

theorem insertJobs_eq : ∀ rows : List JobRow, insertJobs rows = Sqlite.insertJobs rows
  | [] => rfl
  | row :: rows => by
    unfold insertJobs Sqlite.insertJobs
    rw [insertJobs_eq rows]

theorem initializeRuntimeConfigTxn_eq :
    initializeRuntimeConfigTxn = Sqlite.initializeRuntimeConfigTxn := by
  funext now default s
  unfold initializeRuntimeConfigTxn Sqlite.initializeRuntimeConfigTxn
  cases s.runtimeConfig <;> rfl

theorem patchRuntimeConfigTxn_eq : patchRuntimeConfigTxn = Sqlite.patchRuntimeConfigTxn := by
  funext now patch s
  unfold patchRuntimeConfigTxn Sqlite.patchRuntimeConfigTxn
  rw [Tx.bind_run, Tx.bind_run]
  dsimp only [Tx.get_run]
  cases s.runtimeConfig with
  | none => rfl
  | some row =>
    dsimp only
    cases RuntimeConfig.modelValidateJson row.configJson <;> rfl

/-! The others. -/

theorem materializeRows_ok {now : UtcTime} {uuids : Nat → String} : ∀ (rows : List ScheduleRow)
    {s s' : Store} {i n m : Nat}, materializeRows deps now uuids i n rows s = .ok (m, s') →
    Materializes now uuids i rows s s'
  | [], _, _, _, _, _, hx => by
    cases hx
    exact .nil
  | row :: rows, s, s', i, n, m, hx => by
    obtain ⟨rowcount, s₁, hins, hx⟩ := Tx.bind_eq_ok.1 hx
    obtain ⟨next, s₂, hnext, hx⟩ := Tx.bind_eq_ok.1 hx
    obtain ⟨-, rfl⟩ := Tx.ofExcept_eq_ok.1 hnext
    obtain ⟨_, s₂, hupd, hx⟩ := Tx.bind_eq_ok.1 hx
    exact .cons ((insertJobOnConflictDoNothing_ok hins).imp And.right And.right) hupd
      (materializeRows_ok rows hx)

theorem mem_dueSchedules {skipped : String → Bool} {now : UtcTime} {limit : Nat} {r : ScheduleRow}
    (hr : r ∈ dueSchedules skipped now limit s) : r ∈ s.recurringSchedules :=
  (List.mem_filter.1 ((orderBy_perm _ _).mem_iff.1 (List.mem_of_mem_take hr))).1

theorem materializeDueSchedulesTxn_ok (h : s.Ok deps) {skipped : String → Bool} {now : UtcTime}
    {uuids : Nat → String} {limit n : Nat}
    (hx : materializeDueSchedulesTxn deps skipped now uuids limit s = .ok (n, s')) :
    Steps deps Mild s s' := by
  obtain ⟨begun, s₀, hget, hx⟩ := Tx.bind_eq_ok.1 hx
  cases hget
  exact (materializeRows_ok _ hx).steps h fun r hr => h.side.payloads r (mem_dueSchedules hr)

theorem claimNextJobTxn_takes (h : s.Ok deps) {skipped : String → Bool} {now : UtcTime} {w : String}
    {j : Option Job} (hx : claimNextJobTxn deps skipped now w s = .ok (j, s')) :
    Takes deps now w s j s' := by
  unfold claimNextJobTxn at hx
  obtain ⟨begun, s₀, hget, hx⟩ := Tx.bind_eq_ok.1 hx
  cases hget
  generalize hhead : List.head? _ = first at hx
  cases first with
  | none =>
    cases hx
    exact .idle
  | some row =>
    obtain ⟨hrow, hdue⟩ := List.mem_filter.1 (head_orderBy_mem hhead)
    simp only [Bool.and_eq_true, decide_eq_true_eq] at hdue
    obtain ⟨updated, s₁, hupd, hx⟩ := Tx.bind_eq_ok.1 hx
    obtain ⟨-, h1⟩ := updateJobs_row h.nodup hrow (f := (·.claimed w (toDbTime now)))
      (p := fun r => r.id == row.id) (fun r hr => by simpa using hr) (by simp)
    cases h1.symm.trans hupd
    cases hx
    exact .took hrow hdue.1.1 hdue.1.2

end Postgres

end PulseQueue
