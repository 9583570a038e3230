import PulseQueue.Proof.Equivalence
import PulseQueue.Proof.Occurrences

/-!
# Enabling a schedule again

`set_schedule_enabled` computes the next run anew from the clock, also when the schedule is enabled
already. Such a redundant call changes nothing but `updated_at` exactly when the computed run is the
schedule's own next run (`setScheduleEnabled_iff`), which it never is while an occurrence is due. Runs
that differ only in redundant calls of this kind materialize the same occurrences: nothing in a
pass depends on `updated_at` (`Alike`, kept by every call).
-/

namespace PulseQueue

open Txn Trace Table

/-- The row up to its `updated_at`. -/
def ScheduleRow.untouched (r : ScheduleRow) : ScheduleRow := { r with updatedAt := r.createdAt }

/-- `UPDATE recurring_schedules SET updated_at = t WHERE id = S`. -/
def Store.touched (s : Store) (S : String) (t : DbTime) : Store :=
  { s with
    recurringSchedules := updateWhere (·.id == S) (fun r => { r with updatedAt := t })
      s.recurringSchedules }

/-- The occurrence of `S` at `t` has a job. -/
def Store.Materialized (s : Store) (S : String) (t : DbTime) : Prop :=
  ∃ j ∈ s.ofSchedule S, j.scheduledFor = some t

/-- The run that enabling computes at `now` is the next run of the row already. -/
def CursorKept (deps : Deps) (now : UtcTime) (row : ScheduleRow) : Prop :=
  row.enabled = true → ∀ next, nextCronRun deps row.cronExpression now = .ok next →
    next = parseDbTime row.nextRunAt

def Engine.setScheduleEnabled (deps : Deps) : Engine → UtcTime → String → Bool → Repo (Option Schedule)
  | .sqlite => Sqlite.setScheduleEnabled deps
  | .postgres => Postgres.setScheduleEnabled deps

/-- The `UPDATE` of a redundant call of `set_schedule_enabled` on `s`, whose schedule is `row`. -/
def RedundantWrite (deps : Deps) (s : Store) (op : Op) (now : UtcTime) (row : ScheduleRow) : Prop :=
  ∃ next, s.schedule? row.id = some row ∧
    Sqlite.patchedNextRun deps now (scheduleFromRow deps row) row.enabled = .ok next ∧
    op = .writeSchedule now row.id row.enabled next

section
variable {deps : Deps} {engine : Engine} {s s' : Store} {S : String} {row : ScheduleRow} {now : UtcTime}

/-! ## One call -/

/-- The rows with the id of a schedule are its row. -/
theorem Store.Ok.eq_schedule (h : s.Ok deps) (hrow : s.schedule? S = some row) {r : ScheduleRow}
    (hr : r ∈ s.recurringSchedules) (hid : (r.id == S) = true) : r = row := by
  have hfound : s.schedule? r.id = some r := lookup_of_mem h.side.schedules hr
  rw [beq_iff_eq.1 hid, hrow] at hfound
  exact (Option.some.inj hfound).symm

/-- The store after the `UPDATE` of `set_schedule_enabled`. -/
theorem writeSchedule_after (next : UtcTime) (v : Bool) :
    (Op.writeSchedule now S v next).after deps engine s = { s with
      recurringSchedules := updateWhere (·.id == S) (fun r =>
        { r with enabled := v, nextRunAt := toDbTime next, updatedAt := toDbTime now })
        s.recurringSchedules } := by
  cases engine <;> rfl

/-- The method reads, computes and writes. -/
theorem setScheduleEnabled_store (hrow : s.schedule? S = some row) (v : Bool) :
    (engine.setScheduleEnabled deps now S v s).2 =
      match Sqlite.patchedNextRun deps now (scheduleFromRow deps row) v with
      | .ok next => (Op.writeSchedule now S v next).after deps engine s
      | .error _ => s := by
  have heq : engine.setScheduleEnabled deps now S v s = Sqlite.setScheduleEnabled deps now S v s := by
    cases engine with
    | sqlite => rfl
    | postgres =>
      show Postgres.setScheduleEnabled deps now S v s = _
      rw [Postgres.setScheduleEnabled_eq]
  have hget : Sqlite.getSchedule deps S s = (.ok (some (scheduleFromRow deps row)), s) := by
    simp only [Sqlite.getSchedule, hrow, Option.map_some]
  rw [heq]
  cases hp : Sqlite.patchedNextRun deps now (scheduleFromRow deps row) v with
  | error e =>
    simp only [Sqlite.setScheduleEnabled, Conn.bind_run, hget, hp]
    rfl
  | ok next =>
    refine Eq.trans ?_ (writeSchedule_after next v).symm
    simp only [Sqlite.setScheduleEnabled, Conn.bind_run, hget, hp]
    -- the row count decides only what is returned
    show ((if _ = 0 then _ else _ : Repo (Option Schedule)) _).2 = _
    split <;> rfl

/-- Enabling computes, pausing keeps the run that it has read. -/
theorem patchedNextRun_kept : CursorKept deps now row ↔
    ∀ next, Sqlite.patchedNextRun deps now (scheduleFromRow deps row) row.enabled = .ok next →
      toDbTime next = row.nextRunAt := by
  unfold CursorKept Sqlite.patchedNextRun
  cases row.enabled with
  | true =>
    simp only [true_implies, if_true, scheduleFromRow]
    refine forall₂_congr fun next _ => ?_
    constructor
    · rintro rfl
      exact toDbTime_parse _
    · intro h
      rw [← h, parse_toDbTime]
  | false =>
    simp only [Bool.false_eq_true, false_implies, if_false, true_iff, scheduleFromRow]
    intro next h
    cases h
    exact toDbTime_parse _

/-- The write of a redundant call that keeps the next run. -/
theorem writeSchedule_touched (h : s.Ok deps) (hrow : s.schedule? S = some row) {next : UtcTime}
    (hnext : toDbTime next = row.nextRunAt) :
    (Op.writeSchedule now S row.enabled next).after deps engine s = s.touched S (toDbTime now) := by
  rw [writeSchedule_after, Store.touched]
  congr 1
  refine updateWhere_congr fun r hr hid => ?_
  rw [h.eq_schedule hrow hr hid, hnext]

theorem schedule?_updated {f : ScheduleRow → ScheduleRow} (hf : ∀ r, (f r).id = r.id)
    (hrow : s.schedule? S = some row) :
    Store.schedule? { s with recurringSchedules := updateWhere (·.id == S) f s.recurringSchedules } S =
      some (f row) := by
  have hid : row.id = S := (lookup_some hrow).2
  have hlookup : lookup ScheduleRow.id S (updateWhere (·.id == S) f s.recurringSchedules) =
      (s.schedule? S).map fun r => if r.id == S then f r else r :=
    lookup_updateWhere fun r _ => hf r
  show lookup ScheduleRow.id S _ = _
  rw [hlookup, hrow, Option.map_some, if_pos (beq_iff_eq.2 hid)]

/-- A redundant call changes nothing but `updated_at` exactly if it keeps the next run. -/
theorem setScheduleEnabled_iff (h : s.Ok deps) (hrow : s.schedule? S = some row) :
    (∃ t, (engine.setScheduleEnabled deps now S row.enabled s).2 = s.touched S t) ↔
      CursorKept deps now row := by
  rw [setScheduleEnabled_store hrow, patchedNextRun_kept]
  cases Sqlite.patchedNextRun deps now (scheduleFromRow deps row) row.enabled with
  | error e =>
    refine iff_of_true ⟨row.updatedAt, ?_⟩ nofun
    have hself : updateWhere (·.id == S) (fun r => { r with updatedAt := row.updatedAt })
        s.recurringSchedules = updateWhere (·.id == S) id s.recurringSchedules :=
      updateWhere_congr fun r hr hid => by
        rw [h.eq_schedule hrow hr hid]
        rfl
    rw [Store.touched, hself]
    simp [updateWhere]
  | ok next =>
    dsimp only
    constructor
    · rintro ⟨t, ht⟩ next' hnext'
      cases hnext'
      rw [writeSchedule_after] at ht
      have hwritten := schedule?_updated (f := fun r =>
        { r with enabled := row.enabled, nextRunAt := toDbTime next, updatedAt := toDbTime now })
        (fun _ => rfl) hrow
      have htouched := schedule?_updated (f := fun r => { r with updatedAt := t }) (fun _ => rfl) hrow
      rw [ht] at hwritten
      have he := Option.some.inj (hwritten.symm.trans htouched)
      exact congrArg ScheduleRow.nextRunAt he
    · intro hk
      exact ⟨_, writeSchedule_touched h hrow (hk next rfl)⟩

end

/-! ## Stores that are alike -/

/-- The same schedules up to `updated_at`, in the same order, with the same occurrences. -/
structure Alike (s s' : Store) : Prop where
  schedules : s.recurringSchedules.map ScheduleRow.untouched =
    s'.recurringSchedules.map ScheduleRow.untouched
  occurrences : ∀ S t, s.Materialized S t ↔ s'.Materialized S t

section
variable {deps : Deps} {engine : Engine} {s s' s₁ s₁' : Store} {S : String} {t : DbTime}
  {row row' : ScheduleRow} {now : UtcTime} {uuids : Nat → String}

theorem Alike.refl (s : Store) : Alike s s := ⟨rfl, fun _ _ => Iff.rfl⟩

theorem Alike.trans {s'' : Store} (h : Alike s s') (h' : Alike s' s'') : Alike s s'' :=
  ⟨h.schedules.trans h'.schedules, fun S t => (h.occurrences S t).trans (h'.occurrences S t)⟩

theorem materialized_iff : s.Materialized S t ↔
    some t ∈ ((s.ofSchedule S).map JobRow.fixed).map FixedColumns.scheduledFor := by
  simp [Store.Materialized, JobRow.fixed]

theorem materialized_of_jobs (hj : s₁.jobs = s.jobs) : s₁.Materialized S t ↔ s.Materialized S t := by
  rw [Store.Materialized, Store.Materialized, Store.ofSchedule, Store.ofSchedule, hj]

theorem SameSchedule.materialized (h : SameSchedule S s s₁) :
    s₁.Materialized S t ↔ s.Materialized S t := by
  rw [materialized_iff, materialized_iff]
  exact (h.jobs.map _).mem_iff

/-- Statements on the schedules only. -/
theorem Alike.of_jobs (h : Alike s s') (hj : s₁.jobs = s.jobs) (hj' : s₁'.jobs = s'.jobs)
    (hs : s₁.recurringSchedules.map ScheduleRow.untouched =
      s₁'.recurringSchedules.map ScheduleRow.untouched) : Alike s₁ s₁' :=
  ⟨hs, fun S t => ((materialized_of_jobs hj).trans (h.occurrences S t)).trans
    (materialized_of_jobs hj').symm⟩

/-- Statements on anything else. -/
theorem Alike.frame (h : Alike s s') (hf : Frame s s₁) (hf' : Frame s' s₁') : Alike s₁ s₁' := by
  refine ⟨by rw [hf.schedules, hf'.schedules, h.schedules], fun S t => ?_⟩
  exact ((hf.sameSchedule S).materialized.trans (h.occurrences S t)).trans
    (hf'.sameSchedule S).materialized.symm

/-- An iteration of the pass adds its occurrence. -/
theorem materialized_materialized {id : String} {next : UtcTime} :
    (s.materialized now id row next).Materialized S t ↔
      s.Materialized S t ∨ (S = row.id ∧ t = row.nextRunAt) := by
  have hfor (j : JobRow) (hj : j ∈ [Sqlite.occurrenceRow now id row]) :
      j.scheduledFor = some row.nextRunAt := by
    rw [List.mem_singleton.1 hj]
    rfl
  rw [Store.Materialized, ofSchedule_materialized]
  constructor
  · rintro ⟨j, hj, hjt⟩
    rcases List.mem_append.1 hj with hj | hj
    · exact .inl ⟨j, hj, hjt⟩
    · split at hj
      · rename_i hS
        right
        rw [hfor j hj] at hjt
        exact ⟨hS.1, (Option.some.inj hjt).symm⟩
      · cases hj
  · rintro (⟨j, hj, hjt⟩ | ⟨rfl, rfl⟩)
    · exact ⟨j, List.mem_append_left _ hj, hjt⟩
    · by_cases ho : s.Occurred row
      · obtain ⟨j, hj, hjt⟩ := ho
        exact ⟨j, List.mem_append_left _ hj, hjt⟩
      · rw [if_pos ⟨rfl, ho⟩]
        exact ⟨_, List.mem_append_right _ (List.mem_singleton_self _), rfl⟩

/-- Columns that `untouched` keeps. -/
theorem untouched_columns (h : row.untouched = row'.untouched) : row.id = row'.id ∧
    row.cronExpression = row'.cronExpression ∧ row.nextRunAt = row'.nextRunAt := by
  simp only [ScheduleRow.untouched, ScheduleRow.mk.injEq] at h
  simp [h]

theorem untouched_advanced {a b : ScheduleRow} (h : a.untouched = b.untouched)
    (hat : row.nextRunAt = row'.nextRunAt) (next : UtcTime) :
    (row.advanced next now a).untouched = (row'.advanced next now b).untouched := by
  simp only [ScheduleRow.untouched, ScheduleRow.mk.injEq] at h
  simp [ScheduleRow.untouched, ScheduleRow.advanced, h, hat]

theorem Alike.materialized (h : Alike s s') (hrow : row.untouched = row'.untouched) (id : String)
    (next : UtcTime) : Alike (s.materialized now id row next) (s'.materialized now id row' next) := by
  obtain ⟨hid, -, hat⟩ := untouched_columns hrow
  refine ⟨?_, fun S t => ?_⟩
  · refine updateWhere_map_congr (fun a b hab => ⟨?_, untouched_advanced hab hat next⟩) h.schedules
    rw [(untouched_columns hab).1, hid]
  · rw [materialized_materialized, materialized_materialized, h.occurrences, hid, hat]

theorem computable_untouched (hrow : row.untouched = row'.untouched) :
    Computable deps row ↔ Computable deps row' := by
  obtain ⟨-, hcron, hat⟩ := untouched_columns hrow
  rw [Computable, Computable, hcron, hat]

/-- The loop over alike rows raises in both stores, or leaves them alike. -/
theorem Alike.rows {rows rows' : List ScheduleRow} {i m m' n : Nat} (hf : FreshIds uuids i n s)
    (hf' : FreshIds uuids i n s') (hn : i + rows.length ≤ n)
    (hmap : rows.map ScheduleRow.untouched = rows'.map ScheduleRow.untouched) (h : Alike s s') :
    (∃ e e', Sqlite.materializeRows deps now uuids i m rows s = .error e ∧
      Sqlite.materializeRows deps now uuids i m' rows' s' = .error e') ∨
    ∃ k k' s₁ s₁', Sqlite.materializeRows deps now uuids i m rows s = .ok (k, s₁) ∧
      Sqlite.materializeRows deps now uuids i m' rows' s' = .ok (k', s₁') ∧ Alike s₁ s₁' := by
  induction rows generalizing rows' s s' i m m' with
  | nil =>
    rw [List.map_nil, eq_comm, List.map_eq_nil_iff] at hmap
    subst hmap
    exact .inr ⟨_, _, _, _, rfl, rfl, h⟩
  | cons row rows ih =>
    obtain ⟨row', rows', rfl, hrow, hrows⟩ := List.map_eq_cons_iff.1 hmap.symm
    rw [List.length_cons] at hn
    by_cases hc : Computable deps row
    · obtain ⟨-, hcron, hat⟩ := untouched_columns hrow
      obtain ⟨next, hnext⟩ := hc
      have hnext' : nextCronRun deps row'.cronExpression (parseDbTime row'.nextRunAt) = .ok next := by
        rw [hcron, hat]
        exact hnext
      rw [materializeRows_cons (hf.head (by omega)) hnext,
        materializeRows_cons (hf'.head (by omega)) hnext']
      exact ih (hf.materialized (by omega) now row next) (hf'.materialized (by omega) now row' next)
        (by omega) hrows.symm (h.materialized hrow.symm (uuids i) next)
    · left
      obtain ⟨e, he⟩ : ∃ e, Sqlite.materializeRows deps now uuids i m (row :: rows) s = .error e :=
        materializeRows_stuck hc
      obtain ⟨e', he'⟩ : ∃ e, Sqlite.materializeRows deps now uuids i m' (row' :: rows') s' = .error e :=
        materializeRows_stuck (mt (computable_untouched hrow).1 hc)
      exact ⟨e, e', he, he'⟩

/-- The due schedules of alike stores. -/
theorem Alike.due (h : Alike s s') (skipped : String → Bool) (limit : Nat) :
    (dueSchedules engine skipped now limit s).map ScheduleRow.untouched =
      (dueSchedules engine skipped now limit s').map ScheduleRow.untouched := by
  have hread (p : ScheduleRow → Bool) (hp : p ∘ ScheduleRow.untouched = p) (s : Store) :
      (((orderBy dueOrder (s.recurringSchedules.filter p)).take limit).map ScheduleRow.untouched) =
        (orderBy dueOrder ((s.recurringSchedules.map ScheduleRow.untouched).filter p)).take limit := by
    have hsort := @orderBy_map ScheduleRow ScheduleRow ScheduleRow.untouched dueOrder dueOrder
      fun _ _ => rfl
    rw [List.map_take, hsort, List.filter_map, hp]
  cases engine with
  | sqlite =>
    show List.map _ ((orderBy dueOrder _).take limit) = List.map _ ((orderBy dueOrder _).take limit)
    rw [hread _ rfl, hread _ rfl, h.schedules]
  | postgres =>
    show List.map _ ((orderBy dueOrder _).take limit) = List.map _ ((orderBy dueOrder _).take limit)
    rw [hread _ rfl, hread _ rfl, h.schedules]

/-! ## Calls -/

theorem Op.after_ok {op : Op} {r : Reply} (hx : op.body deps engine s = .ok (r, s₁)) :
    op.after deps engine s = s₁ := by
  rw [Op.after, atomically_ok hx]

theorem Op.after_error {op : Op} {e : Err} (hx : op.body deps engine s = .error e) :
    op.after deps engine s = s := by
  rw [Op.after, atomically_error hx]

/-- The store after a pass, from its loop. -/
theorem materialize_after {skipped : String → Bool} {limit : Nat} (hf : FreshIds uuids 0 limit s) :
    (Op.materialize skipped now uuids limit).after deps engine s =
      match Sqlite.materializeRows deps now uuids 0 0 (dueSchedules engine skipped now limit s) s with
      | .ok r => r.2
      | .error _ => s := by
  have hbody : (Op.materialize skipped now uuids limit).body deps engine s =
      reply .count (Sqlite.materializeRows deps now uuids 0 0
        (dueSchedules engine skipped now limit s)) s := materialize_body hf
  cases hx : Sqlite.materializeRows deps now uuids 0 0 (dueSchedules engine skipped now limit s) s with
  | ok r => exact Op.after_ok (hbody.trans (reply_ok.2 ⟨r.1, hx, rfl⟩))
  | error e => exact Op.after_error (hbody.trans (Tx.bind_error hx))

theorem Alike.materialize (h : Alike s s') {skipped : String → Bool} {limit : Nat}
    (hf : FreshIds uuids 0 limit s) (hf' : FreshIds uuids 0 limit s') :
    Alike ((Op.materialize skipped now uuids limit).after deps engine s)
      ((Op.materialize skipped now uuids limit).after deps engine s') := by
  have hlen : (dueSchedules engine skipped now limit s).length ≤ limit := length_dueSchedules
  have hrows : (∃ e e',
      Sqlite.materializeRows deps now uuids 0 0 (dueSchedules engine skipped now limit s) s = .error e ∧
      Sqlite.materializeRows deps now uuids 0 0 (dueSchedules engine skipped now limit s') s' = .error e') ∨
    ∃ k k' s₁ s₁',
      Sqlite.materializeRows deps now uuids 0 0 (dueSchedules engine skipped now limit s) s = .ok (k, s₁) ∧
      Sqlite.materializeRows deps now uuids 0 0 (dueSchedules engine skipped now limit s') s' =
        .ok (k', s₁') ∧ Alike s₁ s₁' :=
    Alike.rows hf hf' (by omega) (h.due skipped limit) h
  rw [materialize_after hf, materialize_after hf']
  rcases hrows with ⟨e, e', he, he'⟩ | ⟨k, k', s₁, s₁', hx, hx', h₁⟩
  · rw [he, he']
    exact h
  · rw [hx, hx']
    exact h₁

/-- The row of `create_schedule`. -/
def newSchedule (deps : Deps) (now : UtcTime) (S : String) (request : ScheduleCreate) (maxRetries : Nat)
    (timeoutSeconds : ℚ) (next : UtcTime) : ScheduleRow where
  id := S
  name := request.name
  cronExpression := request.cronExpression
  timezone := "UTC"
  payload := deps.dumps (.obj request.payload)
  priority := request.priority
  maxRetries := maxRetries
  timeoutSeconds := timeoutSeconds
  enabled := true
  nextRunAt := toDbTime next
  lastRunAt := none
  createdAt := toDbTime now
  updatedAt := toDbTime now

/-- What `create_schedule` does to the store. -/
theorem createSchedule_after {request : ScheduleCreate} {m : Nat} {q : ℚ} :
    (Op.createSchedule now S request m q).after deps engine s =
      match nextCronRun deps request.cronExpression now with
      | .error _ => s
      | .ok next =>
        if s.recurringSchedules.any (·.id == S) then s
        else { s with
          recurringSchedules := s.recurringSchedules ++ [newSchedule deps now S request m q next] } := by
  have hbody : (Op.createSchedule now S request m q).body deps engine s =
      reply (fun _ => .done) (Sqlite.createScheduleTxn deps now S request m q) s := by
    cases engine <;> rfl
  cases hn : nextCronRun deps request.cronExpression now with
  | error e =>
    refine Op.after_error (e := e) (hbody.trans (Tx.bind_error ?_))
    show (Tx.ofExcept (nextCronRun deps request.cronExpression now) >>= _) s = _
    rw [hn]
    rfl
  | ok next =>
    have hinsert : Sqlite.createScheduleTxn deps now S request m q s =
        insertSchedule (newSchedule deps now S request m q next) s := by
      show (Tx.ofExcept (nextCronRun deps request.cronExpression now) >>= _) s = _
      rw [hn]
      rfl
    dsimp only
    split
    · rename_i hclash
      refine Op.after_error (e := .integrity) (hbody.trans (Tx.bind_error ?_))
      rw [hinsert]
      exact if_pos hclash
    · rename_i hclash
      refine Op.after_ok (r := .done) (hbody.trans (reply_ok.2 ⟨(), ?_, rfl⟩))
      rw [hinsert]
      exact if_neg hclash

theorem Alike.createSchedule (h : Alike s s') {request : ScheduleCreate} {m : Nat} {q : ℚ} :
    Alike ((Op.createSchedule now S request m q).after deps engine s)
      ((Op.createSchedule now S request m q).after deps engine s') := by
  have hids (s : Store) : s.recurringSchedules.any (·.id == S) =
      (s.recurringSchedules.map ScheduleRow.untouched).any (·.id == S) := by
    rw [List.any_map]
    rfl
  rw [createSchedule_after, createSchedule_after, hids s, hids s', h.schedules]
  cases nextCronRun deps request.cronExpression now with
  | error e => exact h
  | ok next =>
    dsimp only
    split
    · exact h
    · exact h.of_jobs rfl rfl (by rw [List.map_append, List.map_append, h.schedules])

theorem Alike.writeSchedule (h : Alike s s') {v : Bool} {next : UtcTime} :
    Alike ((Op.writeSchedule now S v next).after deps engine s)
      ((Op.writeSchedule now S v next).after deps engine s') := by
  rw [writeSchedule_after, writeSchedule_after]
  refine h.of_jobs rfl rfl (updateWhere_map_congr (fun a b hab => ⟨?_, ?_⟩) h.schedules)
  · rw [(untouched_columns hab).1]
  · simp only [ScheduleRow.untouched, ScheduleRow.mk.injEq] at hab
    simp [ScheduleRow.untouched, hab]

theorem deleteSchedule_after : (Op.deleteSchedule S).after deps engine s =
    { s with recurringSchedules := s.recurringSchedules.filter fun r => !(r.id == S) } := by
  cases engine <;> rfl

theorem Alike.deleteSchedule (h : Alike s s') :
    Alike ((Op.deleteSchedule S).after deps engine s) ((Op.deleteSchedule S).after deps engine s') := by
  have hids (s : Store) : (s.recurringSchedules.filter fun r => !(r.id == S)).map
      ScheduleRow.untouched =
        (s.recurringSchedules.map ScheduleRow.untouched).filter fun r => !(r.id == S) := by
    rw [List.filter_map]
    rfl
  rw [deleteSchedule_after, deleteSchedule_after]
  exact h.of_jobs rfl rfl (by rw [hids, hids, h.schedules])

/-- A call that is not about schedules, also if it raises. -/
theorem Sound.frame_after {h : History Event Store} (hs : Sound deps h) {op : Op} (ha : Allowed h op)
    (hop : op.onSchedules = false) : Frame (present h) (op.after deps engine (present h)) := by
  rcases atomically_cases (op.body deps engine) (present h) with ⟨r, s₁, hx, -⟩ | ⟨e, hx, -⟩
  · rw [Op.after_ok hx]
    exact hs.frame ha hop hx
  · rw [Op.after_error hx]
    exact Frame.refl _

/-- The same call on alike stores leaves them alike. -/
theorem Alike.call {h h' : History Event Store} (hs : Sound deps h) (hs' : Sound deps h') {op : Op}
    (ha : Allowed h op) (ha' : Allowed h' op) {out out' : Except Err Reply}
    (hf : Event.Fresh h (.call op out)) (hf' : Event.Fresh h' (.call op out'))
    (hal : Alike (present h) (present h')) :
    Alike (op.after deps engine (present h)) (op.after deps engine (present h')) := by
  cases hop : op.onSchedules with
  | false => exact hal.frame (hs.frame_after ha hop) (hs'.frame_after ha' hop)
  | true =>
    cases op with
    | createSchedule now id request m t => exact hal.createSchedule
    | writeSchedule now id enabled next => exact hal.writeSchedule
    | deleteSchedule id => exact hal.deleteSchedule
    | materialize skipped now uuids limit => exact hal.materialize hf hf'
    | _ => cases hop

end

/-! ## Runs with and without redundant calls -/

/-- The same happens in two runs: the call of an operation, its abortion, or a new order of the rows,
the same for the schedules. -/
inductive SameEvent : Entry Event Store → Entry Event Store → Prop
  | call {op : Op} {out out' : Except Err Reply} {s s' : Store} :
      SameEvent ⟨.call op out, s⟩ ⟨.call op out', s'⟩
  | abort {op : Op} {s s' : Store} : SameEvent ⟨.abort op, s⟩ ⟨.abort op, s'⟩
  | reorder {s s' : Store} : s.recurringSchedules.map ScheduleRow.untouched =
      s'.recurringSchedules.map ScheduleRow.untouched → SameEvent ⟨.reorder, s⟩ ⟨.reorder, s'⟩

/-- The second history is the first one without some redundant calls of `set_schedule_enabled`, which
meet the condition `C`. -/
inductive Without (deps : Deps) (C : UtcTime → ScheduleRow → Prop) :
    History Event Store → History Event Store → Prop
  | nil : Without deps C [] []
  | both {h h' : History Event Store} {x x' : Entry Event Store} : Without deps C h h' →
      SameEvent x x' → Without deps C (x :: h) (x' :: h')
  | redundant {h h' : History Event Store} {op : Op} {out : Except Err Reply} {s : Store} {now : UtcTime}
      {row : ScheduleRow} : Without deps C h h' → RedundantWrite deps (present h) op now row → C now row →
      Without deps C (⟨.call op out, s⟩ :: h) h'

section
variable {deps : Deps} {engine : Engine} {h h' : History Event Store}

/-- The redundant call leaves the store alike. -/
theorem RedundantWrite.alike {op : Op} {now : UtcTime} {row : ScheduleRow} (hok : (present h).Ok deps)
    (hw : RedundantWrite deps (present h) op now row) (hkept : CursorKept deps now row) :
    Alike (op.after deps engine (present h)) (present h) := by
  obtain ⟨next, hrow, hnext, rfl⟩ := hw
  rw [writeSchedule_touched hok hrow (patchedNextRun_kept.1 hkept next hnext)]
  exact (Alike.refl (present h)).of_jobs rfl rfl (map_updateWhere fun _ _ => rfl)

theorem Without.alike (hw : Without deps (CursorKept deps) h h') (hr : Run deps engine h)
    (hr' : Run deps engine h') (hf : FreshRun h) (hf' : FreshRun h') :
    Alike (present h) (present h') := by
  induction hw with
  | nil => exact Alike.refl _
  | @both h h' x x' hw hsame ih =>
    have hs := Run.sound (Valid.tail hr)
    have hs' := Run.sound (Valid.tail hr')
    have hal := ih (Valid.tail hr) (Valid.tail hr') hf.2 hf'.2
    have hstep : RunStep deps engine h x.event x.after := Valid.head hr
    have hstep' : RunStep deps engine h' x'.event x'.after := Valid.head hr'
    have hfresh := hf.1
    have hfresh' := hf'.1
    show Alike x.after x'.after
    cases hsame with
    | call =>
      cases hstep with
      | call _ ha =>
        cases hstep' with
        | call _ ha' => exact hal.call hs hs' ha ha' hfresh hfresh'
    | abort =>
      cases hstep
      cases hstep'
      exact hal
    | reorder hsch =>
      cases hstep with
      | reorder hre =>
        cases hstep' with
        | reorder hre' =>
          refine ⟨hsch, fun S t => ?_⟩
          exact ((hre.sameSchedule hs.ok S).materialized.trans (hal.occurrences S t)).trans
            (hre'.sameSchedule hs'.ok S).materialized.symm
  | @redundant h h' op out s now row hw hred hkept ih =>
    have hok := (Run.sound (Valid.tail hr)).ok
    have hal := ih (Valid.tail hr) hr' hf.2 hf'
    have hstep : RunStep deps engine h (.call op out) s := Valid.head hr
    have hstored : s = op.after deps engine (present h) := by
      cases hstep
      rfl
    have hsame : Alike s (present h) := hstored ▸ hred.alike hok hkept
    exact hsame.trans hal

end

/-! ## The result -/

/-- While an occurrence is due, enabling again moves the next run past it. -/
theorem not_kept_of_due {deps : Deps} (hlater : ∀ e t t', deps.croniter e t = some t' → t < t')
    {now next : UtcTime} {row : ScheduleRow} (hen : row.enabled = true)
    (hdue : row.nextRunAt ≤ toDbTime now)
    (hnext : nextCronRun deps row.cronExpression now = .ok next) : ¬ CursorKept deps now row := by
  intro hkept
  have hlt : now < next := hlater _ _ _ (nextCronRun_ok hnext)
  rw [hkept hen next hnext] at hlt
  exact absurd hdue (not_le.2 (toDbTime_lt.2 hlt |>.trans_eq (toDbTime_parse _)))

/-- In every state of a run: a redundant call changes nothing but `updated_at` exactly if it keeps the next
run; and without redundant calls that keep it a run materializes the same occurrences. -/
theorem reenabling_iff (deps : Deps) (engine : Engine) (h : History Event Store)
    (hrun : Run deps engine h) :
    (∀ S row now, (present h).schedule? S = some row →
      ((∃ t, (engine.setScheduleEnabled deps now S row.enabled (present h)).2 =
        (present h).touched S t) ↔ CursorKept deps now row)) ∧
    ∀ h', Run deps engine h' → FreshRun h → FreshRun h' → Without deps (CursorKept deps) h h' →
      ∀ S t, (present h).Materialized S t ↔ (present h').Materialized S t := by
  constructor
  · intro S row now hrow
    exact setScheduleEnabled_iff hrun.sound.ok hrow
  · intro h' hrun' hf hf' hw
    exact (hw.alike hrun hrun' hf hf').occurrences

/-! ## A schedule enabled twice -/

/-- A pass over the only schedule, which is due. -/
theorem pass_single {deps : Deps} {s : Store} {row : ScheduleRow} {now next : UtcTime}
    {uuids : Nat → String} (hs : s.recurringSchedules = [row]) (hen : row.enabled = true)
    (hdue : row.nextRunAt ≤ toDbTime now) (hf : FreshIds uuids 0 1 s)
    (hnext : nextCronRun deps row.cronExpression (parseDbTime row.nextRunAt) = .ok next) :
    (Op.materialize (fun _ => false) now uuids 1).after deps .sqlite s =
      s.materialized now (uuids 0) row next := by
  have hrows : dueSchedules .sqlite (fun _ => false) now 1 s = [row] := by
    simp [dueSchedules, Sqlite.dueSchedules, hs, hen, hdue, orderBy]
  rw [materialize_after hf, hrows, materializeRows_cons (hf.head Nat.one_pos) hnext]
  rfl

/-- The schedule with its next run at second `n`. -/
def enabledRow (n : Fin 1000) : ScheduleRow :=
  newSchedule sampleDeps (sampleTime 0) "s" sampleSchedule 1 300 (sampleTime n)

/-- Created at the full minute. -/
def enabledOnce : History Event Store :=
  afterCall sampleDeps .sqlite [] (.createSchedule (sampleTime 0) "s" sampleSchedule 1 300)

/-- Enabled again `n` seconds later, which computes the run at second `next`. -/
def enabledTwice (n next : Fin 1000) : History Event Store :=
  afterCall sampleDeps .sqlite enabledOnce (.writeSchedule (sampleTime n) "s" true (sampleTime next))

/-- A pass at second 130. -/
def laterPass (h : History Event Store) : History Event Store :=
  afterCall sampleDeps .sqlite h (.materialize (fun _ => false) (sampleTime 130) (fun _ => "j") 1)

theorem enabledOnce_store :
    present enabledOnce = { Store.empty with recurringSchedules := [enabledRow 60] } := by
  have hnext : nextCronRun sampleDeps sampleSchedule.cronExpression (sampleTime 0) =
      .ok (sampleTime 60) := rfl
  have hafter : present enabledOnce = (Op.createSchedule (sampleTime 0) "s" sampleSchedule 1 300).after
      sampleDeps .sqlite Store.empty := rfl
  rw [hafter, createSchedule_after, hnext]
  rfl

theorem enabledRow_next : nextCronRun sampleDeps (enabledRow 60).cronExpression
    (parseDbTime (enabledRow 60).nextRunAt) = .ok (sampleTime 120) := by
  rw [show (enabledRow 60).nextRunAt = toDbTime (sampleTime 60) from rfl, parse_toDbTime]
  rfl

theorem enabledTwice_store (n next : Fin 1000) : present (enabledTwice n next) =
    { Store.empty with
      recurringSchedules := [{ enabledRow next with updatedAt := toDbTime (sampleTime n) }] } := by
  have hafter : present (enabledTwice n next) =
      (Op.writeSchedule (sampleTime n) "s" true (sampleTime next)).after sampleDeps .sqlite
        (present enabledOnce) := rfl
  rw [hafter, writeSchedule_after, enabledOnce_store]
  simp [updateWhere, enabledRow, newSchedule]

theorem laterPass_store {h : History Event Store} {row : ScheduleRow} {next : UtcTime}
    (hs : present h = { Store.empty with recurringSchedules := [row] }) (hen : row.enabled = true)
    (hdue : row.nextRunAt ≤ toDbTime (sampleTime 130))
    (hnext : nextCronRun sampleDeps row.cronExpression (parseDbTime row.nextRunAt) = .ok next) :
    present (laterPass h) = (present h).materialized (sampleTime 130) "j" row next := by
  have hafter : present (laterPass h) =
      (Op.materialize (fun _ => false) (sampleTime 130) (fun _ => "j") 1).after sampleDeps .sqlite
        (present h) := rfl
  have hf : FreshIds (fun _ => "j") 0 1 (present h) := by
    rw [hs]
    exact ⟨fun _ _ _ o ho => absurd ho List.not_mem_nil, by decide⟩
  rw [hafter, pass_single (by rw [hs]) hen hdue hf hnext]

/-- The pass makes the job of the next run. -/
theorem laterPass_materialized {h : History Event Store} {row : ScheduleRow} {next : UtcTime}
    (hs : present h = { Store.empty with recurringSchedules := [row] }) (hen : row.enabled = true)
    (hdue : row.nextRunAt ≤ toDbTime (sampleTime 130))
    (hnext : nextCronRun sampleDeps row.cronExpression (parseDbTime row.nextRunAt) = .ok next)
    (S : String) (t : DbTime) :
    (present (laterPass h)).Materialized S t ↔ S = row.id ∧ t = row.nextRunAt := by
  rw [laterPass_store hs hen hdue hnext, materialized_materialized, hs]
  simp [Store.Materialized, Store.ofSchedule, Store.empty]

theorem enabledTwice_run (n next : Fin 1000) : Run sampleDeps .sqlite (enabledTwice n next) :=
  Run.afterCall (Run.afterCall .nil (Allowed.of_none rfl)) (Allowed.of_none rfl)

theorem laterPass_run {h : History Event Store} (hr : Run sampleDeps .sqlite h) :
    Run sampleDeps .sqlite (laterPass h) :=
  Run.afterCall hr (Allowed.of_none rfl)

/-- The two runs differ in the call. -/
theorem enabledTwice_without {C : UtcTime → ScheduleRow → Prop} {n next : Fin 1000}
    (hnext : nextCronRun sampleDeps sampleSchedule.cronExpression (sampleTime n) = .ok (sampleTime next))
    (hC : C (sampleTime n) (enabledRow 60)) :
    Without sampleDeps C (laterPass (enabledTwice n next)) (laterPass enabledOnce) := by
  have hfound : (present enabledOnce).schedule? (enabledRow 60).id = some (enabledRow 60) := by
    rw [enabledOnce_store]
    rfl
  have hpatched : Sqlite.patchedNextRun sampleDeps (sampleTime n)
      (scheduleFromRow sampleDeps (enabledRow 60)) (enabledRow 60).enabled = .ok (sampleTime next) := by
    have hen : (enabledRow 60).enabled = true := rfl
    rw [Sqlite.patchedNextRun, if_pos hen]
    exact hnext
  have hred : RedundantWrite sampleDeps (present enabledOnce)
      (.writeSchedule (sampleTime n) "s" true (sampleTime next)) (sampleTime n) (enabledRow 60) :=
    ⟨sampleTime next, hfound, hpatched, rfl⟩
  have honce : Without sampleDeps C enabledOnce enabledOnce := .both .nil .call
  have htwice : Without sampleDeps C (enabledTwice n next) enabledOnce := .redundant honce hred hC
  exact .both htwice .call

theorem enabledOnce_fresh : FreshRun (laterPass enabledOnce) := by
  refine ⟨⟨fun _ _ _ o ho => ?_, by decide⟩, fun x hx => absurd hx List.not_mem_nil, trivial⟩
  rw [enabledOnce_store] at ho
  exact absurd ho List.not_mem_nil

theorem enabledTwice_fresh (n next : Fin 1000) : FreshRun (laterPass (enabledTwice n next)) := by
  refine ⟨⟨fun _ _ _ o ho => ?_, by decide⟩, trivial, fun x hx => absurd hx List.not_mem_nil, trivial⟩
  rw [enabledTwice_store] at ho
  exact absurd ho List.not_mem_nil

theorem enabledOnce_materialized :
    (present (laterPass enabledOnce)).Materialized "s" (toDbTime (sampleTime 60)) := by
  rw [laterPass_materialized enabledOnce_store rfl (toDbTime_le.2 (by decide)) enabledRow_next]
  exact ⟨rfl, rfl⟩

/-- Enabled again within the minute: the next occurrence gets its job as in the run without the call. -/
theorem reenabling_sample : (present (laterPass (enabledTwice 10 60))).Materialized "s"
    (toDbTime (sampleTime 60)) := by
  have hwithout : Without sampleDeps (CursorKept sampleDeps) (laterPass (enabledTwice 10 60))
      (laterPass enabledOnce) := by
    refine enabledTwice_without rfl fun _ next hnext => ?_
    have hkept : nextCronRun sampleDeps sampleSchedule.cronExpression (sampleTime 10) =
        .ok (sampleTime 60) := rfl
    cases hkept.symm.trans hnext
    exact (parse_toDbTime _).symm
  exact ((reenabling_iff sampleDeps .sqlite _ (laterPass_run (enabledTwice_run 10 60))).2 _
    (laterPass_run (Run.afterCall .nil (Allowed.of_none rfl))) (enabledTwice_fresh 10 60)
    enabledOnce_fresh hwithout _ _).2 enabledOnce_materialized

/-- Enabled again when the occurrence of second 60 is due: it gets no job. -/
theorem reenabling_fails :
    Run sampleDeps .sqlite (laterPass (enabledTwice 61 120)) ∧
    Run sampleDeps .sqlite (laterPass enabledOnce) ∧
    Without sampleDeps (fun _ _ => True) (laterPass (enabledTwice 61 120)) (laterPass enabledOnce) ∧
    (present (laterPass enabledOnce)).Materialized "s" (toDbTime (sampleTime 60)) ∧
    ¬ (present (laterPass (enabledTwice 61 120))).Materialized "s" (toDbTime (sampleTime 60)) := by
  have hnext120 : nextCronRun sampleDeps sampleSchedule.cronExpression
      (parseDbTime (enabledRow 120).nextRunAt) = .ok (sampleTime 180) := by
    rw [show (enabledRow 120).nextRunAt = toDbTime (sampleTime 120) from rfl, parse_toDbTime]
    rfl
  refine ⟨laterPass_run (enabledTwice_run 61 120),
    laterPass_run (Run.afterCall .nil (Allowed.of_none rfl)), enabledTwice_without rfl trivial,
    enabledOnce_materialized, ?_⟩
  rw [laterPass_materialized (enabledTwice_store 61 120) rfl (toDbTime_le.2 (by decide)) hnext120]
  intro h
  have ht : sampleTime 60 = sampleTime 120 := toDbTime_inj.1 h.2
  exact absurd ht (by decide)

end PulseQueue
