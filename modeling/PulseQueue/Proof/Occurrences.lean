import PulseQueue.Proof.Schedules

/-!
# One job per occurrence

Over whole runs: the jobs of a schedule that is neither patched nor deleted are its first `k`
occurrences, and its cursor is the next one (`Occurrences`, kept by every call). The passes' results
add up to the number of jobs with a schedule.
-/

namespace PulseQueue

open Txn Trace Table

/-! ## What other calls leave alone -/

/-- The schedules stay, and new jobs belong to none. -/
structure Frame (s s' : Store) : Prop where
  schedules : s'.recurringSchedules = s.recurringSchedules
  jobs : ∃ new : List JobRow, (∀ r ∈ new, r.scheduleId = none) ∧
    s'.jobs.map JobRow.fixed = (s.jobs ++ new).map JobRow.fixed

section
variable {deps : Deps} {s s' s'' : Store}

theorem Frame.of_jobs (hs : s'.recurringSchedules = s.recurringSchedules) (hj : s'.jobs = s.jobs) :
    Frame s s' :=
  ⟨hs, [], by simp, by simp [hj]⟩

theorem Frame.refl (s : Store) : Frame s s := Frame.of_jobs rfl rfl

theorem Frame.trans (h : Frame s s') (h' : Frame s' s'') : Frame s s'' := by
  obtain ⟨hs, new, hn, hj⟩ := h
  obtain ⟨hs', new', hn', hj'⟩ := h'
  refine ⟨hs'.trans hs, new ++ new', fun r hr => ?_, ?_⟩
  · rcases List.mem_append.1 hr with hr | hr
    · exact hn r hr
    · exact hn' r hr
  · simp only [hj', hj, List.map_append, List.append_assoc]

/-- An update of columns that are not fixed. -/
theorem Frame.update {p : JobRow → Bool} {f : JobRow → JobRow} (hf : ∀ r, (f r).fixed = r.fixed)
    (hs : s'.recurringSchedules = s.recurringSchedules) (hj : s'.jobs = updateWhere p f s.jobs) :
    Frame s s' :=
  ⟨hs, [], by simp, by rw [hj, map_updateWhere fun r _ => hf r, List.append_nil]⟩

theorem Frame.insert {r : JobRow} (hr : r.scheduleId = none)
    (hs : s'.recurringSchedules = s.recurringSchedules) (hj : s'.jobs = s.jobs ++ [r]) :
    Frame s s' :=
  ⟨hs, [r], by simpa using hr, by rw [hj]⟩

/-- Claims, the ends of attempts and cancellations. -/
theorem Steps.frame {k : Kind} (hk : k ≠ .submit ∧ k ≠ .reorder)
    (h : Steps deps (· = k) s s') : Frame s s' := by
  induction h with
  | refl => exact Frame.refl s
  | tail _ hstep ih =>
    obtain ⟨k', rfl, hstep⟩ := hstep
    refine ih.trans ?_
    cases hstep with
    | submit => exact absurd rfl hk.1
    | claim w t _ _ => exact Frame.update (claimed_fixed w t) rfl rfl
    | settle startedAt t _ _ _ _ _ => exact Frame.update (settled_fixed _ t) rfl rfl
    | cancel p t => exact Frame.update (cancelled_fixed t) rfl rfl
    | side => exact absurd rfl hk.2
    | reorder => exact absurd rfl hk.2

theorem insertJob_frame {r : JobRow} {u : Unit} (hr : r.scheduleId = none)
    (hx : insertJob r s = .ok (u, s')) : Frame s s' := by
  obtain ⟨-, rfl⟩ := insertJob_ok hx
  exact Frame.insert hr rfl rfl

theorem insertJobs_frame (rows : List JobRow) {u : Unit} (hn : ∀ r ∈ rows, r.scheduleId = none)
    (hx : Sqlite.insertJobs rows s = .ok (u, s')) : Frame s s' :=
  Sqlite.insertJobs_keeps Frame.refl Frame.trans rows
    (fun row hrow _ _ _ h => insertJob_frame (hn row hrow) h) s u s' hx

theorem batchRows_scheduleId {now : UtcTime} {uuids : Nat → String} {maxRetries : Nat} {timeout : ℚ}
    (requests : List JobCreate) (i : Nat) :
    ∀ r ∈ Sqlite.batchRows deps now uuids maxRetries timeout i requests, r.scheduleId = none := by
  intro r hr
  obtain ⟨request, k, rfl⟩ := Sqlite.mem_batchRows hr
  rfl

/-- The four operations on schedules. -/
def Op.onSchedules : Op → Bool
  | .createSchedule .. | .writeSchedule .. | .deleteSchedule .. | .materialize .. => true
  | _ => false

end

section
variable {deps : Deps} {engine : Engine} {h : History Event Store} {s' : Store}

/-- Every other call leaves the schedules and their jobs alone. -/
theorem Sound.frame (hs : Sound deps h) {op : Op} (ha : Allowed h op)
    (hop : op.onSchedules = false) {r : Reply}
    (hx : op.body deps engine (present h) = .ok (r, s')) : Frame (present h) s' := by
  have hst := hs.call ha hx
  cases op with
  | createSchedule | writeSchedule | deleteSchedule | materialize => cases hop
  | claim | markSucceeded | markFailedAttempt | recoverStaleJobs | cancelJob | drainQueue =>
    exact hst.frame (by simp)
  | createJob now id request m t key =>
    cases engine <;> obtain ⟨_, hx, -⟩ := reply_ok.1 hx <;> exact insertJob_frame rfl hx
  | createJobsBatch now uuids requests m t =>
    cases engine <;> obtain ⟨_, hx, -⟩ := reply_ok.1 hx
    · exact insertJobs_frame _ (batchRows_scheduleId _ _) hx
    · rw [Postgres.insertJobs_eq, Postgres.batchRows_eq] at hx
      exact insertJobs_frame _ (batchRows_scheduleId _ _) hx
  | initializeRuntimeConfig now c =>
    cases engine <;> obtain ⟨_, hx, -⟩ := reply_ok.1 hx <;>
      (try rw [Postgres.initializeRuntimeConfigTxn_eq] at hx) <;>
      obtain ⟨c, rfl⟩ := Sqlite.initializeRuntimeConfigTxn_ok hx <;> exact Frame.of_jobs rfl rfl
  | patchRuntimeConfig now p =>
    cases engine <;> obtain ⟨_, hx, -⟩ := reply_ok.1 hx <;>
      (try rw [Postgres.patchRuntimeConfigTxn_eq] at hx) <;>
      obtain ⟨c, rfl⟩ := Sqlite.patchRuntimeConfigTxn_ok hx <;> exact Frame.of_jobs rfl rfl
  | heartbeatWorker now id active busy =>
    cases engine <;> obtain ⟨_, hx, -⟩ := reply_ok.1 hx <;> cases hx <;> exact Frame.of_jobs rfl rfl

/-- The schedule `S` and the fixed columns of its jobs are as before. -/
structure SameSchedule (S : String) (s s' : Store) : Prop where
  row : s'.schedule? S = s.schedule? S
  jobs : ((s'.ofSchedule S).map JobRow.fixed).Perm ((s.ofSchedule S).map JobRow.fixed)

theorem map_fixed_ofSchedule (s : Store) (S : String) :
    (s.ofSchedule S).map JobRow.fixed =
      (s.jobs.map JobRow.fixed).filter (·.scheduleId == some S) := by
  rw [List.filter_map]
  rfl

theorem SameSchedule.of_jobs {S : String} {s s' : Store} (hr : s'.schedule? S = s.schedule? S)
    (hj : s'.jobs = s.jobs) : SameSchedule S s s' :=
  ⟨hr, by rw [Store.ofSchedule, Store.ofSchedule, hj]⟩

theorem Frame.sameSchedule {s s' : Store} (h : Frame s s') (S : String) : SameSchedule S s s' := by
  obtain ⟨hs, new, hn, hj⟩ := h
  refine ⟨by rw [Store.schedule?, Store.schedule?, hs], ?_⟩
  have hnew : (new.map JobRow.fixed).filter (·.scheduleId == some S) = [] := by
    rw [List.filter_eq_nil_iff]
    intro f hf
    obtain ⟨r, hr, rfl⟩ := List.mem_map.1 hf
    show ¬ (r.scheduleId == some S) = true
    rw [hn r hr]
    simp
  rw [map_fixed_ofSchedule, map_fixed_ofSchedule, hj, List.map_append, List.filter_append, hnew,
    List.append_nil]

theorem Store.Reordered.sameSchedule {s s' : Store} (hok : s.Ok deps) (h : s.Reordered s')
    (S : String) : SameSchedule S s s' :=
  ⟨(lookup_perm hok.side.schedules h.recurringSchedules).symm, ((h.jobs.filter _).map _).symm⟩

/-! ## Calls and one schedule -/

/-- The event patches or deletes the schedule `S`. -/
def Event.touches (S : String) : Event → Prop
  | .call (.writeSchedule _ id _ _) _ => id = S
  | .call (.deleteSchedule id) _ => id = S
  | _ => False

/-- The event is a pass that serves the schedule of `row`. -/
def ServedBy (deps : Deps) (e : Event) (s s' : Store) (row : ScheduleRow) : Prop :=
  ∃ skipped now uuids limit n next id,
    e = .call (.materialize skipped now uuids limit) (.ok (.count n)) ∧
    row.nextRunAt ≤ toDbTime now ∧
    nextCronRun deps row.cronExpression (parseDbTime row.nextRunAt) = .ok next ∧
    (∀ o ∈ s.jobs, o.id ≠ id) ∧ s'.schedule? row.id = some (row.advanced next now row) ∧
    s'.ofSchedule row.id = s.ofSchedule row.id ++
      if s.Occurred row then [] else [Sqlite.occurrenceRow now id row]

theorem schedule?_delete {id S : String} {s s' : Store} {n : Nat}
    (hx : deleteScheduleRow id s = .ok (n, s')) :
    s'.schedule? S = if id = S then none else s.schedule? S := by
  cases hx
  simp only [Store.schedule?, lookup, List.find?_filter]
  split
  · rename_i he
    subst he
    rw [List.find?_eq_none]
    intro r _
    simp
  · rename_i he
    congr 1
    funext r
    by_cases hr : r.id = S
    · simp [hr, Ne.symm he]
    · simp [hr]

theorem schedule?_update {id S : String} {s s' : Store} {n : Nat} {f : ScheduleRow → ScheduleRow}
    (hx : updateSchedule id f s = .ok (n, s')) (hf : ∀ r, (f r).id = r.id)
    (hS : id ≠ S ∨ s.schedule? S = none) : s'.schedule? S = s.schedule? S := by
  cases hx
  show lookup ScheduleRow.id S (updateWhere (·.id == id) f s.recurringSchedules) = _
  rw [lookup_updateWhere fun r _ => hf r]
  show (s.schedule? S).map _ = _
  cases hr : s.schedule? S with
  | none => rfl
  | some r =>
    have hid : r.id = S := (lookup_some hr).2
    rcases hS with hne | hnone
    · simp [hid, Ne.symm hne]
    · rw [hnone] at hr
      cases hr

theorem schedule?_insert {r : ScheduleRow} {S : String} {s s' : Store} {u : Unit}
    (hx : insertSchedule r s = .ok (u, s')) :
    s.schedule? r.id = none ∧
      s'.schedule? S = (s.schedule? S).or (if r.id = S then some r else none) ∧
      s'.jobs = s.jobs := by
  unfold insertSchedule at hx
  split at hx
  · cases hx
  · rename_i hc
    cases hx
    refine ⟨lookup_eq_none.2 fun o ho => ?_, lookup_append_singleton, rfl⟩
    simp only [List.any_eq_true, beq_iff_eq, not_exists, not_and] at hc
    exact hc o ho

/-- What a pass does to a schedule. -/
theorem Sound.materialize_cases (hs : Sound deps h) {skipped : String → Bool} {now : UtcTime}
    {uuids : Nat → String} {limit : Nat} (hf : FreshIds uuids 0 limit (present h)) {r : Reply}
    (hx : (Op.materialize skipped now uuids limit).body deps engine (present h) = .ok (r, s'))
    (S : String) :
    SameSchedule S (present h) s' ∨
      ∃ row, (present h).schedule? S = some row ∧
        ServedBy deps (.call (.materialize skipped now uuids limit) (.ok r)) (present h) s' row := by
  obtain ⟨n, hloop, rfl⟩ := reply_ok.1 ((materialize_body hf).symm.trans hx)
  have hlen : (dueSchedules engine skipped now limit (present h)).length ≤ limit :=
    length_dueSchedules
  have hnd : ((dueSchedules engine skipped now limit (present h)).map (·.id)).Nodup :=
    dueSchedules_nodup hs.ok.side.schedules
  by_cases hS : ∃ row ∈ dueSchedules engine skipped now limit (present h), row.id = S
  · obtain ⟨row, hrow, rfl⟩ := hS
    have hcur := schedule?_due hs.ok.side.schedules hrow
    obtain ⟨next, j, hnext, hnew, hrow', hjobs⟩ := pass_row _ hf (by omega) hnd hrow hloop
    rw [hcur, Option.map_some] at hrow'
    exact .inr ⟨row, hcur, skipped, now, uuids, limit, n, next, uuids j, rfl,
      (mem_dueSchedules hrow).2.2, hnext, hnew, hrow', hjobs⟩
  · have hne : ∀ row ∈ dueSchedules engine skipped now limit (present h), row.id ≠ S :=
      fun row hrow he => hS ⟨row, hrow, he⟩
    obtain ⟨hrow, hjobs⟩ := pass_other _ hf (by omega) hne hloop
    exact .inl ⟨hrow, by rw [hjobs]⟩

/-- What an event does to a schedule. -/
theorem Sound.schedule_cases (hs : Sound deps h) {e : Event} (hstep : RunStep deps engine h e s')
    (hf : e.Fresh h) (S : String) :
    SameSchedule S (present h) s' ∨ e.creates S ∨
      (e.touches S ∧ ((present h).schedule? S = none → SameSchedule S (present h) s')) ∨
      ∃ row, (present h).schedule? S = some row ∧ ServedBy deps e (present h) s' row := by
  cases e with
  | abort op =>
    cases hstep
    exact .inl (Frame.sameSchedule (Frame.refl _) S)
  | reorder =>
    cases hstep with
    | reorder hr => exact .inl (hr.sameSchedule hs.ok S)
  | call op out =>
    obtain ⟨ha, ⟨r, hx, rfl⟩ | ⟨err, rfl, rfl⟩⟩ := hstep.call_cases
    · cases hop : op.onSchedules with
      | false => exact .inl ((hs.frame ha hop hx).sameSchedule S)
      | true =>
        cases op with
        | createSchedule now id request m t =>
          by_cases hid : id = S
          · exact .inr (.inl hid)
          · left
            cases engine <;> obtain ⟨u, hx, -⟩ := reply_ok.1 hx <;>
              obtain ⟨next, s₀, hnext, hx⟩ := Tx.bind_eq_ok.1 hx <;>
              obtain ⟨-, rfl⟩ := Tx.ofExcept_eq_ok.1 hnext <;>
              obtain ⟨-, hrow, hjobs⟩ := schedule?_insert (S := S) hx <;>
              exact SameSchedule.of_jobs (by rw [hrow, if_neg hid, Option.or_none]) hjobs
        | writeSchedule now id enabled next =>
          have hsame (hS : id ≠ S ∨ (present h).schedule? S = none) :
              SameSchedule S (present h) s' := by
            cases engine <;> obtain ⟨n, hx, -⟩ := reply_ok.1 hx <;>
              exact SameSchedule.of_jobs (schedule?_update hx (fun _ => rfl) hS) (by cases hx; rfl)
          by_cases hid : id = S
          · exact .inr (.inr (.inl ⟨hid, fun hn => hsame (.inr hn)⟩))
          · exact .inl (hsame (.inl hid))
        | deleteSchedule id =>
          have hsame (hS : id ≠ S ∨ (present h).schedule? S = none) :
              SameSchedule S (present h) s' := by
            cases engine <;> obtain ⟨n, hx, -⟩ := reply_ok.1 hx <;>
            · refine SameSchedule.of_jobs ?_ (by cases hx; rfl)
              rw [schedule?_delete hx]
              rcases hS with hne | hnone
              · rw [if_neg hne]
              · rw [hnone, ite_self]
          by_cases hid : id = S
          · exact .inr (.inr (.inl ⟨hid, fun hn => hsame (.inr hn)⟩))
          · exact .inl (hsame (.inl hid))
        | materialize skipped now uuids limit =>
          exact (hs.materialize_cases hf hx S).imp_right fun h => .inr (.inr h)
        | _ => cases hop
    · exact .inl (Frame.sameSchedule (Frame.refl _) S)

/-- Before its creation nothing belongs to a schedule. -/
theorem unborn {S : String} (hr : Run deps engine h) (hf : FreshRun h)
    (hS : ∀ x ∈ h, ¬ x.event.creates S) :
    (present h).schedule? S = none ∧ (present h).ofSchedule S = [] := by
  induction hr with
  | nil => exact ⟨rfl, rfl⟩
  | @cons h e s' hr hstep ih =>
    obtain ⟨hfe, hf⟩ := hf
    obtain ⟨hne, hS⟩ := List.forall_mem_cons.1 hS
    obtain ⟨hrow, hjobs⟩ := ih hf hS
    have hsame : SameSchedule S (present h) s' := by
      rcases (Run.sound hr).schedule_cases hstep hfe S with hs | hc | ⟨-, hs⟩ | ⟨row, hrow', -⟩
      · exact hs
      · exact absurd hc hne
      · exact hs hrow
      · rw [hrow] at hrow'
        cases hrow'
    refine ⟨hsame.row.trans hrow, ?_⟩
    have hp := hsame.jobs
    rw [hjobs, List.map_nil, List.perm_nil, List.map_eq_nil_iff] at hp
    exact hp

/-! ## The results of the passes -/

/-- What a pass returned. -/
def Event.returned : Event → Nat
  | .call (.materialize ..) (.ok (.count n)) => n
  | _ => 0

/-- The number of jobs that belong to a schedule. -/
def Store.created (s : Store) : Nat := s.jobs.countP fun r => r.scheduleId.isSome

theorem created_eq (s : Store) :
    s.created = (s.jobs.map JobRow.fixed).countP fun f => f.scheduleId.isSome := by
  rw [List.countP_map]
  rfl

theorem Frame.created {s s' : Store} (h : Frame s s') : s'.created = s.created := by
  obtain ⟨-, new, hn, hj⟩ := h
  rw [created_eq, created_eq, hj, List.map_append, List.countP_append, Nat.add_eq_left,
    List.countP_eq_zero]
  intro f hf
  obtain ⟨r, hr, rfl⟩ := List.mem_map.1 hf
  show ¬ r.scheduleId.isSome = true
  rw [hn r hr]
  simp

theorem Sound.created (hs : Sound deps h) {e : Event} (hstep : RunStep deps engine h e s')
    (hf : e.Fresh h) : s'.created = (present h).created + e.returned := by
  cases e with
  | abort op =>
    cases hstep
    rfl
  | reorder =>
    cases hstep with
    | reorder hr => exact (hr.jobs.countP_eq _).symm
  | call op out =>
    obtain ⟨ha, ⟨r, hx, rfl⟩ | ⟨err, rfl, rfl⟩⟩ := hstep.call_cases
    · cases hop : op.onSchedules with
      | false =>
        rw [(hs.frame ha hop hx).created]
        cases op <;> first | rfl | cases hop
      | true =>
        cases op with
        | createSchedule now id request m t =>
          cases engine <;> obtain ⟨u, hx, -⟩ := reply_ok.1 hx <;>
            obtain ⟨next, s₀, hnext, hx⟩ := Tx.bind_eq_ok.1 hx <;>
            obtain ⟨-, rfl⟩ := Tx.ofExcept_eq_ok.1 hnext <;>
            obtain ⟨-, -, hjobs⟩ := schedule?_insert (S := id) hx <;>
            simp [Store.created, hjobs, Event.returned]
        | writeSchedule now id enabled next =>
          cases engine <;> obtain ⟨n, hx, -⟩ := reply_ok.1 hx <;> cases hx <;> rfl
        | deleteSchedule id =>
          cases engine <;> obtain ⟨n, hx, -⟩ := reply_ok.1 hx <;> cases hx <;> rfl
        | materialize skipped now uuids limit =>
          obtain ⟨n, hloop, rfl⟩ := reply_ok.1 ((materialize_body hf).symm.trans hx)
          have hlen : (dueSchedules engine skipped now limit (present h)).length ≤ limit :=
            length_dueSchedules
          obtain ⟨new, hjobs, hn, hnew⟩ := pass_count _ hf (by omega) hloop
          have hcount : new.countP (fun r => r.scheduleId.isSome) = new.length :=
            List.countP_eq_length.2 hnew
          simp only [Store.created, Event.returned, hjobs, List.countP_append, hcount, hn]
          omega
        | _ => cases hop
    · cases op <;> rfl

/-- The results of the passes add up to the number of jobs that they created. -/
theorem returned_sum (hr : Run deps engine h) (hf : FreshRun h) :
    (h.map fun x => x.event.returned).sum = (present h).created := by
  induction hr with
  | nil => rfl
  | cons hr hstep ih =>
    obtain ⟨hfe, hf⟩ := hf
    rw [List.map_cons, List.sum_cons, ih hf, Nat.add_comm]
    exact ((Run.sound hr).created hstep hfe).symm

/-! ## The occurrences of a schedule -/

/-- The `k`th occurrence after `c`. -/
def occurrence (deps : Deps) (expression : String) (c : UtcTime) : Nat → Option UtcTime
  | 0 => some c
  | k + 1 => (occurrence deps expression c k).bind (deps.croniter expression)

/-- The schedule `S`, created at `c`, had `k` occurrences: one job each, and the cursor at the
next. -/
structure Occurrences (deps : Deps) (S : String) (c : UtcTime) (request : ScheduleCreate)
    (maxRetries : Nat) (timeoutSeconds : ℚ) (s : Store) (k : Nat) (row : ScheduleRow) : Prop where
  found : s.schedule? S = some row
  cronExpression : row.cronExpression = request.cronExpression
  payload : row.payload = deps.dumps (.obj request.payload)
  priority : row.priority = request.priority
  maxRetries : row.maxRetries = maxRetries
  timeoutSeconds : row.timeoutSeconds = timeoutSeconds
  next : occurrence deps request.cronExpression c (k + 1) = some (parseDbTime row.nextRunAt)
  last : row.lastRunAt =
    if k = 0 then none else (occurrence deps request.cronExpression c k).map toDbTime
  jobs : ((s.ofSchedule S).map (·.scheduledFor)).Perm
    ((List.range' 1 k).map fun i => (occurrence deps request.cronExpression c i).map toDbTime)

/-- The job `j` was created by a pass of the history, when its occurrence was due, and it has the
columns of its schedule. -/
structure CreatedByPass (row : ScheduleRow) (h : History Event Store) (j : JobRow) : Prop where
  payload : j.payload = row.payload
  priority : j.priority = row.priority
  maxRetries : j.maxRetries = row.maxRetries
  timeoutSeconds : j.timeoutSeconds = row.timeoutSeconds
  created : ∃ post x pre, h = post ++ x :: pre ∧ ∃ skipped now uuids limit n j₀,
    x.event = .call (.materialize skipped now uuids limit) (.ok (.count n)) ∧
    (present pre).job? j.id = none ∧ x.after.job? j.id = some j₀ ∧ j₀.fixed = j.fixed ∧
    j₀.scheduledFor = some j₀.runAt ∧ j₀.runAt ≤ toDbTime now

theorem CreatedByPass.later {row row' : ScheduleRow} {h : History Event Store} {j j' : JobRow}
    (hc : CreatedByPass row h j) (hj : j'.fixed = j.fixed) (e : Entry Event Store)
    (hp : row'.payload = row.payload) (hpr : row'.priority = row.priority)
    (hm : row'.maxRetries = row.maxRetries) (ht : row'.timeoutSeconds = row.timeoutSeconds) :
    CreatedByPass row' (e :: h) j' := by
  obtain ⟨post, x, pre, rfl, skipped, now, uuids, limit, n, j₀, hx, hnone, hsome, hfix, hrun, hdue⟩ :=
    hc.created
  have hid : j'.id = j.id := JobRow.id_eq hj
  refine ⟨?_, ?_, ?_, ?_, e :: post, x, pre, rfl, skipped, now, uuids, limit, n, j₀, hx, ?_, ?_,
    hfix.trans hj.symm, hrun, hdue⟩
  · rw [hp, ← hc.payload]
    exact JobRow.payload_eq hj
  · rw [hpr, ← hc.priority]
    exact congrArg FixedColumns.priority hj
  · rw [hm, ← hc.maxRetries]
    exact JobRow.maxRetries_eq hj
  · rw [ht, ← hc.timeoutSeconds]
    exact congrArg FixedColumns.timeoutSeconds hj
  · rw [hid]
    exact hnone
  · rw [hid]
    exact hsome

section
variable {e : String} {c : UtcTime}

theorem occurrence_lt (hlater : ∀ e t t', deps.croniter e t = some t' → t < t') :
    ∀ {j i : Nat} {a b : UtcTime}, i < j → occurrence deps e c i = some a →
      occurrence deps e c j = some b → a < b
  | 0, _, _, _, hij, _, _ => absurd hij (Nat.not_lt_zero _)
  | j + 1, i, a, b, hij, ha, hb => by
    obtain ⟨m, hm, hmb⟩ := Option.bind_eq_some_iff.1 hb
    have hlt := hlater e m b hmb
    rcases Nat.lt_succ_iff_lt_or_eq.1 hij with hij | rfl
    · exact (occurrence_lt hlater hij ha hm).trans hlt
    · rw [hm] at ha
      cases ha
      exact hlt

theorem nextCronRun_ok {t t' : UtcTime} (h : nextCronRun deps e t = .ok t') :
    deps.croniter e t = some t' := by
  unfold nextCronRun at h
  split at h
  · rename_i heq
    cases h
    exact heq
  · cases h

end

section
variable {S : String} {c : UtcTime} {request : ScheduleCreate} {m : Nat} {t : ℚ} {k : Nat}
  {row : ScheduleRow} {s : Store}

theorem Occurrences.same (h : Occurrences deps S c request m t s k row)
    (hs : SameSchedule S s s') : Occurrences deps S c request m t s' k row := by
  refine { h with found := hs.row.trans h.found, jobs := ?_ }
  have hp := hs.jobs.map FixedColumns.scheduledFor
  rw [List.map_map, List.map_map] at hp
  exact hp.trans h.jobs

/-- The next occurrence has no job yet. -/
theorem Occurrences.not_occurred (hlater : ∀ e t t', deps.croniter e t = some t' → t < t')
    (h : Occurrences deps S c request m t s k row) : ¬ s.Occurred row := by
  have hid : row.id = S := (lookup_some h.found).2
  rintro ⟨o, ho, hfor⟩
  rw [hid] at ho
  have hmem := h.jobs.mem_iff.1 (List.mem_map_of_mem ho)
  rw [hfor] at hmem
  obtain ⟨i, hi, he⟩ := List.mem_map.1 hmem
  obtain ⟨a, ha, hat⟩ := Option.map_eq_some_iff.1 he
  have hi := (List.mem_range'_1.1 hi).2
  have hlt := occurrence_lt hlater (show i < k + 1 by omega) ha h.next
  rw [← hat, parse_toDbTime] at hlt
  exact absurd hlt (lt_irrefl a)

/-- A pass that serves the schedule adds its next occurrence. -/
theorem Occurrences.served (hlater : ∀ e t t', deps.croniter e t = some t' → t < t')
    (h : Occurrences deps S c request m t s k row) {now next : UtcTime} {id : String}
    (hnext : nextCronRun deps row.cronExpression (parseDbTime row.nextRunAt) = .ok next)
    (hrow : s'.schedule? row.id = some (row.advanced next now row))
    (hjobs : s'.ofSchedule row.id = s.ofSchedule row.id ++
      if s.Occurred row then [] else [Sqlite.occurrenceRow now id row]) :
    Occurrences deps S c request m t s' (k + 1) (row.advanced next now row) := by
  have hid : row.id = S := (lookup_some h.found).2
  rw [hid] at hrow hjobs
  rw [if_neg (h.not_occurred hlater)] at hjobs
  refine ⟨hrow, h.cronExpression, h.payload, h.priority, h.maxRetries, h.timeoutSeconds, ?_, ?_, ?_⟩
  · show (occurrence deps request.cronExpression c (k + 1)).bind _ = _
    rw [h.next, Option.bind_some, ← h.cronExpression, nextCronRun_ok hnext]
    show some next = some (parseDbTime (toDbTime next))
    rw [parse_toDbTime]
  · rw [if_neg (Nat.succ_ne_zero k), h.next]
    show some row.nextRunAt = some (toDbTime (parseDbTime row.nextRunAt))
    rw [toDbTime_parse]
  · rw [hjobs, List.map_append, List.range'_concat, List.map_append]
    refine h.jobs.append ?_
    simp [Nat.add_comm 1 k, h.next, Sqlite.occurrenceRow]

/-- The schedule at its creation. -/
theorem created_occurrences {pre : History Event Store} (hr : Run deps engine pre)
    (hf : FreshRun pre)
    (hstep : RunStep deps engine pre (.call (.createSchedule c S request m t) (.ok .done)) s')
    (hfe : Event.Fresh pre (.call (.createSchedule c S request m t) (.ok .done))) :
    (∃ row, Occurrences deps S c request m t s' 0 row) ∧ s'.ofSchedule S = [] := by
  obtain ⟨-, hnone⟩ := unborn hr hf hfe
  obtain ⟨-, ⟨r, hx, -⟩ | ⟨err, herr, -⟩⟩ := hstep.call_cases
  · have hx' : ∃ u, Sqlite.createScheduleTxn deps c S request m t (present pre) = .ok (u, s') := by
      cases engine <;> obtain ⟨u, hx, -⟩ := reply_ok.1 hx <;> exact ⟨u, hx⟩
    obtain ⟨u, hx⟩ := hx'
    obtain ⟨next, s₀, hn, hx⟩ := Tx.bind_eq_ok.1 hx
    obtain ⟨hnext, rfl⟩ := Tx.ofExcept_eq_ok.1 hn
    obtain ⟨hfree, hrow, hjobs⟩ := schedule?_insert (S := S) hx
    have hempty : s'.ofSchedule S = [] := by
      rw [Store.ofSchedule, hjobs]
      exact hnone
    rw [show (present pre).schedule? S = none from hfree, if_pos rfl, Option.none_or] at hrow
    refine ⟨⟨_, hrow, rfl, rfl, rfl, rfl, rfl, ?_, rfl, ?_⟩, hempty⟩
    · show (some c).bind _ = some (parseDbTime (toDbTime next))
      rw [parse_toDbTime]
      exact nextCronRun_ok hnext
    · rw [hempty]
      exact List.Perm.nil
  · cases herr

/-- The fixed columns of a job of the schedule are those of one it had before. -/
theorem SameSchedule.mem {s' : Store} (hs : SameSchedule S s s') {j' : JobRow}
    (hj : j' ∈ s'.ofSchedule S) : ∃ j ∈ s.ofSchedule S, j'.fixed = j.fixed := by
  obtain ⟨j, hm, he⟩ := List.mem_map.1 (hs.jobs.mem_iff.1 (List.mem_map_of_mem hj))
  exact ⟨j, hm, he.symm⟩

/-- From its creation on a schedule that is neither patched nor deleted has its first `k`
occurrences. -/
theorem schedule_occurrences (hlater : ∀ e t t', deps.croniter e t = some t' → t < t')
    {x₀ : Entry Event Store} {pre : History Event Store}
    (hx₀ : x₀.event = .call (.createSchedule c S request m t) (.ok .done)) :
    ∀ {post : History Event Store}, Run deps engine (post ++ x₀ :: pre) →
      FreshRun (post ++ x₀ :: pre) → (∀ x ∈ post, ¬ x.event.touches S) →
      ∃ k row, Occurrences deps S c request m t (present (post ++ x₀ :: pre)) k row ∧
        ∀ j ∈ (present (post ++ x₀ :: pre)).ofSchedule S,
          CreatedByPass row (post ++ x₀ :: pre) j
  | [], hr, hf, _ => by
    have hstep : RunStep deps engine pre x₀.event x₀.after := Valid.head hr
    have hfe : x₀.event.Fresh pre := hf.1
    rw [hx₀] at hstep hfe
    obtain ⟨⟨row, ho⟩, hnone⟩ := created_occurrences (Valid.tail hr) hf.2 hstep hfe
    refine ⟨0, row, ho, fun j hj => ?_⟩
    rw [show (present ([] ++ x₀ :: pre)).ofSchedule S = [] from hnone] at hj
    exact absurd hj List.not_mem_nil
  | x :: post, hr, hf, hnt => by
    have hr' : Run deps engine (post ++ x₀ :: pre) := Valid.tail hr
    have hs := Run.sound hr'
    have hstep : RunStep deps engine (post ++ x₀ :: pre) x.event x.after := Valid.head hr
    obtain ⟨hntx, hnt⟩ := List.forall_mem_cons.1 hnt
    obtain ⟨k, row, ho, hjobs⟩ := schedule_occurrences hlater hx₀ hr' hf.2 hnt
    have hid : row.id = S := (lookup_some ho.found).2
    rcases hs.schedule_cases hstep hf.1 S with hsame | hcr | ⟨htouch, -⟩ | ⟨row', hrow', hserved⟩
    · refine ⟨k, row, ho.same hsame, fun j' hj' => ?_⟩
      obtain ⟨j, hj, hfix⟩ := hsame.mem hj'
      exact (hjobs j hj).later hfix x rfl rfl rfl rfl
    · -- the id of the schedule is not generated twice
      have hnever : ¬ x₀.event.creates S := by
        have hfresh := hf.1
        unfold Event.Fresh at hfresh
        unfold Event.creates at hcr
        split at hcr
        · rename_i heq
          simp only [heq] at hfresh
          subst hcr
          exact hfresh x₀ (List.mem_append_right _ (List.mem_cons_self ..))
        · exact hcr.elim
      rw [hx₀] at hnever
      exact absurd rfl hnever
    · exact absurd htouch hntx
    · rw [ho.found] at hrow'
      cases hrow'
      obtain ⟨skipped, now, uuids, limit, n, next, id, hev, hdue, hnext, hnew, hrow, hnewJobs⟩ :=
        hserved
      have ho' := ho.served hlater hnext hrow hnewJobs
      refine ⟨k + 1, _, ho', fun j' hj' => ?_⟩
      rw [if_neg (ho.not_occurred hlater), hid] at hnewJobs
      rw [show (present (x :: post ++ x₀ :: pre)).ofSchedule S = _ from hnewJobs] at hj'
      rcases List.mem_append.1 hj' with hj | hj
      · exact (hjobs j' hj).later rfl x rfl rfl rfl rfl
      · rw [List.mem_singleton.1 hj]
        have hok := (Run.sound hr).ok
        have hmem : Sqlite.occurrenceRow now id row ∈ x.after.jobs := by
          have hm : Sqlite.occurrenceRow now id row ∈ x.after.ofSchedule S := by
            rw [hnewJobs]
            exact List.mem_append_right _ (List.mem_cons_self ..)
          exact (List.mem_filter.1 hm).1
        refine ⟨rfl, rfl, rfl, rfl, [], x, post ++ x₀ :: pre, rfl, skipped, now, uuids, limit, n,
          Sqlite.occurrenceRow now id row, hev, lookup_eq_none.2 hnew, hok.job?_mem hmem, rfl, rfl,
          hdue⟩

end

/-- Every run: a schedule's occurrence has at most one job and the passes' results add up to the jobs
they created; and a schedule has, as long as it is not patched or deleted, exactly its first `k`
occurrences. -/
theorem one_job_per_occurrence (hlater : ∀ e t t', deps.croniter e t = some t' → t < t')
    (hr : Run deps engine h) (hf : FreshRun h) :
    (present h).jobs.Pairwise (fun a b => a.sameOccurrence b = false) ∧
    (h.map fun x => x.event.returned).sum = (present h).created ∧
    ∀ post x₀ pre S c request m t, h = post ++ x₀ :: pre →
      x₀.event = .call (.createSchedule c S request m t) (.ok .done) →
      (∀ x ∈ post, ¬ x.event.touches S) →
      ∃ k row, Occurrences deps S c request m t (present h) k row ∧
        ∀ j ∈ (present h).ofSchedule S, CreatedByPass row h j := by
  refine ⟨(Run.sound hr).ok.jobs.imp fun hc => ?_, returned_sum hr hf, ?_⟩
  · simp only [JobRow.clash, Bool.or_eq_false_iff] at hc
    exact hc.2
  · rintro post x₀ pre S c request m t rfl hx₀ hnt
    exact schedule_occurrences hlater hx₀ hr hf hnt

end

def sampleSchedule : ScheduleCreate where
  name := "every minute"
  cronExpression := "* * * * *"
  payload := []
  priority := 0
  maxRetries := none
  timeoutSeconds := none
  name_length := by decide
  cron_length := by decide
  priority_range := priority_default
  maxRetries_le := maxRetries_default
  timeout_pos := timeout_default

/-- A schedule and, a minute later, its first pass. -/
def samplePass : History Event Store :=
  afterCall sampleDeps .sqlite
    (afterCall sampleDeps .sqlite [] (.createSchedule (sampleTime 0) "s" sampleSchedule 1 300))
    (.materialize (fun _ => false) (sampleTime 60) (fun _ => "j") 1)

theorem one_job_per_occurrence_pass :
    ∃ k row, Occurrences sampleDeps "s" (sampleTime 0) sampleSchedule 1 300 (present samplePass)
      k row ∧ ∀ j ∈ (present samplePass).ofSchedule "s", CreatedByPass row samplePass j := by
  have hrun : Run sampleDeps .sqlite samplePass :=
    Run.afterCall (Run.afterCall .nil (Allowed.of_none rfl)) (Allowed.of_none rfl)
  have hfresh : FreshRun samplePass :=
    ⟨⟨fun _ _ _ o ho => absurd ho List.not_mem_nil, by decide⟩,
      fun x hx => absurd hx List.not_mem_nil, trivial⟩
  refine (one_job_per_occurrence sampleDeps_later hrun hfresh).2.2
    [samplePass.head (by simp [samplePass, afterCall])] _ [] "s" (sampleTime 0) sampleSchedule 1 300
    rfl rfl fun x hx => ?_
  rw [List.mem_singleton.1 hx]
  exact id

end PulseQueue
