import PulseQueue.Proof.Runs

/-!
# Scheduler passes

What `materialize_due_schedules` does, once and in repeated passes. With fresh ids the Postgres loop is
the SQLite loop (`Postgres.materializeRows_eq`). A pass raises exactly if the next occurrence of some
schedule that it reads cannot be computed (`materializeRows_ok_iff`); else each of them gets its
occurrence and its cursor moves (`pass_row`), and the others stay as they are (`pass_other`). So a
schedule with no next date is in the way of all others; when repeated passes get by is
`materialize_unblocked_iff`.
-/

namespace PulseQueue

open Txn Table

/-- The schedule of `row` after its due occurrence. -/
def ScheduleRow.advanced (row : ScheduleRow) (next now : UtcTime) (r : ScheduleRow) : ScheduleRow :=
  { r with lastRunAt := some row.nextRunAt, nextRunAt := toDbTime next, updatedAt := toDbTime now }

/-- The occurrence after the due one can be computed. -/
def Computable (deps : Deps) (row : ScheduleRow) : Prop :=
  ∃ next, nextCronRun deps row.cronExpression (parseDbTime row.nextRunAt) = .ok next

/-- The jobs of a schedule. -/
def Store.ofSchedule (s : Store) (id : String) : List JobRow :=
  s.jobs.filter fun r => r.scheduleId == some id

section
variable {deps : Deps} {s s' : Store} {now : UtcTime} {uuids : Nat → String}

/-! ## Inserting an occurrence -/

/-- The row, unless its occurrence has one. -/
def insertOccurrence (r : JobRow) : Body Nat := fun s =>
  if s.jobs.any r.sameOccurrence then .ok (0, s) else .ok (1, { s with jobs := s.jobs ++ [r] })

theorem any_clash_occurrence {id : String} {row : ScheduleRow} (h : ∀ o ∈ s.jobs, o.id ≠ id) :
    s.jobs.any (Sqlite.occurrenceRow now id row).clash =
      s.jobs.any (Sqlite.occurrenceRow now id row).sameOccurrence := by
  rw [Bool.eq_iff_iff, List.any_eq_true, List.any_eq_true]
  refine exists_congr fun o => and_congr_right fun ho => ?_
  have hid : id ≠ o.id := (h o ho).symm
  simp [JobRow.clash, JobRow.sameKey, Sqlite.occurrenceRow, sqlEq, hid]

theorem insertJobOrIgnore_occurrence {id : String} {row : ScheduleRow}
    (h : ∀ o ∈ s.jobs, o.id ≠ id) :
    insertJobOrIgnore (Sqlite.occurrenceRow now id row) s =
      insertOccurrence (Sqlite.occurrenceRow now id row) s := by
  unfold insertJobOrIgnore insertOccurrence
  rw [any_clash_occurrence h]

theorem insertJobOnConflictDoNothing_occurrence {id : String} {row : ScheduleRow}
    (h : ∀ o ∈ s.jobs, o.id ≠ id) :
    insertJobOnConflictDoNothing (Sqlite.occurrenceRow now id row) s =
      insertOccurrence (Sqlite.occurrenceRow now id row) s := by
  unfold insertJobOnConflictDoNothing insertOccurrence
  rw [any_clash_occurrence h]
  split <;> rfl

/-- The occurrence has a job. -/
def Store.Occurred (s : Store) (row : ScheduleRow) : Prop :=
  ∃ o ∈ s.ofSchedule row.id, o.scheduledFor = some row.nextRunAt

instance (row : ScheduleRow) : Decidable (s.Occurred row) := by
  unfold Store.Occurred
  infer_instance

theorem any_sameOccurrence {id : String} {row : ScheduleRow} :
    s.jobs.any (Sqlite.occurrenceRow now id row).sameOccurrence = true ↔ s.Occurred row := by
  simp only [Store.Occurred, Store.ofSchedule, List.any_eq_true, List.mem_filter, beq_iff_eq,
    JobRow.sameOccurrence, Sqlite.occurrenceRow, Bool.and_eq_true, and_assoc, sqlEq_comm (some _),
    sqlEq_some]

theorem insertOccurrence_eq {id : String} {row : ScheduleRow} :
    insertOccurrence (Sqlite.occurrenceRow now id row) s =
      .ok (if s.Occurred row then 0 else 1, { s with
        jobs := if s.Occurred row then s.jobs else s.jobs ++ [Sqlite.occurrenceRow now id row] }) := by
  unfold insertOccurrence
  simp only [any_sameOccurrence]
  split <;> rfl

/-! ## The loop -/

/-- The store after one iteration. -/
def Store.materialized (s : Store) (now : UtcTime) (id : String) (row : ScheduleRow)
    (next : UtcTime) : Store :=
  { s with
    jobs := if s.Occurred row then s.jobs else s.jobs ++ [Sqlite.occurrenceRow now id row]
    recurringSchedules := updateWhere (·.id == row.id) (row.advanced next now)
      s.recurringSchedules }

/-- One iteration whose next occurrence can be computed. -/
theorem materializeRows_cons {row : ScheduleRow} {rows : List ScheduleRow} {i n : Nat}
    (h : ∀ o ∈ s.jobs, o.id ≠ uuids i) {next : UtcTime}
    (hnext : nextCronRun deps row.cronExpression (parseDbTime row.nextRunAt) = .ok next) :
    Sqlite.materializeRows deps now uuids i n (row :: rows) s =
      Sqlite.materializeRows deps now uuids (i + 1) (n + if s.Occurred row then 0 else 1) rows
        (s.materialized now (uuids i) row next) := by
  show (insertJobOrIgnore (Sqlite.occurrenceRow now (uuids i) row) >>= _) s = _
  rw [Tx.bind_ok ((insertJobOrIgnore_occurrence h).trans insertOccurrence_eq), hnext]
  unfold Store.materialized
  by_cases ho : s.Occurred row
  · simp only [ho, if_true]
    rfl
  · simp only [ho, if_false]
    rfl

/-- One iteration whose next occurrence cannot be computed. -/
theorem materializeRows_stuck {row : ScheduleRow} {rows : List ScheduleRow} {i n : Nat}
    (h : ¬ Computable deps row) :
    ∃ e, Sqlite.materializeRows deps now uuids i n (row :: rows) s = .error e := by
  cases hnext : nextCronRun deps row.cronExpression (parseDbTime row.nextRunAt) with
  | ok next => exact absurd ⟨next, hnext⟩ h
  | error e =>
    refine ⟨e, ?_⟩
    show (insertJobOrIgnore (Sqlite.occurrenceRow now (uuids i) row) >>= _) s = _
    rw [Tx.bind_run]
    unfold insertJobOrIgnore
    split
    · rename_i a s₁ heq
      rw [hnext]
      rfl
    · rename_i heq
      split at heq <;> cases heq

theorem FreshIds.head {i n : Nat} (h : FreshIds uuids i n s) (hi : i < n) :
    ∀ o ∈ s.jobs, o.id ≠ uuids i := h.new i (Nat.le_refl i) hi

theorem FreshIds.materialized {i n : Nat} (h : FreshIds uuids i n s) (hi : i < n) (t : UtcTime)
    (row : ScheduleRow) (next : UtcTime) :
    FreshIds uuids (i + 1) n (s.materialized t (uuids i) row next) := by
  refine ⟨fun k hk hkn o ho => ?_, h.inj⟩
  have hold : ∀ o ∈ s.jobs, o.id ≠ uuids k := h.new k (by omega) hkn
  simp only [Store.materialized] at ho
  split at ho
  · exact hold o ho
  · rcases List.mem_append.1 ho with ho | ho
    · exact hold o ho
    · rw [List.mem_singleton.1 ho]
      intro he
      have := h.inj i hi k hkn he
      omega

/-- The first iteration of a pass that does not raise. -/
theorem materializeRows_inv {row : ScheduleRow} {rows : List ScheduleRow} {i m m' n : Nat}
    (hf : FreshIds uuids i n s) (hi : i < n)
    (hx : Sqlite.materializeRows deps now uuids i m (row :: rows) s = .ok (m', s')) :
    ∃ next, nextCronRun deps row.cronExpression (parseDbTime row.nextRunAt) = .ok next ∧
      FreshIds uuids (i + 1) n (s.materialized now (uuids i) row next) ∧
      Sqlite.materializeRows deps now uuids (i + 1) (m + if s.Occurred row then 0 else 1) rows
        (s.materialized now (uuids i) row next) = .ok (m', s') := by
  by_cases hc : Computable deps row
  · obtain ⟨next, hnext⟩ := hc
    rw [materializeRows_cons (hf.head hi) hnext] at hx
    exact ⟨next, hnext, hf.materialized hi now row next, hx⟩
  · obtain ⟨e, he⟩ := materializeRows_stuck hc
    rw [he] at hx
    cases hx

/-- With fresh ids both loops are the same. -/
theorem Postgres.materializeRows_eq : ∀ (rows : List ScheduleRow) {s : Store} {i m n : Nat},
    FreshIds uuids i n s → i + rows.length ≤ n →
    Postgres.materializeRows deps now uuids i m rows s =
      Sqlite.materializeRows deps now uuids i m rows s
  | [], _, _, _, _, _, _ => rfl
  | row :: rows, s, i, m, n, hf, hn => by
    simp only [List.length_cons] at hn
    have hnew := hf.head (by omega)
    show (insertJobOnConflictDoNothing (Sqlite.occurrenceRow now (uuids i) row) >>= _) s = _
    rw [Tx.bind_ok ((insertJobOnConflictDoNothing_occurrence hnew).trans insertOccurrence_eq)]
    cases hnext : nextCronRun deps row.cronExpression (parseDbTime row.nextRunAt) with
    | error e =>
      show _ = (insertJobOrIgnore (Sqlite.occurrenceRow now (uuids i) row) >>= _) s
      rw [Tx.bind_ok ((insertJobOrIgnore_occurrence hnew).trans insertOccurrence_eq), hnext]
      rfl
    | ok next =>
      rw [materializeRows_cons hnew hnext]
      exact Postgres.materializeRows_eq rows (hf.materialized (by omega) now row next) (by omega)

/-- A pass raises exactly if some next occurrence cannot be computed. -/
theorem materializeRows_ok_iff : ∀ (rows : List ScheduleRow) {s : Store} {i m n : Nat},
    FreshIds uuids i n s → i + rows.length ≤ n →
    ((∃ r, Sqlite.materializeRows deps now uuids i m rows s = .ok r) ↔
      ∀ row ∈ rows, Computable deps row)
  | [], _, _, m, _, _, _ => ⟨fun _ row h => absurd h List.not_mem_nil, fun _ => ⟨_, rfl⟩⟩
  | row :: rows, s, i, m, n, hf, hn => by
    simp only [List.length_cons] at hn
    rw [List.forall_mem_cons]
    by_cases hc : Computable deps row
    · obtain ⟨next, hnext⟩ := hc
      rw [materializeRows_cons (hf.head (by omega)) hnext]
      rw [materializeRows_ok_iff rows (hf.materialized (by omega) now row next) (by omega)]
      exact ⟨fun h => ⟨⟨next, hnext⟩, h⟩, fun h => h.2⟩
    · obtain ⟨e, he⟩ : ∃ e, Sqlite.materializeRows deps now uuids i m (row :: rows) s = .error e :=
        materializeRows_stuck hc
      rw [he]
      constructor
      · rintro ⟨r, hr⟩
        cases hr
      · exact fun h => absurd h.1 hc

/-! ## One schedule in a pass -/

theorem schedule?_materialized (s : Store) (id : String) (row : ScheduleRow) (next : UtcTime)
    (S : String) : (s.materialized now id row next).schedule? S =
      if S = row.id then (s.schedule? S).map (row.advanced next now) else s.schedule? S := by
  show lookup ScheduleRow.id S (updateWhere (·.id == row.id) (row.advanced next now)
    s.recurringSchedules) = _
  rw [lookup_updateWhere (f := row.advanced next now) fun _ _ => rfl]
  show (s.schedule? S).map _ = _
  cases hr : s.schedule? S with
  | none => simp
  | some r =>
    have hid : r.id = S := (lookup_some hr).2
    by_cases he : S = row.id <;> simp [hid, he]

theorem ofSchedule_materialized (s : Store) (id : String) (row : ScheduleRow) (next : UtcTime)
    (S : String) : (s.materialized now id row next).ofSchedule S =
      s.ofSchedule S ++
        if S = row.id ∧ ¬ s.Occurred row then [Sqlite.occurrenceRow now id row] else [] := by
  unfold Store.ofSchedule Store.materialized
  by_cases ho : s.Occurred row
  · simp [ho]
  · simp only [ho, if_false, not_false_eq_true, and_true, List.filter_append]
    by_cases he : S = row.id
    · simp [Sqlite.occurrenceRow, he]
    · simp [Sqlite.occurrenceRow, he, Ne.symm he]

/-- A schedule that is not in the pass stays as it is. -/
theorem pass_other {S : String} : ∀ (rows : List ScheduleRow) {s s' : Store} {i m m' n : Nat},
    FreshIds uuids i n s → i + rows.length ≤ n → (∀ row ∈ rows, row.id ≠ S) →
    Sqlite.materializeRows deps now uuids i m rows s = .ok (m', s') →
    s'.schedule? S = s.schedule? S ∧ s'.ofSchedule S = s.ofSchedule S
  | [], _, _, _, _, _, _, _, _, _, hx => by
    cases hx
    exact ⟨rfl, rfl⟩
  | row :: rows, s, s', i, m, m', n, hf, hn, hne, hx => by
    simp only [List.length_cons] at hn
    obtain ⟨hrow, hrest⟩ := List.forall_mem_cons.1 hne
    obtain ⟨next, -, hf', hx⟩ := materializeRows_inv hf (by omega) hx
    obtain ⟨h1, h2⟩ := pass_other rows hf' (by omega) hrest hx
    rw [schedule?_materialized, if_neg (Ne.symm hrow)] at h1
    rw [ofSchedule_materialized, if_neg fun h => hrow h.1.symm, List.append_nil] at h2
    exact ⟨h1, h2⟩

/-- A schedule of the pass: its cursor moves, and its occurrence gets a job unless it has one. -/
theorem pass_row {row : ScheduleRow} : ∀ (rows : List ScheduleRow) {s s' : Store}
    {i m m' n : Nat}, FreshIds uuids i n s → i + rows.length ≤ n → (rows.map (·.id)).Nodup →
    row ∈ rows → Sqlite.materializeRows deps now uuids i m rows s = .ok (m', s') →
    ∃ next j, nextCronRun deps row.cronExpression (parseDbTime row.nextRunAt) = .ok next ∧
      (∀ o ∈ s.jobs, o.id ≠ uuids j) ∧
      s'.schedule? row.id = (s.schedule? row.id).map (row.advanced next now) ∧
      s'.ofSchedule row.id = s.ofSchedule row.id ++
        if s.Occurred row then [] else [Sqlite.occurrenceRow now (uuids j) row]
  | [], _, _, _, _, _, _, _, _, _, hrow, _ => absurd hrow List.not_mem_nil
  | row' :: rows, s, s', i, m, m', n, hf, hn, hnd, hrow, hx => by
    simp only [List.length_cons] at hn
    simp only [List.map_cons, List.nodup_cons] at hnd
    have hnew := hf.head (show i < n by omega)
    obtain ⟨next, hnext, hf', hx⟩ := materializeRows_inv hf (by omega) hx
    rcases List.mem_cons.1 hrow with rfl | hrow
    · -- the rest of the pass is about other schedules
      have hne : ∀ r ∈ rows, r.id ≠ row.id := fun r hr he =>
        hnd.1 (he ▸ List.mem_map_of_mem hr)
      obtain ⟨h1, h2⟩ := pass_other rows hf' (by omega) hne hx
      rw [schedule?_materialized, if_pos rfl] at h1
      rw [ofSchedule_materialized] at h2
      refine ⟨next, i, hnext, hnew, h1, ?_⟩
      rw [h2]
      by_cases ho : s.Occurred row <;> simp [ho]
    · have hne : row.id ≠ row'.id := fun he => hnd.1 (he ▸ List.mem_map_of_mem hrow)
      obtain ⟨next', j, hnext', hj, h1, h2⟩ := pass_row rows hf' (by omega) hnd.2 hrow hx
      have hof : (s.materialized now (uuids i) row' next).ofSchedule row.id =
          s.ofSchedule row.id := by
        rw [ofSchedule_materialized, if_neg fun h => hne h.1, List.append_nil]
      have hocc : (s.materialized now (uuids i) row' next).Occurred row ↔ s.Occurred row := by
        unfold Store.Occurred
        rw [hof]
      rw [schedule?_materialized, if_neg hne] at h1
      refine ⟨next', j, hnext', fun o ho => hj o ?_, h1, ?_⟩
      · simp only [Store.materialized]
        split
        · exact ho
        · exact List.mem_append_left _ ho
      · rw [h2, hof]
        simp only [hocc]

/-- The result of a pass is the number of jobs it created. -/
theorem pass_count : ∀ (rows : List ScheduleRow) {s s' : Store} {i m m' n : Nat},
    FreshIds uuids i n s → i + rows.length ≤ n →
    Sqlite.materializeRows deps now uuids i m rows s = .ok (m', s') →
    ∃ new : List JobRow, s'.jobs = s.jobs ++ new ∧ m' = m + new.length ∧
      ∀ r ∈ new, r.scheduleId.isSome
  | [], _, _, _, _, _, _, _, _, hx => by
    cases hx
    exact ⟨[], by simp, by simp, by simp⟩
  | row :: rows, s, s', i, m, m', n, hf, hn, hx => by
    simp only [List.length_cons] at hn
    obtain ⟨next, -, hf', hx⟩ := materializeRows_inv hf (by omega) hx
    obtain ⟨new, hjobs, hm, hnew⟩ := pass_count rows hf' (by omega) hx
    by_cases ho : s.Occurred row
    · refine ⟨new, ?_, by simpa [ho] using hm, hnew⟩
      simpa [Store.materialized, ho] using hjobs
    · refine ⟨Sqlite.occurrenceRow now (uuids i) row :: new, ?_, ?_, ?_⟩
      · simpa [Store.materialized, ho] using hjobs
      · rw [hm, List.length_cons]
        simp only [ho, if_false]
        omega
      · simpa using ⟨by rfl, hnew⟩

end

/-! ## Passes of both repositories -/

/-- The first `limit` due schedules that a pass reads. -/
def dueSchedules (engine : Engine) (skipped : String → Bool) (now : UtcTime) (limit : Nat)
    (s : Store) : List ScheduleRow :=
  match engine with
  | .sqlite => Sqlite.dueSchedules now limit s
  | .postgres => Postgres.dueSchedules skipped now limit s

/-- The store after a call. -/
def Op.after (deps : Deps) (engine : Engine) (op : Op) (s : Store) : Store :=
  (atomically (op.body deps engine) s).2

section
variable {deps : Deps} {engine : Engine} {s s' : Store} {skipped : String → Bool} {now : UtcTime}
  {uuids : Nat → String} {limit : Nat}

theorem length_dueSchedules : (dueSchedules engine skipped now limit s).length ≤ limit := by
  cases engine <;> exact List.length_take_le ..

theorem mem_dueSchedules {row : ScheduleRow} (h : row ∈ dueSchedules engine skipped now limit s) :
    row ∈ s.recurringSchedules ∧ row.enabled = true ∧ row.nextRunAt ≤ toDbTime now := by
  cases engine <;>
    have hm := List.mem_filter.1 ((orderBy_perm _ _).mem_iff.1 (List.mem_of_mem_take h)) <;>
    simp only [Bool.and_eq_true, decide_eq_true_eq] at hm
  · exact hm
  · exact ⟨hm.1, hm.2.1⟩

/-- When nobody else locks schedules. -/
theorem dueSchedules_eq (hskip : engine = .postgres → ∀ id, skipped id = false) :
    dueSchedules engine skipped now limit s =
      (orderBy dueOrder (s.recurringSchedules.filter fun r => r.enabled && r.nextRunAt ≤ toDbTime now)).take
        limit := by
  cases engine with
  | sqlite => rfl
  | postgres => simp [dueSchedules, Postgres.dueSchedules, hskip rfl]

/-- When the limit covers the table every due schedule is read. -/
theorem mem_dueSchedules_of_length (hlen : s.recurringSchedules.length ≤ limit)
    {row : ScheduleRow} (hrow : row ∈ s.recurringSchedules) (hen : row.enabled = true)
    (hdue : row.nextRunAt ≤ toDbTime now) :
    row ∈ dueSchedules .sqlite skipped now limit s := by
  show row ∈ (orderBy dueOrder _).take limit
  rw [List.take_of_length_le]
  · refine (orderBy_perm _ _).mem_iff.2 (List.mem_filter.2 ⟨hrow, ?_⟩)
    simp [hen, hdue]
  · rw [(orderBy_perm _ _).length_eq]
    exact (List.length_filter_le _ _).trans hlen

theorem dueSchedules_nodup (h : (s.recurringSchedules.map (·.id)).Nodup) :
    ((dueSchedules engine skipped now limit s).map (·.id)).Nodup := by
  cases engine <;>
  · refine List.Nodup.sublist ((List.take_sublist ..).map _) ?_
    exact ((orderBy_perm _ _).map _).nodup_iff.2 (h.sublist (List.filter_sublist.map _))

/-- A due schedule is the row with its id. -/
theorem schedule?_due (h : (s.recurringSchedules.map (·.id)).Nodup) {row : ScheduleRow}
    (hrow : row ∈ dueSchedules engine skipped now limit s) : s.schedule? row.id = some row :=
  lookup_of_mem h (mem_dueSchedules hrow).1

/-- With fresh ids a pass of either repository is the SQLite loop over its due schedules. -/
theorem materialize_body (hf : FreshIds uuids 0 limit s) :
    (Op.materialize skipped now uuids limit).body deps engine s =
      reply .count (Sqlite.materializeRows deps now uuids 0 0
        (dueSchedules engine skipped now limit s)) s := by
  cases engine with
  | sqlite => rfl
  | postgres =>
    have hlen : (dueSchedules .postgres skipped now limit s).length ≤ limit := length_dueSchedules
    exact reply_congr (Postgres.materializeRows_eq (dueSchedules .postgres skipped now limit s) hf
      (by omega))

/-- The store `s'` after a pass that served the due schedule `row`. -/
structure Served (deps : Deps) (s' : Store) (row : ScheduleRow) : Prop where
  job : ∃ j ∈ s'.jobs, j.scheduleId = some row.id ∧ j.scheduledFor = some row.nextRunAt
  cursor : ∃ next r, nextCronRun deps row.cronExpression (parseDbTime row.nextRunAt) = .ok next ∧
    s'.schedule? row.id = some r ∧ r.lastRunAt = some row.nextRunAt ∧ r.nextRunAt = toDbTime next

/-- A pass serves every due schedule, or raises and changes nothing. -/
theorem pass_cases (deps : Deps) (engine : Engine) (skipped : String → Bool) (now : UtcTime)
    (hsch : (s.recurringSchedules.map (·.id)).Nodup)
    (hf : FreshIds uuids 0 limit s) :
    ((∀ row ∈ dueSchedules engine skipped now limit s, Computable deps row) ∧
      ∀ row ∈ dueSchedules engine skipped now limit s,
        Served deps ((Op.materialize skipped now uuids limit).after deps engine s) row) ∨
    ((∃ row ∈ dueSchedules engine skipped now limit s, ¬ Computable deps row) ∧
      (Op.materialize skipped now uuids limit).after deps engine s = s) := by
  have hlen : (dueSchedules engine skipped now limit s).length ≤ limit := length_dueSchedules
  have hiff : (∃ r, Sqlite.materializeRows deps now uuids 0 0
      (dueSchedules engine skipped now limit s) s = .ok r) ↔
      ∀ row ∈ dueSchedules engine skipped now limit s, Computable deps row :=
    materializeRows_ok_iff _ hf (by omega)
  unfold Op.after
  cases hx : Sqlite.materializeRows deps now uuids 0 0
      (dueSchedules engine skipped now limit s) s with
  | ok r =>
    left
    obtain ⟨m, s'⟩ := r
    have hbody : (Op.materialize skipped now uuids limit).body deps engine s =
        .ok (.count m, s') := by
      rw [materialize_body hf]
      exact reply_ok.2 ⟨m, hx, rfl⟩
    rw [atomically_ok hbody]
    refine ⟨hiff.1 ⟨_, hx⟩, fun row hrow => ?_⟩
    obtain ⟨next, j, hnext, -, hcur, hjobs⟩ :=
      pass_row _ hf (by omega) (dueSchedules_nodup hsch) hrow hx
    rw [schedule?_due hsch hrow, Option.map_some] at hcur
    refine ⟨?_, next, _, hnext, hcur, rfl, rfl⟩
    have hocc : ∃ o ∈ s'.ofSchedule row.id, o.scheduledFor = some row.nextRunAt := by
      rw [hjobs]
      by_cases ho : s.Occurred row
      · obtain ⟨o, ho, ht⟩ := ho
        exact ⟨o, List.mem_append_left _ ho, ht⟩
      · exact ⟨_, List.mem_append_right _ (by rw [if_neg ho]; exact List.mem_cons_self ..), rfl⟩
    obtain ⟨o, ho, ht⟩ := hocc
    simp only [Store.ofSchedule, List.mem_filter, beq_iff_eq] at ho
    exact ⟨o, ho.1, ho.2, ht⟩
  | error e =>
    right
    have hbody : (Op.materialize skipped now uuids limit).body deps engine s = .error e := by
      rw [materialize_body hf]
      exact Tx.bind_error hx
    rw [atomically_error hbody]
    refine ⟨?_, rfl⟩
    by_contra hc
    simp only [not_exists, not_and, not_not] at hc
    obtain ⟨r, hr⟩ := hiff.2 hc
    rw [hx] at hr
    cases hr

theorem pass_schedules : ∀ (rows : List ScheduleRow) {s s' : Store} {i m m' n : Nat},
    FreshIds uuids i n s → i + rows.length ≤ n →
    Sqlite.materializeRows deps now uuids i m rows s = .ok (m', s') →
    s'.recurringSchedules.map (·.id) = s.recurringSchedules.map (·.id)
  | [], _, _, _, _, _, _, _, _, hx => by
    cases hx
    rfl
  | row :: rows, s, s', i, m, m', n, hf, hlen, hx => by
    simp only [List.length_cons] at hlen
    obtain ⟨next, -, hf', hx⟩ := materializeRows_inv hf (by omega) hx
    rw [pass_schedules rows hf' (by omega) hx]
    exact map_updateWhere fun r _ => rfl

end

/-! ## Repeated passes -/

/-- What a call of `materialize_due_schedules` works with. -/
structure Pass where
  skipped : String → Bool
  now : UtcTime
  uuids : Nat → String
  limit : Nat

namespace Pass
variable (deps : Deps) (engine : Engine) (p : Pass) (s : Store)

/-- The schedules that the pass reads. -/
def due : List ScheduleRow := dueSchedules engine p.skipped p.now p.limit s

def after : Store := (Op.materialize p.skipped p.now p.uuids p.limit).after deps engine s

/-- There are some, and the next occurrence of each can be computed. -/
def Opens : Prop := p.due engine s ≠ [] ∧ ∀ row ∈ p.due engine s, Computable deps row

/-- That of none can. -/
def Shuts : Prop := ∀ row ∈ p.due engine s, ¬ Computable deps row

/-- An enabled schedule is due, read or not, whose next occurrence can be computed. -/
def Awaited : Prop :=
  ∃ row ∈ s.recurringSchedules, row.enabled = true ∧ row.nextRunAt ≤ toDbTime p.now ∧ Computable deps row

end Pass

section
variable {deps : Deps} {engine : Engine} {p : Pass} {s : Store}

theorem Pass.serves (hsch : (s.recurringSchedules.map (·.id)).Nodup) (hf : FreshIds p.uuids 0 p.limit s)
    (h : p.Opens deps engine s) : ∀ row ∈ p.due engine s, Served deps (p.after deps engine s) row := by
  rcases pass_cases deps engine p.skipped p.now hsch hf with ⟨-, hserved⟩ | ⟨⟨row, hrow, hbad⟩, -⟩
  · exact hserved
  · exact absurd (h.2 row hrow) hbad

/-- A pass that reads no schedule, or one too many, changes nothing. -/
theorem Pass.after_eq (hsch : (s.recurringSchedules.map (·.id)).Nodup) (hf : FreshIds p.uuids 0 p.limit s)
    (h : ¬ p.Opens deps engine s) : p.after deps engine s = s := by
  by_cases hempty : p.due engine s = []
  · have hbody : (Op.materialize p.skipped p.now p.uuids p.limit).body deps engine s = .ok (.count 0, s) := by
      rw [materialize_body hf]
      show reply .count (Sqlite.materializeRows deps p.now p.uuids 0 0 (p.due engine s)) s = _
      rw [hempty]
      rfl
    exact congrArg Prod.snd (atomically_ok hbody)
  · rcases pass_cases deps engine p.skipped p.now hsch hf with ⟨hall, -⟩ | ⟨-, hsame⟩
    · exact absurd ⟨hempty, hall⟩ h
    · exact hsame

/-- A served schedule has a later cursor, so the pass has changed something. -/
theorem Pass.opens_of_served (hlater : ∀ e t t', deps.croniter e t = some t' → t < t')
    (hsch : (s.recurringSchedules.map (·.id)).Nodup) (hf : FreshIds p.uuids 0 p.limit s) {row : ScheduleRow}
    (hrow : row ∈ p.due engine s) (h : Served deps (p.after deps engine s) row) : p.Opens deps engine s := by
  by_contra hnot
  rw [Pass.after_eq hsch hf hnot] at h
  obtain ⟨next, r, hnext, hr, -, hcur⟩ := h.cursor
  rw [schedule?_due hsch hrow] at hr
  cases hr
  have hlt : parseDbTime row.nextRunAt < next := by
    refine hlater row.cronExpression _ _ ?_
    unfold nextCronRun at hnext
    split at hnext
    · rename_i t heq
      cases hnext
      exact heq
    · cases hnext
  rw [hcur, parse_toDbTime] at hlt
  exact absurd hlt (lt_irrefl next)

/-- One pass serves what it can serve exactly if it can serve all that it reads, or nothing of it. -/
theorem Pass.serves_iff (hlater : ∀ e t t', deps.croniter e t = some t' → t < t')
    (hsch : (s.recurringSchedules.map (·.id)).Nodup) (hf : FreshIds p.uuids 0 p.limit s) :
    (∀ row ∈ p.due engine s, Computable deps row → Served deps (p.after deps engine s) row) ↔
      p.Opens deps engine s ∨ p.Shuts deps engine s := by
  constructor
  · intro hserved
    by_cases hopen : p.Opens deps engine s
    · exact .inl hopen
    · exact .inr fun row hrow hc =>
        hopen (Pass.opens_of_served hlater hsch hf hrow (hserved row hrow hc))
  · rintro (hopen | hshut) row hrow hc
    · exact Pass.serves hsch hf hopen row hrow
    · exact absurd hc (hshut row hrow)

theorem Pass.after_schedules (hf : FreshIds p.uuids 0 p.limit s) :
    (p.after deps engine s).recurringSchedules.map (·.id) = s.recurringSchedules.map (·.id) := by
  have hlen : (p.due engine s).length ≤ p.limit := length_dueSchedules
  have hbody : (Op.materialize p.skipped p.now p.uuids p.limit).body deps engine s = _ := materialize_body hf
  cases hx : Sqlite.materializeRows deps p.now p.uuids 0 0 (p.due engine s) s with
  | ok r =>
    obtain ⟨m, s'⟩ := r
    have hok := hbody.trans (reply_ok.2 ⟨m, hx, rfl⟩)
    rw [show p.after deps engine s = s' from congrArg Prod.snd (atomically_ok hok)]
    exact pass_schedules _ hf (by omega) hx
  | error e =>
    have herror := hbody.trans (Tx.bind_error hx)
    rw [show p.after deps engine s = s from congrArg Prod.snd (atomically_error herror)]

end

/-- The store after the first `n` passes. -/
def afterPasses (deps : Deps) (engine : Engine) (p : Nat → Pass) (s : Store) : Nat → Store
  | 0 => s
  | n + 1 => (p n).after deps engine (afterPasses deps engine p s n)

/-- No schedule is in the way of another one: each pass serves all that it can serve, and as long as there
is something that could be served, something will be. -/
structure Unblocked (deps : Deps) (engine : Engine) (p : Nat → Pass) (s : Store) : Prop where
  each : ∀ n, ∀ row ∈ (p n).due engine (afterPasses deps engine p s n), Computable deps row →
    Served deps (afterPasses deps engine p s (n + 1)) row
  ever : ∀ n, (p n).Awaited deps (afterPasses deps engine p s n) → ∃ m ≥ n,
    ∃ row ∈ (p m).due engine (afterPasses deps engine p s m),
      Served deps (afterPasses deps engine p s (m + 1)) row

/-- The pass `n` meets the store `s` and can serve all that it reads or nothing of it; with the schedules as
they are, it or a later pass reads some and can serve all of them, unless no pass is ever awaited. -/
def Clear (deps : Deps) (engine : Engine) (p : Nat → Pass) (n : Nat) (s : Store) : Prop :=
  ((p n).Opens deps engine s ∨ (p n).Shuts deps engine s) ∧
    ((∃ m ≥ n, (p m).Opens deps engine s) ∨ ∀ m ≥ n, ¬ (p m).Awaited deps s)

section
variable {deps : Deps} {engine : Engine} {p : Nat → Pass} {s : Store}

theorem afterPasses_nodup (hsch : (s.recurringSchedules.map (·.id)).Nodup)
    (hf : ∀ n, FreshIds (p n).uuids 0 (p n).limit (afterPasses deps engine p s n)) (n : Nat) :
    ((afterPasses deps engine p s n).recurringSchedules.map (·.id)).Nodup := by
  induction n with
  | zero => exact hsch
  | succ n ih =>
    rw [afterPasses, Pass.after_schedules (hf n)]
    exact ih

/-- Until a pass opens nothing changes. -/
theorem afterPasses_idle (hsch : (s.recurringSchedules.map (·.id)).Nodup)
    (hf : ∀ n, FreshIds (p n).uuids 0 (p n).limit (afterPasses deps engine p s n)) {n m : Nat} (hle : n ≤ m)
    (hidle : ∀ k, n ≤ k → k < m → ¬ (p k).Opens deps engine (afterPasses deps engine p s k)) :
    afterPasses deps engine p s m = afterPasses deps engine p s n := by
  induction m, hle using Nat.le_induction with
  | base => rfl
  | succ m hle ih =>
    rw [afterPasses, Pass.after_eq (afterPasses_nodup hsch hf m) (hf m) (hidle m hle (Nat.lt_succ_self m))]
    exact ih fun k hk hlt => hidle k hk (Nat.lt_succ_of_lt hlt)

/-- Whether a pass will open can be told from the schedules as they are. -/
theorem opens_later_iff (hsch : (s.recurringSchedules.map (·.id)).Nodup)
    (hf : ∀ n, FreshIds (p n).uuids 0 (p n).limit (afterPasses deps engine p s n)) (n : Nat) :
    (∃ m ≥ n, (p m).Opens deps engine (afterPasses deps engine p s m)) ↔
      ∃ m ≥ n, (p m).Opens deps engine (afterPasses deps engine p s n) := by
  by_cases hnone : ∀ k ≥ n, ¬ (p k).Opens deps engine (afterPasses deps engine p s k)
  · have hsame : ∀ m ≥ n, afterPasses deps engine p s m = afterPasses deps engine p s n :=
      fun m hm => afterPasses_idle hsch hf hm fun k hk _ => hnone k hk
    exact exists_congr fun m => and_congr_right fun hm => by rw [hsame m hm]
  · simp only [not_forall, not_not] at hnone
    obtain ⟨k, hk, hopen⟩ := hnone
    -- the first pass that opens meets the schedules as they are
    classical
    have hex : ∃ m, n ≤ m ∧ (p m).Opens deps engine (afterPasses deps engine p s m) := ⟨k, hk, hopen⟩
    obtain ⟨hle, hfirst⟩ := Nat.find_spec hex
    have hsame : afterPasses deps engine p s (Nat.find hex) = afterPasses deps engine p s n :=
      afterPasses_idle hsch hf hle fun j hj hlt hjopen => Nat.find_min hex hlt ⟨hj, hjopen⟩
    rw [hsame] at hfirst
    exact ⟨fun _ => ⟨_, hle, hfirst⟩, fun _ => ⟨k, hk, hopen⟩⟩

theorem unblocked_iff_clear (hlater : ∀ e t t', deps.croniter e t = some t' → t < t')
    (hsch : (s.recurringSchedules.map (·.id)).Nodup)
    (hf : ∀ n, FreshIds (p n).uuids 0 (p n).limit (afterPasses deps engine p s n)) :
    Unblocked deps engine p s ↔ ∀ n, Clear deps engine p n (afterPasses deps engine p s n) := by
  have hnodup := afterPasses_nodup hsch hf
  have hone : ∀ n, (∀ row ∈ (p n).due engine (afterPasses deps engine p s n), Computable deps row →
      Served deps ((p n).after deps engine (afterPasses deps engine p s n)) row) ↔ _ :=
    fun n => Pass.serves_iff hlater (hnodup n) (hf n)
  constructor
  · intro h n
    refine ⟨(hone n).1 (h.each n), ?_⟩
    by_contra hc
    simp only [not_or, not_exists, not_and, not_forall, not_not] at hc
    obtain ⟨hnever, m, hm, hawaited⟩ := hc
    have hshut : ∀ k ≥ n, ¬ (p k).Opens deps engine (afterPasses deps engine p s k) := fun k hk hopen => by
      obtain ⟨j, hj, hjopen⟩ := (opens_later_iff hsch hf n).1 ⟨k, hk, hopen⟩
      exact hnever j hj hjopen
    rw [← afterPasses_idle hsch hf hm fun k hk _ => hshut k hk] at hawaited
    obtain ⟨k, hk, row, hrow, hserved⟩ := h.ever m hawaited
    exact hshut k (hm.trans hk) (Pass.opens_of_served hlater (hnodup k) (hf k) hrow hserved)
  · intro h
    refine ⟨fun n => (hone n).2 (h n).1, fun n hawaited => ?_⟩
    rcases (h n).2 with hopens | hnone
    · obtain ⟨m, hm, hopen⟩ := (opens_later_iff hsch hf n).2 hopens
      obtain ⟨row, hrow⟩ := List.exists_mem_of_ne_nil _ hopen.1
      exact ⟨m, hm, row, hrow, Pass.serves (hnodup m) (hf m) hopen row hrow⟩
    · exact absurd hawaited (hnone n le_rfl)

/-- A pass that can serve nothing of what it reads leaves the oldest schedules to every later one. -/
theorem Pass.shut_for_good {p q : Pass} (hp : engine = .postgres → ∀ id, p.skipped id = false)
    (hq : engine = .postgres → ∀ id, q.skipped id = false) (hle : p.now ≤ q.now) (hne : p.due engine s ≠ [])
    (hshut : p.Shuts deps engine s) : ¬ q.Opens deps engine s := by
  unfold Pass.Shuts at hshut
  rw [Pass.due, dueSchedules_eq hp] at hne hshut
  rintro ⟨hne', hall⟩
  rw [Pass.due, dueSchedules_eq hq] at hne' hall
  have hprefix := @orderBy_upTo _ _ _ ScheduleRow.nextRunAt (·.enabled) _ _ (toDbTime_le.2 hle)
    s.recurringSchedules
  cases hrows : orderBy dueOrder (s.recurringSchedules.filter fun r => r.enabled &&
      r.nextRunAt ≤ toDbTime p.now) with
  | nil => simp [hrows] at hne
  | cons row rows =>
    obtain ⟨rest, hrest⟩ := hprefix
    have hfirst : orderBy dueOrder (s.recurringSchedules.filter fun r => r.enabled &&
        r.nextRunAt ≤ toDbTime q.now) = row :: (rows ++ rest) := by
      rw [← List.cons_append, ← hrows]
      exact hrest.symm
    have hlimit : ∀ {l : List ScheduleRow} {n : Nat}, (row :: l).take n ≠ [] → row ∈ (row :: l).take n := by
      intro l n hn
      cases n with
      | zero => exact absurd rfl hn
      | succ n => exact List.mem_cons_self ..
    rw [hrows] at hne hshut
    rw [hfirst] at hne' hall
    exact hshut row (hlimit hne) (hall row (hlimit hne'))

/-- Repeated passes, each with a clock, a limit and locked rows of its own, are unblocked exactly if
each of them is clear when its turn comes. When nobody else locks schedules and the clock does not run
backwards, a pass that can serve nothing of what it reads is the last one to try: nothing changes any
more. -/
theorem materialize_unblocked_iff (hlater : ∀ e t t', deps.croniter e t = some t' → t < t')
    (hsch : (s.recurringSchedules.map (·.id)).Nodup)
    (hf : ∀ n, FreshIds (p n).uuids 0 (p n).limit (afterPasses deps engine p s n)) :
    (Unblocked deps engine p s ↔ ∀ n, Clear deps engine p n (afterPasses deps engine p s n)) ∧
      ((engine = .postgres → ∀ n id, (p n).skipped id = false) → Monotone (fun n => (p n).now) →
        ∀ n, (p n).due engine (afterPasses deps engine p s n) ≠ [] →
          (p n).Shuts deps engine (afterPasses deps engine p s n) →
            ∀ m ≥ n, afterPasses deps engine p s m = afterPasses deps engine p s n) := by
  refine ⟨unblocked_iff_clear hlater hsch hf, fun hskip hclock n hne hshut m hm => ?_⟩
  refine afterPasses_idle hsch hf hm fun k hk _ hopen => ?_
  obtain ⟨j, hj, hjopen⟩ := (opens_later_iff hsch hf n).1 ⟨k, hk, hopen⟩
  exact Pass.shut_for_good (fun he => hskip he n) (fun he => hskip he j) (hclock hj) hne hshut hjopen

end

/-! ## A blocked pass -/

theorem midnight_lt : 63869558400000000 < maxMicros := by decide

theorem beforeMidnight_lt : 63869558300000000 < maxMicros := by decide

/-- Due at midnight, and never again. -/
def endedSchedule : ScheduleRow where
  id := "a"
  name := "once"
  cronExpression := "0 0 12 12 * 0 2024"
  timezone := "UTC"
  payload := "{}"
  priority := 0
  maxRetries := 1
  timeoutSeconds := 300
  enabled := true
  nextRunAt := toDbTime ⟨63869558400000000, midnight_lt⟩
  lastRunAt := none
  createdAt := toDbTime ⟨63869558300000000, beforeMidnight_lt⟩
  updatedAt := toDbTime ⟨63869558300000000, beforeMidnight_lt⟩

/-- Due every minute. -/
def minuteSchedule : ScheduleRow :=
  { endedSchedule with
    id := "b", name := "every minute", cronExpression := "* * * * *"
    nextRunAt := toDbTime (sampleTime 0) }

def blockedStore : Store :=
  { Store.empty with recurringSchedules := [endedSchedule, minuteSchedule] }

theorem endedSchedule_stuck : ¬ Computable sampleDeps endedSchedule := by
  rintro ⟨next, h⟩
  cases h

theorem mem_blockedStore (n : Fin 1000) {row : ScheduleRow}
    (h : row = endedSchedule ∨ row = minuteSchedule) :
    row ∈ dueSchedules .sqlite (fun _ => false) (sampleTime n) 100 blockedStore := by
  refine mem_dueSchedules_of_length (by decide) ?_ ?_ ?_
  · rcases h with rfl | rfl <;> simp [blockedStore]
  · rcases h with rfl | rfl <;> rfl
  · rcases h with rfl | rfl <;> refine toDbTime_le.2 (UtcTime.le_iff.2 ?_)
    · show 63869558400000000 ≤ 63869568000000000 + (n : Nat) * 1000000
      omega
    · show 63869568000000000 + 0 * 1000000 ≤ 63869568000000000 + (n : Nat) * 1000000
      omega

/-- The minute schedule is due and its next occurrence can be computed, yet no number of passes at
any later times serves it. -/
theorem materialize_blocked :
    minuteSchedule ∈ dueSchedules .sqlite (fun _ => false) (sampleTime 0) 100 blockedStore ∧
    Computable sampleDeps minuteSchedule ∧
    ∀ (times : Nat → Fin 1000) (uuids : Nat → String), Function.Injective uuids → ∀ n,
      ¬ Served sampleDeps (afterPasses sampleDeps .sqlite
        (fun i => ⟨fun _ => false, sampleTime (times i), uuids, 100⟩) blockedStore n) minuteSchedule := by
  refine ⟨mem_blockedStore 0 (.inr rfl), ⟨sampleTime 60, rfl⟩, fun times uuids hinj n hserved => ?_⟩
  have hsame : afterPasses sampleDeps .sqlite (fun i => ⟨fun _ => false, sampleTime (times i), uuids, 100⟩)
      blockedStore n = blockedStore := by
    clear hserved
    induction n with
    | zero => rfl
    | succ n ih =>
      rw [afterPasses, ih]
      refine Pass.after_eq (by decide) ⟨fun k _ _ o ho => absurd ho List.not_mem_nil,
        fun j _ k _ h => hinj h⟩ fun hopen => ?_
      exact endedSchedule_stuck (hopen.2 _ (mem_blockedStore (times n) (.inl rfl)))
  rw [hsame] at hserved
  obtain ⟨j, hj, -⟩ := hserved.job
  exact absurd hj List.not_mem_nil

/-! ## A pass with nothing in its way -/

def minuteStore : Store := { Store.empty with recurringSchedules := [minuteSchedule] }

/-- Passes at one instant. -/
def minutePasses (n : Nat) : Pass :=
  ⟨fun _ => false, sampleTime 0, fun _ => if n = 0 then "x" else "y", 1⟩

def minuteServed : Store := (minutePasses 0).after sampleDeps .sqlite minuteStore

theorem minuteServed_due (n : Nat) : (minutePasses n).due .sqlite minuteServed = [] := by
  show dueSchedules .sqlite (fun _ => false) (sampleTime 0) 1 minuteServed = []
  decide +kernel

theorem minuteServed_fresh (n : Nat) : FreshIds (minutePasses (n + 1)).uuids 0 1 minuteServed := by
  refine ⟨fun k _ _ => ?_, fun j hj k hk _ => by omega⟩
  show ∀ o ∈ minuteServed.jobs, o.id ≠ "y"
  decide +kernel

theorem minutePasses_after (n : Nat) :
    afterPasses sampleDeps .sqlite minutePasses minuteStore (n + 1) = minuteServed := by
  induction n with
  | zero => rfl
  | succ n ih =>
    rw [afterPasses, ih]
    exact Pass.after_eq (by decide +kernel) (minuteServed_fresh n) fun hopen => hopen.1 (minuteServed_due _)

/-- The first pass serves the minute schedule, and the others wait for its next minute. -/
theorem materialize_unblocked_minute : Unblocked sampleDeps .sqlite minutePasses minuteStore := by
  refine (materialize_unblocked_iff sampleDeps_later (by decide) fun n => ?_).1.2 fun n => ?_
  · cases n with
    | zero => exact ⟨fun k _ _ o ho => absurd ho List.not_mem_nil, fun j hj k hk _ => by
        simp only [minutePasses] at hj hk
        omega⟩
    | succ n =>
      rw [minutePasses_after]
      exact minuteServed_fresh n
  · cases n with
    | zero =>
      have hdue : (minutePasses 0).due .sqlite minuteStore = [minuteSchedule] := by decide +kernel
      have hopen : (minutePasses 0).Opens sampleDeps .sqlite minuteStore := by
        unfold Pass.Opens
        rw [hdue]
        refine ⟨List.cons_ne_nil _ _, fun row hrow => ?_⟩
        rw [List.mem_singleton.1 hrow]
        exact ⟨sampleTime 60, rfl⟩
      exact ⟨.inl hopen, .inl ⟨0, le_rfl, hopen⟩⟩
    | succ n =>
      rw [minutePasses_after]
      refine ⟨.inr fun row hrow => ?_, .inr fun m _ => ?_⟩
      · rw [minuteServed_due] at hrow
        cases hrow
      · rintro ⟨row, hrow, hen, hdue, -⟩
        have hnone : ∀ row ∈ minuteServed.recurringSchedules, ¬ row.nextRunAt ≤ toDbTime (sampleTime 0) := by
          decide +kernel
        exact hnone row hrow hdue

end PulseQueue
