import PulseQueue.Proof.Reenabling
import PulseQueue.Spec.Patching

/-!
# Cursors of schedules

A pass makes the occurrence at `next_run_at` and moves `next_run_at` beyond it. A call of
`set_schedule_enabled` that read the schedule before the pass and writes after it can undo this: a pause
writes back the run that it read. As long as no write comes too late (`PatchCall.InTime`), the last run of
every schedule is before its next one, in every interleaving (`cursors_ahead`): a call that no pass has
overtaken read a cursor after the last run, and its clock reading is not before the last run
(`PatchCall.Sound`).
-/

namespace PulseQueue

open Txn Trace Table

section
variable {deps : Deps} {engine : Engine} {s s' : Store} {c : PatchCall} {S : String}
  {row row' : ScheduleRow}

/-! ## Rows after a step -/

/-- After a creation: the schedule that was there, or one that never ran. -/
theorem schedule?_created {now : UtcTime} {request : ScheduleCreate} {m : Nat} {q : ℚ}
    (hrow' : ((Op.createSchedule now S request m q).after deps engine s).schedule? S = some row') :
    s.schedule? S = some row' ∨ row'.lastRunAt = none := by
  rw [createSchedule_after] at hrow'
  cases hn : nextCronRun deps request.cronExpression now with
  | error e =>
    rw [hn] at hrow'
    exact .inl hrow'
  | ok next =>
    simp only [hn] at hrow'
    split at hrow'
    · exact .inl hrow'
    · right
      rename_i hclash
      have hnone : s.schedule? S = none := by
        refine lookup_eq_none.2 fun r hr hid => hclash ?_
        exact List.any_eq_true.2 ⟨r, hr, beq_iff_eq.2 hid⟩
      have hnew : lookup ScheduleRow.id S
          (s.recurringSchedules ++ [newSchedule deps now S request m q next]) = some row' := hrow'
      have hid : (newSchedule deps now S request m q next).id = S := rfl
      rw [lookup_append_singleton, show lookup ScheduleRow.id S s.recurringSchedules = none from hnone,
        Option.none_or, if_pos hid] at hnew
      cases hnew
      rfl

theorem schedule?_deleted : ((Op.deleteSchedule S).after deps engine s).schedule? S = none := by
  rw [deleteSchedule_after]
  refine lookup_eq_none.2 fun r hr hid => ?_
  have hkept := (List.mem_filter.1 hr).2
  simp [hid] at hkept

theorem schedule?_write {now next : UtcTime} {v : Bool} {S' : String} :
    ((Op.writeSchedule now S v next).after deps engine s).schedule? S' =
      (s.schedule? S').map fun r => if r.id == S then
        { r with enabled := v, nextRunAt := toDbTime next, updatedAt := toDbTime now } else r := by
  rw [writeSchedule_after]
  exact lookup_updateWhere fun _ _ => rfl

/-- After the write of a call: every schedule keeps its last run, and only the call's gets a new one. -/
theorem schedule?_written {now next : UtcTime} {v : Bool} {S' : String}
    (hrow' : ((Op.writeSchedule now S v next).after deps engine s).schedule? S' = some row') :
    ∃ row, s.schedule? S' = some row ∧ row'.lastRunAt = row.lastRunAt ∧
      (S' ≠ S → row'.nextRunAt = row.nextRunAt) ∧ (S' = S → row'.nextRunAt = toDbTime next) := by
  rw [schedule?_write, Option.map_eq_some_iff] at hrow'
  obtain ⟨row, hrow, rfl⟩ := hrow'
  have hid : row.id = S' := (lookup_some hrow).2
  refine ⟨row, hrow, ?_⟩
  by_cases he : S' = S
  · simp [hid, he]
  · simp [hid, he]

/-- The write of a call moves the cursor, if the schedule is still there. -/
theorem cursor?_written {now next : UtcTime} {v : Bool} :
    ((Op.writeSchedule now S v next).after deps engine s).cursor? S =
      (s.cursor? S).map fun _ => toDbTime next := by
  rw [Store.cursor?, Store.cursor?, schedule?_write, Option.map_map, Option.map_map]
  cases hrow : s.schedule? S with
  | none => rfl
  | some row =>
    have hid : row.id = S := (lookup_some hrow).2
    simp [hid]

/-- A schedule that an event leaves behind: the one before, a new one, or one that a pass has served. -/
theorem Sound.row_cases {h : History Event Store} (hs : Sound deps h) {e : Event} {clock : UtcTime}
    (hstep : RunStep deps engine h e s') (hf : e.Fresh h) (ho : e.OtherAt clock)
    (hrow' : s'.schedule? S = some row') :
    (present h).schedule? S = some row' ∨ row'.lastRunAt = none ∨
      ∃ row, (present h).schedule? S = some row ∧ ServedBy deps e (present h) s' row := by
  rcases hs.schedule_cases hstep hf S with hsame | hcreate | ⟨htouch, -⟩ | hserved
  · exact .inl (hsame.row ▸ hrow')
  · cases hstep with
    | abort => exact hcreate.elim
    | reorder => exact hcreate.elim
    | call op ha =>
      cases op with
      | createSchedule now id request m q =>
        cases hcreate
        exact (schedule?_created hrow').imp_right .inl
      | _ => exact hcreate.elim
  · cases hstep with
    | abort => exact htouch.elim
    | reorder => exact htouch.elim
    | call op ha =>
      cases op with
      | writeSchedule => exact ho.elim
      | deleteSchedule id =>
        cases htouch
        cases schedule?_deleted.symm.trans hrow'
      | _ => exact htouch.elim
  · exact .inr (.inr hserved)

/-! ## A call on its way -/

/-- What the last run of its schedule is to a call: before the run that it read and not after its clock
reading, or before what the last pass has written. -/
structure PatchCall.Sound (s : Store) (c : PatchCall) : Prop where
  untouched : c.since = none → ∀ row last, s.schedule? c.current.id = some row → row.lastRunAt = some last →
    last < toDbTime c.current.nextRunAt ∧ ∀ t, c.now = some t → last ≤ toDbTime t
  passed : ∀ n, c.since = some n → ∀ row last, s.schedule? c.current.id = some row →
    row.lastRunAt = some last → last < n

/-- Another store in which the schedule has not run. -/
theorem PatchCall.Sound.of_last (hc : c.Sound s)
    (hlast : ∀ row' last, s'.schedule? c.current.id = some row' → row'.lastRunAt = some last →
      ∃ row, s.schedule? c.current.id = some row ∧ row.lastRunAt = some last) : c.Sound s' := by
  constructor
  · intro hn row' last hrow' hl
    obtain ⟨row, hrow, hl⟩ := hlast row' last hrow' hl
    exact hc.untouched hn row last hrow hl
  · intro n hn row' last hrow' hl
    obtain ⟨row, hrow, hl⟩ := hlast row' last hrow' hl
    exact hc.passed n hn row last hrow hl

theorem nextCronRun_later (hlater : ∀ e t t', deps.croniter e t = some t' → t < t') {e : String}
    {t t' : UtcTime} (h : nextCronRun deps e t = .ok t') : t < t' :=
  hlater e t t' (nextCronRun_ok h)

/-- The run after the one at the cursor is later than the cursor. -/
theorem cursor_lt_next (hlater : ∀ e t t', deps.croniter e t = some t' → t < t') {next : UtcTime}
    (h : nextCronRun deps row.cronExpression (parseDbTime row.nextRunAt) = .ok next) :
    row.nextRunAt < toDbTime next := by
  have hlt := toDbTime_lt.2 (nextCronRun_later hlater h)
  rwa [toDbTime_parse] at hlt

/-- The write of a call that is in time leaves the last run before the new one. -/
theorem PatchCall.Sound.write (hlater : ∀ e t t', deps.croniter e t = some t' → t < t')
    (hc : c.Sound s) {now next : UtcTime} (hnow : c.now = some now)
    (hnext : Sqlite.patchedNextRun deps now c.current c.enabled = .ok next) (hin : c.InTime next)
    (hrow : s.schedule? c.current.id = some row) {last : DbTime} (hl : row.lastRunAt = some last) :
    last < toDbTime next := by
  cases hs : c.since with
  | some n => exact (hc.passed n hs row last hrow hl).trans_le (hin n hs)
  | none =>
    obtain ⟨hread, hclock⟩ := hc.untouched hs row last hrow hl
    unfold Sqlite.patchedNextRun at hnext
    split at hnext
    · exact (hclock now hnow).trans_lt (toDbTime_lt.2 (nextCronRun_later hlater hnext))
    · cases hnext
      exact hread

@[simp] theorem PatchCall.seen_current (e : Event) (s s' : Store) (c : PatchCall) :
    (c.seen e s s').current = c.current := by
  unfold PatchCall.seen
  split
  · split <;> rfl
  · rfl

@[simp] theorem PatchCall.seen_now (e : Event) (s s' : Store) (c : PatchCall) :
    (c.seen e s s').now = c.now := by
  unfold PatchCall.seen
  split
  · split <;> rfl
  · rfl

/-- A schedule that has not moved is no news. -/
theorem PatchCall.seen_same {e : Event} (h : s'.cursor? c.current.id = s.cursor? c.current.id) :
    c.seen e s s' = c := by
  unfold PatchCall.seen
  split
  · rw [if_pos h]
  · rfl

/-- A pass that has served the schedule is. -/
theorem PatchCall.seen_served (hlater : ∀ e t t', deps.croniter e t = some t' → t < t') {e : Event}
    (hrow : s.schedule? c.current.id = some row) (hs : ServedBy deps e s s' row) :
    ∃ next, row.nextRunAt < toDbTime next ∧ c.seen e s s' = { c with since := some (toDbTime next) } ∧
      ∃ now, s'.schedule? c.current.id = some (row.advanced next now row) := by
  obtain ⟨skipped, now, uuids, limit, n, next, id, rfl, -, hnext, -, hrow', -⟩ := hs
  have hid : row.id = c.current.id := (lookup_some hrow).2
  have hlt := cursor_lt_next hlater hnext
  rw [hid] at hrow'
  have hcursor : s.cursor? c.current.id = some row.nextRunAt := by
    rw [Store.cursor?, hrow, Option.map_some]
  have hcursor' : s'.cursor? c.current.id = some (toDbTime next) := by
    rw [Store.cursor?, hrow', Option.map_some]
    rfl
  refine ⟨next, hlt, ?_, now, hrow'⟩
  unfold PatchCall.seen
  rw [hcursor, hcursor', if_neg]
  intro he
  exact absurd (Option.some.inj he) hlt.ne'

/-- Any other event. -/
theorem PatchCall.Sound.other (hlater : ∀ e t t', deps.croniter e t = some t' → t < t')
    {h : History Event Store} (hs : PulseQueue.Sound deps h) {e : Event} {clock : UtcTime}
    (hstep : RunStep deps engine h e s') (hf : e.Fresh h) (ho : e.OtherAt clock)
    (hc : c.Sound (present h)) : (c.seen e (present h) s').Sound s' := by
  have hrows : ∀ row' last, s'.schedule? c.current.id = some row' → row'.lastRunAt = some last →
      (c.seen e (present h) s' = c ∧ (present h).schedule? c.current.id = some row') ∨
        ∃ n, c.seen e (present h) s' = { c with since := some n } ∧ last < n := by
    intro row' last hrow' hl
    rcases hs.row_cases hstep hf ho hrow' with hrow | hnone | ⟨row, hrow, hserved⟩
    · left
      refine ⟨PatchCall.seen_same ?_, hrow⟩
      rw [Store.cursor?, Store.cursor?, hrow, hrow']
    · rw [hnone] at hl
      cases hl
    · right
      obtain ⟨next, hlt, hseen, now, hrow''⟩ := PatchCall.seen_served hlater hrow hserved
      refine ⟨toDbTime next, hseen, ?_⟩
      cases hrow'.symm.trans hrow''
      cases hl
      exact hlt
  constructor
  · intro hn row' last hrow' hl
    rw [PatchCall.seen_current] at hrow' ⊢
    rw [PatchCall.seen_now]
    rcases hrows row' last hrow' hl with ⟨he, hrow⟩ | ⟨n, he, -⟩
    · rw [he] at hn
      exact hc.untouched hn row' last hrow hl
    · rw [he] at hn
      cases hn
  · intro n hn row' last hrow' hl
    rw [PatchCall.seen_current] at hrow'
    rcases hrows row' last hrow' hl with ⟨he, hrow⟩ | ⟨n', he, hlt⟩
    · rw [he] at hn
      exact hc.passed n hn row' last hrow hl
    · rw [he] at hn
      cases hn
      exact hlt

/-! ## Systems -/

/-- What holds in every state of a system whose writes are in time. -/
structure PatchSystem.Sound (deps : Deps) (engine : Engine) (σ : PatchSystem) : Prop where
  run : Run deps engine σ.history
  rows : ∀ S row last, σ.store.schedule? S = some row → row.lastRunAt = some last →
    last < row.nextRunAt ∧ last ≤ toDbTime σ.clock
  calls : ∀ c ∈ σ.calls, c.Sound σ.store

/-- The schedules after any other event. -/
theorem rows_other (hlater : ∀ e t t', deps.croniter e t = some t' → t < t')
    {h : History Event Store} (hs : Sound deps h) {e : Event} {clock : UtcTime}
    (hstep : RunStep deps engine h e s') (hf : e.Fresh h) (ho : e.OtherAt clock)
    (hrows : ∀ S row last, (present h).schedule? S = some row → row.lastRunAt = some last →
      last < row.nextRunAt ∧ last ≤ toDbTime clock) {last : DbTime}
    (hrow' : s'.schedule? S = some row') (hl : row'.lastRunAt = some last) :
    last < row'.nextRunAt ∧ last ≤ toDbTime clock := by
  rcases hs.row_cases hstep hf ho hrow' with hrow | hnone | ⟨row, hrow, hserved⟩
  · exact hrows S row' last hrow hl
  · rw [hnone] at hl
    cases hl
  · obtain ⟨skipped, now, uuids, limit, n, next, id, rfl, hdue, hnext, -, hrow'', -⟩ := hserved
    have hid : row.id = S := (lookup_some hrow).2
    rw [hid] at hrow''
    cases hrow'.symm.trans hrow''
    cases hl
    exact ⟨cursor_lt_next hlater hnext, hdue.trans (toDbTime_le.2 ho)⟩

/-- Every step keeps the system sound. -/
theorem PatchSystem.Step.sound (hlater : ∀ e t t', deps.croniter e t = some t' → t < t')
    {σ σ' : PatchSystem} (hstep : PatchSystem.Step deps engine PatchCall.InTime σ σ')
    (hσ : σ.Sound deps engine) : σ'.Sound deps engine := by
  cases hstep with
  | tick ht =>
    refine ⟨hσ.run, fun S row last hrow hl => ?_, hσ.calls⟩
    obtain ⟨hlt, hle⟩ := hσ.rows S row last hrow hl
    exact ⟨hlt, hle.trans (toDbTime_le.2 ht)⟩
  | @read h clock cs row S enabled hrow =>
    refine ⟨hσ.run, hσ.rows, fun c hc => ?_⟩
    rcases List.mem_append.1 hc with hc | hc
    · exact hσ.calls c hc
    · rw [List.mem_singleton.1 hc]
      refine ⟨fun _ r last hr hl => ⟨?_, nofun⟩, nofun⟩
      have hid : row.id = S := (lookup_some hrow).2
      have hr : (present h).schedule? row.id = some r := hr
      rw [hid, hrow] at hr
      cases hr
      show last < toDbTime (parseDbTime row.nextRunAt)
      rw [toDbTime_parse]
      exact (hσ.rows S row last hrow hl).1
  | @now h clock before after c hnone =>
    refine ⟨hσ.run, hσ.rows, fun o ho => ?_⟩
    rcases List.mem_append.1 ho with ho | ho
    · exact hσ.calls o (List.mem_append_left _ ho)
    · rcases List.mem_cons.1 ho with rfl | ho
      · have hc := hσ.calls c (List.mem_append_right _ (List.mem_cons_self ..))
        refine ⟨fun hn row last hrow hl => ⟨(hc.untouched hn row last hrow hl).1, ?_⟩, hc.passed⟩
        rintro t ht
        cases ht
        exact (hσ.rows _ row last hrow hl).2
      · exact hσ.calls o (List.mem_append_right _ (List.mem_cons_of_mem _ ho))
  | @raise h clock now before after c e hnow he =>
    refine ⟨hσ.run, hσ.rows, fun o ho => hσ.calls o ?_⟩
    rcases List.mem_append.1 ho with ho | ho
    · exact List.mem_append_left _ ho
    · exact List.mem_append_right _ (List.mem_cons_of_mem _ ho)
  | @write h clock now next before after c hnow hnext hin =>
    have hc := hσ.calls c (List.mem_append_right _ (List.mem_cons_self ..))
    refine ⟨hσ.run.afterCall (Allowed.of_none rfl), fun S row' last hrow' hl => ?_, fun o ho => ?_⟩
    · obtain ⟨row, hrow, hlast, hother, hown⟩ := schedule?_written hrow'
      rw [hlast] at hl
      obtain ⟨hlt, hle⟩ := hσ.rows S row last hrow hl
      refine ⟨?_, hle⟩
      by_cases he : S = c.current.id
      · rw [hown he]
        subst he
        exact hc.write hlater hnow hnext hin hrow hl
      · rw [hother he]
        exact hlt
    · have ho : o.Sound (present h) := by
        refine hσ.calls o ?_
        rcases List.mem_append.1 ho with ho | ho
        · exact List.mem_append_left _ ho
        · exact List.mem_append_right _ (List.mem_cons_of_mem _ ho)
      refine ho.of_last fun row' last hrow' hl => ?_
      obtain ⟨row, hrow, hlast, -⟩ := schedule?_written hrow'
      exact ⟨row, hrow, hlast ▸ hl⟩
  | @other h clock cs e s' hrun hf ho =>
    have hs := Run.sound hσ.run
    refine ⟨hσ.run.cons hrun, fun S row' last hrow' hl => ?_, fun c' hc' => ?_⟩
    · exact rows_other hlater hs hrun hf ho hσ.rows hrow' hl
    · obtain ⟨c, hc, rfl⟩ := List.mem_map.1 hc'
      exact (hσ.calls c hc).other hlater hs hrun hf ho

theorem PatchSystem.Steps.sound (hlater : ∀ e t t', deps.croniter e t = some t' → t < t')
    {σ σ' : PatchSystem} (h : PatchSystem.Steps deps engine PatchCall.InTime σ σ')
    (hσ : σ.Sound deps engine) : σ'.Sound deps engine := by
  induction h with
  | refl => exact hσ
  | tail _ hstep ih => exact hstep.sound hlater ih

theorem PatchSystem.Sound.start (clock : UtcTime) : (PatchSystem.start clock).Sound deps engine :=
  ⟨.nil, nofun, nofun⟩

/-- What a write leaves in its schedule. -/
theorem PatchSystem.Writes.cursor {next : UtcTime} {σ σ' : PatchSystem}
    (h : PatchSystem.Writes deps engine c next σ σ') :
    σ'.store.cursor? c.current.id = (σ.store.cursor? c.current.id).map fun _ => toDbTime next := by
  obtain ⟨now, before, after, -, -, -, rfl⟩ := h
  exact cursor?_written

end

/-! ## The result -/

/-- In every state of a run whose writes are in time the last run of every schedule is before its next one,
and the write of a call that is in time does not replace what a pass wrote since the read by an earlier
run; one that is not does, unless another call has written in between. -/
theorem cursors_ahead {deps : Deps} {engine : Engine}
    (hlater : ∀ e t t', deps.croniter e t = some t' → t < t') {clock : UtcTime} {σ : PatchSystem}
    (h : PatchSystem.Steps deps engine PatchCall.InTime (PatchSystem.start clock) σ) :
    σ.store.CursorsAhead ∧
      ∀ c next σ', PatchSystem.Writes deps engine c next σ σ' →
        (c.InTime next → c.KeepsPass σ.store σ'.store) ∧
        (σ.store.cursor? c.current.id = c.since → c.KeepsPass σ.store σ'.store → c.InTime next) := by
  have hσ := h.sound hlater (PatchSystem.Sound.start clock)
  constructor
  · intro row hrow last hl
    have hfound : σ.store.schedule? row.id = some row :=
      lookup_of_mem hσ.run.sound.ok.side.schedules hrow
    exact (hσ.rows row.id row last hfound hl).1
  · intro c next σ' hwrites
    have hafter := hwrites.cursor
    constructor
    · intro hin n hn hcursor
      rw [hcursor] at hafter
      exact ⟨_, hafter, hin n hn⟩
    · intro hcursor hkeeps n hn
      rw [hcursor, hn] at hafter
      obtain ⟨n', hn', hle⟩ := hkeeps n hn (hcursor.trans hn)
      cases hafter.symm.trans hn'
      exact hle

/-! ## A call that a pass overtakes -/

/-- The call has read the schedule with its next run at second 60. -/
def readCall (enabled : Bool) : PatchCall :=
  ⟨enabled, scheduleFromRow sampleDeps (enabledRow 60), none, none⟩

/-- The pass at second 130 has moved the next run to second 120. -/
def overtakenCall (enabled : Bool) : PatchCall :=
  { readCall enabled with now := some (sampleTime 130), since := some (toDbTime (sampleTime 120)) }

/-- The row after the pass. -/
def passedRow : ScheduleRow := (enabledRow 60).advanced (sampleTime 120) (sampleTime 130) (enabledRow 60)

/-- The row after the write. -/
def overwrittenRow (enabled : Bool) (next : UtcTime) : ScheduleRow :=
  { passedRow with
    enabled := enabled
    nextRunAt := toDbTime next
    updatedAt := toDbTime (sampleTime 130) }

/-- The write after the pass. -/
def overtakenRun (enabled : Bool) (next : UtcTime) : PatchSystem :=
  ⟨afterCall sampleDeps .sqlite (laterPass enabledOnce)
    (.writeSchedule (sampleTime 130) "s" enabled next), sampleTime 130, []⟩

theorem laterPass_schedules : (present (laterPass enabledOnce)).recurringSchedules = [passedRow] := by
  rw [laterPass_store enabledOnce_store rfl (toDbTime_le.2 (by decide)) enabledRow_next,
    enabledOnce_store]
  simp [Store.materialized, updateWhere, passedRow]

theorem overtakenRun_schedules (enabled : Bool) (next : UtcTime) :
    (overtakenRun enabled next).store.recurringSchedules = [overwrittenRow enabled next] := by
  have hafter : (overtakenRun enabled next).store =
      (Op.writeSchedule (sampleTime 130) "s" enabled next).after sampleDeps .sqlite
        (present (laterPass enabledOnce)) := rfl
  have hid : passedRow.id = "s" := rfl
  rw [hafter, writeSchedule_after, laterPass_schedules]
  simp [updateWhere, hid, overwrittenRow]

/-- The call has seen the pass. -/
theorem readCall_seen (enabled : Bool) {out : Except Err Reply} :
    (readCall enabled).seen (.call (.materialize (fun _ => false) (sampleTime 130) (fun _ => "j") 1) out)
      (present enabledOnce) (present (laterPass enabledOnce)) =
        { readCall enabled with since := some (toDbTime (sampleTime 120)) } := by
  have hid : (readCall enabled).current.id = "s" := rfl
  have hbefore : (present enabledOnce).cursor? "s" = some (toDbTime (sampleTime 60)) := by
    rw [enabledOnce_store]
    rfl
  have hafter : (present (laterPass enabledOnce)).cursor? "s" = some (toDbTime (sampleTime 120)) := by
    rw [Store.cursor?, Store.schedule?, laterPass_schedules]
    rfl
  have hne : sampleTime 120 ≠ sampleTime 60 := by decide
  unfold PatchCall.seen
  rw [hid, hbefore, hafter, if_neg fun h => hne (toDbTime_inj.1 (Option.some.inj h))]

theorem overtakenRun_steps {C : PatchCall → UtcTime → Prop} {enabled : Bool} {next : UtcTime}
    (hnext : Sqlite.patchedNextRun sampleDeps (sampleTime 130) (readCall enabled).current enabled = .ok next)
    (hC : C (overtakenCall enabled) next) :
    PatchSystem.Steps sampleDeps .sqlite C (PatchSystem.start (sampleTime 0))
      (overtakenRun enabled next) := by
  have hcreate : PatchSystem.Step sampleDeps .sqlite C (PatchSystem.start (sampleTime 0))
      ⟨enabledOnce, sampleTime 0, []⟩ :=
    .other (.call _ (Allowed.of_none rfl)) (fun x hx => absurd hx List.not_mem_nil) le_rfl
  have hfound : (present enabledOnce).schedule? "s" = some (enabledRow 60) := by
    rw [enabledOnce_store]
    rfl
  have hread : PatchSystem.Step sampleDeps .sqlite C ⟨enabledOnce, sampleTime 0, []⟩
      ⟨enabledOnce, sampleTime 0, [readCall enabled]⟩ := .read "s" enabled hfound
  have htick : PatchSystem.Step sampleDeps .sqlite C ⟨enabledOnce, sampleTime 0, [readCall enabled]⟩
      ⟨enabledOnce, sampleTime 130, [readCall enabled]⟩ := .tick (by decide)
  have hpass : PatchSystem.Step sampleDeps .sqlite C ⟨enabledOnce, sampleTime 130, [readCall enabled]⟩
      ⟨laterPass enabledOnce, sampleTime 130,
        [{ readCall enabled with since := some (toDbTime (sampleTime 120)) }]⟩ := by
    have hrun : RunStep sampleDeps .sqlite enabledOnce
        (.call (.materialize (fun _ => false) (sampleTime 130) (fun _ => "j") 1) _)
        (present (laterPass enabledOnce)) := .call _ (Allowed.of_none rfl)
    have hother : PatchSystem.Step sampleDeps .sqlite C
        ⟨enabledOnce, sampleTime 130, [readCall enabled]⟩
        ⟨laterPass enabledOnce, sampleTime 130, [readCall enabled].map _⟩ :=
      .other hrun enabledOnce_fresh.1 le_rfl
    rw [List.map_singleton] at hother
    exact readCall_seen enabled ▸ hother
  have hnow : PatchSystem.Step sampleDeps .sqlite C
      ⟨laterPass enabledOnce, sampleTime 130,
        [{ readCall enabled with since := some (toDbTime (sampleTime 120)) }]⟩
      ⟨laterPass enabledOnce, sampleTime 130, [overtakenCall enabled]⟩ :=
    @PatchSystem.Step.now _ _ _ _ _ [] [] _ rfl
  have hwrite : PatchSystem.Step sampleDeps .sqlite C
      ⟨laterPass enabledOnce, sampleTime 130, [overtakenCall enabled]⟩ (overtakenRun enabled next) :=
    @PatchSystem.Step.write _ _ _ _ _ _ _ [] [] _ rfl hnext hC
  exact .head hcreate (.head hread (.head htick (.head hpass (.head hnow (.single hwrite)))))

theorem overtaken_next : Sqlite.patchedNextRun sampleDeps (sampleTime 130) (readCall true).current true =
    .ok (sampleTime 180) := rfl

/-- Enabling computes the run at second 180, after what the pass wrote. -/
theorem cursors_ahead_sample : (overtakenRun true (sampleTime 180)).store.CursorsAhead := by
  refine (cursors_ahead sampleDeps_later (overtakenRun_steps overtaken_next ?_)).1
  intro n hn
  cases hn
  exact toDbTime_le.2 (by decide)

/-- Pausing writes back second 60, which has run. -/
theorem cursors_ahead_fails :
    PatchSystem.Steps sampleDeps .sqlite (fun _ _ => True) (PatchSystem.start (sampleTime 0))
      (overtakenRun false (sampleTime 60)) ∧
    ¬ (overtakenRun false (sampleTime 60)).store.CursorsAhead ∧
    ¬ (overtakenCall false).KeepsPass (present (laterPass enabledOnce))
      (overtakenRun false (sampleTime 60)).store := by
  have hnext : Sqlite.patchedNextRun sampleDeps (sampleTime 130) (readCall false).current false =
      .ok (sampleTime 60) := by
    show Except.ok (parseDbTime (toDbTime (sampleTime 60))) = _
    rw [parse_toDbTime]
  refine ⟨overtakenRun_steps hnext trivial, fun h => ?_, fun h => ?_⟩
  · have hmem : overwrittenRow false (sampleTime 60) ∈
        (overtakenRun false (sampleTime 60)).store.recurringSchedules := by
      rw [overtakenRun_schedules]
      exact List.mem_singleton_self _
    exact absurd (h _ hmem _ rfl) (lt_irrefl _)
  · have hcursor : (present (laterPass enabledOnce)).cursor? "s" = some (toDbTime (sampleTime 120)) := by
      rw [Store.cursor?, Store.schedule?, laterPass_schedules]
      rfl
    obtain ⟨n, hn, hle⟩ := h _ rfl hcursor
    have hwritten : (overtakenRun false (sampleTime 60)).store.cursor? "s" =
        some (toDbTime (sampleTime 60)) := by
      rw [Store.cursor?, Store.schedule?, overtakenRun_schedules]
      rfl
    cases hwritten.symm.trans hn
    exact absurd (toDbTime_le.1 hle) (by decide)

end PulseQueue
