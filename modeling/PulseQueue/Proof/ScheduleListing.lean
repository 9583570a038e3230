import PulseQueue.Model.Routes
import PulseQueue.Proof.Reenabling
import PulseQueue.Proof.SilentSchedules

/-!
# The listed schedules

The schedules are a register: created, switched on or off, deleted. Passes move their times only. So
`list_schedules` and `get_schedule` show what the committed calls have made of each schedule
(`schedules_listed`).
-/

namespace PulseQueue

open Txn Trace Table

/-- What a schedule shows that no pass changes. -/
structure ScheduleEntry where
  name : String
  cronExpression : String
  timezone : String
  payload : Json
  priority : Int
  maxRetries : Nat
  timeoutSeconds : ℚ
  enabled : Bool
  createdAt : UtcTime

def Schedule.entry (x : Schedule) : ScheduleEntry where
  name := x.name
  cronExpression := x.cronExpression
  timezone := x.timezone
  payload := x.payload
  priority := x.priority
  maxRetries := x.maxRetries
  timeoutSeconds := x.timeoutSeconds
  enabled := x.enabled
  createdAt := x.createdAt

/-- The entry of a new schedule; its payload has been written and parsed. -/
def newEntry (deps : Deps) (now : UtcTime) (request : ScheduleCreate) (maxRetries : Nat)
    (timeoutSeconds : ℚ) : ScheduleEntry where
  name := request.name
  cronExpression := request.cronExpression
  timezone := "UTC"
  payload := deps.loads (deps.dumps (.obj request.payload))
  priority := request.priority
  maxRetries := maxRetries
  timeoutSeconds := timeoutSeconds
  enabled := true
  createdAt := now

/-- What an event makes of the entry of the schedule `S`; a patch of a missing schedule makes none. -/
def Event.enter (deps : Deps) (S : String) (entry : Option ScheduleEntry) : Event → Option ScheduleEntry
  | .call (.createSchedule now id request m t) (.ok _) =>
    if id = S then some (newEntry deps now request m t) else entry
  | .call (.writeSchedule _ id enabled _) (.ok _) =>
    if id = S then entry.map fun x => { x with enabled := enabled } else entry
  | .call (.deleteSchedule id) (.ok _) => if id = S then none else entry
  | _ => entry

/-- The entry of the schedule `S` by the committed calls. -/
def registered (deps : Deps) (S : String) (h : History Event Store) : Option ScheduleEntry :=
  h.foldr (fun e entry => e.event.enter deps S entry) none

/-- The repository's `get_schedule`. -/
def Engine.getSchedule (deps : Deps) : Engine → String → Repo (Option Schedule)
  | .sqlite => Sqlite.getSchedule deps
  | .postgres => Postgres.getSchedule deps

section
variable {deps : Deps} {engine : Engine} {h : History Event Store} {s s' : Store} {S : String}

/-- What the row of `S` shows. -/
def Store.entry (deps : Deps) (s : Store) (S : String) : Option ScheduleEntry :=
  (s.schedule? S).map fun r => (scheduleFromRow deps r).entry

theorem enter_error {op : Op} {err : Err} (entry : Option ScheduleEntry) :
    Event.enter deps S entry (.call op (.error err)) = entry := by
  cases op <;> rfl

theorem enter_other {op : Op} (hop : op.onSchedules = false) (r : Reply) (entry : Option ScheduleEntry) :
    Event.enter deps S entry (.call op (.ok r)) = entry := by
  cases op <;> first | rfl | cases hop

/-- An update of one schedule. -/
theorem entry_update {id : String} {n : Nat} {f : ScheduleRow → ScheduleRow}
    {g : ScheduleEntry → ScheduleEntry} (hx : updateSchedule id f s = .ok (n, s'))
    (hid : ∀ r, (f r).id = r.id)
    (hg : ∀ r, (scheduleFromRow deps (f r)).entry = g (scheduleFromRow deps r).entry) :
    s'.entry deps S = if id = S then (s.entry deps S).map g else s.entry deps S := by
  unfold Store.entry
  split
  · rename_i he
    subst he
    rw [updateSchedule_row hx hid, Option.map_map, Option.map_map]
    exact Option.map_congr fun r _ => hg r
  · rename_i he
    rw [schedule?_update hx hid (.inl he)]

/-- A pass changes times only. -/
theorem Materializes.entry {now : UtcTime} {uuids : Nat → String} {i : Nat} {rows : List ScheduleRow}
    (hm : Materializes now uuids i rows s s') : s'.entry deps S = s.entry deps S := by
  induction hm with
  | nil => rfl
  | @cons i n row rows s s₁ s₂ s' next hins hupd _ ih =>
    have hsame : s₁.entry deps S = s.entry deps S := by
      rcases hins with rfl | ⟨-, rfl⟩
      · rfl
      · rfl
    have hmoved : s₂.entry deps S = if row.id = S then (s₁.entry deps S).map id else s₁.entry deps S :=
      entry_update hupd (fun _ => rfl) fun r => by simp [Schedule.entry, scheduleFromRow]
    rw [ih, hmoved, Option.map_id_apply, ite_self, hsame]

theorem entry_created {now next : UtcTime} {id : String} {request : ScheduleCreate} {m : Nat} {t : ℚ}
    {u : Unit} (hx : insertSchedule (newSchedule deps now id request m t next) s = .ok (u, s')) :
    s'.entry deps S = if id = S then some (newEntry deps now request m t) else s.entry deps S := by
  obtain ⟨hnone, hrow, -⟩ := schedule?_insert (S := S) hx
  have hid : (newSchedule deps now id request m t next).id = id := rfl
  rw [hid] at hnone hrow
  unfold Store.entry
  rw [hrow]
  split
  · rename_i he
    subst he
    rw [hnone]
    simp [Schedule.entry, scheduleFromRow, newSchedule, newEntry]
  · rw [Option.or_none]

/-- The table of schedules is the register. -/
theorem Run.entry (hr : Run deps engine h) (S : String) : (present h).entry deps S = registered deps S h := by
  induction hr with
  | nil => rfl
  | @cons h e s' hr hstep ih =>
    have hs := Run.sound hr
    show s'.entry deps S = e.enter deps S (registered deps S h)
    rw [← ih]
    cases e with
    | abort op =>
      cases hstep
      rfl
    | reorder =>
      cases hstep with
      | reorder hre =>
        unfold Store.entry
        rw [(hre.sameSchedule hs.ok S).row]
        rfl
    | call op out =>
      obtain ⟨ha, ⟨r, hx, rfl⟩ | ⟨err, rfl, rfl⟩⟩ := hstep.call_cases
      · cases hop : op.onSchedules with
        | false =>
          rw [enter_other hop]
          unfold Store.entry
          rw [((hs.frame ha hop hx).sameSchedule S).row]
        | true =>
          cases op with
          | createSchedule now id request m t =>
            cases engine <;> obtain ⟨u, hx, -⟩ := reply_ok.1 hx <;>
              obtain ⟨next, s₀, hnext, hx⟩ := Tx.bind_eq_ok.1 hx <;>
              obtain ⟨-, rfl⟩ := Tx.ofExcept_eq_ok.1 hnext <;>
              exact entry_created hx
          | writeSchedule now id enabled next =>
            cases engine <;> obtain ⟨n, hx, -⟩ := reply_ok.1 hx <;>
              exact entry_update hx (fun _ => rfl) (fun _ => rfl)
          | deleteSchedule id =>
            have hdelete : s'.schedule? S = if id = S then none else (present h).schedule? S := by
              cases engine <;> obtain ⟨n, hx, -⟩ := reply_ok.1 hx <;> exact schedule?_delete hx
            show s'.entry deps S = if id = S then none else (present h).entry deps S
            unfold Store.entry
            rw [hdelete]
            split <;> rfl
          | materialize skipped now uuids limit =>
            show s'.entry deps S = (present h).entry deps S
            cases engine <;> obtain ⟨n, hx, -⟩ := reply_ok.1 hx <;>
              obtain ⟨begun, s₀, hget, hx⟩ := Tx.bind_eq_ok.1 hx <;> cases hget
            · exact (Sqlite.materializeRows_ok _ hx).entry
            · exact (Postgres.materializeRows_ok _ hx).entry
          | _ => cases hop
      · exact (enter_error _).symm

/-! ## The listing -/

/-- In every run `list_schedules` shows each schedule that was created and not deleted since, once, the
newest first, with what it was created with and as the last patch after that left it; `get_schedule`
shows the same. -/
theorem schedules_listed (hr : Run deps engine h) : ∃ page : List Schedule,
    listSchedules deps (present h) = (.ok page, present h) ∧
    (page.map (·.id)).Nodup ∧ page.Pairwise (fun a b => b.createdAt ≤ a.createdAt) ∧
    ∀ S, engine.getSchedule deps S (present h) = (.ok (lookup Schedule.id S page), present h) ∧
      (lookup Schedule.id S page).map Schedule.entry = registered deps S h := by
  have hnodup := (Run.sound hr).ok.side.schedules
  have hperm := orderBy_perm (fun a b => decide (b.createdAt ≤ a.createdAt)) (present h).recurringSchedules
  have hsorted := orderBy_desc ScheduleRow.createdAt (present h).recurringSchedules
  refine ⟨_, rfl, ?_, ?_, fun S => ?_⟩
  · rw [List.map_map]
    exact (hperm.map ScheduleRow.id).nodup_iff.2 hnodup
  · rw [List.pairwise_map]
    exact hsorted.imp fun hab => parseDbTime_le.2 hab
  · have hfound : lookup Schedule.id S ((orderBy (fun a b => decide (b.createdAt ≤ a.createdAt))
        (present h).recurringSchedules).map (scheduleFromRow deps)) =
        ((present h).schedule? S).map (scheduleFromRow deps) := by
      have hrow : lookup ScheduleRow.id S (orderBy (fun a b => decide (b.createdAt ≤ a.createdAt))
          (present h).recurringSchedules) = (present h).schedule? S := (lookup_perm hnodup hperm.symm).symm
      rw [← hrow]
      exact lookup_map (fun _ => rfl) S _
    rw [hfound]
    refine ⟨by cases engine <;> rfl, ?_⟩
    rw [← Run.entry hr S, Option.map_map]
    rfl

end

/-- A schedule is created and switched off. -/
def disabledSchedule : History Event Store :=
  afterCall sampleDeps .sqlite
    (afterCall sampleDeps .sqlite [] (.createSchedule (sampleTime 0) "s" sampleSchedule 1 300))
    (.writeSchedule (sampleTime 1) "s" false (sampleTime 60))

theorem schedules_listed_disabled : ∃ page : List Schedule,
    listSchedules sampleDeps (present disabledSchedule) = (.ok page, present disabledSchedule) ∧
    ((lookup Schedule.id "s" page).map Schedule.entry).map (·.enabled) = some false := by
  have hrun : Run sampleDeps .sqlite disabledSchedule :=
    Run.afterCall (Run.afterCall .nil (Allowed.of_none rfl)) (Allowed.of_none rfl)
  obtain ⟨page, hlist, -, -, hall⟩ := schedules_listed hrun
  refine ⟨page, hlist, ?_⟩
  rw [(hall "s").2]
  rfl

end PulseQueue
