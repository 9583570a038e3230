import PulseQueue.Proof.Occurrences

/-!
# Schedules that are off

A pass serves enabled schedules only (`Sound.materialize_off`), so a schedule that is deleted or disabled
creates no jobs until somebody creates or enables it (`off_schedule_silent`).
-/

namespace PulseQueue

open Txn Trace Table

/-- The schedule `S` is disabled, or not there. -/
def Store.Off (s : Store) (S : String) : Prop := ∀ row, s.schedule? S = some row → row.enabled = false

/-- The event creates the schedule `S`, or enables the one that is there. -/
def Event.Wakes (S : String) (s : Store) : Event → Prop
  | .call (.createSchedule _ id _ _ _) _ => id = S
  | .call (.writeSchedule _ id enabled _) _ => id = S ∧ enabled = true ∧ (s.schedule? S).isSome = true
  | _ => False

/-- No event of `post` wakes the schedule `S`. -/
def Asleep (S : String) (pre : History Event Store) : History Event Store → Prop
  | [] => True
  | e :: post => ¬ e.event.Wakes S (present (post ++ pre)) ∧ Asleep S pre post

section
variable {deps : Deps} {engine : Engine} {h : History Event Store} {s' : Store} {S : String}

/-- A pass leaves a schedule that is off alone. -/
theorem Sound.materialize_off (hs : PulseQueue.Sound deps h) (hoff : (present h).Off S)
    {skipped : String → Bool} {now : UtcTime} {uuids : Nat → String} {limit : Nat}
    (hf : FreshIds uuids 0 limit (present h)) {r : Reply}
    (hx : (Op.materialize skipped now uuids limit).body deps engine (present h) = .ok (r, s')) :
    SameSchedule S (present h) s' := by
  obtain ⟨n, hloop, rfl⟩ := reply_ok.1 ((materialize_body hf).symm.trans hx)
  have hlen : (dueSchedules engine skipped now limit (present h)).length ≤ limit :=
    length_dueSchedules
  have hne : ∀ row ∈ dueSchedules engine skipped now limit (present h), row.id ≠ S := by
    rintro row hrow rfl
    have henabled := (mem_dueSchedules hrow).2.1
    rw [hoff row (schedule?_due hs.ok.side.schedules hrow)] at henabled
    cases henabled
  obtain ⟨hrow, hjobs⟩ := pass_other _ hf (by omega) hne hloop
  exact ⟨hrow, by rw [hjobs]⟩

theorem updateSchedule_row {s : Store} {n : Nat} {f : ScheduleRow → ScheduleRow}
    (hx : updateSchedule S f s = .ok (n, s')) (hf : ∀ r, (f r).id = r.id) :
    s'.schedule? S = (s.schedule? S).map f := by
  cases hx
  refine (lookup_updateWhere fun r _ => hf r).trans (Option.map_congr fun r hr => if_pos ?_)
  simp [(lookup_some hr).2]

/-- A patch that does not enable. -/
theorem disabled_off {s : Store} {now next : UtcTime} {enabled : Bool} {n : Nat}
    (hx : Sqlite.writeScheduleTxn now S enabled next s = .ok (n, s'))
    (hen : ¬ (enabled = true ∧ (s.schedule? S).isSome = true)) : s'.Off S := by
  intro row' hrow'
  rw [updateSchedule_row hx fun _ => rfl, Option.map_eq_some_iff] at hrow'
  obtain ⟨row, hrow, rfl⟩ := hrow'
  cases enabled with
  | false => rfl
  | true => exact absurd ⟨rfl, by rw [hrow]; rfl⟩ hen

/-- What a step does to a schedule that is off: its row stays off, and missing, and its jobs are the same. -/
structure StaysOff (S : String) (s s' : Store) : Prop where
  off : s'.Off S
  jobs : ((s'.ofSchedule S).map JobRow.fixed).Perm ((s.ofSchedule S).map JobRow.fixed)
  missing : s.schedule? S = none → s'.schedule? S = none

theorem SameSchedule.staysOff {s : Store} (hsame : SameSchedule S s s') (hoff : s.Off S) :
    StaysOff S s s' :=
  ⟨fun row hrow => hoff row (hsame.row.symm.trans hrow), hsame.jobs, hsame.row.trans⟩

theorem creates_wakes {e : Event} (hc : e.creates S) (s : Store) : e.Wakes S s := by
  cases e with
  | call op out =>
    cases op with
    | createSchedule => exact hc
    | _ => cases hc
  | abort | reorder => cases hc

/-- A patch or a deletion that does not wake it. -/
theorem touched_off {e : Event} (hstep : RunStep deps engine h e s') (ht : e.touches S)
    (hoff : (present h).Off S) (hwakes : ¬ e.Wakes S (present h)) : StaysOff S (present h) s' := by
  cases e with
  | abort | reorder => cases ht
  | call op out =>
    obtain ⟨-, ⟨r, hx, rfl⟩ | ⟨err, rfl, rfl⟩⟩ := hstep.call_cases
    · cases op with
      | writeSchedule now id enabled next =>
        obtain rfl : id = S := ht
        have hen : ¬ (enabled = true ∧ ((present h).schedule? id).isSome = true) :=
          fun hen => hwakes ⟨rfl, hen⟩
        obtain ⟨n, hx⟩ : ∃ n, Sqlite.writeScheduleTxn now id enabled next (present h) = .ok (n, s') := by
          cases engine <;> obtain ⟨n, hx, -⟩ := reply_ok.1 hx <;> exact ⟨n, hx⟩
        refine ⟨disabled_off hx hen, by cases hx; exact .refl _, fun hn => ?_⟩
        rw [updateSchedule_row hx fun _ => rfl, hn, Option.map_none]
      | deleteSchedule id =>
        obtain rfl : id = S := ht
        obtain ⟨n, hx⟩ : ∃ n, deleteScheduleRow id (present h) = .ok (n, s') := by
          cases engine <;> obtain ⟨n, hx, -⟩ := reply_ok.1 hx <;> exact ⟨n, hx⟩
        have hnone := schedule?_delete (S := id) hx
        rw [if_pos rfl] at hnone
        refine ⟨fun row hrow => ?_, by cases hx; exact .refl _, fun _ => hnone⟩
        rw [hnone] at hrow
        cases hrow
      | _ => cases ht
    · exact (Frame.sameSchedule (Frame.refl _) S).staysOff hoff

/-- A step that does not wake it. -/
theorem Sound.off_step (hs : PulseQueue.Sound deps h) {e : Event} (hstep : RunStep deps engine h e s')
    (hf : e.Fresh h) (hoff : (present h).Off S) (hwakes : ¬ e.Wakes S (present h)) :
    StaysOff S (present h) s' := by
  rcases hs.schedule_cases hstep hf S with hsame | hc | ⟨ht, -⟩ | ⟨row, -, hserved⟩
  · exact hsame.staysOff hoff
  · exact absurd (creates_wakes hc _) hwakes
  · exact touched_off hstep ht hoff hwakes
  · obtain ⟨skipped, now, uuids, limit, n, next, id, rfl, -⟩ := hserved
    obtain ⟨-, ⟨r, hx, -⟩ | ⟨err, hout, -⟩⟩ := hstep.call_cases
    · exact (hs.materialize_off hoff hf hx).staysOff hoff
    · cases hout

theorem StaysOff.trans {s s'' : Store} (h : StaysOff S s s') (h' : StaysOff S s' s'') : StaysOff S s s'' :=
  ⟨h'.off, h'.jobs.trans h.jobs, fun hn => h'.missing (h.missing hn)⟩

/-- In every run, from the moment on that a schedule is deleted or disabled and until somebody creates or
enables it, it stays so and no job of it is created. -/
theorem off_schedule_silent {post pre : History Event Store} (hr : Run deps engine (post ++ pre))
    (hf : FreshRun (post ++ pre)) (hoff : (present pre).Off S) (hpost : Asleep S pre post) :
    StaysOff S (present pre) (present (post ++ pre)) := by
  induction post with
  | nil => exact ⟨hoff, .refl _, id⟩
  | cons e post ih =>
    have hbefore := ih hr.tail hf.2 hpost.2
    exact hbefore.trans ((Run.sound hr.tail).off_step hr.head hf.1 hbefore.off hpost.1)

/-- A deletion takes the schedule away. -/
theorem deleted_missing (S : String) (h : History Event Store) :
    (present (afterCall deps engine h (.deleteSchedule S))).schedule? S = none := by
  obtain ⟨n, s', hx⟩ : ∃ n s', deleteScheduleRow S (present h) = .ok (n, s') := ⟨_, _, rfl⟩
  have hbody : (Op.deleteSchedule S).body deps engine (present h) = .ok (.count n, s') := by
    cases engine <;> exact reply_ok.2 ⟨n, hx, rfl⟩
  have hafter : present (afterCall deps engine h (.deleteSchedule S)) = s' :=
    congrArg Prod.snd (atomically_ok hbody)
  rw [hafter, schedule?_delete hx, if_pos rfl]

end

/-- A schedule, deleted before its first pass. -/
def deletedSchedule : History Event Store :=
  afterCall sampleDeps .sqlite
    (afterCall sampleDeps .sqlite [] (.createSchedule (sampleTime 0) "s" sampleSchedule 1 300))
    (.deleteSchedule "s")

def lostPass : Op := .materialize (fun _ => false) (sampleTime 70) (fun _ => "j") 1

theorem off_schedule_silent_deleted : StaysOff "s" (present deletedSchedule)
    (present (afterCall sampleDeps .sqlite deletedSchedule lostPass)) := by
  have hrun : Run sampleDeps .sqlite (afterCall sampleDeps .sqlite deletedSchedule lostPass) :=
    Run.afterCall (Run.afterCall (Run.afterCall .nil (Allowed.of_none rfl)) (Allowed.of_none rfl))
      (Allowed.of_none rfl)
  have hmissing : (present deletedSchedule).schedule? "s" = none := deleted_missing "s" _
  have hfresh : FreshRun (afterCall sampleDeps .sqlite deletedSchedule lostPass) :=
    ⟨⟨fun _ _ _ o ho => absurd ho List.not_mem_nil, by decide⟩, trivial,
      fun x hx => absurd hx List.not_mem_nil, trivial⟩
  refine @off_schedule_silent sampleDeps .sqlite "s" [_] deletedSchedule hrun hfresh ?_ ⟨?_, trivial⟩
  · intro row hrow
    rw [hmissing] at hrow
    cases hrow
  · exact fun h => h

end PulseQueue
