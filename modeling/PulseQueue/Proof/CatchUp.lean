import PulseQueue.Proof.Occurrences

/-!
# Schedules catch up

A pass that is not blocked and reaches all the due schedules moves each of them on by one occurrence
(`effective_pass`). So after as many such passes the missed occurrences of a schedule have their jobs,
whatever else happened in between (`schedule_catches_up`).
-/

namespace PulseQueue

open Txn Trace Table

/-- The schedules that a pass at `now` wants to serve. -/
def Store.dueScheduleCount (s : Store) (now : UtcTime) : Nat :=
  s.recurringSchedules.countP fun r => r.enabled && r.nextRunAt ≤ toDbTime now

/-- The event is a pass at `T` or later that commits, does not skip the schedule `S` and has room for all the
due schedules. -/
def Event.effective (S : String) (T : UtcTime) (s : Store) : Event → Bool
  | .call (.materialize skipped now _ limit) (.ok _) =>
    T ≤ now && !skipped S && s.dueScheduleCount now ≤ limit
  | _ => false

/-- The number of such passes in `post`. -/
def effectivePasses (S : String) (T : UtcTime) (pre : History Event Store) : History Event Store → Nat
  | [] => 0
  | e :: post =>
    effectivePasses S T pre post + (e.event.effective S T (present (post ++ pre))).toNat

section
variable {deps : Deps} {engine : Engine} {h : History Event Store} {s s' : Store} {S : String}
  {c : UtcTime} {request : ScheduleCreate} {m : Nat} {t : ℚ} {k : Nat} {row : ScheduleRow}

/-- Room for all. -/
theorem due_mem {skipped : String → Bool} {now : UtcTime} {limit : Nat}
    (hlimit : s.dueScheduleCount now ≤ limit) (hrow : row ∈ s.recurringSchedules)
    (hen : row.enabled = true) (hdue : row.nextRunAt ≤ toDbTime now) (hskip : skipped row.id = false) :
    row ∈ dueSchedules engine skipped now limit s := by
  have hle : ∀ p : ScheduleRow → Bool,
      (∀ r, p r = true → (r.enabled && decide (r.nextRunAt ≤ toDbTime now)) = true) →
      (orderBy dueOrder (s.recurringSchedules.filter p)).length ≤ limit := by
    intro p hp
    rw [(orderBy_perm _ _).length_eq, ← List.countP_eq_length_filter]
    exact (List.countP_mono_left fun r _ => hp r).trans hlimit
  cases engine with
  | sqlite =>
    show row ∈ (orderBy dueOrder _).take limit
    rw [List.take_of_length_le (hle _ fun r hr => hr)]
    exact (orderBy_perm _ _).mem_iff.2 (List.mem_filter.2 ⟨hrow, by simp [hen, hdue]⟩)
  | postgres =>
    show row ∈ (orderBy dueOrder _).take limit
    rw [List.take_of_length_le (hle _ fun r hr => ?_)]
    · exact (orderBy_perm _ _).mem_iff.2 (List.mem_filter.2 ⟨hrow, by simp [hen, hdue, hskip]⟩)
    · exact (Bool.and_eq_true_iff.1 hr).1

/-- The schedule has had its first `k` occurrences and is enabled. -/
structure Active (deps : Deps) (S : String) (c : UtcTime) (request : ScheduleCreate) (m : Nat) (t : ℚ)
    (s : Store) (k : Nat) (row : ScheduleRow) : Prop
    extends Occurrences deps S c request m t s k row where
  enabled : row.enabled = true

/-- A pass that reaches a due schedule moves it on. -/
theorem effective_pass (hlater : ∀ e t t', deps.croniter e t = some t' → t < t')
    (hs : PulseQueue.Sound deps h) (ho : Active deps S c request m t (present h) k row)
    {skipped : String → Bool} {now : UtcTime} {uuids : Nat → String} {limit : Nat}
    (hf : FreshIds uuids 0 limit (present h)) (hskip : skipped S = false)
    (hlimit : (present h).dueScheduleCount now ≤ limit) (hdue : row.nextRunAt ≤ toDbTime now) {r : Reply}
    (hx : (Op.materialize skipped now uuids limit).body deps engine (present h) = .ok (r, s')) :
    ∃ row', Active deps S c request m t s' (k + 1) row' := by
  have hid : row.id = S := (lookup_some ho.found).2
  have hmem : row ∈ dueSchedules engine skipped now limit (present h) :=
    due_mem hlimit (lookup_some ho.found).1 ho.enabled hdue (by rw [hid, hskip])
  obtain ⟨n, hloop, rfl⟩ := reply_ok.1 ((materialize_body hf).symm.trans hx)
  have hlen : (dueSchedules engine skipped now limit (present h)).length ≤ limit := length_dueSchedules
  obtain ⟨next, j, hnext, -, hrow, hjobs⟩ :=
    pass_row _ hf (by omega) (dueSchedules_nodup hs.ok.side.schedules) hmem hloop
  rw [schedule?_due hs.ok.side.schedules hmem, Option.map_some] at hrow
  exact ⟨_, ho.served hlater hnext hrow hjobs, ho.enabled⟩

/-- Any other step leaves the schedule where it is, or moves it on. -/
theorem follows_step (hlater : ∀ e t t', deps.croniter e t = some t' → t < t')
    (hs : PulseQueue.Sound deps h) (ho : Active deps S c request m t (present h) k row) {e : Event}
    (hstep : RunStep deps engine h e s') (hf : e.Fresh h) (hnt : ¬ e.touches S) (hnc : ¬ e.creates S) :
    ∃ k' row', Active deps S c request m t s' k' row' ∧ k ≤ k' ∧
      parseDbTime row.nextRunAt ≤ parseDbTime row'.nextRunAt := by
  rcases hs.schedule_cases hstep hf S with hsame | hc | ⟨ht, -⟩ | ⟨row', hrow', hserved⟩
  · exact ⟨k, row, ⟨ho.same hsame, ho.enabled⟩, Nat.le_refl k, le_rfl⟩
  · exact absurd hc hnc
  · exact absurd ht hnt
  · cases ho.found.symm.trans hrow'
    obtain ⟨skipped, now, uuids, limit, n, next, id, -, -, hnext, -, hrow, hjobs⟩ := hserved
    refine ⟨k + 1, _, ⟨ho.served hlater hnext hrow hjobs, ho.enabled⟩, Nat.le_succ k, ?_⟩
    show _ ≤ parseDbTime (toDbTime next)
    rw [parse_toDbTime]
    exact le_of_lt (hlater _ _ _ (nextCronRun_ok hnext))

/-- The schedule at its creation. -/
theorem created_follows {pre : History Event Store} (hr : Run deps engine pre) (hf : FreshRun pre)
    (hstep : RunStep deps engine pre (.call (.createSchedule c S request m t) (.ok .done)) s')
    (hfe : Event.Fresh pre (.call (.createSchedule c S request m t) (.ok .done))) :
    ∃ row, Active deps S c request m t s' 0 row := by
  obtain ⟨⟨row, ho⟩, -⟩ := created_occurrences hr hf hstep hfe
  refine ⟨row, ho, ?_⟩
  obtain ⟨-, ⟨r, hx, -⟩ | ⟨err, herr, -⟩⟩ := hstep.call_cases
  · have hx' : ∃ u, Sqlite.createScheduleTxn deps c S request m t (present pre) = .ok (u, s') := by
      cases engine <;> obtain ⟨u, hx, -⟩ := reply_ok.1 hx <;> exact ⟨u, hx⟩
    obtain ⟨u, hx⟩ := hx'
    obtain ⟨next, s₀, hn, hx⟩ := Tx.bind_eq_ok.1 hx
    obtain ⟨-, rfl⟩ := Tx.ofExcept_eq_ok.1 hn
    obtain ⟨hfree, hrow, -⟩ := schedule?_insert (S := S) hx
    have hnone : (present pre).schedule? S = none := hfree
    rw [hnone, if_pos rfl, Option.none_or, ho.found] at hrow
    rw [Option.some.inj hrow]
  · cases herr

/-- The id of a schedule is not generated twice. -/
theorem fresh_creates {x : Entry Event Store} {e : Event} (hf : e.Fresh h) (hx : x ∈ h)
    (hc : x.event.creates S) : ¬ e.creates S := by
  intro hce
  cases e with
  | call op out =>
    cases op with
    | createSchedule =>
      obtain rfl := hce
      exact hf x hx hc
    | _ => cases hce
  | abort | reorder => cases hce

/-- What an effective pass is. -/
theorem effective_iff {e : Event} {T : UtcTime} (he : e.effective S T s = true) :
    ∃ skipped now uuids limit r, e = .call (.materialize skipped now uuids limit) (.ok r) ∧ T ≤ now ∧
      skipped S = false ∧ s.dueScheduleCount now ≤ limit := by
  unfold Event.effective at he
  split at he
  · rename_i skipped now uuids limit r
    simp only [Bool.and_eq_true, decide_eq_true_eq, Bool.not_eq_true'] at he
    exact ⟨skipped, now, uuids, limit, r, rfl, he.1.1, he.1.2, he.2⟩
  · cases he

/-- After `n` effective passes the schedule has had `n` occurrences, or all until `T`. -/
theorem effective_passes (hlater : ∀ e t t', deps.croniter e t = some t' → t < t')
    {x₀ : Entry Event Store} {pre : History Event Store}
    (hx₀ : x₀.event = .call (.createSchedule c S request m t) (.ok .done)) (T : UtcTime) :
    ∀ {post : History Event Store}, Run deps engine (post ++ x₀ :: pre) → FreshRun (post ++ x₀ :: pre) →
      (∀ x ∈ post, ¬ x.event.touches S) → ∃ k row,
        Active deps S c request m t (present (post ++ x₀ :: pre)) k row ∧
          (effectivePasses S T (x₀ :: pre) post ≤ k ∨ T < parseDbTime row.nextRunAt)
  | [], hr, hf, _ => by
    have hstep : RunStep deps engine pre x₀.event x₀.after := Valid.head hr
    have hfe : x₀.event.Fresh pre := hf.1
    rw [hx₀] at hstep hfe
    obtain ⟨row, ho⟩ := created_follows (Valid.tail hr) hf.2 hstep hfe
    exact ⟨0, row, ho, .inl (Nat.le_refl 0)⟩
  | x :: post, hr, hf, hnt => by
    have hr' : Run deps engine (post ++ x₀ :: pre) := Valid.tail hr
    have hs := Run.sound hr'
    have hstep : RunStep deps engine (post ++ x₀ :: pre) x.event x.after := Valid.head hr
    obtain ⟨hntx, hnt⟩ := List.forall_mem_cons.1 hnt
    obtain ⟨k, row, ho, hk⟩ := effective_passes hlater hx₀ T hr' hf.2 hnt
    have hnc : ¬ x.event.creates S :=
      fresh_creates hf.1 (List.mem_append_right _ (List.mem_cons_self ..)) (by rw [hx₀]; exact rfl)
    obtain ⟨k', row', ho', hle, hnext⟩ := follows_step hlater hs ho hstep hf.1 hntx hnc
    rcases hk with hk | hlate
    · cases heff : x.event.effective S T (present (post ++ x₀ :: pre)) with
      | false =>
        refine ⟨k', row', ho', .inl ?_⟩
        simp only [effectivePasses, heff, Bool.toNat_false]
        omega
      | true =>
        by_cases hdue : parseDbTime row.nextRunAt ≤ T
        · -- the pass serves the schedule
          obtain ⟨skipped, now, uuids, limit, r, he, hT, hskip, hlimit⟩ := effective_iff heff
          have hfe := hf.1
          rw [he] at hstep hfe
          have hdue' : row.nextRunAt ≤ toDbTime now := by
            rw [← toDbTime_parse row.nextRunAt]
            exact toDbTime_le.2 (hdue.trans hT)
          obtain ⟨-, ⟨r', hx, -⟩ | ⟨err, hout, -⟩⟩ := hstep.call_cases
          · obtain ⟨row'', ho''⟩ := effective_pass hlater hs ho hfe hskip hlimit hdue' hx
            refine ⟨k + 1, row'', ho'', .inl ?_⟩
            simp only [effectivePasses, heff, Bool.toNat_true]
            omega
          · cases hout
        · exact ⟨k', row', ho', .inr ((lt_of_not_ge hdue).trans_le hnext)⟩
    · exact ⟨k', row', ho', .inr (hlate.trans_le hnext)⟩

/-- In every run: when a schedule that is neither patched nor deleted has seen `n` effective passes at `T` or
later, each of its first `n` occurrences that is not after `T` has its job. -/
theorem schedule_catches_up (hlater : ∀ e t t', deps.croniter e t = some t' → t < t')
    {x₀ : Entry Event Store} {pre post : History Event Store}
    (hx₀ : x₀.event = .call (.createSchedule c S request m t) (.ok .done))
    (hr : Run deps engine (post ++ x₀ :: pre)) (hf : FreshRun (post ++ x₀ :: pre))
    (hnt : ∀ x ∈ post, ¬ x.event.touches S) {T o : UtcTime} {i : Nat} (h1 : 1 ≤ i)
    (hi : i ≤ effectivePasses S T (x₀ :: pre) post)
    (ho : occurrence deps request.cronExpression c i = some o) (hT : o ≤ T) :
    ∃ j ∈ (present (post ++ x₀ :: pre)).jobs, j.scheduleId = some S ∧
      j.scheduledFor = some (toDbTime o) := by
  obtain ⟨k, row, hrow, hk⟩ := effective_passes hlater hx₀ T hr hf hnt
  have hik : i ≤ k := by
    rcases hk with hk | hlate
    · exact hi.trans hk
    · by_contra hlt
      -- the occurrence is not before the cursor, which is after `T`
      have hle : parseDbTime row.nextRunAt ≤ o := by
        rcases Nat.lt_or_eq_of_le (show k + 1 ≤ i by omega) with hlt | rfl
        · exact le_of_lt (occurrence_lt hlater hlt hrow.next ho)
        · exact le_of_eq (Option.some.inj (hrow.next.symm.trans ho))
      exact absurd (hlate.trans_le (hle.trans hT)) (lt_irrefl T)
  have hmem : some (toDbTime o) ∈ ((present (post ++ x₀ :: pre)).ofSchedule S).map (·.scheduledFor) := by
    refine hrow.jobs.mem_iff.2 (List.mem_map.2 ⟨i, List.mem_range'_1.2 ⟨h1, by omega⟩, ?_⟩)
    rw [ho]
    rfl
  obtain ⟨j, hj, hfor⟩ := List.mem_map.1 hmem
  obtain ⟨hjobs, hsch⟩ := List.mem_filter.1 hj
  exact ⟨j, hjobs, by simpa using hsch, hfor⟩

end

theorem effective_sample : (samplePass.head (by simp [samplePass, afterCall])).event.effective "s"
    (sampleTime 60) (present samplePass.tail) = true := by
  have hcount : (present samplePass.tail).dueScheduleCount (sampleTime 60) ≤ 1 :=
    List.countP_le_length.trans (Nat.le_refl 1)
  show (decide (sampleTime 60 ≤ sampleTime 60) && !false &&
    decide ((present samplePass.tail).dueScheduleCount (sampleTime 60) ≤ 1)) = true
  simp [hcount]

/-- The first occurrence of the sample schedule, after one pass. -/
theorem schedule_catches_up_pass : ∃ j ∈ (present samplePass).jobs, j.scheduleId = some "s" ∧
    j.scheduledFor = some (toDbTime (sampleTime 60)) := by
  have hrun : Run sampleDeps .sqlite samplePass :=
    Run.afterCall (Run.afterCall .nil (Allowed.of_none rfl)) (Allowed.of_none rfl)
  have hfresh : FreshRun samplePass :=
    ⟨⟨fun _ _ _ o ho => absurd ho List.not_mem_nil, by decide⟩,
      fun x hx => absurd hx List.not_mem_nil, trivial⟩
  have hocc : occurrence sampleDeps sampleSchedule.cronExpression (sampleTime 0) 1 =
      some (sampleTime 60) := by
    have hnext : nextCronRun sampleDeps sampleSchedule.cronExpression (sampleTime 0) =
      .ok (sampleTime 60) := rfl
    exact nextCronRun_ok hnext
  refine @schedule_catches_up sampleDeps .sqlite "s" (sampleTime 0) sampleSchedule 1 300 sampleDeps_later
    _ [] [samplePass.head (by simp [samplePass, afterCall])] rfl hrun hfresh (fun x hx => ?_)
    (sampleTime 60) (sampleTime 60) 1 (Nat.le_refl 1) ?_ hocc le_rfl
  · rw [List.mem_singleton.1 hx]
    exact id
  · show 1 ≤ 0 + (Event.effective "s" (sampleTime 60) (present samplePass.tail)
      (samplePass.head (by simp [samplePass, afterCall])).event).toNat
    rw [effective_sample]
    exact Nat.le_refl 1

end PulseQueue
