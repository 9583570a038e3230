import PulseQueue.Proof.Selection

/-!
# Queue depth

`queue_depth` counts the jobs by status in one statement and the due jobs in a second one, and other
transactions may commit in between. So more jobs can be due than were queued. The counts are consistent
exactly when the due jobs that were not queued at the first statement (`arrived`) are no more than the
jobs queued then that are not due at the second one (`remaining`). None arrives when no commit in
between makes a job due, and only what puts a job in the queue can do that (`queueDepth_consistent`).
-/

namespace PulseQueue

open Txn Trace Table

/-- `due_queued <= queued`, the two parts of the queue add up, and so do the statuses. -/
structure QueueDepth.Consistent (d : QueueDepth) : Prop where
  due_le : d.dueQueued ≤ d.queued
  parts : d.dueQueued + d.scheduledQueued = d.queued
  total : d.total = d.queued + d.running + d.succeeded + d.failed + d.deadLettered + d.cancelled

/-- `queue_depth` from the stores that its two statements read. -/
def Engine.queueDepthOf : Engine → UtcTime → Store → Store → QueueDepth
  | .sqlite => Sqlite.queueDepthOf
  | .postgres => Postgres.queueDepthOf

/-! ## Two stores -/

def Store.queuedJobs (s : Store) : List JobRow := s.jobs.filter fun r => r.status = .queued

/-- The jobs due at the second statement that were not queued at the first one. -/
def arrived (now : UtcTime) (s₁ s₂ : Store) : List JobRow :=
  (s₂.dueJobs now).filter fun r => r.id ∉ s₁.queuedJobs.map (·.id)

/-- The jobs queued at the first statement that are not due at the second one: their time has not come, or
they left the queue. -/
def remaining (now : UtcTime) (s₁ s₂ : Store) : List JobRow :=
  s₁.queuedJobs.filter fun r => r.id ∉ (s₂.dueJobs now).map (·.id)

section
variable {engine : Engine} {now : UtcTime} {s₁ s₂ : Store}

theorem queueDepthOf_eq : engine.queueDepthOf = Sqlite.queueDepthOf := by
  cases engine <;> rfl

theorem queued_eq : (engine.queueDepthOf now s₁ s₂).queued = s₁.queuedJobs.length := by
  rw [queueDepthOf_eq, Store.queuedJobs, ← List.countP_eq_length_filter]
  rfl

theorem dueQueued_eq : (engine.queueDepthOf now s₁ s₂).dueQueued = (s₂.dueJobs now).length := by
  rw [queueDepthOf_eq, ← dueJobs_eq, ← List.countP_eq_length_filter]
  rfl

theorem scheduledQueued_eq : (engine.queueDepthOf now s₁ s₂).scheduledQueued =
    (engine.queueDepthOf now s₁ s₂).queued - (engine.queueDepthOf now s₁ s₂).dueQueued := by
  cases engine <;> rfl

/-- The total is that of the first statement. -/
theorem queueDepth_total : (engine.queueDepthOf now s₁ s₂).total =
    (engine.queueDepthOf now s₁ s₂).queued + (engine.queueDepthOf now s₁ s₂).running +
      (engine.queueDepthOf now s₁ s₂).succeeded + (engine.queueDepthOf now s₁ s₂).failed +
      (engine.queueDepthOf now s₁ s₂).deadLettered + (engine.queueDepthOf now s₁ s₂).cancelled := by
  rw [queueDepthOf_eq]
  simp only [Sqlite.queueDepthOf, JobStatus.all, List.map_cons, List.map_nil, List.sum_cons,
    List.sum_nil]
  omega

theorem consistent_iff_le : (engine.queueDepthOf now s₁ s₂).Consistent ↔
    (s₂.dueJobs now).length ≤ s₁.queuedJobs.length := by
  have hdue : (engine.queueDepthOf now s₁ s₂).dueQueued = (s₂.dueJobs now).length := dueQueued_eq
  have hqueued : (engine.queueDepthOf now s₁ s₂).queued = s₁.queuedJobs.length := queued_eq
  rw [← hdue, ← hqueued]
  constructor
  · intro h
    exact h.due_le
  · intro h
    refine ⟨h, ?_, queueDepth_total⟩
    rw [scheduledQueued_eq]
    omega

theorem dueJobs_nodup (h : (s₂.jobs.map (·.id)).Nodup) : ((s₂.dueJobs now).map (·.id)).Nodup :=
  h.sublist (List.filter_sublist.map _)

theorem queuedJobs_nodup (h : (s₁.jobs.map (·.id)).Nodup) : (s₁.queuedJobs.map (·.id)).Nodup :=
  h.sublist (List.filter_sublist.map _)

theorem consistent_iff (h₁ : (s₁.jobs.map (·.id)).Nodup) (h₂ : (s₂.jobs.map (·.id)).Nodup) :
    (engine.queueDepthOf now s₁ s₂).Consistent ↔
      (arrived now s₁ s₂).length ≤ (remaining now s₁ s₂).length :=
  consistent_iff_le.trans (length_le_iff (dueJobs_nodup h₂) (queuedJobs_nodup h₁))

end

/-! ## What commits in between -/

/-- The transactions that can put a job in the queue. -/
def Op.enqueues : Op → Bool
  | .createJob .. | .createJobsBatch .. | .materialize .. | .markFailedAttempt ..
  | .recoverStaleJobs .. => true
  | _ => false

/-- The event is no commit of such a transaction. -/
def Event.Calm : Event → Prop
  | .call op _ => op.enqueues = false
  | .abort _ | .reorder => True

/-- The job is due at `now`. -/
def DueIn (now : UtcTime) (s : Store) (id : String) : Prop := ∃ r, s.job? id = some r ∧ r.Due now

section
variable {deps : Deps} {engine : Engine} {now : UtcTime} {s s' : Store} {id : String}

/-- Claims, cancellations and reorderings make no job due. -/
theorem Steps.dueIn {L : Kind → Prop} (h : s.Ok deps)
    (hL : ∀ k, L k → k = .reorder ∨ k = .cancel ∨ ∃ w, k = .claim w) (hs : Steps deps L s s')
    (hd : DueIn now s' id) : DueIn now s id := by
  obtain ⟨r, hr, hdue⟩ := hd
  refine hs.keeps (P := fun v => ∀ r, v.job = some r → r.Due now → DueIn now s id) ?_ h id
    (fun r hr hdue => ⟨r, hr, hdue⟩) r hr hdue
  intro k v v' hk hv hstep r' hr' hdue'
  cases hstep with
  | submit | settle =>
    rcases hL _ hk with h | h | ⟨w, h⟩ <;> cases h
  | claim w t hq =>
    cases hr'
    cases hdue'.1
  | cancel t hq =>
    cases hr'
    cases hdue'.1
  | reorder _ _ => exact hv r' hr' hdue'

theorem dueIn_iff (h : (s.jobs.map (·.id)).Nodup) : DueIn now s id ↔ id ∈ (s.dueJobs now).map (·.id) := by
  simp only [DueIn, Store.dueJobs, List.mem_map, List.mem_filter, decide_eq_true_eq]
  constructor
  · rintro ⟨r, hr, hdue⟩
    obtain ⟨hm, hid⟩ := Store.job?_some hr
    exact ⟨r, ⟨hm, hdue⟩, hid⟩
  · rintro ⟨r, ⟨hm, hdue⟩, rfl⟩
    exact ⟨r, lookup_of_mem h hm, hdue⟩

variable {h : History Event Store}

/-- An event that puts no job in the queue makes no job due. -/
theorem RunStep.dueIn (hr : Run deps engine h) {e : Event} (he : e.Calm)
    (hstep : RunStep deps engine h e s') (hd : DueIn now s' id) : DueIn now (present h) id := by
  have hs := Run.sound hr
  cases e with
  | abort op =>
    cases hstep
    exact hd
  | reorder =>
    cases hstep with
    | reorder hro =>
      exact (Steps.single (L := (· = .reorder)) rfl (reordered_step hs.ok hro)).dueIn hs.ok
        (fun k hk => .inl hk) hd
  | call op out =>
    obtain ⟨ha, ⟨r, hx, rfl⟩ | ⟨err, rfl, rfl⟩⟩ := hstep.call_cases
    · have hst := hs.call ha hx
      have hidle : op.Idle → DueIn now (present h) id := by
        intro hop
        have hdue := (@Op.Idle.jobs deps engine _ _ now _ hop _ hx).1
        rw [dueIn_iff (hst.ok hs.ok).nodup, hdue] at hd
        exact (dueIn_iff hs.ok.nodup).2 hd
      cases op with
      | claim skipped t w => exact hst.dueIn hs.ok (fun k hk => .inr (.inr ⟨w, hk⟩)) hd
      | cancelJob t id' => exact hst.dueIn hs.ok (fun k hk => .inr (.inl hk)) hd
      | drainQueue t => exact hst.dueIn hs.ok (fun k hk => .inr (.inl hk)) hd
      | createJob | createJobsBatch | materialize | markFailedAttempt | recoverStaleJobs => cases he
      | _ => exact hidle trivial
    · exact hd

/-- No commit of `mid` makes a job due that was not due before it. -/
def MakesNoneDue (now : UtcTime) (h : History Event Store) : History Event Store → Prop
  | [] => True
  | e :: mid => (∀ id, DueIn now e.after id → DueIn now (present (mid ++ h)) id) ∧ MakesNoneDue now h mid

theorem MakesNoneDue.dueIn : ∀ {mid : History Event Store}, MakesNoneDue now h mid →
    DueIn now (present (mid ++ h)) id → DueIn now (present h) id
  | [], _, hd => hd
  | _ :: _, ⟨hstep, hmid⟩, hd => hmid.dueIn (hstep id hd)

theorem makesNoneDue_of_calm : ∀ {mid : History Event Store}, Run deps engine (mid ++ h) →
    (∀ e ∈ mid, e.event.Calm) → MakesNoneDue now h mid
  | [], _, _ => trivial
  | _ :: _, hr, hc => ⟨fun _ hd => RunStep.dueIn hr.tail (hc _ (.head _)) hr.head hd,
      makesNoneDue_of_calm hr.tail fun x hx => hc x (.tail _ hx)⟩

/-- Every due job was queued at the first statement. -/
theorem MakesNoneDue.arrived {mid : History Event Store} (hr : Run deps engine (mid ++ h))
    (hn : MakesNoneDue now h mid) : arrived now (present h) (present (mid ++ h)) = [] := by
  have h₂ := (Run.sound hr).ok.nodup
  refine List.filter_eq_nil_iff.2 fun r hm => ?_
  have hd := hn.dueIn ((dueIn_iff h₂).2 (List.mem_map_of_mem hm))
  obtain ⟨r', hr', hdue⟩ := hd
  obtain ⟨hm', hid⟩ := Store.job?_some hr'
  have hq : r.id ∈ (present h).queuedJobs.map (·.id) :=
    List.mem_map.2 ⟨r', List.mem_filter.2 ⟨hm', by simpa using hdue.1⟩, hid⟩
  simpa using hq

/-- The statements run after `h` and after `mid ++ h`. -/
theorem queueDepth_consistent {mid : History Event Store} (hr : Run deps engine (mid ++ h))
    (now : UtcTime) :
    let depth := engine.queueDepthOf now (present h) (present (mid ++ h))
    (MakesNoneDue now h mid → depth.Consistent) ∧
    ((∀ e ∈ mid, e.event.Calm) → MakesNoneDue now h mid) ∧
    depth.total = depth.queued + depth.running + depth.succeeded + depth.failed + depth.deadLettered +
      depth.cancelled := by
  refine ⟨fun hn => ?_, makesNoneDue_of_calm hr, queueDepth_total⟩
  refine (consistent_iff (Run.sound hr.suffix).ok.nodup (Run.sound hr).ok.nodup).2 ?_
  rw [hn.arrived hr]
  exact Nat.zero_le _

end

/-- A job is claimed between the two statements. -/
theorem queueDepth_consistent_sample : (Sqlite.queueDepthOf (sampleTime 1)
    (present (afterCall sampleDeps .sqlite [] sampleSubmit)) (present sampleClaimed)).Consistent := by
  obtain ⟨hconsistent, hcalm, -⟩ := @queueDepth_consistent _ _ _ [_] sampleClaimed_run (sampleTime 1)
  refine hconsistent (hcalm fun e he => ?_)
  rw [List.mem_singleton.1 he]
  rfl

/-- A job is submitted between the two statements: one job is due, and none was queued. -/
theorem queueDepth_fails : ∃ mid : History Event Store, Run sampleDeps .sqlite (mid ++ []) ∧
    ∀ engine : Engine, engine.queueDepthOf (sampleTime 1) (present []) (present (mid ++ [])) =
      ⟨0, 0, 0, 0, 0, 0, 0, 1, 0⟩ ∧
      ¬ (engine.queueDepthOf (sampleTime 1) (present []) (present (mid ++ []))).Consistent := by
  have hd : ∀ engine : Engine, engine.queueDepthOf (sampleTime 1) (present [])
      (present (afterCall sampleDeps .sqlite [] sampleSubmit)) = ⟨0, 0, 0, 0, 0, 0, 0, 1, 0⟩ := by
    intro engine
    rw [queueDepthOf_eq]
    decide +kernel
  refine ⟨afterCall sampleDeps .sqlite [] sampleSubmit, Run.afterCall .nil (Allowed.of_none rfl),
    fun engine => ⟨hd engine, fun h => ?_⟩⟩
  have hle := h.due_le
  rw [List.append_nil, hd engine] at hle
  exact absurd hle (by decide)

end PulseQueue
