import PulseQueue.Lib.Agreement
import PulseQueue.Proof.Schedules
import PulseQueue.Spec.Methods

/-!
# Statements on reordered tables

`Same s t`: the tables satisfy the unique indexes and `t` has the rows of `s` in some order. Every SQL
statement agrees with itself on such stores, and the pairs of statements that the two repositories
use for one purpose agree with each other.
-/

namespace PulseQueue

open Txn Table

/-- Primary keys and unique indexes. -/
structure Keys (s : Store) : Prop where
  jobs : s.jobs.Pairwise fun a b => a.clash b = false
  deadLetters : (s.deadLetters.map (·.jobId)).Nodup
  schedules : (s.recurringSchedules.map (·.id)).Nodup

structure Same (s t : Store) : Prop extends s.Reordered t where
  keys : Keys s

section
variable {s s' t t' u : Store}

theorem Keys.empty : Keys Store.empty := ⟨by simp [Store.empty], by simp [Store.empty],
  by simp [Store.empty]⟩

theorem Keys.nodup (h : Keys s) : (s.jobs.map (·.id)).Nodup :=
  List.pairwise_map.2 (h.jobs.imp fun hc => JobRow.clash_id hc)

theorem Keys.reordered (h : Keys s) (hr : s.Reordered t) : Keys t where
  jobs := h.jobs.perm hr.jobs fun {a b} hc => by
    rw [JobRow.clash_comm]
    exact hc
  deadLetters := (hr.deadLetters.map _).nodup_iff.1 h.deadLetters
  schedules := (hr.recurringSchedules.map _).nodup_iff.1 h.schedules

theorem Store.Reordered.refl (s : Store) : s.Reordered s :=
  ⟨.refl _, .refl _, .refl _, .refl _, rfl, .refl _⟩

theorem Store.Reordered.trans (h : s.Reordered t) (h' : t.Reordered u) : s.Reordered u where
  jobs := h.jobs.trans h'.jobs
  jobAttempts := h.jobAttempts.trans h'.jobAttempts
  deadLetters := h.deadLetters.trans h'.deadLetters
  recurringSchedules := h.recurringSchedules.trans h'.recurringSchedules
  runtimeConfig := h.runtimeConfig.trans h'.runtimeConfig
  workerInstances := h.workerInstances.trans h'.workerInstances

theorem Store.Reordered.symm (h : s.Reordered t) : t.Reordered s where
  jobs := h.jobs.symm
  jobAttempts := h.jobAttempts.symm
  deadLetters := h.deadLetters.symm
  recurringSchedules := h.recurringSchedules.symm
  runtimeConfig := h.runtimeConfig.symm
  workerInstances := h.workerInstances.symm

theorem Same.trans (h : Same s t) (h' : Same t u) : Same s u :=
  ⟨h.toReordered.trans h'.toReordered, h.keys⟩

theorem Same.right (h : Same s t) : Same t t :=
  ⟨.refl t, h.keys.reordered h.toReordered⟩

theorem Same.job? (h : Same s t) (id : String) : s.job? id = t.job? id :=
  lookup_perm h.keys.nodup h.jobs

theorem Same.schedule? (h : Same s t) (id : String) : s.schedule? id = t.schedule? id :=
  lookup_perm h.keys.schedules h.recurringSchedules

/-! ## Statements on `jobs` -/

/-- The store after an update of columns that are not fixed. -/
theorem Same.updateJobs (h : Same s t) {p : JobRow → Bool} {f : JobRow → JobRow}
    (hf : ∀ r, (f r).fixed = r.fixed) :
    Same { s with jobs := updateWhere p f s.jobs } { t with jobs := updateWhere p f t.jobs } where
  jobs := updateWhere_perm h.jobs
  jobAttempts := h.jobAttempts
  deadLetters := h.deadLetters
  recurringSchedules := h.recurringSchedules
  runtimeConfig := h.runtimeConfig
  workerInstances := h.workerInstances
  keys := ⟨jobs_update_pairwise h.keys.jobs hf, h.keys.deadLetters, h.keys.schedules⟩

theorem updateJobs_agree {p : JobRow → Bool} {f : JobRow → JobRow}
    (hf : ∀ r, (f r).fixed = r.fixed) : Agree Same (updateJobs p f) (updateJobs p f) := by
  intro s t h
  unfold updateJobs
  rw [h.jobs.countP_eq p]
  exact .ok _ (h.updateJobs hf)

/-- The store after an insert that no row clashes with. -/
theorem Same.insertJob (h : Same s t) {r : JobRow} (hc : s.jobs.any r.clash = false) :
    Same { s with jobs := s.jobs ++ [r] } { t with jobs := t.jobs ++ [r] } where
  jobs := h.jobs.append_right _
  jobAttempts := h.jobAttempts
  deadLetters := h.deadLetters
  recurringSchedules := h.recurringSchedules
  runtimeConfig := h.runtimeConfig
  workerInstances := h.workerInstances
  keys := by
    refine ⟨pairwise_append_singleton h.keys.jobs fun o ho => ?_, h.keys.deadLetters,
      h.keys.schedules⟩
    rw [List.any_eq_false] at hc
    rw [JobRow.clash_comm]
    simpa using hc o ho

theorem insertJob_agree (r : JobRow) : Agree Same (insertJob r) (insertJob r) := by
  intro s t h
  unfold insertJob
  rw [← h.jobs.any_eq]
  by_cases hc : s.jobs.any r.clash = true
  · rw [if_pos hc, if_pos hc]
    exact .error _
  · rw [if_neg hc, if_neg hc]
    exact .ok _ (h.insertJob (by simpa using hc))

theorem insertJobOrIgnore_agree (r : JobRow) :
    Agree Same (insertJobOrIgnore r) (insertJobOrIgnore r) := by
  intro s t h
  unfold insertJobOrIgnore
  rw [← h.jobs.any_eq]
  by_cases hc : s.jobs.any r.clash = true
  · rw [if_pos hc, if_pos hc]
    exact .ok _ h
  · rw [if_neg hc, if_neg hc]
    exact .ok _ (h.insertJob (by simpa using hc))

/-! ## Attempts and dead letters

These statements leave `jobs` alone. -/

/-- Reordered stores, the first with the jobs `js`. -/
def SameJobs (js : List JobRow) (s t : Store) : Prop := Same s t ∧ s.jobs = js

theorem Agree.of_jobs {α : Type} {x y : Body α} (h : ∀ js, Agree (SameJobs js) x y) :
    Agree Same x y := by
  intro s t hst
  have hx := h s.jobs s t ⟨hst, rfl⟩
  generalize x s = xs at hx
  generalize y t = yt at hx
  cases hx with
  | ok a h => exact .ok a h.1
  | error e => exact .error e

theorem insertAttempt_agree (js : List JobRow) (a : AttemptRow) :
    Agree (SameJobs js) (insertAttempt a) (insertAttempt a) := by
  rintro s t ⟨h, hjs⟩
  unfold insertAttempt
  rw [← h.jobs.any_eq, ← h.jobAttempts.any_eq]
  split
  · exact .error _
  · refine .ok _ ⟨⟨?_, ⟨h.keys.jobs, h.keys.deadLetters, h.keys.schedules⟩⟩, hjs⟩
    exact ⟨h.jobs, h.jobAttempts.append_right _, h.deadLetters, h.recurringSchedules,
      h.runtimeConfig, h.workerInstances⟩

/-- A primary key admits the row after its conflicting row is gone. -/
theorem replaced_nodup (h : Keys s) (d : DeadLetterRow) :
    ((insertOrReplace DeadLetterRow.clash d s.deadLetters).map (·.jobId)).Nodup := by
  unfold insertOrReplace
  rw [List.map_append, List.nodup_append]
  refine ⟨h.deadLetters.sublist (List.filter_sublist.map _), by simp, fun x hx y hy => ?_⟩
  obtain ⟨o, ho, rfl⟩ := List.mem_map.1 hx
  rw [List.mem_singleton.1 hy]
  have hc := (List.mem_filter.1 ho).2
  simp only [DeadLetterRow.clash, Bool.not_eq_true', beq_eq_false_iff_ne, ne_eq] at hc
  exact fun he => hc he.symm

/-- `INSERT OR REPLACE` and `ON CONFLICT DO UPDATE` of every other column. -/
theorem deadLetter_agree (js : List JobRow) (d : DeadLetterRow) :
    Agree (SameJobs js) (replaceDeadLetter d) (upsertDeadLetter d) := by
  rintro s t ⟨h, hjs⟩
  unfold replaceDeadLetter upsertDeadLetter
  rw [← h.jobs.any_eq]
  split
  · exact .error _
  · have hperm : (insertOrReplace DeadLetterRow.clash d t.deadLetters).Perm
        (upsert DeadLetterRow.clash
          (fun o => { o with payload := d.payload, lastError := d.lastError,
                             attemptCount := d.attemptCount, deadLetteredAt := d.deadLetteredAt })
          d t.deadLetters) := by
      refine insertOrReplace_upsert h.right.keys.deadLetters fun o hc => ?_
      have hid : d.jobId = o.jobId := by simpa [DeadLetterRow.clash] using hc
      refine ⟨hid.symm, ?_⟩
      rw [← hid]
    refine .ok _ ⟨⟨?_, ⟨h.keys.jobs, replaced_nodup h.keys d, h.keys.schedules⟩⟩, hjs⟩
    exact ⟨h.jobs, h.jobAttempts, (insertOrReplace_perm h.deadLetters).trans hperm,
      h.recurringSchedules, h.runtimeConfig, h.workerInstances⟩

theorem replaceDeadLetter_agree (js : List JobRow) (d : DeadLetterRow) :
    Agree (SameJobs js) (replaceDeadLetter d) (replaceDeadLetter d) := by
  rintro s t ⟨h, hjs⟩
  unfold replaceDeadLetter
  rw [← h.jobs.any_eq]
  split
  · exact .error _
  · refine .ok _ ⟨⟨?_, ⟨h.keys.jobs, replaced_nodup h.keys d, h.keys.schedules⟩⟩, hjs⟩
    exact ⟨h.jobs, h.jobAttempts, insertOrReplace_perm h.deadLetters, h.recurringSchedules,
      h.runtimeConfig, h.workerInstances⟩

/-! ## Statements on `recurring_schedules` -/

theorem insertSchedule_agree (r : ScheduleRow) : Agree Same (insertSchedule r) (insertSchedule r) := by
  intro s t h
  unfold insertSchedule
  rw [← h.recurringSchedules.any_eq]
  by_cases hc : (s.recurringSchedules.any (·.id == r.id)) = true
  · rw [if_pos hc, if_pos hc]
    exact .error _
  · rw [if_neg hc, if_neg hc]
    simp only [List.any_eq_true, beq_iff_eq, not_exists, not_and] at hc
    refine .ok _ ⟨⟨h.jobs, h.jobAttempts, h.deadLetters, h.recurringSchedules.append_right _,
      h.runtimeConfig, h.workerInstances⟩, ⟨h.keys.jobs, h.keys.deadLetters, ?_⟩⟩
    rw [List.map_append, List.nodup_append]
    refine ⟨h.keys.schedules, by simp, fun x hx y hy => ?_⟩
    obtain ⟨o, ho, rfl⟩ := List.mem_map.1 hx
    rw [List.mem_singleton.1 hy]
    exact hc o ho

theorem updateSchedule_agree (id : String) {f : ScheduleRow → ScheduleRow}
    (hf : ∀ r, (f r).id = r.id) : Agree Same (updateSchedule id f) (updateSchedule id f) := by
  intro s t h
  unfold updateSchedule
  rw [h.recurringSchedules.countP_eq]
  refine .ok _ ⟨⟨h.jobs, h.jobAttempts, h.deadLetters, updateWhere_perm h.recurringSchedules,
    h.runtimeConfig, h.workerInstances⟩, ⟨h.keys.jobs, h.keys.deadLetters, ?_⟩⟩
  rw [map_updateWhere fun r _ => hf r]
  exact h.keys.schedules

theorem deleteScheduleRow_agree (id : String) :
    Agree Same (deleteScheduleRow id) (deleteScheduleRow id) := by
  intro s t h
  unfold deleteScheduleRow
  rw [h.recurringSchedules.countP_eq]
  exact .ok _ ⟨⟨h.jobs, h.jobAttempts, h.deadLetters, h.recurringSchedules.filter _,
    h.runtimeConfig, h.workerInstances⟩, ⟨h.keys.jobs, h.keys.deadLetters,
    h.keys.schedules.sublist (List.filter_sublist.map _)⟩⟩

end

end PulseQueue
