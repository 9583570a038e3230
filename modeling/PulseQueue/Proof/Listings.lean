import PulseQueue.Model.Routes
import PulseQueue.Proof.Invariants
import PulseQueue.Proof.QueueDepth
import PulseQueue.Proof.Submitted

/-!
# The listings

`list_dead_letters` reads a table of its own, which mirrors the dead-lettered jobs. So it is a page of the
jobs table (`dead_letters_listed`). `list_scheduled_jobs` is a page of the queued jobs that are not due, and
what it shows as the time of a job is binding for the claims after it (`scheduled_jobs_listed`).
-/

namespace PulseQueue

open Txn Trace Table

/-- The dead-lettered jobs, as entries of the listing. -/
def Store.deadLettered (deps : Deps) (s : Store) : List DeadLetter :=
  s.jobs.filterMap fun r =>
    if r.status = .deadLettered then
      r.finishedAt.map fun t =>
        ⟨r.id, deps.loads r.payload, r.lastError, r.attemptCount, parseDbTime t⟩
    else none

/-- The queued jobs that are not due. -/
def Store.scheduledJobs (now : UtcTime) (s : Store) : List JobRow :=
  s.jobs.filter fun r => r.status = .queued && toDbTime now < r.runAt

section
variable {deps : Deps} {engine : Engine} {h : History Event Store} {s : Store} {now : UtcTime} {limit : Nat}

/-! ## Dead letters -/

/-- The dead letters that the jobs have. -/
def Store.mirrors (s : Store) : List DeadLetterRow :=
  s.jobs.filterMap fun r => if r.status = .deadLettered then r.finishedAt.map r.mirror else none

theorem mem_mirrors {d : DeadLetterRow} : d ∈ s.mirrors ↔
    ∃ r ∈ s.jobs, r.status = .deadLettered ∧ ∃ t, r.finishedAt = some t ∧ d = r.mirror t := by
  unfold Store.mirrors
  rw [List.mem_filterMap]
  refine exists_congr fun r => and_congr_right fun hr => ?_
  split
  · rename_i hst
    rw [Option.map_eq_some_iff]
    exact ⟨fun ⟨t, ht, hd⟩ => ⟨hst, t, ht, hd.symm⟩, fun ⟨_, t, ht, hd⟩ => ⟨t, ht, hd.symm⟩⟩
  · rename_i hst
    exact ⟨nofun, fun hd => absurd hd.1 hst⟩

theorem mirrors_jobId (rows : List JobRow) :
    ((rows.filterMap fun r => if r.status = .deadLettered then r.finishedAt.map r.mirror else none).map
      (·.jobId)).Sublist (rows.map (·.id)) := by
  induction rows with
  | nil => exact .slnil
  | cons r rows ih =>
    rw [List.filterMap_cons]
    split
    · exact ih.cons _
    · rename_i d hd
      split at hd
      · obtain ⟨t, -, rfl⟩ := Option.map_eq_some_iff.1 hd
        exact ih.cons_cons _
      · cases hd

theorem mirrors_nodup (hok : s.Ok deps) : s.mirrors.Nodup :=
  List.Nodup.of_map DeadLetterRow.jobId (hok.nodup.sublist (mirrors_jobId s.jobs))

/-- The table of dead letters is theirs. -/
theorem Run.mirrors (hjson : ∀ x, deps.dumps (deps.loads (deps.dumps x)) = deps.dumps x)
    (hr : Run deps engine h) : (present h).deadLetters.Perm (present h).mirrors := by
  have hs := Run.sound hr
  rw [List.perm_ext_iff_of_nodup (List.Nodup.of_map _ hs.ok.deadLetters) (mirrors_nodup hs.ok)]
  have hrow : ∀ r ∈ (present h).jobs, r.status = .deadLettered →
      ∃ t, r.finishedAt = some t ∧ (present h).deadLetters.filter (·.jobId == r.id) = [r.mirror t] := by
    intro r hj hdead
    have hm := Run.mirror hjson hr r.id
    simp only [Mirror, Store.view, hs.ok.job?_mem hj] at hm
    exact hm.2 hdead
  intro d
  rw [mem_mirrors]
  constructor
  · intro hd
    obtain ⟨r, hj, hid, hdead⟩ := hs.ok.deadJob d hd
    obtain ⟨t, ht, hds⟩ := hrow r hj hdead
    have hm : d ∈ (present h).deadLetters.filter (·.jobId == r.id) :=
      List.mem_filter.2 ⟨hd, by simp [hid]⟩
    rw [hds, List.mem_singleton] at hm
    exact ⟨r, hj, hdead, t, ht, hm⟩
  · intro hd
    obtain ⟨r, hj, hdead, t, ht, rfl⟩ := hd
    obtain ⟨t', ht', hds⟩ := hrow r hj hdead
    cases ht.symm.trans ht'
    have hm : r.mirror t ∈ (present h).deadLetters.filter (·.jobId == r.id) := by
      rw [hds]
      exact List.mem_cons_self ..
    exact (List.mem_filter.1 hm).1

theorem map_mirrors : s.mirrors.map (deadLetterFromRow deps) = s.deadLettered deps := by
  unfold Store.mirrors Store.deadLettered
  rw [List.map_filterMap]
  refine List.filterMap_congr fun r _ => ?_
  split
  · rw [Option.map_map]
    rfl
  · rfl

/-- A finished job has its time. -/
theorem Run.length_deadLettered (hr : Run deps engine h) :
    ((present h).deadLettered deps).length = Sqlite.statusCount (present h) .deadLettered := by
  have hs := Run.sound hr
  unfold Store.deadLettered Sqlite.statusCount
  rw [List.length_filterMap_eq_countP]
  refine List.countP_congr fun r hj => ?_
  have hfinished := (hs.coherent r.id r (hs.ok.job?_mem hj)).finishedAt
  by_cases hst : r.status = .deadLettered
  · simp [hst, hfinished.2 (by rw [hst]; rfl)]
  · simp [hst]

/-- In every run `list_dead_letters` returns the dead-lettered jobs that finished last, each once and
with what the job itself shows, and as many as `queue_depth` counts, up to its limit. -/
theorem dead_letters_listed (hjson : ∀ x, deps.dumps (deps.loads (deps.dumps x)) = deps.dumps x)
    (hr : Run deps engine h) (limit : Nat) (now : UtcTime) (s : Store) : ∃ page,
      listDeadLetters deps limit (present h) = (.ok page, present h) ∧
      Page DeadLetter.deadLetteredAt limit ((present h).deadLettered deps) page ∧
      page.length = min limit (engine.queueDepthOf now (present h) s).deadLettered := by
  have hpage := (orderBy_page DeadLetterRow.deadLetteredAt limit (present h).deadLetters).map
    (c := DeadLetter.deadLetteredAt) (g := deadLetterFromRow deps) (u := (present h).deadLettered deps)
    (fun a b hab => parseDbTime_le.2 hab) (by
      rw [← map_mirrors]
      exact (Run.mirrors hjson hr).map _)
  refine ⟨_, rfl, hpage, ?_⟩
  rw [hpage.length, Run.length_deadLettered hr, queueDepthOf_eq]
  rfl

theorem dead_letters_listed_one : ∃ page,
    listDeadLetters sampleDeps 50 (present sampleDead) = (.ok page, present sampleDead) ∧
      page.length = 1 := by
  obtain ⟨page, hlist, -, hlen⟩ :=
    dead_letters_listed sampleDeps_json sampleDead_run 50 (sampleTime 0) Store.empty
  refine ⟨page, hlist, hlen.trans ?_⟩
  decide +kernel

/-! ## Scheduled jobs -/

theorem scheduled_add_due (s : Store) (now : UtcTime) :
    (s.scheduledJobs now).length + (s.dueJobs now).length = s.queuedJobs.length := by
  have hdue : s.queuedJobs.countP (fun r => ¬ toDbTime now < r.runAt) = (s.dueJobs now).length := by
    rw [← dueJobs_eq, ← List.countP_eq_length_filter, Store.queuedJobs, List.countP_filter]
    refine List.countP_congr fun r _ => ?_
    simp only [not_lt, Bool.and_eq_true, decide_eq_true_eq, and_comm]
  have hscheduled : s.queuedJobs.countP (fun r => toDbTime now < r.runAt) = (s.scheduledJobs now).length := by
    rw [Store.scheduledJobs, ← List.countP_eq_length_filter, Store.queuedJobs, List.countP_filter]
    refine List.countP_congr fun r _ => ?_
    simp only [Bool.and_eq_true, decide_eq_true_eq, and_comm]
  have hsplit := List.length_eq_countP_add_countP (fun r => decide (toDbTime now < r.runAt))
    (l := s.queuedJobs)
  simp only [decide_eq_true_eq] at hsplit
  rw [hsplit, hscheduled, hdue]

/-- In every run `list_scheduled_jobs` returns the queued jobs whose time comes next, as many as
`queue_depth` counts as scheduled, up to its limit. Whatever happens afterwards, none of them is claimed
before the time that was shown, but after an attempt in between. -/
theorem scheduled_jobs_listed {post pre : History Event Store} (hr : Run deps engine (post ++ pre))
    (now : UtcTime) (limit : Nat) : ∃ page : List JobRow,
      listScheduledJobs deps now limit (present pre) = (.ok (page.map (jobFromRow deps)), present pre) ∧
      Page (fun r => OrderDual.toDual r.runAt) limit ((present pre).scheduledJobs now) page ∧
      page.length = min limit (engine.queueDepthOf now (present pre) (present pre)).scheduledQueued ∧
      ∀ r ∈ page, NotBefore r post := by
  have hpage := orderBy_page (fun r : JobRow => OrderDual.toDual r.runAt) limit
    ((present pre).scheduledJobs now)
  refine ⟨_, rfl, hpage, ?_, fun r hm => ?_⟩
  · refine hpage.length.trans ?_
    rw [scheduledQueued_eq, queued_eq, dueQueued_eq, ← scheduled_add_due, Nat.add_sub_cancel]
  · have hj := (List.mem_filter.1 (hpage.mem hm)).1
    exact Run.notBefore hr ((Run.sound hr.suffix).ok.job?_mem hj)

/-- A job that waits for the twentieth second, and a claim. -/
theorem scheduled_jobs_listed_one :
    let pre := afterCall sampleDeps .sqlite [] (.createJobsBatch (sampleTime 0) (fun _ => "k")
      [{ sampleRequest with runAt := some (sampleTime 20) }] 1 300)
    ∃ page : List JobRow, listScheduledJobs sampleDeps (sampleTime 5) 100 (present pre) =
        (.ok (page.map (jobFromRow sampleDeps)), present pre) ∧ page.length = 1 ∧
      ∀ r ∈ page, NotBefore r ((afterCall sampleDeps .sqlite pre sampleClaim).take 1) := by
  intro pre
  have hpre : Run sampleDeps .sqlite pre := Run.afterCall .nil (Allowed.of_none rfl)
  have hrun : Run sampleDeps .sqlite ((afterCall sampleDeps .sqlite pre sampleClaim).take 1 ++ pre) :=
    Run.afterCall hpre (Allowed.of_none rfl)
  obtain ⟨page, hlist, -, hlen, hclaims⟩ := scheduled_jobs_listed hrun (sampleTime 5) 100
  refine ⟨page, hlist, hlen.trans ?_, hclaims⟩
  decide +kernel

end

end PulseQueue
