import PulseQueue.Spec.Lifecycle

/-!
# Steps of the store

`StoreStep` lists what a transaction can do to the tables, one row operation at a time; the
transactions of both repositories are chains of these steps. `Store.Ok` has the constraints of the
schema, which every step keeps (`StoreStep.ok`), and every step is, for each job, one step of its
life or nothing (`StoreStep.view`).
-/

namespace PulseQueue

open Table

/-! ## The schema's constraints -/

/-- Constraints on the tables that no job operation touches. -/
structure Store.SideOk (deps : Deps) (s : Store) : Prop where
  schedules : (s.recurringSchedules.map (·.id)).Nodup
  payloads : ∀ r ∈ s.recurringSchedules, ∃ v, r.payload = deps.dumps v
  instances : (s.workerInstances.map (·.instanceId)).Nodup

/-- Unique indexes, primary keys and foreign keys; a dead letter belongs to a dead-lettered job. -/
structure Store.Ok (deps : Deps) (s : Store) : Prop where
  jobs : s.jobs.Pairwise fun a b => a.clash b = false
  attempts : s.jobAttempts.Pairwise fun a b => a.clash b = false
  deadLetters : (s.deadLetters.map (·.jobId)).Nodup
  attemptJob : ∀ a ∈ s.jobAttempts, ∃ r ∈ s.jobs, r.id = a.jobId
  deadJob : ∀ d ∈ s.deadLetters, ∃ r ∈ s.jobs, r.id = d.jobId ∧ r.status = .deadLettered
  side : s.SideOk deps

theorem Store.Ok.empty (deps : Deps) : Store.empty.Ok deps where
  jobs := by simp [Store.empty]
  attempts := by simp [Store.empty]
  deadLetters := by simp [Store.empty]
  attemptJob := by simp [Store.empty]
  deadJob := by simp [Store.empty]
  side := ⟨by simp [Store.empty], by simp [Store.empty], by simp [Store.empty]⟩

theorem sqlEq_comm {α : Type} [DecidableEq α] (a b : Option α) : sqlEq a b = sqlEq b a := by
  cases a <;> cases b <;> simp [sqlEq, eq_comm]

theorem sqlEq_some {α : Type} [DecidableEq α] {a : Option α} {b : α} :
    sqlEq a (some b) = true ↔ a = some b := by
  cases a <;> simp [sqlEq]

theorem JobRow.clash_comm (a b : JobRow) : a.clash b = b.clash a := by
  simp only [JobRow.clash, JobRow.sameKey, JobRow.sameOccurrence, sqlEq_comm a.idempotencyKey,
    sqlEq_comm a.scheduleId, sqlEq_comm a.scheduledFor, beq_eq_decide, eq_comm (a := a.id)]

theorem AttemptRow.clash_comm (a b : AttemptRow) : a.clash b = b.clash a := by
  simp only [AttemptRow.clash, beq_eq_decide, eq_comm (a := a.jobId), eq_comm (a := a.attemptNo)]

theorem JobRow.clash_id {a b : JobRow} (h : a.clash b = false) : a.id ≠ b.id := by
  intro he
  simp [JobRow.clash, he] at h

theorem JobRow.clash_congr {a a' b b' : JobRow} (h : a'.fixed = a.fixed) (h' : b'.fixed = b.fixed) :
    a'.clash b' = a.clash b := by
  simp only [JobRow.fixed, FixedColumns.mk.injEq] at h h'
  simp only [JobRow.clash, JobRow.sameKey, JobRow.sameOccurrence, h, h']

section
variable {deps : Deps} {s : Store}

theorem Store.Ok.nodup (h : s.Ok deps) : (s.jobs.map (·.id)).Nodup :=
  List.pairwise_map.2 (h.jobs.imp fun hc => JobRow.clash_id hc)

theorem Store.Ok.job?_mem (h : s.Ok deps) {r : JobRow} (hr : r ∈ s.jobs) :
    s.job? r.id = some r := lookup_of_mem h.nodup hr

theorem Store.job?_some {id : String} {r : JobRow} (h : s.job? id = some r) :
    r ∈ s.jobs ∧ r.id = id := lookup_some h

/-- Rows with the same id are the same row. -/
theorem unique_of_nodup (hn : (s.jobs.map (·.id)).Nodup) {r r' : JobRow} (hr : r ∈ s.jobs)
    (hr' : r' ∈ s.jobs) (he : r'.id = r.id) : r' = r := by
  have h1 := lookup_of_mem hn hr
  rw [← he, lookup_of_mem hn hr'] at h1
  exact Option.some.inj h1

theorem Store.Ok.unique (h : s.Ok deps) {r r' : JobRow} (hr : r ∈ s.jobs) (hr' : r' ∈ s.jobs)
    (he : r'.id = r.id) : r' = r := unique_of_nodup h.nodup hr hr' he

end

/-! ## The steps -/

inductive StoreStep (deps : Deps) : Kind → Store → Store → Prop
  | submit {s : Store} {r : JobRow} : r.New deps → (∀ o ∈ s.jobs, r.clash o = false) →
      StoreStep deps .submit s { s with jobs := s.jobs ++ [r] }
  | claim {s : Store} {r : JobRow} (w : String) (t : DbTime) : r ∈ s.jobs → r.status = .queued →
      StoreStep deps (.claim w) s
        { s with jobs := updateWhere (·.id == r.id) (·.claimed w t) s.jobs }
  | settle {s : Store} {r : JobRow} {w : String} (startedAt : DbTime) {o : Outcome} (t : DbTime) :
      r ∈ s.jobs → r.status = .running → r.lockedBy = some w → o.Proper deps r →
      (∀ a ∈ s.jobAttempts, (r.attempt w startedAt o t).clash a = false) →
      StoreStep deps .settle s
        { s with jobs := updateWhere (·.id == r.id) (·.settled o t) s.jobs
                 jobAttempts := s.jobAttempts ++ [r.attempt w startedAt o t]
                 deadLetters := s.deadLetters ++ r.deadLetter o t }
  | cancel {s : Store} (p : JobRow → Bool) (t : DbTime) :
      StoreStep deps .cancel s
        { s with jobs := updateWhere (fun r => p r && r.status = .queued) (·.cancelled t) s.jobs }
  | side {s s' : Store} : s'.jobs = s.jobs → s'.jobAttempts = s.jobAttempts →
      s'.deadLetters = s.deadLetters → s'.SideOk deps → StoreStep deps .reorder s s'
  | reorder {s s' : Store} : s.jobs.Perm s'.jobs → s.jobAttempts.Perm s'.jobAttempts →
      s.deadLetters.Perm s'.deadLetters → s'.SideOk deps → StoreStep deps .reorder s s'

/-- The job runs and `w` has the lease. -/
def Leased (s : Store) (w id : String) : Prop :=
  ∃ r ∈ s.jobs, r.id = id ∧ r.status = .running ∧ r.lockedBy = some w

/-- What the tables say about the job `id`. -/
def Store.view (s : Store) (id : String) : JobView :=
  ⟨s.job? id, s.jobAttempts.filter (·.jobId == id), s.deadLetters.filter (·.jobId == id)⟩

section
variable {deps : Deps} {s s' : Store} {k : Kind}

/-- A job that does not exist has no attempts and no dead letter. -/
theorem Store.Ok.view_none (h : s.Ok deps) {id : String} (hj : s.job? id = none) :
    s.view id = ⟨none, [], []⟩ := by
  have hn : ∀ r ∈ s.jobs, r.id ≠ id := lookup_eq_none.1 hj
  have ha : s.jobAttempts.filter (·.jobId == id) = [] := by
    rw [List.filter_eq_nil_iff]
    intro a ha he
    obtain ⟨r, hr, hid⟩ := h.attemptJob a ha
    exact hn r hr (hid.trans (by simpa using he))
  have hd : s.deadLetters.filter (·.jobId == id) = [] := by
    rw [List.filter_eq_nil_iff]
    intro d hd he
    obtain ⟨r, hr, hid, -⟩ := h.deadJob d hd
    exact hn r hr (hid.trans (by simpa using he))
  simp only [Store.view, hj, ha, hd]

/-- The updated row, and every other row, after an update by id. -/
theorem job?_update (s : Store) (id : String) (f : JobRow → JobRow) (hf : ∀ r, (f r).id = r.id)
    (id' : String) : Store.job? { s with jobs := updateWhere (·.id == id) f s.jobs } id' =
      if id' = id then (s.job? id').map f else s.job? id' := by
  unfold Store.job?
  rw [lookup_updateWhere fun r _ => hf r]
  cases hr : lookup JobRow.id id' s.jobs with
  | none => simp
  | some r =>
    have hid : r.id = id' := (lookup_some hr).2
    by_cases he : id' = id <;> simp [hid, he]

theorem job?_append (s : Store) (r : JobRow) (id : String) :
    Store.job? { s with jobs := s.jobs ++ [r] } id =
      (s.job? id).or (if r.id = id then some r else none) := by
  unfold Store.job?
  rw [lookup_append_singleton]

theorem claimed_fixed (w : String) (t : DbTime) (r : JobRow) : (r.claimed w t).fixed = r.fixed := rfl

theorem cancelled_fixed (t : DbTime) (r : JobRow) : (r.cancelled t).fixed = r.fixed := rfl

theorem settled_id (o : Outcome) (t : DbTime) (r : JobRow) : (r.settled o t).id = r.id := by
  cases o <;> rfl

theorem deadLetter_jobId {o : Outcome} {t : DbTime} {r : JobRow} {d : DeadLetterRow}
    (h : d ∈ r.deadLetter o t) : d.jobId = r.id := by
  cases o with
  | success res => cases h
  | failure m e at' p =>
    simp only [JobRow.deadLetter] at h
    split at h
    · cases h
    · rw [List.mem_singleton.1 h]

/-- A step of the store is a step of the life of each job, or leaves it alone. -/
theorem StoreStep.view (h : s.Ok deps) (hs : StoreStep deps k s s') (id : String) :
    s'.view id = s.view id ∨ JobStep deps k (s.view id) (s'.view id) := by
  cases hs with
  | @submit _ r hr hc =>
    have hj := job?_append s r id
    by_cases he : r.id = id
    · have h0 : s.job? id = none :=
        lookup_eq_none.2 fun o ho hid => JobRow.clash_id (hc o ho) (he.trans hid.symm)
      have hv := h.view_none h0
      rw [h0, if_pos he, Option.none_or] at hj
      right
      rw [hv]
      simp only [Store.view, JobView.mk.injEq] at hv
      simp only [Store.view, hj, hv.2.1, hv.2.2]
      exact .submit hr
    · left
      rw [if_neg he, Option.or_none] at hj
      simp only [Store.view, hj]
  | @claim _ r w t hr hq =>
    have hj := job?_update s r.id (·.claimed w t) (fun _ => rfl) id
    by_cases he : id = r.id
    · subst he
      rw [if_pos rfl, h.job?_mem hr, Option.map_some] at hj
      right
      simp only [Store.view, hj, h.job?_mem hr]
      exact .claim w t hq
    · left
      rw [if_neg he] at hj
      simp only [Store.view, hj]
  | @settle _ r w startedAt o t hr hrun hw ho hc =>
    have hj : Store.job? { s with jobs := updateWhere (·.id == r.id) (·.settled o t) s.jobs
                                  jobAttempts := s.jobAttempts ++ [r.attempt w startedAt o t]
                                  deadLetters := s.deadLetters ++ r.deadLetter o t } id = _ :=
      job?_update s r.id (·.settled o t) (settled_id o t) id
    by_cases he : id = r.id
    · subst he
      rw [if_pos rfl, h.job?_mem hr, Option.map_some] at hj
      have ha : [r.attempt w startedAt o t].filter (·.jobId == r.id) =
          [r.attempt w startedAt o t] := by simp [JobRow.attempt]
      have hd : (r.deadLetter o t).filter (·.jobId == r.id) = r.deadLetter o t :=
        List.filter_eq_self.2 fun d hd => by simp [deadLetter_jobId hd]
      right
      simp only [Store.view, hj, h.job?_mem hr, List.filter_append, ha, hd]
      exact .settle startedAt t hrun hw ho
    · rw [if_neg he] at hj
      have ha : [r.attempt w startedAt o t].filter (·.jobId == id) = [] := by
        simp [JobRow.attempt, Ne.symm he]
      have hd : (r.deadLetter o t).filter (·.jobId == id) = [] :=
        List.filter_eq_nil_iff.2 fun d hd => by simp [deadLetter_jobId hd, Ne.symm he]
      left
      simp only [Store.view, hj, List.filter_append, ha, hd, List.append_nil]
  | cancel p t =>
    have hj : Store.job? { s with
        jobs := updateWhere (fun r => p r && r.status = .queued) (·.cancelled t) s.jobs } id =
          (lookup JobRow.id id s.jobs).map
            fun r => if p r && r.status = .queued then r.cancelled t else r :=
      lookup_updateWhere fun _ _ => rfl
    cases hr : s.job? id with
    | none =>
      left
      rw [show lookup JobRow.id id s.jobs = none from hr] at hj
      simp only [Store.view, hj, hr, Option.map_none]
    | some r =>
      rw [show lookup JobRow.id id s.jobs = some r from hr, Option.map_some] at hj
      by_cases hp : (p r && decide (r.status = .queued)) = true
      · right
        rw [if_pos hp] at hj
        simp only [Store.view, hj, hr]
        refine .cancel t ?_
        simp only [Bool.and_eq_true, decide_eq_true_eq] at hp
        exact hp.2
      · left
        rw [if_neg hp] at hj
        simp only [Store.view, hj, hr]
  | side hj ha hd _ =>
    left
    simp only [Store.view, Store.job?, hj, ha, hd]
  | reorder hj ha hd _ =>
    right
    have he : s'.job? id = s.job? id := (lookup_perm h.nodup hj).symm
    simp only [Store.view, he]
    exact .reorder (ha.filter _) (hd.filter _)

/-! ## The constraints are kept -/

theorem pairwise_append_singleton {α : Type} {R : α → α → Prop} {l : List α} {a : α}
    (h : l.Pairwise R) (ha : ∀ b ∈ l, R b a) : (l ++ [a]).Pairwise R := by
  rw [List.pairwise_append]
  refine ⟨h, List.pairwise_singleton _ _, fun b hb c hc => ?_⟩
  rw [List.mem_singleton.1 hc]
  exact ha b hb

/-- An update that assigns no fixed column keeps the unique indexes. -/
theorem jobs_update_pairwise {p : JobRow → Bool} {f : JobRow → JobRow}
    (h : s.jobs.Pairwise fun a b => a.clash b = false)
    (hf : ∀ r, (f r).fixed = r.fixed) :
    (updateWhere p f s.jobs).Pairwise fun a b => a.clash b = false := by
  have hfix : ∀ r, (if p r then f r else r).fixed = r.fixed := by
    intro r
    split
    · exact hf r
    · rfl
  exact List.pairwise_map.2 (h.imp fun {a b} hc => by rw [JobRow.clash_congr (hfix a) (hfix b), hc])

/-- Existing jobs keep their ids under such an update. -/
theorem jobs_update_mem {p : JobRow → Bool} {f : JobRow → JobRow}
    (hf : ∀ r, (f r).fixed = r.fixed) {id : String} (h : ∃ r ∈ s.jobs, r.id = id) :
    ∃ r ∈ updateWhere p f s.jobs, r.id = id := by
  obtain ⟨r, hr, rfl⟩ := h
  refine ⟨_, mem_updateWhere.2 ⟨r, hr, rfl⟩, ?_⟩
  split
  · exact JobRow.id_eq (hf r)
  · rfl

/-- A dead letter's job stays dead-lettered when the update touches live jobs only. -/
theorem jobs_update_dead {p : JobRow → Bool} {f : JobRow → JobRow}
    (hp : ∀ r ∈ s.jobs, p r = true → r.status ≠ .deadLettered) {id : String}
    (h : ∃ r ∈ s.jobs, r.id = id ∧ r.status = .deadLettered) :
    ∃ r ∈ updateWhere p f s.jobs, r.id = id ∧ r.status = .deadLettered := by
  obtain ⟨r, hr, hid, hd⟩ := h
  refine ⟨r, mem_updateWhere.2 ⟨r, hr, ?_⟩, hid, hd⟩
  rw [if_neg fun hpr => hp r hr hpr hd]

theorem StoreStep.ok (h : s.Ok deps) (hs : StoreStep deps k s s') : s'.Ok deps := by
  obtain ⟨hsch, hpay, hins⟩ := h.side
  cases hs with
  | @submit _ r hr hc =>
    refine ⟨pairwise_append_singleton h.jobs fun b hb => ?_, h.attempts, h.deadLetters,
      fun a ha => ?_, fun d hd => ?_, ⟨hsch, hpay, hins⟩⟩
    · rw [JobRow.clash_comm]
      exact hc b hb
    · obtain ⟨o, ho, he⟩ := h.attemptJob a ha
      exact ⟨o, List.mem_append_left _ ho, he⟩
    · obtain ⟨o, ho, he⟩ := h.deadJob d hd
      exact ⟨o, List.mem_append_left _ ho, he⟩
  | @claim _ r w t hr hq =>
    have hp : ∀ o ∈ s.jobs, (o.id == r.id) = true → o.status ≠ .deadLettered := by
      intro o ho he
      rw [h.unique hr ho (by simpa using he), hq]
      simp
    exact ⟨jobs_update_pairwise h.jobs fun _ => rfl, h.attempts, h.deadLetters,
      fun a ha => jobs_update_mem (claimed_fixed w t) (h.attemptJob a ha),
      fun d hd => jobs_update_dead hp (h.deadJob d hd), ⟨hsch, hpay, hins⟩⟩
  | @settle _ r w startedAt o t hr hrun hw ho hc =>
    have hp : ∀ x ∈ s.jobs, (x.id == r.id) = true → x.status ≠ .deadLettered := by
      intro x hx he
      rw [h.unique hr hx (by simpa using he), hrun]
      simp
    have hmem : r.settled o t ∈ updateWhere (·.id == r.id) (·.settled o t) s.jobs :=
      mem_updateWhere.2 ⟨r, hr, by simp⟩
    -- the job is running, so it has no dead letter yet
    have hnone : ∀ d ∈ s.deadLetters, d.jobId ≠ r.id := by
      intro d hd he
      obtain ⟨x, hx, hid, hdead⟩ := h.deadJob d hd
      rw [h.unique hr hx (hid.trans he), hrun] at hdead
      cases hdead
    refine ⟨jobs_update_pairwise h.jobs (settled_fixed o t),
      pairwise_append_singleton h.attempts fun b hb => ?_, ?_, fun a ha => ?_, fun d hd => ?_,
      ⟨hsch, hpay, hins⟩⟩
    · rw [AttemptRow.clash_comm]
      exact hc b hb
    · rw [List.map_append, List.nodup_append]
      refine ⟨h.deadLetters, ?_, fun x hx y hy => ?_⟩
      · cases o with
        | success res => simp [JobRow.deadLetter]
        | failure m e at' p =>
          simp only [JobRow.deadLetter]
          split <;> simp
      · obtain ⟨d, hd, rfl⟩ := List.mem_map.1 hx
        obtain ⟨d', hd', rfl⟩ := List.mem_map.1 hy
        rw [deadLetter_jobId hd']
        exact hnone d hd
    · rcases List.mem_append.1 ha with ha | ha
      · exact jobs_update_mem (settled_fixed o t) (h.attemptJob a ha)
      · rw [List.mem_singleton.1 ha]
        exact ⟨_, hmem, settled_id o t r⟩
    · rcases List.mem_append.1 hd with hd | hd
      · exact jobs_update_dead hp (h.deadJob d hd)
      · refine ⟨_, hmem, by rw [settled_id, deadLetter_jobId hd], ?_⟩
        cases o with
        | success res => cases hd
        | failure m e at' p =>
          simp only [JobRow.deadLetter] at hd
          split at hd
          · cases hd
          · rename_i hb
            simp only [JobRow.settled, hb, if_false]
  | cancel p t =>
    have hp : ∀ o ∈ s.jobs, (p o && decide (o.status = .queued)) = true →
        o.status ≠ .deadLettered := by
      intro o _ he
      simp only [Bool.and_eq_true, decide_eq_true_eq] at he
      rw [he.2]
      simp
    exact ⟨jobs_update_pairwise h.jobs fun _ => rfl, h.attempts, h.deadLetters,
      fun a ha => jobs_update_mem (cancelled_fixed t) (h.attemptJob a ha),
      fun d hd => jobs_update_dead hp (h.deadJob d hd), ⟨hsch, hpay, hins⟩⟩
  | side hj ha hd hside =>
    refine ⟨?_, ?_, ?_, ?_, ?_, hside⟩
    · rw [hj]
      exact h.jobs
    · rw [ha]
      exact h.attempts
    · rw [hd]
      exact h.deadLetters
    · rw [ha, hj]
      exact h.attemptJob
    · rw [hd, hj]
      exact h.deadJob
  | reorder hj ha hd hside =>
    refine ⟨?_, ?_, (hd.map _).nodup_iff.1 h.deadLetters, fun a hm => ?_, fun d hm => ?_, hside⟩
    · exact h.jobs.perm hj fun {a b} hc => by rw [JobRow.clash_comm]; exact hc
    · exact h.attempts.perm ha fun {a b} hc => by rw [AttemptRow.clash_comm]; exact hc
    · obtain ⟨r, hr, he⟩ := h.attemptJob a (ha.mem_iff.2 hm)
      exact ⟨r, hj.mem_iff.1 hr, he⟩
    · obtain ⟨r, hr, he⟩ := h.deadJob d (hd.mem_iff.2 hm)
      exact ⟨r, hj.mem_iff.1 hr, he⟩

end

end PulseQueue
