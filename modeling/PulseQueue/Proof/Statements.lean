import PulseQueue.Spec.Steps

/-!
# Statements as steps

What the SQL statements of both repositories do to a store that satisfies the schema, in the form in
which the transactions are proved to be chains of `StoreStep`s (`Steps`).
-/

namespace PulseQueue

open Txn Table

/-- A chain of steps whose kinds satisfy `L`. -/
def Steps (deps : Deps) (L : Kind → Prop) (s s' : Store) : Prop :=
  Relation.ReflTransGen (fun s s' => ∃ k, L k ∧ StoreStep deps k s s') s s'

section
variable {deps : Deps} {L L' : Kind → Prop} {s s' s'' : Store}

theorem Steps.refl (s : Store) : Steps deps L s s := Relation.ReflTransGen.refl

theorem Steps.trans (h : Steps deps L s s') (h' : Steps deps L s' s'') : Steps deps L s s'' :=
  Relation.ReflTransGen.trans h h'

theorem Steps.single {k : Kind} (hk : L k) (h : StoreStep deps k s s') : Steps deps L s s' :=
  Relation.ReflTransGen.single ⟨k, hk, h⟩

theorem Steps.mono (hL : ∀ k, L k → L' k) (h : Steps deps L s s') : Steps deps L' s s' :=
  Relation.ReflTransGen.mono (fun _ _ ⟨k, hk, hs⟩ => ⟨k, hL k hk, hs⟩) _ _ h

theorem Steps.ok (h : s.Ok deps) (hs : Steps deps L s s') : s'.Ok deps := by
  induction hs with
  | refl => exact h
  | tail _ hs ih =>
    obtain ⟨k, -, hs⟩ := hs
    exact hs.ok ih

/-! ## Updates of one job -/

/-- Only the one row matters to an update by id. -/
theorem updateWhere_id_congr (hn : (s.jobs.map (·.id)).Nodup) {row : JobRow} (hrow : row ∈ s.jobs)
    {f g : JobRow → JobRow} (hg : g row = f row) :
    updateWhere (·.id == row.id) g s.jobs = updateWhere (·.id == row.id) f s.jobs := by
  refine List.map_congr_left fun r hr => ?_
  by_cases he : r.id = row.id
  · rw [unique_of_nodup hn hrow hr he]
    simp [hg]
  · simp [he]

/-- An update by a guard that fixes the id changes one row, which the guard holds of, or none. -/
theorem updateJobs_key (hn : (s.jobs.map (·.id)).Nodup) {k : String} {p : JobRow → Bool}
    {f : JobRow → JobRow} (hp : ∀ r, p r = true → r.id = k) :
    (updateJobs p f s = .ok (0, s) ∧ updateJobsReturning p f s = .ok ([], s) ∧
        ∀ r ∈ s.jobs, p r = false) ∨
      ∃ row ∈ s.jobs, row.id = k ∧ p row = true ∧
        updateJobs p f s = .ok (1, { s with jobs := updateWhere (·.id == k) f s.jobs }) ∧
        updateJobsReturning p f s =
          .ok ([f row], { s with jobs := updateWhere (·.id == k) f s.jobs }) := by
  rcases update_key_cases hn (k := k) hp (f := f) with ⟨hc, hu, -⟩ | ⟨row, hrow, hpr, hc, -⟩
  · left
    have hf : s.jobs.filter p = [] := by
      rw [List.filter_eq_nil_iff]
      exact fun r hr => by simp [countP_zero_iff.1 hc r hr]
    refine ⟨?_, ?_, countP_zero_iff.1 hc⟩ <;>
      simp only [updateJobs, updateJobsReturning, hc, hu, hf, List.map_nil]
  · right
    obtain ⟨hmem, hid⟩ := Store.job?_some hrow
    have hiff : ∀ r ∈ s.jobs, p r = true ↔ r.id = k := by
      intro r hr
      constructor
      · exact hp r
      · intro he
        rw [unique_of_nodup hn hmem hr (he.trans hid.symm)]
        exact hpr
    have hu : updateWhere p f s.jobs = updateWhere (·.id == k) f s.jobs := by
      refine List.map_congr_left fun r hr => ?_
      by_cases he : r.id = k
      · simp [(hiff r hr).2 he, he]
      · simp [mt (hiff r hr).1 he, he]
    have hf : s.jobs.filter p = [row] := by
      have hlen : (s.jobs.filter p).length = 1 := by rw [← List.countP_eq_length_filter, hc]
      obtain ⟨x, hx⟩ := List.length_eq_one_iff.1 hlen
      have hm : row ∈ s.jobs.filter p := List.mem_filter.2 ⟨hmem, hpr⟩
      rw [hx] at hm ⊢
      rw [List.mem_singleton.1 hm]
    refine ⟨row, hmem, hid, hpr, ?_⟩
    simp only [updateJobs, updateJobsReturning, hc, hu, hf, List.map_cons, List.map_nil, and_self]

/-- An update guarded by the id of a row that satisfies the guard changes this row. -/
theorem updateJobs_row (hn : (s.jobs.map (·.id)).Nodup) {row : JobRow} (hrow : row ∈ s.jobs)
    {p : JobRow → Bool} {f : JobRow → JobRow} (hp : ∀ r, p r = true → r.id = row.id) (hpr : p row = true) :
    updateJobs p f s = .ok (1, { s with jobs := updateWhere (·.id == row.id) f s.jobs }) ∧
      updateJobsReturning p f s =
        .ok ([f row], { s with jobs := updateWhere (·.id == row.id) f s.jobs }) := by
  rcases updateJobs_key hn hp (f := f) with ⟨-, -, h0⟩ | ⟨o, ho, hid, -, h1⟩
  · rw [h0 row hrow] at hpr
    cases hpr
  · rw [unique_of_nodup hn hrow ho hid] at h1
    exact h1

/-! ## Inserts -/

theorem insertJob_ok {r : JobRow} {u : Unit} (h : insertJob r s = .ok (u, s')) :
    (∀ o ∈ s.jobs, r.clash o = false) ∧ s' = { s with jobs := s.jobs ++ [r] } := by
  unfold insertJob at h
  split at h
  · cases h
  · rename_i hc
    cases h
    exact ⟨by simpa using hc, rfl⟩

/-- Both inserts that ignore a conflict insert the row once, or nothing. -/
theorem insertJobOrIgnore_ok {r : JobRow} {n : Nat} (h : insertJobOrIgnore r s = .ok (n, s')) :
    (n = 0 ∧ s' = s) ∨
      (n = 1 ∧ (∀ o ∈ s.jobs, r.clash o = false) ∧ s' = { s with jobs := s.jobs ++ [r] }) := by
  unfold insertJobOrIgnore at h
  split at h
  · cases h
    exact .inl ⟨rfl, rfl⟩
  · rename_i hc
    cases h
    exact .inr ⟨rfl, by simpa using hc, rfl⟩

theorem insertJobOnConflictDoNothing_ok {r : JobRow} {n : Nat}
    (h : insertJobOnConflictDoNothing r s = .ok (n, s')) :
    (n = 0 ∧ s' = s) ∨
      (n = 1 ∧ (∀ o ∈ s.jobs, r.clash o = false) ∧ s' = { s with jobs := s.jobs ++ [r] }) := by
  unfold insertJobOnConflictDoNothing at h
  split at h
  · cases h
    exact .inl ⟨rfl, rfl⟩
  · split at h
    · cases h
    · rename_i hc
      cases h
      exact .inr ⟨rfl, by simpa using hc, rfl⟩

theorem insertAttempt_ok {a : AttemptRow} {u : Unit} (h : insertAttempt a s = .ok (u, s')) :
    (∀ o ∈ s.jobAttempts, a.clash o = false) ∧
      s' = { s with jobAttempts := s.jobAttempts ++ [a] } := by
  unfold insertAttempt at h
  split at h
  · cases h
  · rename_i hc
    cases h
    simp only [Bool.or_eq_true, not_or, List.any_eq_true, not_exists, not_and,
      Bool.not_eq_true] at hc
    exact ⟨hc.1, rfl⟩

/-- A job without a dead letter gets one, by either insert. -/
theorem replaceDeadLetter_ok {d : DeadLetterRow} {u : Unit}
    (hn : ∀ o ∈ s.deadLetters, o.jobId ≠ d.jobId) (h : replaceDeadLetter d s = .ok (u, s')) :
    s' = { s with deadLetters := s.deadLetters ++ [d] } := by
  unfold replaceDeadLetter at h
  split at h
  · cases h
  · cases h
    have hf : s.deadLetters.filter (fun o => !d.clash o) = s.deadLetters :=
      List.filter_eq_self.2 fun o ho => by simp [DeadLetterRow.clash, Ne.symm (hn o ho)]
    simp only [insertOrReplace, hf]

theorem upsertDeadLetter_ok {d : DeadLetterRow} {u : Unit}
    (hn : ∀ o ∈ s.deadLetters, o.jobId ≠ d.jobId) (h : upsertDeadLetter d s = .ok (u, s')) :
    s' = { s with deadLetters := s.deadLetters ++ [d] } := by
  unfold upsertDeadLetter at h
  split at h
  · cases h
  · cases h
    have ha : s.deadLetters.any d.clash = false := by
      rw [List.any_eq_false]
      intro o ho
      simp [DeadLetterRow.clash, Ne.symm (hn o ho)]
    simp only [upsert, ha, Bool.false_eq_true, if_false]

/-! ## Settling an attempt -/

/-- The two dead-letter inserts. -/
def DeadLetterInsert (ins : DeadLetterRow → Body Unit) : Prop :=
  ∀ {s s' : Store} {d : DeadLetterRow} {u : Unit}, (∀ o ∈ s.deadLetters, o.jobId ≠ d.jobId) →
    ins d s = .ok (u, s') → s' = { s with deadLetters := s.deadLetters ++ [d] }

/-- A running job has no dead letter. -/
theorem Store.Ok.no_deadLetter (h : s.Ok deps) {r : JobRow} (hr : r ∈ s.jobs)
    (hrun : r.status = .running) : ∀ d ∈ s.deadLetters, d.jobId ≠ r.id := by
  intro d hd he
  obtain ⟨x, hx, hid, hdead⟩ := h.deadJob d hd
  rw [h.unique hr hx (hid.trans he), hrun] at hdead
  cases hdead

/-- Update of the row, attempt row: a success. -/
theorem settle_success {r : JobRow} (hr : r ∈ s.jobs) (hrun : r.status = .running)
    {w : String} (hw : r.lockedBy = some w) {startedAt t : DbTime} {res : String} {u : Unit}
    (h2 : insertAttempt (r.attempt w startedAt (.success res) t)
      { s with jobs := updateWhere (·.id == r.id) (·.settled (.success res) t) s.jobs } =
        .ok (u, s')) :
    StoreStep deps .settle s s' := by
  obtain ⟨hc, rfl⟩ := insertAttempt_ok h2
  have hs : StoreStep deps .settle s _ :=
    StoreStep.settle startedAt (o := .success res) t hr hrun hw trivial hc
  simpa [JobRow.deadLetter] using hs

/-- Update of the row, attempt row, and a dead letter when the budget is used up: a failure. -/
theorem settle_failure {ins : DeadLetterRow → Body Unit} (hins : DeadLetterInsert ins)
    (h : s.Ok deps) {r : JobRow} (hr : r ∈ s.jobs) (hrun : r.status = .running) {w : String}
    (hw : r.lockedBy = some w) {startedAt t runAt : DbTime} {m : AttemptStatus} {e p : String}
    (ho : (Outcome.failure m e runAt p).Proper deps r) {u u' : Unit}
    (h2 : insertAttempt (r.attempt w startedAt (.failure m e runAt p) t)
      { s with jobs := updateWhere (·.id == r.id) (·.settled (.failure m e runAt p) t) s.jobs } =
        .ok (u, s'))
    (h3 : (if r.attemptCount + 1 ≤ r.maxRetries then (pure () : Body Unit)
      else ins ⟨r.id, p, some e, r.attemptCount + 1, t⟩) s' = .ok (u', s'')) :
    StoreStep deps .settle s s'' ∧ s''.jobs = s'.jobs ∧ s''.jobAttempts = s'.jobAttempts := by
  obtain ⟨hc, rfl⟩ := insertAttempt_ok h2
  have hs : StoreStep deps .settle s _ := StoreStep.settle startedAt t hr hrun hw ho hc
  split at h3
  · rename_i hb
    cases h3
    exact ⟨by simpa [JobRow.deadLetter, hb] using hs, rfl, rfl⟩
  · rename_i hb
    have hn := h.no_deadLetter hr hrun
    rw [hins hn h3]
    exact ⟨by simpa [JobRow.deadLetter, hb] using hs, rfl, rfl⟩

end

end PulseQueue
