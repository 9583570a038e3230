import PulseQueue.Proof.Runs

/-!
# What holds after every run

The attempt ledger, the coherence of a job's columns with its status, and the dead-letter table, for
both repositories.
-/

namespace PulseQueue

open Txn Trace

/-! ## The attempt ledger -/

/-- The attempt rows of a job. -/
def Store.attemptsOf (s : Store) (id : String) : List AttemptRow :=
  s.jobAttempts.filter (·.jobId == id)

/-- The attempts of the job `r`: numbered from 1 to `attempt_count`, all failures but the last, which
is the success of a succeeded job; and the bounds of their number. -/
structure AttemptLedger (s : Store) (r : JobRow) : Prop where
  numbers : ((s.attemptsOf r.id).map (·.attemptNo)).Perm (List.range' 1 r.attemptCount)
  notLast : ∀ a ∈ s.attemptsOf r.id, a.attemptNo < r.attemptCount →
    a.status = .failed ∨ a.status = .timedOut ∨ a.status = .abandoned
  last : (∃ a ∈ s.attemptsOf r.id, a.attemptNo = r.attemptCount ∧ a.status = .succeeded) ↔
    r.status = .succeeded
  live : r.status = .queued ∨ r.status = .running ∨ r.status = .cancelled →
    r.attemptCount ≤ r.maxRetries
  succeeded : r.status = .succeeded → 1 ≤ r.attemptCount ∧ r.attemptCount ≤ r.maxRetries + 1
  deadLettered : r.status = .deadLettered → r.attemptCount = r.maxRetries + 1

section
variable {deps : Deps} {engine : Engine} {h : History Event Store}

/-- The rows of a job that shows the lease state `σ`. -/
theorem Abs.attempt {r : JobRow} {as : List AttemptRow}
    {σ : RetryLease.State String AttemptStatus} (h : Abs r as σ) {a : AttemptRow} (ha : a ∈ as) :
    1 ≤ a.attemptNo ∧ σ.log[a.attemptNo - 1]? = some a.status :=
  mem_numbered.1 (h.rows.mem_iff.1 (List.mem_map_of_mem ha))

/-- A verdict of the log has its row. -/
theorem Abs.row {r : JobRow} {as : List AttemptRow}
    {σ : RetryLease.State String AttemptStatus} (h : Abs r as σ) {n : Nat} {m : AttemptStatus}
    (hn : 1 ≤ n) (hm : σ.log[n - 1]? = some m) : ∃ a ∈ as, a.attemptNo = n ∧ a.status = m := by
  obtain ⟨a, ha, he⟩ := List.mem_map.1 (h.rows.mem_iff.2 (mem_numbered.2 ⟨hn, hm⟩))
  exact ⟨a, ha, congrArg Prod.fst he, congrArg Prod.snd he⟩

/-- The phase `done` is the status `succeeded`. -/
theorem JobRow.phase_done {r : JobRow} : r.phase = .done ↔ r.status = .succeeded := by
  cases hs : r.status <;> simp [JobRow.phase, hs]

theorem attempt_ledger (hr : Run deps engine h) {r : JobRow} (hj : r ∈ (present h).jobs) :
    AttemptLedger (present h) r := by
  have hs := Run.sound hr
  have hl := hs.ledger r.id
  simp only [Ledger, Store.view, hs.ok.job?_mem hj] at hl
  obtain ⟨σ, hreach, habs⟩ := hl
  have hinv := RetryLease.Inv.reachable hreach
  have hph := habs.phase
  have hcnt := habs.count
  have hdone : σ.phase = .done ↔ r.status = .succeeded := by rw [hph, JobRow.phase_done]
  refine ⟨?_, fun a ha hlt => ?_, ?_, fun hlive => ?_, fun hsucc => ?_, fun hdead => ?_⟩
  · rw [hcnt, ← numbered_fst]
    simpa [List.map_map, Function.comp_def, Store.attemptsOf] using habs.rows.map Prod.fst
  · obtain ⟨h1, hm⟩ := habs.attempt ha
    have hbad : ¬ Good a.status := by
      refine hinv.bad _ ?_
      rw [List.dropLast_eq_take]
      refine List.mem_of_getElem? (i := a.attemptNo - 1) ?_
      rw [List.getElem?_take_of_lt (by omega), hm]
    revert hbad
    cases a.status <;> simp [Good]
  · rw [← hdone, ← hinv.last, List.getLast?_eq_getElem?, ← hcnt]
    constructor
    · rintro ⟨a, ha, hno, hst⟩
      refine ⟨a.status, ?_, hst⟩
      rw [← hno]
      exact (habs.attempt ha).2
    · rintro ⟨m, hm, hgood⟩
      have hpos : 1 ≤ r.attemptCount := by
        by_contra hc
        have h0 : σ.log = [] := List.eq_nil_of_length_eq_zero (by omega)
        simp [h0] at hm
      obtain ⟨a, ha, hno, hst⟩ := habs.row hpos hm
      exact ⟨a, ha, hno, hst.trans hgood⟩
  · rw [hcnt]
    refine hinv.open_le ?_
    rw [hph]
    rcases hlive with hq | hq | hq <;> simp [JobRow.phase, hq, RetryLease.Phase.open]
  · rw [hcnt]
    exact hinv.done_le (hdone.2 hsucc)
  · rw [hcnt]
    exact hinv.dead_eq (by rw [hph, JobRow.phase, hdead])

end

theorem attempt_ledger_done : AttemptLedger (present sampleDone) sampleDoneRow :=
  attempt_ledger sampleDone_run (List.mem_cons_self ..)

/-! ## Columns and status -/

section
variable {deps : Deps} {engine : Engine}

/-- Every row is coherent, and from any moment on it stays, keeps its fixed columns, and, once
terminal, every column. -/
theorem job_lifecycle {post pre : History Event Store} (hr : Run deps engine (post ++ pre))
    {r : JobRow} (hj : r ∈ (present pre).jobs) :
    Coherent deps r ∧ ∃ r' ∈ (present (post ++ pre)).jobs, r'.fixed = r.fixed ∧
      (r.status.terminal = true → r' = r) := by
  have hs := Run.sound hr.suffix
  have hj := hs.ok.job?_mem hj
  obtain ⟨r', hr', hl⟩ := hr.later hj
  exact ⟨hs.coherent r.id r hj, r', (Store.job?_some hr').1, hl.fixed, hl.frozen⟩

theorem job_lifecycle_done : Coherent sampleDeps sampleDoneRow ∧
    ∃ r' ∈ [sampleDoneRow], r'.fixed = sampleDoneRow.fixed ∧
      (sampleDoneRow.status.terminal = true → r' = sampleDoneRow) := by
  have hrun : Run sampleDeps .sqlite ([] ++ sampleDone) := sampleDone_run
  exact job_lifecycle hrun (List.mem_cons_self ..)

/-! ## Dead letters -/

theorem MirrorView.step
    (hjson : ∀ x, deps.dumps (deps.loads (deps.dumps x)) = deps.dumps x) {k : Kind}
    {v v' : JobView} (h : CoherentView deps v ∧ Mirror v) (hs : JobStep deps k v v') :
    CoherentView deps v' ∧ Mirror v' := by
  refine ⟨h.1.step hs, ?_⟩
  rcases hs.job_cases with ⟨r, r₁, hj, hj', hs'⟩ | ⟨-, -, -, -, r, hr, rfl⟩ | ⟨hj, hj', -, hd⟩
  · have hm : Mirror ⟨some r, v.attempts, v.deadLetters⟩ := by
      rw [← hj]
      exact h.2
    have hm' := hm.step hjson (h.1 r hj) hs'
    rwa [← hj'] at hm'
  · exact ⟨fun _ => rfl, by simp [hr.status]⟩
  · have hm := h.2
    simp only [Mirror, hj, hj'] at hm ⊢
    rw [hm] at hd
    exact List.nil_perm.1 hd

theorem Run.mirror (hjson : ∀ x, deps.dumps (deps.loads (deps.dumps x)) = deps.dumps x)
    {h : History Event Store} (hr : Run deps engine h) (id : String) :
    Mirror ((present h).view id) := by
  refine hr.invariant (P := fun s => Mirror (s.view id)) ?_ ?_
  · simp [Mirror, Store.view, Store.job?, Store.empty, Table.lookup]
  intro h e s hv hm hstep
  have hs := Run.sound hv
  obtain ⟨⟨L, hst⟩, -⟩ := hs.entry hstep
  exact (hst.keeps (P := fun v => CoherentView deps v ∧ Mirror v)
    (fun _ _ _ _ hm hj => MirrorView.step hjson hm hj) hs.ok id ⟨hs.coherent id, hm⟩).2

/-- The dead-letter table: one row for each dead-lettered job, a copy of it. -/
structure DeadLettersMirror (s : Store) : Prop where
  unique : (s.deadLetters.map (·.jobId)).Nodup
  iff : ∀ id, (∃ d ∈ s.deadLetters, d.jobId = id) ↔
    ∃ r ∈ s.jobs, r.id = id ∧ r.status = .deadLettered
  copy : ∀ d ∈ s.deadLetters, ∀ r ∈ s.jobs, r.id = d.jobId →
    d.payload = r.payload ∧ d.lastError = r.lastError ∧ d.attemptCount = r.attemptCount ∧
      r.finishedAt = some d.deadLetteredAt

theorem dead_letters_mirror
    (hjson : ∀ x, deps.dumps (deps.loads (deps.dumps x)) = deps.dumps x) {h : History Event Store}
    (hr : Run deps engine h) : DeadLettersMirror (present h) := by
  have hs := Run.sound hr
  have hrow : ∀ r ∈ (present h).jobs, r.status = .deadLettered →
      ∃ t, r.finishedAt = some t ∧
        (present h).deadLetters.filter (·.jobId == r.id) = [r.mirror t] := by
    intro r hj hdead
    have hm := Run.mirror hjson hr r.id
    simp only [Mirror, Store.view, hs.ok.job?_mem hj] at hm
    exact hm.2 hdead
  refine ⟨hs.ok.deadLetters, fun id => ⟨?_, ?_⟩, fun d hd r hj hid => ?_⟩
  · rintro ⟨d, hd, rfl⟩
    exact hs.ok.deadJob d hd
  · rintro ⟨r, hj, rfl, hst⟩
    obtain ⟨t, -, hds⟩ := hrow r hj hst
    have hm : r.mirror t ∈ (present h).deadLetters.filter (·.jobId == r.id) := by
      rw [hds]
      exact List.mem_cons_self ..
    exact ⟨_, (List.mem_filter.1 hm).1, rfl⟩
  · obtain ⟨r', hj', hid', hst⟩ := hs.ok.deadJob d hd
    rw [hs.ok.unique hj hj' (hid'.trans hid.symm)] at hst
    obtain ⟨t, ht, hds⟩ := hrow r hj hst
    have hm : d ∈ (present h).deadLetters.filter (·.jobId == r.id) :=
      List.mem_filter.2 ⟨hd, by simp [hid]⟩
    rw [hds, List.mem_singleton] at hm
    subst hm
    exact ⟨rfl, rfl, rfl, ht⟩

theorem dead_letters_mirror_dead : DeadLettersMirror (present sampleDead) ∧
    (present sampleDead).deadLetters.map (·.jobId) = ["j"] ∧
    (present sampleDead).jobs.map (·.status) = [.deadLettered] :=
  ⟨dead_letters_mirror sampleDeps_json sampleDead_run, by decide +kernel, by decide +kernel⟩

end

end PulseQueue
