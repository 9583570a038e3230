import PulseQueue.Lib.Agreement
import PulseQueue.Proof.Runs
import PulseQueue.Spec.Methods

/-!
# The reaper

The exact effect of the loop of `recover_stale_jobs` in both repositories: the rows with an expired lease
are recovered, each with its attempt row and, when the budget is used up, its dead letter
(`Store.recover`). The loop reads a list of rows and then works on
the tables; what makes the list good until the end is that each iteration touches one job and leaves
the others as they were read (`Recoverable.recover`), and what keeps the unique index quiet is the
attempt ledger.
-/

namespace PulseQueue

open Txn Trace Table

/-! ## What the reaper should do -/

/-- The job runs and its lease expired more than `grace` seconds before `now`, as binary64 numbers tell. -/
def JobRow.Stale (now : UtcTime) (grace : ℚ) (r : JobRow) : Prop :=
  r.status = .running ∧ ∃ t ∈ r.lockedAt,
    Rounding.double (r.timeoutSeconds + grace) < Rounding.double (now.totalSeconds (parseDbTime t))

instance (now : UtcTime) (grace : ℚ) (r : JobRow) : Decidable (r.Stale now grace) := by
  unfold JobRow.Stale
  cases r.lockedAt with
  | none => exact .isFalse (by simp)
  | some t => exact decidable_of_iff (r.status = .running ∧
      Rounding.double (r.timeoutSeconds + grace) <
        Rounding.double (now.totalSeconds (parseDbTime t))) (by simp)

/-- The row of a recovered job. -/
def JobRow.recovered (now : UtcTime) (r : JobRow) : JobRow :=
  { r with
    status := if r.attemptCount + 1 ≤ r.maxRetries then .queued else .deadLettered
    attemptCount := r.attemptCount + 1
    lastError := some leaseExpiredError
    runAt := toDbTime now
    lockedBy := none
    lockedAt := none
    updatedAt := toDbTime now
    finishedAt := if r.attemptCount + 1 ≤ r.maxRetries then none else some (toDbTime now) }

/-- The running jobs with an expired lease. -/
def Store.staleJobs (now : UtcTime) (grace : ℚ) (s : Store) : List JobRow :=
  s.jobs.filter fun r => r.Stale now grace

/-- The store after the jobs `rows` are recovered: their rows, an attempt row each, and a dead letter
for each that has no retry left. -/
def Store.recover (now : UtcTime) (rows : List JobRow) (s : Store) : Store :=
  { s with
    jobs := s.jobs.map fun r => if r ∈ rows then r.recovered now else r
    jobAttempts := s.jobAttempts ++ rows.map (reapAttempt now)
    deadLetters := s.deadLetters ++
      (rows.filter fun r => r.maxRetries < r.attemptCount + 1).map (reapDeadLetter now) }

section
variable {deps : Deps} {engine : Engine} {s : Store} {now : UtcTime} {grace : ℚ}

@[simp] theorem Store.recover_nil : s.recover now [] = s := by
  simp [Store.recover]

theorem recovered_not_stale (r : JobRow) {now' : UtcTime} : ¬ (r.recovered now).Stale now' grace := by
  rintro ⟨-, t, ht, -⟩
  cases ht

/-- Rounding keeps the order, so what counts as expired is over the lease. -/
theorem JobRow.Stale.expired {r : JobRow} (h : r.Stale now grace) :
    ∃ t ∈ r.lockedAt, r.timeoutSeconds + grace < now.totalSeconds (parseDbTime t) := by
  obtain ⟨-, t, ht, hlt⟩ := h
  exact ⟨t, ht, Rounding.double_mono.reflect_lt hlt⟩

theorem reapUpdate_self (row : JobRow) : reapUpdate now row row = row.recovered now := by
  unfold reapUpdate failedUpdate JobRow.recovered
  simp only [decide_eq_true_eq]

/-- The rows that the loop skips. -/
theorem leaseAlive_iff {r : JobRow} (hrun : r.status = .running) :
    Sqlite.leaseAlive now grace r = true ↔ ¬ r.Stale now grace := by
  unfold Sqlite.leaseAlive JobRow.Stale
  cases r.lockedAt with
  | none => simp
  | some t => simp [hrun, not_lt]

/-- The second `recover` finds its rows as they were. -/
theorem Store.recover_cons {row : JobRow} {rows : List JobRow}
    (hne : ∀ r ∈ rows, r.id ≠ row.id) :
    (s.recover now [row]).recover now rows = s.recover now (row :: rows) := by
  unfold Store.recover
  have hjobs : (s.jobs.map fun r => if r ∈ [row] then r.recovered now else r).map
      (fun r => if r ∈ rows then r.recovered now else r) =
      s.jobs.map fun r => if r ∈ row :: rows then r.recovered now else r := by
    rw [List.map_map]
    refine List.map_congr_left fun r _ => ?_
    by_cases hr : r = row
    · have hout : row.recovered now ∉ rows := fun hm => hne _ hm rfl
      simp [hr, hout]
    · simp [hr]
  have hatt : s.jobAttempts ++ [row].map (reapAttempt now) ++ rows.map (reapAttempt now) =
      s.jobAttempts ++ (row :: rows).map (reapAttempt now) := by simp
  simp only [hjobs, hatt, List.append_assoc, ← List.map_append, ← List.filter_append,
    List.singleton_append]

/-! ## One iteration -/

/-- A row as the loop reads it: the job still runs, and the inserts of its attempt row and its dead
letter meet no other. -/
structure Recoverable (s : Store) (row : JobRow) : Prop where
  mem : row ∈ s.jobs
  status : row.status = .running
  lockedBy : row.lockedBy.isSome
  lockedAt : row.lockedAt.isSome
  attempts : ∀ a ∈ s.jobAttempts, a.jobId = row.id → a.attemptNo ≤ row.attemptCount
  deadLetters : ∀ d ∈ s.deadLetters, d.jobId ≠ row.id

/-- The inserts into `dead_letters`, for a job that has no dead letter. -/
def Appends (ins : DeadLetterRow → Body Unit) : Prop :=
  ∀ (s : Store) (d : DeadLetterRow), (∃ r ∈ s.jobs, r.id = d.jobId) →
    (∀ o ∈ s.deadLetters, o.jobId ≠ d.jobId) →
    ins d s = .ok ((), { s with deadLetters := s.deadLetters ++ [d] })

theorem insertAttempt_new {a : AttemptRow}
    (hnew : ∀ o ∈ s.jobAttempts, o.jobId = a.jobId → o.attemptNo ≠ a.attemptNo)
    (hfk : ∃ r ∈ s.jobs, r.id = a.jobId) :
    insertAttempt a s = .ok ((), { s with jobAttempts := s.jobAttempts ++ [a] }) := by
  obtain ⟨r, hr, hid⟩ := hfk
  have hjob : s.jobs.any (·.id == a.jobId) = true := List.any_eq_true.2 ⟨r, hr, by simpa using hid⟩
  have hfree : s.jobAttempts.any a.clash = false := by
    rw [List.any_eq_false]
    intro o ho hcl
    simp only [AttemptRow.clash, Bool.and_eq_true, beq_iff_eq] at hcl
    exact hnew o ho hcl.1.symm hcl.2.symm
  unfold insertAttempt
  rw [hfree, hjob]
  rfl

theorem replaceDeadLetter_appends : Appends replaceDeadLetter := by
  intro s d ⟨r, hr, hid⟩ hnew
  have hfk : s.jobs.any (·.id == d.jobId) = true := List.any_eq_true.2 ⟨r, hr, by simpa using hid⟩
  have hf : s.deadLetters.filter (fun o => !d.clash o) = s.deadLetters :=
    List.filter_eq_self.2 fun o ho => by simp [DeadLetterRow.clash, Ne.symm (hnew o ho)]
  simp only [replaceDeadLetter, hfk, insertOrReplace, hf]
  rfl

theorem upsertDeadLetter_appends : Appends upsertDeadLetter := by
  intro s d ⟨r, hr, hid⟩ hnew
  have hfk : s.jobs.any (·.id == d.jobId) = true := List.any_eq_true.2 ⟨r, hr, by simpa using hid⟩
  have ha : s.deadLetters.any d.clash = false := by
    rw [List.any_eq_false]
    intro o ho
    simp [DeadLetterRow.clash, Ne.symm (hnew o ho)]
  simp only [upsertDeadLetter, hfk, upsert, ha]
  rfl

/-- The other rows are still as they were read. -/
theorem Recoverable.recover {row row' : JobRow} (h : Recoverable s row') (hne : row'.id ≠ row.id) :
    Recoverable (s.recover now [row]) row' where
  mem := by
    refine List.mem_map.2 ⟨row', h.mem, ?_⟩
    rw [if_neg]
    intro hm
    exact hne (congrArg JobRow.id (List.mem_singleton.1 hm))
  status := h.status
  lockedBy := h.lockedBy
  lockedAt := h.lockedAt
  attempts := by
    intro a ha hj
    rcases List.mem_append.1 ha with ha | ha
    · exact h.attempts a ha hj
    · rw [List.mem_singleton.1 ha] at hj
      exact absurd hj.symm hne
  deadLetters := by
    intro d hd
    rcases List.mem_append.1 hd with hd | hd
    · exact h.deadLetters d hd
    · obtain ⟨r, hr, rfl⟩ := List.mem_map.1 hd
      rw [List.mem_singleton.1 (List.mem_filter.1 hr).1]
      exact hne.symm

theorem recover_nodup (hn : (s.jobs.map (·.id)).Nodup) (rows : List JobRow) :
    ((s.recover now rows).jobs.map (·.id)).Nodup := by
  have hids : (s.recover now rows).jobs.map (·.id) = s.jobs.map (·.id) := by
    unfold Store.recover
    rw [List.map_map]
    refine List.map_congr_left fun r _ => ?_
    simp only [Function.comp_apply]
    split
    · rfl
    · rfl
  rw [hids]
  exact hn

/-- The iteration of a row with an expired lease. -/
theorem reap_stale {ins : DeadLetterRow → Body Unit} (hins : Appends ins)
    (hn : (s.jobs.map (·.id)).Nodup) {row : JobRow} (h : Recoverable s row)
    (hstale : row.Stale now grace) :
    reap ins now grace row s = .ok (1, s.recover now [row]) := by
  have hupd := (updateJobs_row hn h.mem (f := reapUpdate now row) (p := reapGuard row)
    (fun r hr => (reaper_guard row hr).1)
    (by simp [reapGuard, sqlEq, h.status, h.lockedBy, h.lockedAt])).1
  have hjobs : updateWhere (·.id == row.id) (reapUpdate now row) s.jobs =
      s.jobs.map fun r => if r ∈ [row] then r.recovered now else r := by
    refine List.map_congr_left fun r hr => ?_
    by_cases he : r.id = row.id
    · rw [unique_of_nodup hn h.mem hr he]
      simp [reapUpdate_self]
    · have hne : r ≠ row := fun h => he (congrArg JobRow.id h)
      simp [he, hne]
  rw [hjobs] at hupd
  have hfk : ∃ r ∈ (s.recover now [row]).jobs, r.id = row.id :=
    ⟨row.recovered now, List.mem_map.2 ⟨row, h.mem, by simp⟩, rfl⟩
  have hatt := @insertAttempt_new { s with jobs := (s.recover now [row]).jobs } (reapAttempt now row)
    (fun a ha hid hno => ?_) hfk
  · unfold reap
    rw [if_neg (by rw [leaseAlive_iff h.status]; exact not_not.2 hstale), Tx.bind_ok hupd,
      if_neg Nat.one_ne_zero, reapInserts, Tx.bind_assoc]
    refine (Tx.bind_ok hatt).trans ?_
    by_cases hretry : row.attemptCount + 1 ≤ row.maxRetries
    · rw [if_pos (decide_eq_true hretry)]
      have hnone : ¬ row.maxRetries ≤ row.attemptCount := by omega
      simp [Store.recover, Tx.bind_run, hnone]
    · rw [if_neg (by simpa using hretry)]
      have hdead := hins { s with jobs := (s.recover now [row]).jobs
                                  jobAttempts := s.jobAttempts ++ [reapAttempt now row] }
        (reapDeadLetter now row) hfk h.deadLetters
      refine (Tx.bind_ok hdead).trans ?_
      have hsome : row.maxRetries ≤ row.attemptCount := by omega
      simp [Store.recover, hsome]
  · have hle := h.attempts a ha hid
    simp only [reapAttempt] at hno
    omega

/-! ## The whole pass -/

/-- The loop recovers the stale ones of the rows it reads. -/
theorem total_reap {ins : DeadLetterRow → Body Unit} (hins : Appends ins) :
    ∀ (rows : List JobRow) {s : Store} (n : Nat), (s.jobs.map (·.id)).Nodup →
      (rows.map (·.id)).Nodup → (∀ r ∈ rows, Recoverable s r) →
      total (reap ins now grace) n rows s =
        .ok (n + (rows.filter fun r => r.Stale now grace).length,
          s.recover now (rows.filter fun r => r.Stale now grace))
  | [], s, n, _, _, _ => by simp [total]
  | row :: rows, s, n, hn, hids, hrec => by
    simp only [List.map_cons, List.nodup_cons] at hids
    have hrow := hrec row (List.mem_cons_self ..)
    have hrest : ∀ r ∈ rows, Recoverable s r := fun r hr => hrec r (List.mem_cons_of_mem _ hr)
    have hne : ∀ r ∈ rows, r.id ≠ row.id := fun r hr he => hids.1 (he ▸ List.mem_map_of_mem hr)
    unfold total
    by_cases hstale : row.Stale now grace
    · rw [Tx.bind_ok (reap_stale hins hn hrow hstale),
        total_reap hins rows (n + 1) (recover_nodup hn [row]) hids.2
          fun r hr => (hrest r hr).recover (hne r hr),
        Store.recover_cons fun r hr => hne r (List.mem_filter.1 hr).1]
      simp only [hstale, decide_true, List.filter_cons_of_pos, List.length_cons]
      rw [Nat.add_assoc, Nat.add_comm 1]
    · have hskip : reap ins now grace row s = .ok (0, s) := by
        unfold reap
        rw [if_pos ((leaseAlive_iff hrow.status).2 hstale)]
        rfl
      rw [Tx.bind_ok hskip, total_reap hins rows (n + 0) hn hids.2 hrest]
      simp [hstale]

end

section
variable {deps : Deps} {engine : Engine} {h : History Event Store} {now : UtcTime} {grace : ℚ}

/-- Every running job of a run can be recovered. -/
theorem Sound.recoverable (hs : Sound deps h) {r : JobRow} (hr : r ∈ (present h).jobs)
    (hrun : r.status = .running) : Recoverable (present h) r := by
  have hj := hs.ok.job?_mem hr
  have hc := hs.coherent r.id r hj
  refine ⟨hr, hrun, hc.lockedBy.2 hrun, hc.lockedAt.2 hrun, fun a ha hid => ?_,
    hs.ok.no_deadLetter hr hrun⟩
  have hl := hs.ledger r.id
  simp only [Ledger, Store.view, hj] at hl
  obtain ⟨σ, -, habs⟩ := hl
  have hm : a ∈ (present h).jobAttempts.filter (·.jobId == r.id) :=
    List.mem_filter.2 ⟨ha, by simpa using hid⟩
  obtain ⟨h1, hlog⟩ := mem_numbered.1 (habs.rows.mem_iff.1 (List.mem_map_of_mem hm))
  have hlt := (List.getElem?_eq_some_iff.1 hlog).1
  have hcount := habs.count
  omega

/-- The rows that another transaction locks are left out (Postgres). -/
def Op.recovers : Engine → (String → Bool) → UtcTime → ℚ → Store → List JobRow
  | .sqlite, _, now, grace, s => s.staleJobs now grace
  | .postgres, skipped, now, grace, s => (s.staleJobs now grace).filter fun r => !skipped r.id

/-- A pass of the reaper. -/
theorem Sound.reaper (hs : Sound deps h) (skipped : String → Bool) (now : UtcTime) (grace : ℚ) :
    (Op.recoverStaleJobs skipped now grace).body deps engine (present h) =
      .ok (.count (Op.recovers engine skipped now grace (present h)).length,
        (present h).recover now (Op.recovers engine skipped now grace (present h))) := by
  have hall : ∀ p : JobRow → Bool, (∀ r, p r = true → r.status = .running) →
      ((((present h).jobs.filter p).map (·.id)).Nodup ∧
        ∀ r ∈ (present h).jobs.filter p, Recoverable (present h) r) := by
    intro p hp
    refine ⟨hs.ok.nodup.sublist (List.filter_sublist.map _), fun r hr => ?_⟩
    obtain ⟨hr, hpr⟩ := List.mem_filter.1 hr
    exact hs.recoverable hr (hp r hpr)
  have hstale : ∀ r : JobRow, r.Stale now grace → r.status = .running ∧ r.lockedAt.isSome := by
    rintro r ⟨hrun, t, ht, -⟩
    exact ⟨hrun, Option.isSome_iff_exists.2 ⟨t, ht⟩⟩
  cases engine with
  | sqlite =>
    refine reply_ok.2 ⟨_, ?_, rfl⟩
    obtain ⟨hids, hrec⟩ := hall (fun r => r.status = .running && r.lockedAt.isSome)
      (by simp +contextual)
    unfold Sqlite.recoverStaleJobsTxn
    rw [Tx.bind_ok (Tx.get_run _), Sqlite.recoverRows_eq,
      total_reap replaceDeadLetter_appends _ 0 hs.ok.nodup hids hrec]
    have hf : ((present h).jobs.filter fun r => r.status = .running && r.lockedAt.isSome).filter
        (fun r => r.Stale now grace) = (present h).staleJobs now grace := by
      rw [List.filter_filter]
      refine List.filter_congr fun r _ => ?_
      by_cases hr : r.Stale now grace
      · simp [hr, hstale r hr]
      · simp [hr]
    rw [hf, Nat.zero_add]
    rfl
  | postgres =>
    refine reply_ok.2 ⟨_, ?_, rfl⟩
    obtain ⟨hids, hrec⟩ :=
      hall (fun r => r.status = .running && r.lockedAt.isSome && !skipped r.id)
        (by simp +contextual)
    unfold Postgres.recoverStaleJobsTxn
    rw [Tx.bind_ok (Tx.get_run _), Postgres.recoverRows_eq,
      total_reap upsertDeadLetter_appends _ 0 hs.ok.nodup hids hrec]
    have hf : ((present h).jobs.filter fun r =>
        r.status = .running && r.lockedAt.isSome && !skipped r.id).filter
        (fun r => r.Stale now grace) =
          ((present h).staleJobs now grace).filter fun r => !skipped r.id := by
      unfold Store.staleJobs
      rw [List.filter_filter, List.filter_filter]
      refine List.filter_congr fun r _ => ?_
      by_cases hr : r.Stale now grace
      · simp [hr, hstale r hr]
      · simp [hr]
    rw [hf, Nat.zero_add]
    rfl

/-- The method on a store where its transaction succeeds. -/
theorem valued_count {x : Body Nat} {s s' : Store} {n : Nat} (hx : reply .count x s = .ok (.count n, s')) :
    valued .count (Conn.run x) s = (.ok (.count n), s') := by
  obtain ⟨m, hx, he⟩ := reply_ok.1 hx
  cases he
  exact Conn.bind_ok (atomically_ok hx)

theorem Sound.reaper_method (hs : Sound deps h) (now : UtcTime) (grace : ℚ) :
    (Method.recoverStaleJobs now grace).run deps engine (present h) =
      (.ok (.count ((present h).staleJobs now grace).length),
        (present h).recover now ((present h).staleJobs now grace)) := by
  have hbody := @Sound.reaper deps engine h hs (fun _ => false) now grace
  cases engine with
  | sqlite => exact valued_count hbody
  | postgres =>
    simp only [Op.recovers, Bool.not_false, List.filter_true] at hbody
    exact valued_count hbody

/-- After a pass no lease has expired. -/
theorem staleJobs_recover (s : Store) :
    (s.recover now (s.staleJobs now grace)).staleJobs now grace = [] := by
  refine List.filter_eq_nil_iff.2 fun r hr => ?_
  obtain ⟨o, ho, rfl⟩ := List.mem_map.1 hr
  by_cases hm : o ∈ s.staleJobs now grace
  · rw [if_pos hm]
    simpa using recovered_not_stale o
  · rw [if_neg hm]
    intro hstale
    exact hm (List.mem_filter.2 ⟨ho, hstale⟩)

/-- In every state of every run `recover_stale_jobs` recovers exactly the running jobs with an expired
lease, with the worker and the time of the lease in the attempt row, returns their number and changes
nothing else; the same call once more finds none. Expired means after both sides are rounded to binary64,
so the lease of a recovered job is over, and only an excess that is lost in rounding keeps one. -/
theorem reaper_exact (hr : Run deps engine h) (now : UtcTime) (grace : ℚ) :
    let stale := (present h).staleJobs now grace
    let s' := (present h).recover now stale
    (Method.recoverStaleJobs now grace).run deps engine (present h) =
        (.ok (.count stale.length), s') ∧
      (∀ r ∈ stale, ∃ w t, r.lockedBy = some w ∧ r.lockedAt = some t ∧ reapAttempt now r =
        ⟨r.id, r.attemptCount + 1, w, .abandoned, t, toDbTime now, some leaseExpiredError⟩) ∧
      (∀ r ∈ stale, ∃ t ∈ r.lockedAt, r.timeoutSeconds + grace < now.totalSeconds (parseDbTime t)) ∧
      (Method.recoverStaleJobs now grace).run deps engine s' = (.ok (.count 0), s') := by
  have hs := Run.sound hr
  refine ⟨hs.reaper_method now grace, fun r hstale => ?_, fun r hstale => ?_, ?_⟩
  · obtain ⟨hj, hst⟩ := List.mem_filter.1 hstale
    have hrec := hs.recoverable hj (of_decide_eq_true hst).1
    obtain ⟨w, hw⟩ := Option.isSome_iff_exists.1 hrec.lockedBy
    obtain ⟨t, ht⟩ := Option.isSome_iff_exists.1 hrec.lockedAt
    refine ⟨w, t, hw, ht, ?_⟩
    simp [reapAttempt, hw, ht]
  · exact (of_decide_eq_true (List.mem_filter.1 hstale).2).expired
  · -- the second call meets the state after the first, which is a state of a longer run
    let op := Op.recoverStaleJobs (fun _ => false) now grace
    have hrun : Run deps engine (afterCall deps engine h op) := Run.afterCall hr (Allowed.of_none rfl)
    have hbody := @Sound.reaper deps engine h hs (fun _ => false) now grace
    have hnext : present (afterCall deps engine h op) =
        (present h).recover now ((present h).staleJobs now grace) := by
      have hat := congrArg Prod.snd (atomically_ok hbody)
      cases engine with
      | sqlite => exact hat
      | postgres =>
        simp only [Op.recovers, Bool.not_false, List.filter_true] at hat
        exact hat
    have h2 := @Sound.reaper_method deps engine _ (Run.sound hrun) now grace
    rw [hnext, staleJobs_recover, Store.recover_nil] at h2
    exact h2

/-- One expired lease. -/
theorem reaper_exact_claimed :
    (Method.recoverStaleJobs (sampleTime 400) 0).run sampleDeps .sqlite (present sampleClaimed) =
      (.ok (.count 1), (present sampleClaimed).recover (sampleTime 400) [sampleClaimedRow]) := by
  have hstale : (present sampleClaimed).staleJobs (sampleTime 400) 0 = [sampleClaimedRow] := by
    decide +kernel
  have hpass := (reaper_exact sampleClaimed_run (sampleTime 400) 0).1
  rw [hstale] at hpass
  exact hpass

/-- 15.7 seconds after the claim. -/
def lastMoment : UtcTime := ⟨63869568000000000 + 16700000, by decide⟩

/-- A job with a timeout of 0.7 seconds, as a float, is claimed. -/
def sevenTenths : History Event Store :=
  afterCall sampleDeps .sqlite (afterCall sampleDeps .sqlite []
    (.createJobsBatch (sampleTime 0) (fun _ => "j") [sampleRequest] 1 (Rounding.double (7 / 10)))) sampleClaim

/-- Its lease of 0.7 and 15 seconds is over, by less than the sum of the two floats shows. -/
theorem reaper_keeps_expired : Run sampleDeps .sqlite sevenTenths ∧
    (∃ r ∈ (present sevenTenths).jobs, r.status = .running ∧
      ∃ t ∈ r.lockedAt, r.timeoutSeconds + 15 < lastMoment.totalSeconds (parseDbTime t)) ∧
    (Method.recoverStaleJobs lastMoment 15).run sampleDeps .sqlite (present sevenTenths) =
      (.ok (.count 0), present sevenTenths) := by
  have hrun : Run sampleDeps .sqlite sevenTenths :=
    Run.afterCall (Run.afterCall .nil (Allowed.of_none rfl)) (Allowed.of_none rfl)
  have hmethod := @Sound.reaper_method sampleDeps .sqlite _ (Run.sound hrun) lastMoment 15
  have hnone : (present sevenTenths).staleJobs lastMoment 15 = [] := by
    decide +kernel
  rw [hnone, Store.recover_nil] at hmethod
  exact ⟨hrun, by decide +kernel, hmethod⟩

end

end PulseQueue
