import PulseQueue.Lib.Agreement
import PulseQueue.Model.Postgres
import PulseQueue.Model.Sqlite
import PulseQueue.Proof.Statements

/-!
# Completions and the reaper

The transactions that end an attempt: `mark_succeeded`, `mark_failed_attempt` and
`recover_stale_jobs`, in both repositories. The loop of the last is the sum of its iterations (`reap`).

A completion brings the attempt number of the claim it belongs to, and its guard compares the
status and the worker id only. What keeps a late one out is the unique index on the attempt rows: all
numbers up to `attempt_count` are taken (`Numbered`), so a completion that gets through has the next
number (`Snapshot.next`) and settles the row of its own claim (`Settled`).
-/

namespace PulseQueue

open Txn Table

/-- What an earlier claim returned still holds of the row, except that attempts may have ended. -/
def Snapshot (deps : Deps) (s : Store) (c : Job) : Prop :=
  ∃ r ∈ s.jobs, r.id = c.id ∧ c.attemptCount ≤ r.attemptCount ∧ c.maxRetries = r.maxRetries ∧
    c.payload = deps.loads r.payload

/-- The attempts up to `attempt_count` have their rows. -/
def Numbered (s : Store) : Prop :=
  ∀ r ∈ s.jobs, ∀ n, 1 ≤ n → n ≤ r.attemptCount →
    ∃ a ∈ s.jobAttempts, a.jobId = r.id ∧ a.attemptNo = n

/-- The attempt `a` of a running job ended, and it was the one the worker held. -/
structure Settled (deps : Deps) (s s' : Store) (a : AttemptRow) : Prop where
  row : ∃ r ∈ s.jobs, r.id = a.jobId ∧ r.status = .running ∧ r.lockedBy = some a.workerId ∧
    a.attemptNo = r.attemptCount + 1
  step : StoreStep deps .settle s s'
  attempts : s'.jobAttempts = s.jobAttempts ++ [a]

section
variable {deps : Deps} {s s' : Store}

theorem lease_guard {id w : String} {r : JobRow} :
    (r.id == id && decide (r.status = .running) && sqlEq r.lockedBy (some w)) = true ↔
      r.id = id ∧ r.status = .running ∧ r.lockedBy = some w := by
  simp only [Bool.and_eq_true, beq_iff_eq, decide_eq_true_eq, sqlEq_some, and_assoc]

/-- The guard matched no row. -/
theorem not_leased {id w : String} (h : ∀ r ∈ s.jobs,
    (r.id == id && decide (r.status = .running) && sqlEq r.lockedBy (some w)) = false) :
    ¬ Leased s w id := by
  rintro ⟨r, hr, hlease⟩
  have hguard := lease_guard.2 hlease
  rw [h r hr] at hguard
  cases hguard

/-- An attempt row that could be inserted has the next number. -/
theorem Snapshot.next {c : Job} {r : JobRow} (h : s.Ok deps) (hn : Numbered s)
    (hc : Snapshot deps s c) (hr : r ∈ s.jobs) (hid : r.id = c.id) {a : AttemptRow}
    (hj : a.jobId = c.id) (ha : a.attemptNo = c.attemptCount + 1)
    (hfree : ∀ o ∈ s.jobAttempts, a.clash o = false) : c.attemptCount = r.attemptCount := by
  obtain ⟨r', hr', hid', hle, -, -⟩ := hc
  have he : r' = r := h.unique hr hr' (hid'.trans hid.symm)
  subst he
  by_contra hne
  obtain ⟨o, ho, hoj, hon⟩ := hn r' hr (c.attemptCount + 1) (by omega) (by omega)
  have hcl := hfree o ho
  simp [AttemptRow.clash, hj, ha, hoj, hon, hid'] at hcl

theorem Snapshot.same {c : Job} {r : JobRow} (h : s.Ok deps) (hc : Snapshot deps s c)
    (hr : r ∈ s.jobs) (hid : r.id = c.id) :
    c.maxRetries = r.maxRetries ∧ c.payload = deps.loads r.payload := by
  obtain ⟨r', hr', hid', -, hm, hp⟩ := hc
  rw [h.unique hr hr' (hid'.trans hid.symm)] at hm hp
  exact ⟨hm, hp⟩

/-- The update of `mark_succeeded`. -/
def succeededUpdate (result : String) (n : Nat) (t : DbTime) (r : JobRow) : JobRow :=
  { r with status := .succeeded, result := some result, attemptCount := n, lastError := none,
           lockedBy := none, lockedAt := none, updatedAt := t, finishedAt := some t }

/-- The update of `mark_failed_attempt` and of the reaper. -/
def failedUpdate (willRetry : Bool) (n : Nat) (error : String) (runAt t : DbTime) (r : JobRow) :
    JobRow :=
  { r with status := if willRetry then .queued else .deadLettered, attemptCount := n,
           lastError := some error, runAt := runAt, lockedBy := none, lockedAt := none,
           updatedAt := t, finishedAt := if willRetry then none else some t }

theorem succeededUpdate_eq (result : String) (t : DbTime) (r : JobRow) :
    succeededUpdate result (r.attemptCount + 1) t r = r.settled (.success result) t := rfl

theorem failedUpdate_eq {n : Nat} (m : AttemptStatus) (error p : String) (runAt t : DbTime)
    {r : JobRow} (hn : n = r.attemptCount + 1) :
    failedUpdate (decide (n ≤ r.maxRetries)) n error runAt t r =
      r.settled (.failure m error runAt p) t := by
  subst hn
  by_cases hb : r.attemptCount + 1 ≤ r.maxRetries <;> simp [failedUpdate, JobRow.settled, hb]

/-- The guarded update and the attempt row of a success. -/
theorem settle_succeeded (h : s.Ok deps) (hn : Numbered s) {c : Job} (hc : Snapshot deps s c)
    {w : String} {startedAt t : DbTime} {result : String} {row : JobRow} (hrow : row ∈ s.jobs)
    (hid : row.id = c.id) (hrun : row.status = .running) (hw : row.lockedBy = some w) {u : Unit}
    (hins : insertAttempt ⟨c.id, c.attemptCount + 1, w, .succeeded, startedAt, t, none⟩
      { s with jobs := updateWhere (·.id == c.id) (succeededUpdate result (c.attemptCount + 1) t)
                s.jobs } = .ok (u, s')) :
    Settled deps s s' ⟨c.id, c.attemptCount + 1, w, .succeeded, startedAt, t, none⟩ := by
  obtain ⟨hfree, hs'⟩ := insertAttempt_ok hins
  have hcnt := hc.next h hn hrow hid rfl rfl hfree
  have hins' : insertAttempt (row.attempt w startedAt (.success result) t)
      { s with jobs := updateWhere (·.id == row.id) (·.settled (.success result) t) s.jobs } =
        .ok (u, s') := by
    rw [updateWhere_id_congr h.nodup hrow (succeededUpdate_eq result t row).symm]
    simpa only [JobRow.attempt, Outcome.mark, Outcome.error, hid, hcnt] using hins
  exact ⟨⟨row, hrow, hid, hrun, hw, by rw [hcnt]⟩, settle_success hrow hrun hw hins', by rw [hs']⟩

/-- The guarded update, the attempt row and the dead letter of a failure. -/
theorem settle_failed {ins : DeadLetterRow → Body Unit} (hdl : DeadLetterInsert ins)
    (h : s.Ok deps) (hn : Numbered s) {c : Job} (hc : Snapshot deps s c) {w : String}
    {startedAt runAt t : DbTime} {m : AttemptStatus} (hm : m ≠ .succeeded) {error : String}
    {row : JobRow} (hrow : row ∈ s.jobs) (hid : row.id = c.id) (hrun : row.status = .running)
    (hw : row.lockedBy = some w) {s₂ : Store} {u u' : Unit}
    (hins : insertAttempt ⟨c.id, c.attemptCount + 1, w, m, startedAt, t, some error⟩
      { s with jobs := updateWhere (·.id == c.id)
                (failedUpdate (decide (c.attemptCount + 1 ≤ c.maxRetries)) (c.attemptCount + 1)
                  error runAt t) s.jobs } = .ok (u, s₂))
    (hdead : (if c.attemptCount + 1 ≤ c.maxRetries then (pure () : Body Unit)
      else ins ⟨c.id, deps.dumps c.payload, some error, c.attemptCount + 1, t⟩) s₂ =
      .ok (u', s')) :
    Settled deps s s' ⟨c.id, c.attemptCount + 1, w, m, startedAt, t, some error⟩ := by
  obtain ⟨hfree, hs₂⟩ := insertAttempt_ok hins
  have hcnt := hc.next h hn hrow hid rfl rfl hfree
  obtain ⟨hmax, hpay⟩ := hc.same h hrow hid
  have ho : (Outcome.failure m error runAt (deps.dumps c.payload)).Proper deps row :=
    ⟨hm, .inr (by rw [hpay])⟩
  have hins' : insertAttempt
      (row.attempt w startedAt (.failure m error runAt (deps.dumps c.payload)) t)
      { s with jobs := updateWhere (·.id == row.id)
                (·.settled (.failure m error runAt (deps.dumps c.payload)) t) s.jobs } =
        .ok (u, s₂) := by
    rw [updateWhere_id_congr h.nodup hrow (failedUpdate_eq m error _ runAt t rfl).symm]
    simpa only [JobRow.attempt, Outcome.mark, Outcome.error, hid, hcnt, hmax] using hins
  obtain ⟨hstep, -, hatt⟩ := settle_failure hdl h hrow hrun hw ho hins'
    (by simpa only [hid, ← hcnt, ← hmax] using hdead)
  exact ⟨⟨row, hrow, hid, hrun, hw, by rw [hcnt]⟩, hstep, by rw [hatt, hs₂]⟩

/-- The guarded update, the attempt row and the dead letter of an expired lease. -/
theorem settle_reaped {ins : DeadLetterRow → Body Unit} (hdl : DeadLetterInsert ins)
    (h : s.Ok deps) {row : JobRow} (hrow : row ∈ s.jobs) (hrun : row.status = .running)
    (hw : row.lockedBy.isSome) {startedAt t : DbTime} {error : String} {s₂ : Store} {u u' : Unit}
    (hins : insertAttempt ⟨row.id, row.attemptCount + 1, row.lockedBy.getD "", .abandoned,
        startedAt, t, some error⟩
      { s with jobs := updateWhere (·.id == row.id)
                (failedUpdate (decide (row.attemptCount + 1 ≤ row.maxRetries))
                  (row.attemptCount + 1) error t t) s.jobs } = .ok (u, s₂))
    (hdead : (if row.attemptCount + 1 ≤ row.maxRetries then (pure () : Body Unit)
      else ins ⟨row.id, row.payload, some error, row.attemptCount + 1, t⟩) s₂ = .ok (u', s')) :
    StoreStep deps .settle s s' ∧ ∀ o ∈ s.jobs, o.id ≠ row.id → o ∈ s'.jobs := by
  obtain ⟨w, hw⟩ := Option.isSome_iff_exists.1 hw
  have ho : (Outcome.failure .abandoned error t row.payload).Proper deps row := ⟨by simp, .inl rfl⟩
  have hins' : insertAttempt
      (row.attempt w startedAt (.failure .abandoned error t row.payload) t)
      { s with jobs := updateWhere (·.id == row.id)
                (·.settled (.failure .abandoned error t row.payload) t) s.jobs } = .ok (u, s₂) := by
    rw [updateWhere_id_congr h.nodup hrow (failedUpdate_eq .abandoned error row.payload t t rfl).symm]
    simpa only [JobRow.attempt, Outcome.mark, Outcome.error, hw, Option.getD_some] using hins
  obtain ⟨hstep, hjobs, -⟩ := settle_failure hdl h hrow hrun hw ho hins' hdead
  refine ⟨hstep, fun o ho hne => ?_⟩
  rw [hjobs, (insertAttempt_ok hins).2]
  exact mem_updateWhere.2 ⟨o, ho, by simp [hne]⟩

/-- The guard of the reaper compares the row with itself. -/
theorem reaper_guard (row : JobRow) {r : JobRow} :
    (r.id == row.id && decide (r.status = .running) && sqlEq r.lockedBy row.lockedBy &&
        sqlEq r.lockedAt row.lockedAt) = true →
      r.id = row.id ∧ r.status = .running ∧ row.lockedBy.isSome := by
  simp only [Bool.and_eq_true, beq_iff_eq, decide_eq_true_eq, sqlEq]
  rintro ⟨⟨⟨hid, hrun⟩, hsome, heq⟩, -⟩
  exact ⟨hid, hrun, heq ▸ hsome⟩

/-- The mark of a failed attempt. -/
theorem mark_ne_succeeded (timedOut : Bool) :
    (if timedOut then AttemptStatus.timedOut else .failed) ≠ .succeeded := by
  cases timedOut <;> simp

end

/-! ## The loop of the reaper -/

/-- The guard of the reaper's update. -/
def reapGuard (row r : JobRow) : Bool :=
  r.id == row.id && r.status = .running && sqlEq r.lockedBy row.lockedBy &&
    sqlEq r.lockedAt row.lockedAt

def reapUpdate (now : UtcTime) (row : JobRow) : JobRow → JobRow :=
  failedUpdate (decide (row.attemptCount + 1 ≤ row.maxRetries)) (row.attemptCount + 1)
    leaseExpiredError (toDbTime now) (toDbTime now)

def reapAttempt (now : UtcTime) (row : JobRow) : AttemptRow :=
  ⟨row.id, row.attemptCount + 1, row.lockedBy.getD "", .abandoned,
    row.lockedAt.getD (toDbTime now), toDbTime now, some leaseExpiredError⟩

def reapDeadLetter (now : UtcTime) (row : JobRow) : DeadLetterRow :=
  ⟨row.id, row.payload, some leaseExpiredError, row.attemptCount + 1, toDbTime now⟩

/-- The inserts of one iteration. -/
def reapInserts (ins : DeadLetterRow → Body Unit) (now : UtcTime) (row : JobRow) : Body Unit :=
  insertAttempt (reapAttempt now row) >>= fun _ =>
    if decide (row.attemptCount + 1 ≤ row.maxRetries) = true then pure ()
    else ins (reapDeadLetter now row)

/-- One iteration of the loop; the result is the number of recovered jobs. -/
def reap (ins : DeadLetterRow → Body Unit) (now : UtcTime) (grace : ℚ) (row : JobRow) : Body Nat :=
  if Sqlite.leaseAlive now grace row then pure 0
  else updateJobs (reapGuard row) (reapUpdate now row) >>= fun rowcount =>
    if rowcount = 0 then pure 0 else reapInserts ins now row >>= fun _ => pure 1

/-- A loop written as the one of `recover_stale_jobs` is the sum of its iterations. -/
theorem recoverRows_total {F : Nat → List JobRow → Body Nat} {ins : DeadLetterRow → Body Unit}
    {now : UtcTime} {grace : ℚ} (hnil : ∀ n, F n [] = pure n)
    (hcons : ∀ n row rows, F n (row :: rows) =
      if Sqlite.leaseAlive now grace row then F n rows
      else updateJobs (reapGuard row) (reapUpdate now row) >>= fun rowcount =>
        if rowcount = 0 then F n rows
        else insertAttempt (reapAttempt now row) >>= fun _ =>
          if decide (row.attemptCount + 1 ≤ row.maxRetries) = true then pure () >>= fun _ => F (n + 1) rows
          else ins (reapDeadLetter now row) >>= fun _ => F (n + 1) rows) :
    ∀ (rows : List JobRow) (n : Nat), F n rows = total (reap ins now grace) n rows
  | [], n => hnil n
  | row :: rows, n => by
    rw [hcons]
    dsimp only [total, reap]
    by_cases ha : Sqlite.leaseAlive now grace row = true
    · rw [if_pos ha, if_pos ha]
      exact recoverRows_total hnil hcons rows n
    · rw [if_neg ha, if_neg ha, Tx.bind_assoc]
      refine congrArg (updateJobs _ _ >>= ·) (funext fun rowcount => ?_)
      by_cases hc : rowcount = 0
      · rw [if_pos hc, if_pos hc]
        exact recoverRows_total hnil hcons rows n
      · rw [if_neg hc, if_neg hc, reapInserts, Tx.bind_assoc, Tx.bind_assoc]
        refine congrArg (insertAttempt _ >>= ·) (funext fun _ => ?_)
        rw [recoverRows_total hnil hcons rows (n + 1)]
        exact Tx.ite_bind _ fun _ => total (reap ins now grace) (n + 1) rows

theorem Sqlite.recoverRows_eq (now : UtcTime) (grace : ℚ) (rows : List JobRow) (n : Nat) :
    Sqlite.recoverRows now grace n rows = total (reap replaceDeadLetter now grace) n rows :=
  recoverRows_total (fun _ => rfl) (fun _ _ _ => rfl) rows n

theorem Postgres.recoverRows_eq (now : UtcTime) (grace : ℚ) (rows : List JobRow) (n : Nat) :
    Postgres.recoverRows now grace n rows = total (reap upsertDeadLetter now grace) n rows :=
  recoverRows_total (fun _ => rfl) (fun _ _ _ => rfl) rows n

section
variable {deps : Deps} {s s' : Store}

/-- One iteration settles the attempt of its row, or does nothing, and leaves the other rows. -/
theorem reap_ok {ins : DeadLetterRow → Body Unit} (hdl : DeadLetterInsert ins) (h : s.Ok deps)
    {now : UtcTime} {grace : ℚ} {row : JobRow} {k : Nat} (hrow : row ∈ s.jobs)
    (hx : reap ins now grace row s = .ok (k, s')) :
    Steps deps (· = .settle) s s' ∧ ∀ o ∈ s.jobs, o.id ≠ row.id → o ∈ s'.jobs := by
  unfold reap at hx
  split at hx
  · cases hx
    exact ⟨Steps.refl _, fun o ho _ => ho⟩
  · obtain ⟨c, s₁, hupd, hx⟩ := Tx.bind_eq_ok.1 hx
    rcases updateJobs_key h.nodup (k := row.id) (f := reapUpdate now row)
      (fun r hr => (reaper_guard row hr).1) with ⟨h0, -⟩ | ⟨r, hr, hid, hp, h1, -⟩
    · cases h0.symm.trans hupd
      rw [if_pos rfl] at hx
      cases hx
      exact ⟨Steps.refl _, fun o ho _ => ho⟩
    · obtain ⟨-, hrun, hw⟩ := reaper_guard row hp
      rw [h.unique hrow hr hid] at hrun
      cases h1.symm.trans hupd
      rw [if_neg Nat.one_ne_zero] at hx
      obtain ⟨_, s₂, hinserts, hx⟩ := Tx.bind_eq_ok.1 hx
      cases hx
      obtain ⟨u, s₂, hins, hdead⟩ := Tx.bind_eq_ok.1 hinserts
      simp only [decide_eq_true_eq] at hdead
      obtain ⟨hstep, hkeep⟩ := settle_reaped hdl h hrow hrun hw hins hdead
      exact ⟨Steps.single (k := .settle) rfl hstep, hkeep⟩

/-- Every row that the loop has not reached is still as it was read. -/
theorem reapRows_ok {ins : DeadLetterRow → Body Unit} (hdl : DeadLetterInsert ins) {now : UtcTime}
    {grace : ℚ} : ∀ (rows : List JobRow) {s s' : Store} {n m : Nat}, s.Ok deps →
      (∀ r ∈ rows, r ∈ s.jobs) → (rows.map (·.id)).Nodup →
      total (reap ins now grace) n rows s = .ok (m, s') → Steps deps (· = .settle) s s'
  | [], _, _, _, _, _, _, _, hx => by
    cases hx
    exact Steps.refl _
  | row :: rows, s, s', n, m, h, hin, hnd, hx => by
    simp only [List.map_cons, List.nodup_cons] at hnd
    obtain ⟨hrow, hrest⟩ := List.forall_mem_cons.1 hin
    obtain ⟨k, s₁, hreap, hx⟩ := Tx.bind_eq_ok.1 hx
    obtain ⟨hstep, hkeep⟩ := reap_ok hdl h hrow hreap
    refine hstep.trans (reapRows_ok hdl rows (hstep.ok h) (fun r hr => ?_) hnd.2 hx)
    exact hkeep r (hrest r hr) fun he => hnd.1 (he ▸ List.mem_map_of_mem hr)

end

/-! ## SQLite -/

namespace Sqlite

variable {deps : Deps} {s s' : Store}

theorem markSucceededTxn_ok (h : s.Ok deps) (hn : Numbered s) {c : Job} (hc : Snapshot deps s c)
    {now startedAt : UtcTime} {w : String} {result : List (String × Json)} {j : Option Job}
    (hx : markSucceededTxn deps now c.id w (c.attemptCount + 1) startedAt result s =
      .ok (j, s')) :
    s' = s ∧ ¬ Leased s w c.id ∨ Settled deps s s'
      ⟨c.id, c.attemptCount + 1, w, .succeeded, toDbTime startedAt, toDbTime now, none⟩ := by
  unfold markSucceededTxn at hx
  obtain ⟨begun, s₀, hget, hx⟩ := Tx.bind_eq_ok.1 hx
  cases hget
  obtain ⟨n, s₁, hupd, hx⟩ := Tx.bind_eq_ok.1 hx
  rcases updateJobs_key h.nodup (k := c.id)
    (f := succeededUpdate (deps.dumps (.obj result)) (c.attemptCount + 1) (toDbTime now))
    (fun r hr => (lease_guard (w := w).1 hr).1) with ⟨h0, -, hnone⟩ | ⟨row, hrow, hid, hp, h1, -⟩
  · cases h0.symm.trans hupd
    rw [if_pos rfl] at hx
    obtain ⟨_, _, hset, hx⟩ := Tx.bind_eq_ok.1 hx
    cases hset
    cases hx
    exact .inl ⟨rfl, not_leased hnone⟩
  · obtain ⟨-, hrun, hw⟩ := lease_guard.1 hp
    cases h1.symm.trans hupd
    rw [if_neg Nat.one_ne_zero] at hx
    obtain ⟨u, s₂, hins, hx⟩ := Tx.bind_eq_ok.1 hx
    obtain ⟨r, s₃, hsel, hx⟩ := Tx.bind_eq_ok.1 hx
    cases hsel
    cases hx
    exact .inr (settle_succeeded h hn hc hrow hid hrun hw hins)

theorem markFailedAttemptTxn_ok (h : s.Ok deps) (hn : Numbered s) {c : Job}
    (hc : Snapshot deps s c) {now startedAt : UtcTime} {w error : String} {timedOut : Bool}
    {backoff : ℚ} {j : Option Job}
    (hx : markFailedAttemptTxn deps now c w (c.attemptCount + 1) startedAt error timedOut backoff
      s = .ok (j, s')) :
    s' = s ∧ ¬ Leased s w c.id ∨ Settled deps s s'
      ⟨c.id, c.attemptCount + 1, w, if timedOut then .timedOut else .failed, toDbTime startedAt,
        toDbTime now, some error⟩ := by
  dsimp only [markFailedAttemptTxn] at hx
  obtain ⟨runAt, s₀, hrunAt, hx⟩ := Tx.bind_eq_ok.1 hx
  obtain ⟨-, rfl⟩ := Tx.ofExcept_eq_ok.1 hrunAt
  obtain ⟨begun, s₀, hget, hx⟩ := Tx.bind_eq_ok.1 hx
  cases hget
  obtain ⟨n, s₁, hupd, hx⟩ := Tx.bind_eq_ok.1 hx
  rcases updateJobs_key h.nodup (k := c.id)
    (f := failedUpdate (decide (c.attemptCount + 1 ≤ c.maxRetries)) (c.attemptCount + 1) error
      (toDbTime runAt) (toDbTime now))
    (fun r hr => (lease_guard (w := w).1 hr).1) with ⟨h0, -, hnone⟩ | ⟨row, hrow, hid, hp, h1, -⟩
  · cases h0.symm.trans hupd
    rw [if_pos rfl] at hx
    obtain ⟨_, _, hset, hx⟩ := Tx.bind_eq_ok.1 hx
    cases hset
    cases hx
    exact .inl ⟨rfl, not_leased hnone⟩
  · obtain ⟨-, hrun, hw⟩ := lease_guard.1 hp
    cases h1.symm.trans hupd
    rw [if_neg Nat.one_ne_zero] at hx
    obtain ⟨u, s₂, hins, hx⟩ := Tx.bind_eq_ok.1 hx
    obtain ⟨s₃, hdead, hx⟩ := Tx.ite_bind_eq_ok hx
    obtain ⟨r, s₄, hsel, hx⟩ := Tx.bind_eq_ok.1 hx
    cases hsel
    cases hx
    simp only [decide_eq_true_eq] at hdead
    exact .inr (settle_failed (fun hn h => replaceDeadLetter_ok hn h) h hn hc
      (mark_ne_succeeded timedOut) hrow hid hrun hw hins hdead)

theorem recoverStaleJobsTxn_ok (h : s.Ok deps) {now : UtcTime} {grace : ℚ} {n : Nat}
    (hx : recoverStaleJobsTxn now grace s = .ok (n, s')) : Steps deps (· = .settle) s s' := by
  unfold recoverStaleJobsTxn at hx
  obtain ⟨begun, s₀, hget, hx⟩ := Tx.bind_eq_ok.1 hx
  cases hget
  rw [recoverRows_eq] at hx
  exact reapRows_ok (fun hn h => replaceDeadLetter_ok hn h) _ h (fun r hr => (List.mem_filter.1 hr).1)
    (h.nodup.sublist (List.filter_sublist.map _)) hx

end Sqlite

/-! ## Postgres -/

namespace Postgres

variable {deps : Deps} {s s' : Store}

theorem markSucceededTxn_ok (h : s.Ok deps) (hn : Numbered s) {c : Job} (hc : Snapshot deps s c)
    {now startedAt : UtcTime} {w : String} {result : List (String × Json)} {j : Option Job}
    (hx : markSucceededTxn deps now c.id w (c.attemptCount + 1) startedAt result s =
      .ok (j, s')) :
    s' = s ∧ ¬ Leased s w c.id ∨ Settled deps s s'
      ⟨c.id, c.attemptCount + 1, w, .succeeded, toDbTime startedAt, toDbTime now, none⟩ := by
  unfold markSucceededTxn at hx
  obtain ⟨returned, s₁, hupd, hx⟩ := Tx.bind_eq_ok.1 hx
  rcases updateJobs_key h.nodup (k := c.id)
    (f := succeededUpdate (deps.dumps (.obj result)) (c.attemptCount + 1) (toDbTime now))
    (fun r hr => (lease_guard (w := w).1 hr).1) with ⟨-, h0, hnone⟩ | ⟨row, hrow, hid, hp, -, h1⟩
  · cases h0.symm.trans hupd
    obtain ⟨current, s₂, hsel, hx⟩ := Tx.bind_eq_ok.1 hx
    cases hsel
    cases hx
    exact .inl ⟨rfl, not_leased hnone⟩
  · obtain ⟨-, hrun, hw⟩ := lease_guard.1 hp
    cases h1.symm.trans hupd
    obtain ⟨u, s₂, hins, hx⟩ := Tx.bind_eq_ok.1 hx
    cases hx
    exact .inr (settle_succeeded h hn hc hrow hid hrun hw hins)

theorem markFailedAttemptTxn_ok (h : s.Ok deps) (hn : Numbered s) {c : Job}
    (hc : Snapshot deps s c) {now startedAt : UtcTime} {w error : String} {timedOut : Bool}
    {backoff : ℚ} {j : Option Job}
    (hx : markFailedAttemptTxn deps now c w (c.attemptCount + 1) startedAt error timedOut backoff
      s = .ok (j, s')) :
    s' = s ∧ ¬ Leased s w c.id ∨ Settled deps s s'
      ⟨c.id, c.attemptCount + 1, w, if timedOut then .timedOut else .failed, toDbTime startedAt,
        toDbTime now, some error⟩ := by
  dsimp only [markFailedAttemptTxn] at hx
  obtain ⟨runAt, s₀, hrunAt, hx⟩ := Tx.bind_eq_ok.1 hx
  obtain ⟨-, rfl⟩ := Tx.ofExcept_eq_ok.1 hrunAt
  obtain ⟨returned, s₁, hupd, hx⟩ := Tx.bind_eq_ok.1 hx
  rcases updateJobs_key h.nodup (k := c.id)
    (f := failedUpdate (decide (c.attemptCount + 1 ≤ c.maxRetries)) (c.attemptCount + 1) error
      (toDbTime runAt) (toDbTime now))
    (fun r hr => (lease_guard (w := w).1 hr).1) with ⟨-, h0, hnone⟩ | ⟨row, hrow, hid, hp, -, h1⟩
  · cases h0.symm.trans hupd
    obtain ⟨current, s₂, hsel, hx⟩ := Tx.bind_eq_ok.1 hx
    cases hsel
    cases hx
    exact .inl ⟨rfl, not_leased hnone⟩
  · obtain ⟨-, hrun, hw⟩ := lease_guard.1 hp
    cases h1.symm.trans hupd
    obtain ⟨u, s₂, hins, hx⟩ := Tx.bind_eq_ok.1 hx
    obtain ⟨s₃, hdead, hx⟩ := Tx.ite_bind_eq_ok hx
    cases hx
    simp only [decide_eq_true_eq] at hdead
    exact .inr (settle_failed (fun hn h => upsertDeadLetter_ok hn h) h hn hc
      (mark_ne_succeeded timedOut) hrow hid hrun hw hins hdead)

theorem recoverStaleJobsTxn_ok (h : s.Ok deps) {skipped : String → Bool} {now : UtcTime} {grace : ℚ}
    {n : Nat} (hx : recoverStaleJobsTxn skipped now grace s = .ok (n, s')) :
    Steps deps (· = .settle) s s' := by
  unfold recoverStaleJobsTxn at hx
  obtain ⟨begun, s₀, hget, hx⟩ := Tx.bind_eq_ok.1 hx
  cases hget
  rw [recoverRows_eq] at hx
  exact reapRows_ok (fun hn h => upsertDeadLetter_ok hn h) _ h (fun r hr => (List.mem_filter.1 hr).1)
    (h.nodup.sublist (List.filter_sublist.map _)) hx

end Postgres

end PulseQueue
