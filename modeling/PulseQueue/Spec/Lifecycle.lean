import PulseQueue.Lib.RetryLease
import PulseQueue.Model.Repository

/-!
# The life of a job

What the tables say about one job (`JobView`) and the steps it may take (`JobStep`): it is
submitted, claimed, settled (with success, for a retry or for the dead-letter table), or cancelled.
This is the specification of the queue; the transactions of the two repositories are shown to take
only these steps. Proved here, for one step:

* `Ledger`: the attempt rows are numbered 1 to `attempt_count` and their statuses are the log of a
  `RetryLease` state (`Abs`, `Abs.step`);
* `Coherent`: the columns of the row agree with its status;
* `Mirror`: the dead-letter row copies a dead-lettered job;
* `Later`: what never changes between an earlier and a later row of one job.
-/

namespace PulseQueue

/-- What the tables say about one job id. -/
structure JobView where
  job : Option JobRow
  attempts : List AttemptRow
  deadLetters : List DeadLetterRow

def JobStatus.terminal : JobStatus → Bool
  | .succeeded | .deadLettered | .cancelled => true
  | _ => false

/-! ## Changes of a row -/

/-- A row as the three inserts create it. -/
structure JobRow.New (deps : Deps) (r : JobRow) : Prop where
  status : r.status = .queued
  attemptCount : r.attemptCount = 0
  result : r.result = none
  lastError : r.lastError = none
  lockedBy : r.lockedBy = none
  lockedAt : r.lockedAt = none
  finishedAt : r.finishedAt = none
  payload : ∃ v, r.payload = deps.dumps v

def JobRow.claimed (w : String) (t : DbTime) (r : JobRow) : JobRow :=
  { r with status := .running, lockedBy := some w, lockedAt := some t, updatedAt := t }

def JobRow.cancelled (t : DbTime) (r : JobRow) : JobRow :=
  { r with status := .cancelled, updatedAt := t, finishedAt := some t }

/-- How an attempt ended. A failure has its mark, its error, the time of the retry and the
payload text for the dead-letter row. -/
inductive Outcome
  | success (result : String)
  | failure (mark : AttemptStatus) (error : String) (runAt : DbTime) (payload : String)

namespace Outcome

def mark : Outcome → AttemptStatus
  | success _ => .succeeded
  | failure m _ _ _ => m

def error : Outcome → Option String
  | success _ => none
  | failure _ e _ _ => some e

/-- A failure is not marked as a success, and its payload text is the stored one, possibly parsed
and written again. -/
def Proper (deps : Deps) (r : JobRow) : Outcome → Prop
  | success _ => True
  | failure m _ _ p => m ≠ .succeeded ∧ (p = r.payload ∨ p = deps.dumps (deps.loads r.payload))

end Outcome

/-- The row after its attempt ended with `o` at `t`. -/
def JobRow.settled (o : Outcome) (t : DbTime) (r : JobRow) : JobRow :=
  match o with
  | .success result =>
    { r with status := .succeeded, result := some result, attemptCount := r.attemptCount + 1,
             lastError := none, lockedBy := none, lockedAt := none, updatedAt := t,
             finishedAt := some t }
  | .failure _ error runAt _ =>
    { r with status := if r.attemptCount + 1 ≤ r.maxRetries then .queued else .deadLettered
             attemptCount := r.attemptCount + 1, lastError := some error, runAt := runAt,
             lockedBy := none, lockedAt := none, updatedAt := t,
             finishedAt := if r.attemptCount + 1 ≤ r.maxRetries then none else some t }

/-- The attempt row of that end. -/
def JobRow.attempt (w : String) (startedAt : DbTime) (o : Outcome) (t : DbTime) (r : JobRow) :
    AttemptRow :=
  ⟨r.id, r.attemptCount + 1, w, o.mark, startedAt, t, o.error⟩

/-- The dead-letter row of that end, when the budget is used up. -/
def JobRow.deadLetter (o : Outcome) (t : DbTime) (r : JobRow) : List DeadLetterRow :=
  match o with
  | .success _ => []
  | .failure _ error _ payload =>
    if r.attemptCount + 1 ≤ r.maxRetries then []
    else [⟨r.id, payload, some error, r.attemptCount + 1, t⟩]

/-! ## Steps of a job -/

/-- The kinds of steps; the claim names its worker. -/
inductive Kind
  | submit
  | claim (w : String)
  | settle
  | cancel
  | reorder
deriving DecidableEq

inductive JobStep (deps : Deps) : Kind → JobView → JobView → Prop
  | submit {r : JobRow} : r.New deps → JobStep deps .submit ⟨none, [], []⟩ ⟨some r, [], []⟩
  | claim {r : JobRow} {as ds} (w : String) (t : DbTime) : r.status = .queued →
      JobStep deps (.claim w) ⟨some r, as, ds⟩ ⟨some (r.claimed w t), as, ds⟩
  | settle {r : JobRow} {as ds} {w : String} (startedAt : DbTime) {o : Outcome} (t : DbTime) :
      r.status = .running → r.lockedBy = some w → o.Proper deps r →
      JobStep deps .settle ⟨some r, as, ds⟩
        ⟨some (r.settled o t), as ++ [r.attempt w startedAt o t], ds ++ r.deadLetter o t⟩
  | cancel {r : JobRow} {as ds} (t : DbTime) : r.status = .queued →
      JobStep deps .cancel ⟨some r, as, ds⟩ ⟨some (r.cancelled t), as, ds⟩
  | reorder {j as as' ds ds'} : as.Perm as' → ds.Perm ds' →
      JobStep deps .reorder ⟨j, as, ds⟩ ⟨j, as', ds'⟩

/-! ## The ledger -/

/-- Statuses numbered from 1. -/
def numbered (log : List AttemptStatus) : List (Nat × AttemptStatus) :=
  (List.range' 1 log.length).zip log

theorem numbered_append (log : List AttemptStatus) (x : AttemptStatus) :
    numbered (log ++ [x]) = numbered log ++ [(log.length + 1, x)] := by
  unfold numbered
  rw [List.length_append, List.length_singleton, List.range'_concat, List.zip_append (by simp)]
  simp [Nat.add_comm]

theorem numbered_fst (log : List AttemptStatus) :
    (numbered log).map Prod.fst = List.range' 1 log.length :=
  List.map_fst_zip (by simp)

/-- The status with number `n` is the `n`th verdict. -/
theorem mem_numbered {log : List AttemptStatus} {n : Nat} {m : AttemptStatus} :
    (n, m) ∈ numbered log ↔ 1 ≤ n ∧ log[n - 1]? = some m := by
  rw [List.mem_iff_getElem]
  constructor
  · rintro ⟨i, hi, he⟩
    have hl : i < log.length := by simpa [numbered] using hi
    simp only [numbered, List.getElem_zip, List.getElem_range', Prod.mk.injEq] at he
    obtain ⟨rfl, rfl⟩ := he
    have hsub : 1 + 1 * i - 1 = i := by omega
    rw [hsub]
    exact ⟨by omega, List.getElem?_eq_getElem hl⟩
  · rintro ⟨h1, hm⟩
    obtain ⟨hl, he⟩ := List.getElem?_eq_some_iff.1 hm
    refine ⟨n - 1, by simpa [numbered] using hl, ?_⟩
    simp only [numbered, List.getElem_zip, List.getElem_range', he, Prod.mk.injEq, and_true]
    omega
/-- The verdict of success. -/
def Good (m : AttemptStatus) : Prop := m = .succeeded

/-- The phase of a job; a `failed` job does not exist, and is read as a dead one. -/
def JobRow.phase (r : JobRow) : RetryLease.Phase String :=
  match r.status with
  | .queued => .waiting
  | .running => .held (r.lockedBy.getD "")
  | .succeeded => .done
  | .failed | .deadLettered => .dead
  | .cancelled => .dropped

/-- The tables of a job show the lease state `σ`. -/
structure Abs (r : JobRow) (as : List AttemptRow)
    (σ : RetryLease.State String AttemptStatus) : Prop where
  phase : σ.phase = r.phase
  count : r.attemptCount = σ.log.length
  rows : (as.map fun a => (a.attemptNo, a.status)).Perm (numbered σ.log)

theorem Abs.settle {r : JobRow} {as : List AttemptRow} {σ : RetryLease.State String AttemptStatus}
    (h : Abs r as σ) {w : String} {startedAt t : DbTime} {o : Outcome} {p}
    (hp : p = (r.settled o t).phase) :
    Abs (r.settled o t) (as ++ [r.attempt w startedAt o t]) ⟨p, σ.log ++ [o.mark]⟩ := by
  refine ⟨hp, ?_, ?_⟩
  · have hc := h.count
    cases o <;> simp [JobRow.settled, hc]
  · rw [List.map_append, numbered_append, ← h.count]
    exact h.rows.append_right _

/-- Every step of a job is a step of its lease state, or none. -/
theorem Abs.step {deps : Deps} {k : Kind} {r r' : JobRow} {as as' ds ds'}
    {σ : RetryLease.State String AttemptStatus} (h : Abs r as σ)
    (hs : JobStep deps k ⟨some r, as, ds⟩ ⟨some r', as', ds'⟩) :
    ∃ σ', Relation.ReflTransGen (RetryLease.Step Good r.maxRetries) σ σ' ∧ Abs r' as' σ' := by
  obtain ⟨p, log⟩ := σ
  have hph : p = r.phase := h.phase
  cases hs with
  | claim w t hq =>
    refine ⟨⟨.held w, log⟩, .single ?_, rfl, h.count, h.rows⟩
    simp only [hph, JobRow.phase, hq]
    exact .take log w
  | @settle _ _ _ w startedAt o t hr hw hp =>
    refine ⟨⟨(r.settled o t).phase, log ++ [o.mark]⟩, .single ?_, h.settle rfl⟩
    have hc : r.attemptCount = log.length := h.count
    simp only [hph, JobRow.phase, hr, hw]
    cases o with
    | success res => exact .finish rfl
    | failure m e at' pl =>
      have hm : ¬ Good m := hp.1
      by_cases hb : r.attemptCount + 1 ≤ r.maxRetries
      · simp only [JobRow.settled, hb, if_true]
        exact .retry hm (by omega)
      · simp only [JobRow.settled, hb, if_false]
        exact .exhaust hm (by omega)
  | cancel t hq =>
    refine ⟨⟨.dropped, log⟩, .single ?_, rfl, h.count, h.rows⟩
    simp only [hph, JobRow.phase, hq]
    exact .drop log
  | reorder ha _ => exact ⟨⟨p, log⟩, .refl, h.phase, h.count, (ha.map _).symm.trans h.rows⟩

/-- The attempt rows are the log of a reachable lease state. -/
def Ledger (v : JobView) : Prop :=
  match v.job with
  | none => v.attempts = []
  | some r => ∃ σ, Relation.ReflTransGen (RetryLease.Step Good r.maxRetries) ⟨.waiting, []⟩ σ ∧
      Abs r v.attempts σ

/-! ## What never changes -/

/-- The columns that no statement assigns. -/
structure FixedColumns where
  id : String
  payload : String
  priority : Int
  maxRetries : Nat
  timeoutSeconds : ℚ
  idempotencyKey : Option String
  requestFingerprint : Option String
  scheduleId : Option String
  scheduledFor : Option DbTime
  createdAt : DbTime
deriving DecidableEq

def JobRow.fixed (r : JobRow) : FixedColumns where
  id := r.id
  payload := r.payload
  priority := r.priority
  maxRetries := r.maxRetries
  timeoutSeconds := r.timeoutSeconds
  idempotencyKey := r.idempotencyKey
  requestFingerprint := r.requestFingerprint
  scheduleId := r.scheduleId
  scheduledFor := r.scheduledFor
  createdAt := r.createdAt

/-- `r'` is a later row of the job of `r`. -/
structure Later (r r' : JobRow) : Prop where
  fixed : r'.fixed = r.fixed
  count : r.attemptCount ≤ r'.attemptCount
  frozen : r.status.terminal = true → r' = r

theorem Later.refl (r : JobRow) : Later r r := ⟨rfl, Nat.le_refl _, fun _ => rfl⟩

theorem Later.trans {r₁ r₂ r₃ : JobRow} (h : Later r₁ r₂) (h' : Later r₂ r₃) : Later r₁ r₃ := by
  refine ⟨h'.fixed.trans h.fixed, h.count.trans h'.count, fun ht => ?_⟩
  have he := h.frozen ht
  subst he
  exact h'.frozen ht

theorem settled_fixed (o : Outcome) (t : DbTime) (r : JobRow) : (r.settled o t).fixed = r.fixed := by
  cases o <;> rfl

theorem settled_count (o : Outcome) (t : DbTime) (r : JobRow) :
    (r.settled o t).attemptCount = r.attemptCount + 1 := by
  cases o <;> rfl

theorem Later.step {deps : Deps} {k : Kind} {r r' : JobRow} {as as' ds ds'}
    (hs : JobStep deps k ⟨some r, as, ds⟩ ⟨some r', as', ds'⟩) : Later r r' := by
  cases hs with
  | claim w t hq => exact ⟨rfl, Nat.le_refl _, by simp [hq, JobStatus.terminal]⟩
  | settle startedAt t hr hw hp =>
    refine ⟨settled_fixed _ _ _, ?_, by simp [hr, JobStatus.terminal]⟩
    rw [settled_count]
    exact Nat.le_succ _
  | cancel t hq => exact ⟨rfl, Nat.le_refl _, by simp [hq, JobStatus.terminal]⟩
  | reorder _ _ => exact Later.refl _

theorem JobRow.maxRetries_eq {r r' : JobRow} (h : r'.fixed = r.fixed) :
    r'.maxRetries = r.maxRetries :=
  congrArg FixedColumns.maxRetries h

theorem JobRow.payload_eq {r r' : JobRow} (h : r'.fixed = r.fixed) : r'.payload = r.payload :=
  congrArg FixedColumns.payload h

theorem JobRow.id_eq {r r' : JobRow} (h : r'.fixed = r.fixed) : r'.id = r.id :=
  congrArg FixedColumns.id h

/-- A step keeps an existing row, and creates one only by a submission. -/
theorem JobStep.job_cases {deps : Deps} {k : Kind} {v v' : JobView} (hs : JobStep deps k v v') :
    (∃ r r', v.job = some r ∧ v'.job = some r' ∧
        JobStep deps k ⟨some r, v.attempts, v.deadLetters⟩ ⟨some r', v'.attempts, v'.deadLetters⟩) ∨
      (v.job = none ∧ v.attempts = [] ∧ v.deadLetters = [] ∧ k = .submit ∧
        ∃ r, r.New deps ∧ v' = ⟨some r, [], []⟩) ∨
      (v.job = none ∧ v'.job = none ∧ v.attempts.Perm v'.attempts ∧
        v.deadLetters.Perm v'.deadLetters) := by
  cases hs with
  | submit hr => exact .inr (.inl ⟨rfl, rfl, rfl, rfl, _, hr, rfl⟩)
  | claim w t hq => exact .inl ⟨_, _, rfl, rfl, .claim w t hq⟩
  | settle startedAt t hr hw hp => exact .inl ⟨_, _, rfl, rfl, .settle startedAt t hr hw hp⟩
  | cancel t hq => exact .inl ⟨_, _, rfl, rfl, .cancel t hq⟩
  | @reorder j _ _ _ _ ha hd =>
    cases j with
    | none => exact .inr (.inr ⟨rfl, rfl, ha, hd⟩)
    | some r => exact .inl ⟨r, r, rfl, rfl, .reorder ha hd⟩

theorem Ledger.step {deps : Deps} {k : Kind} {v v' : JobView} (h : Ledger v)
    (hs : JobStep deps k v v') : Ledger v' := by
  rcases hs.job_cases with ⟨r, r', hj, hj', hs'⟩ | ⟨hj, -, -, -, r, hr, rfl⟩ | ⟨hj, hj', ha, -⟩
  · simp only [Ledger, hj] at h
    simp only [Ledger, hj', JobRow.maxRetries_eq (Later.step hs').fixed]
    obtain ⟨σ, hσ, habs⟩ := h
    obtain ⟨σ', hσ', habs'⟩ := habs.step hs'
    exact ⟨σ', hσ.trans hσ', habs'⟩
  · refine ⟨⟨.waiting, []⟩, .refl, ?_, hr.attemptCount, by simp [numbered]⟩
    simp only [JobRow.phase, hr.status]
  · simp only [Ledger, hj, hj'] at h ⊢
    rw [h] at ha
    exact List.nil_perm.1 ha

/-! ## Columns and status -/

/-- The nullable columns agree with the status. -/
structure Coherent (deps : Deps) (r : JobRow) : Prop where
  notFailed : r.status ≠ .failed
  lockedBy : r.lockedBy.isSome ↔ r.status = .running
  lockedAt : r.lockedAt.isSome ↔ r.status = .running
  finishedAt : r.finishedAt.isSome ↔ r.status.terminal = true
  result : r.result.isSome ↔ r.status = .succeeded
  noError : r.status = .succeeded → r.lastError = none
  hasError : r.status = .deadLettered ∨ 0 < r.attemptCount ∧ r.status ≠ .succeeded →
    r.lastError.isSome
  payload : ∃ v, r.payload = deps.dumps v

theorem Coherent.new {deps : Deps} {r : JobRow} (h : r.New deps) : Coherent deps r where
  notFailed := by simp [h.status]
  lockedBy := by simp [h.status, h.lockedBy]
  lockedAt := by simp [h.status, h.lockedAt]
  finishedAt := by simp [h.status, h.finishedAt, JobStatus.terminal]
  result := by simp [h.status, h.result]
  noError := by simp [h.status]
  hasError := by simp [h.status, h.attemptCount]
  payload := h.payload

theorem Coherent.settled {deps : Deps} {r : JobRow} (h : Coherent deps r) (hr : r.status = .running)
    (o : Outcome) (t : DbTime) : Coherent deps (r.settled o t) := by
  have hres : r.result = none := by
    have := h.result
    simp only [hr] at this
    simpa using this
  cases o with
  | success res => constructor <;> simp [JobRow.settled, JobStatus.terminal, h.payload]
  | failure m e at' p =>
    by_cases hb : r.attemptCount + 1 ≤ r.maxRetries <;> constructor <;>
      simp [JobRow.settled, JobStatus.terminal, hb, hres, h.payload]

theorem Coherent.step {deps : Deps} {k : Kind} {r r' : JobRow} {as as' ds ds'}
    (h : Coherent deps r) (hs : JobStep deps k ⟨some r, as, ds⟩ ⟨some r', as', ds'⟩) :
    Coherent deps r' := by
  cases hs with
  | claim w t hq =>
    have hf := h.finishedAt
    have hres := h.result
    have he := h.hasError
    simp only [hq, JobStatus.terminal] at hf hres he
    constructor <;> simp_all [JobRow.claimed, JobStatus.terminal, h.payload]
  | settle startedAt t hr hw hp => exact h.settled hr _ t
  | cancel t hq =>
    have hl := h.lockedBy
    have hl' := h.lockedAt
    have hres := h.result
    have he := h.hasError
    simp only [hq] at hl hl' hres he
    constructor <;> simp_all [JobRow.cancelled, JobStatus.terminal, h.payload]
  | reorder _ _ => exact h

/-! ## Dead letters -/

/-- The dead-letter row of `r`, finished at `t`. -/
def JobRow.mirror (r : JobRow) (t : DbTime) : DeadLetterRow :=
  ⟨r.id, r.payload, r.lastError, r.attemptCount, t⟩

/-- The dead-letter rows of a job: its copy if it is dead-lettered, else none. -/
def Mirror (v : JobView) : Prop :=
  match v.job with
  | none => v.deadLetters = []
  | some r => (r.status ≠ .deadLettered → v.deadLetters = []) ∧
      (r.status = .deadLettered → ∃ t, r.finishedAt = some t ∧ v.deadLetters = [r.mirror t])

theorem Mirror.settle {deps : Deps} (hjson : ∀ x, deps.dumps (deps.loads (deps.dumps x)) = deps.dumps x)
    {r : JobRow} {as : List AttemptRow} {ds : List DeadLetterRow} (hc : Coherent deps r)
    (h : Mirror ⟨some r, as, ds⟩) (hr : r.status = .running) {o : Outcome} (t : DbTime)
    (ho : o.Proper deps r) (as' : List AttemptRow) :
    Mirror ⟨some (r.settled o t), as', ds ++ r.deadLetter o t⟩ := by
  have hds : ds = [] := h.1 (by simp [hr])
  subst hds
  cases o with
  | success res => exact ⟨fun _ => rfl, by simp [JobRow.settled]⟩
  | failure m e at' p =>
    have hp : p = r.payload := by
      rcases ho.2 with rfl | rfl
      · rfl
      · obtain ⟨v, hv⟩ := hc.payload
        rw [hv, hjson]
    subst hp
    by_cases hb : r.attemptCount + 1 ≤ r.maxRetries
    · exact ⟨fun _ => by simp [JobRow.deadLetter, hb], by simp [JobRow.settled, hb]⟩
    · refine ⟨by simp [JobRow.settled, hb], fun _ => ⟨t, by simp [JobRow.settled, hb], ?_⟩⟩
      simp [JobRow.deadLetter, hb, JobRow.mirror, JobRow.settled]

theorem Mirror.step {deps : Deps} (hjson : ∀ x, deps.dumps (deps.loads (deps.dumps x)) = deps.dumps x)
    {k : Kind} {r r' : JobRow} {as as' ds ds'} (hc : Coherent deps r) (h : Mirror ⟨some r, as, ds⟩)
    (hs : JobStep deps k ⟨some r, as, ds⟩ ⟨some r', as', ds'⟩) : Mirror ⟨some r', as', ds'⟩ := by
  cases hs with
  | claim w t hq => exact ⟨fun _ => h.1 (by simp [hq]), by simp [JobRow.claimed]⟩
  | settle startedAt t hr hw hp => exact h.settle hjson hc hr t hp _
  | cancel t hq => exact ⟨fun _ => h.1 (by simp [hq]), by simp [JobRow.cancelled]⟩
  | reorder _ hd =>
    refine ⟨fun hn => ?_, fun hn => ?_⟩
    · have he : ds = [] := h.1 hn
      subst he
      exact List.nil_perm.1 hd
    · obtain ⟨t, ht, he⟩ := h.2 hn
      simp only at he
      subst he
      exact ⟨t, ht, (List.singleton_perm.1 hd).symm⟩

end PulseQueue
