import PulseQueue.Proof.Runs
import PulseQueue.Spec.Methods

/-!
# Claim selection

`claim_next_job` takes the first due job in the order of the claim, or nothing when none is due, and
changes one row (`claimNextJob_cases`). So repeated claims at one clock reading empty the due jobs
one by one (`ClaimRun.drained`): what remains due after a claim are the due jobs before it without the
one it returned.
-/

namespace PulseQueue

open Txn Table

/-! ## The order of the claims -/

/-- The job waits and its time has come. -/
def JobRow.Due (now : UtcTime) (r : JobRow) : Prop := r.status = .queued ∧ parseDbTime r.runAt ≤ now

instance (now : UtcTime) (r : JobRow) : Decidable (r.Due now) := by
  unfold JobRow.Due
  infer_instance

/-- `a` has a higher priority, or the same and an earlier `run_at`, or both equal and an earlier
`created_at`. -/
def JobRow.Before (a b : JobRow) : Prop :=
  b.priority < a.priority ∨ a.priority = b.priority ∧
    (parseDbTime a.runAt < parseDbTime b.runAt ∨
      parseDbTime a.runAt = parseDbTime b.runAt ∧ parseDbTime a.createdAt < parseDbTime b.createdAt)

/-- A due job that no other due job goes before. -/
def First (now : UtcTime) (s : Store) (r : JobRow) : Prop :=
  r ∈ s.jobs ∧ r.Due now ∧ ∀ o ∈ s.jobs, o.Due now → ¬ o.Before r

def Store.dueJobs (now : UtcTime) (s : Store) : List JobRow := s.jobs.filter fun r => r.Due now

/-- The store after the job `r` is claimed. -/
def Store.claim (w : String) (t : DbTime) (r : JobRow) (s : Store) : Store :=
  { s with jobs := s.jobs.map fun o => if o.id = r.id then o.claimed w t else o }

theorem claimOrder_iff {a b : JobRow} : claimOrder a b = true ↔
    b.priority < a.priority ∨ a.priority = b.priority ∧
      (a.runAt < b.runAt ∨ a.runAt = b.runAt ∧ a.createdAt ≤ b.createdAt) := by
  simp [claimOrder]

theorem claimOrder_total (a b : JobRow) : claimOrder a b = true ∨ claimOrder b a = true := by
  rw [claimOrder_iff, claimOrder_iff]
  rcases lt_trichotomy a.priority b.priority with hp | hp | hp
  · exact .inr (.inl hp)
  · rcases lt_trichotomy a.runAt b.runAt with hr | hr | hr
    · exact .inl (.inr ⟨hp, .inl hr⟩)
    · rcases le_total a.createdAt b.createdAt with hc | hc
      · exact .inl (.inr ⟨hp, .inr ⟨hr, hc⟩⟩)
      · exact .inr (.inr ⟨hp.symm, .inr ⟨hr.symm, hc⟩⟩)
    · exact .inr (.inr ⟨hp.symm, .inl hr⟩)
  · exact .inl (.inl hp)

theorem claimOrder_trans (a b c : JobRow) (h : claimOrder a b = true) (h' : claimOrder b c = true) :
    claimOrder a c = true := by
  rw [claimOrder_iff] at h h' ⊢
  rcases h with h | ⟨hp, h⟩
  · rcases h' with h' | ⟨hp', -⟩
    · exact .inl (h'.trans h)
    · exact .inl (hp' ▸ h)
  · rcases h' with h' | ⟨hp', h'⟩
    · exact .inl (hp ▸ h')
    · refine .inr ⟨hp.trans hp', ?_⟩
      rcases h with h | ⟨hr, h⟩
      · rcases h' with h' | ⟨hr', -⟩
        · exact .inl (h.trans h')
        · exact .inl (hr' ▸ h)
      · rcases h' with h' | ⟨hr', h'⟩
        · exact .inl (hr ▸ h')
        · exact .inr ⟨hr.trans hr', h.trans h'⟩

/-- The SQL order is the order of the instants. -/
theorem not_before {a b : JobRow} (h : claimOrder a b = true) : ¬ b.Before a := by
  rw [claimOrder_iff] at h
  unfold JobRow.Before
  rw [parseDbTime_lt, parseDbTime_lt, parseDbTime_inj]
  intro hb
  rcases hb with hp | ⟨hp, hb⟩
  · rcases h with hp' | ⟨hp', -⟩ <;> omega
  · rcases h with hp' | ⟨-, h⟩
    · omega
    · rcases hb with hr | ⟨hr, hc⟩
      · rcases h with hr' | ⟨hr', -⟩
        · exact lt_asymm hr hr'
        · exact hr.ne hr'.symm
      · rcases h with hr' | ⟨-, hc'⟩
        · exact hr'.ne hr.symm
        · exact absurd hc (not_lt.2 hc')

/-! ## One claim -/

section
variable {deps : Deps} {engine : Engine} {s s' : Store} {now : UtcTime} {w : String}

/-- The second `SELECT` of the SQLite class finds the updated row. -/
theorem selectJob_updated (hn : (s.jobs.map (·.id)).Nodup) {row : JobRow} (hrow : row ∈ s.jobs)
    {k : String} (hid : row.id = k) {f : JobRow → JobRow} (hf : ∀ r, (f r).id = r.id) :
    selectJob k { s with jobs := updateWhere (·.id == k) f s.jobs } =
      .ok (some (f row), { s with jobs := updateWhere (·.id == k) f s.jobs }) := by
  have hjob : s.job? k = some row := hid ▸ lookup_of_mem hn hrow
  unfold selectJob
  rw [job?_update s k f hf, if_pos rfl, hjob]
  rfl

/-- The due rows of the two `SELECT`s. -/
theorem dueJobs_eq : s.jobs.filter (fun r => r.status = .queued && r.runAt ≤ toDbTime now) =
    s.dueJobs now := by
  refine List.filter_congr fun r _ => ?_
  simp only [JobRow.Due, parseDbTime_le_now, Bool.decide_and]

theorem claim_eq (r : JobRow) (t : DbTime) :
    { s with jobs := updateWhere (·.id == r.id) (·.claimed w t) s.jobs } = s.claim w t r := by
  unfold Store.claim updateWhere
  simp only [beq_iff_eq]

/-- The head of the `SELECT` is the first due job. -/
theorem first_of_head {r : JobRow} (h : (orderBy claimOrder (s.dueJobs now)).head? = some r) :
    First now s r := by
  obtain ⟨hr, hdue⟩ := List.mem_filter.1 (head_orderBy_mem h)
  refine ⟨hr, of_decide_eq_true hdue, fun o ho hodue => not_before ?_⟩
  refine orderBy_head_le claimOrder_total claimOrder_trans h o ?_
  exact List.mem_filter.2 ⟨ho, decide_eq_true hodue⟩

theorem Sqlite.claimNextJobTxn_eq (hn : (s.jobs.map (·.id)).Nodup) :
    (s.dueJobs now = [] ∧ Sqlite.claimNextJobTxn deps now w s = .ok (none, s)) ∨
      ∃ r, First now s r ∧ Sqlite.claimNextJobTxn deps now w s =
        .ok (some (jobFromRow deps (r.claimed w (toDbTime now))), s.claim w (toDbTime now) r) := by
  unfold Sqlite.claimNextJobTxn
  rw [Tx.bind_ok (Tx.get_run s), dueJobs_eq]
  cases hhead : (orderBy claimOrder (s.dueJobs now)).head? with
  | none => exact .inl ⟨orderBy_head_none.1 hhead, rfl⟩
  | some r =>
    have hfirst := first_of_head hhead
    obtain ⟨hr, hdue, -⟩ := hfirst
    have hupd := (updateJobs_row hn hr (f := (·.claimed w (toDbTime now)))
      (p := fun o => o.id == r.id && o.status = .queued) (fun o ho => by simp at ho; exact ho.1)
      (by simp [hdue.1])).1
    refine .inr ⟨r, first_of_head hhead, ?_⟩
    show (updateJobs _ (·.claimed w (toDbTime now)) >>= _) s = _
    rw [Tx.bind_ok hupd]
    show (selectJob r.id >>= _) _ = _
    rw [Tx.bind_ok (selectJob_updated hn hr rfl (f := (·.claimed w (toDbTime now))) fun _ => rfl),
      claim_eq]
    rfl

theorem Postgres.claimNextJobTxn_eq (hn : (s.jobs.map (·.id)).Nodup) :
    (s.dueJobs now = [] ∧ Postgres.claimNextJobTxn deps (fun _ => false) now w s = .ok (none, s)) ∨
      ∃ r, First now s r ∧ Postgres.claimNextJobTxn deps (fun _ => false) now w s =
        .ok (some (jobFromRow deps (r.claimed w (toDbTime now))), s.claim w (toDbTime now) r) := by
  unfold Postgres.claimNextJobTxn
  simp only [Bool.not_false, Bool.and_true]
  rw [Tx.bind_ok (Tx.get_run s), dueJobs_eq]
  cases hhead : (orderBy claimOrder (s.dueJobs now)).head? with
  | none => exact .inl ⟨orderBy_head_none.1 hhead, rfl⟩
  | some r =>
    have hfirst := first_of_head hhead
    have hupd := (updateJobs_row hn hfirst.1 (f := (·.claimed w (toDbTime now)))
      (p := fun o => o.id == r.id) (fun o ho => by simpa using ho) (by simp)).2
    refine .inr ⟨r, hfirst, ?_⟩
    show (updateJobsReturning _ (·.claimed w (toDbTime now)) >>= _) s = _
    rw [Tx.bind_ok hupd, claim_eq]
    rfl

/-- What `claim_next_job` does. -/
theorem claimNextJob_cases (hn : (s.jobs.map (·.id)).Nodup) :
    (s.dueJobs now = [] ∧
        (Method.claimNextJob now w).run deps engine s = (.ok (.job none), s)) ∨
      ∃ r, First now s r ∧ (Method.claimNextJob now w).run deps engine s =
        (.ok (.job (some (jobFromRow deps (r.claimed w (toDbTime now))))),
          s.claim w (toDbTime now) r) := by
  cases engine with
  | sqlite =>
    rcases @Sqlite.claimNextJobTxn_eq deps s now w hn with ⟨hnone, hx⟩ | ⟨r, hfirst, hx⟩
    · exact .inl ⟨hnone, Conn.bind_ok (atomically_ok hx)⟩
    · exact .inr ⟨r, hfirst, Conn.bind_ok (atomically_ok hx)⟩
  | postgres =>
    rcases @Postgres.claimNextJobTxn_eq deps s now w hn with ⟨hnone, hx⟩ | ⟨r, hfirst, hx⟩
    · exact .inl ⟨hnone, Conn.bind_ok (atomically_ok hx)⟩
    · exact .inr ⟨r, hfirst, Conn.bind_ok (atomically_ok hx)⟩

/-! ## Repeated claims -/

/-- Operations that neither claim, submit, fail, recover nor cancel a job. -/
def Op.Idle : Op → Prop
  | .createSchedule .. | .writeSchedule .. | .deleteSchedule .. | .markSucceeded ..
  | .initializeRuntimeConfig .. | .patchRuntimeConfig .. | .heartbeatWorker .. => True
  | _ => False

/-- Claims at the clock reading `now` and what they returned, with other operations and orders of the
rows between them. -/
inductive ClaimRun (deps : Deps) (engine : Engine) (now : UtcTime) :
    Store → List (Option Job) → Store → Prop
  | nil (s : Store) : ClaimRun deps engine now s [] s
  | claim {s s₁ s' : Store} {j : Option Job} {js : List (Option Job)} (w : String) :
      (Method.claimNextJob now w).run deps engine s = (.ok (.job j), s₁) →
      ClaimRun deps engine now s₁ js s' → ClaimRun deps engine now s (j :: js) s'
  | idle {s s' : Store} {js : List (Option Job)} {op : Op} : op.Idle →
      ClaimRun deps engine now (atomically (op.body deps engine) s).2 js s' →
      ClaimRun deps engine now s js s'
  | reorder {s s₁ s' : Store} {js : List (Option Job)} : s.Reordered s₁ →
      ClaimRun deps engine now s₁ js s' → ClaimRun deps engine now s js s'

/-- An update of running jobs that queues none of them. -/
theorem dueJobs_update {p : JobRow → Bool} {f : JobRow → JobRow}
    (hp : ∀ r, p r = true → r.status = .running) (hf : ∀ r, (f r).status ≠ .queued) :
    (updateWhere p f s.jobs).filter (fun r => r.Due now) = s.dueJobs now := by
  have hdue : ∀ r, (if p r then f r else r).Due now ↔ p r = false ∧ r.Due now := by
    intro r
    by_cases hr : p r = true
    · have hnot : ¬ (f r).Due now := fun h => hf r h.1
      simp [hr, hnot]
    · simp [hr]
  unfold updateWhere Store.dueJobs
  rw [List.filter_map]
  have hsame : s.jobs.filter ((fun r => decide (r.Due now)) ∘ fun r => if p r then f r else r) =
      s.jobs.filter fun r => r.Due now := by
    refine List.filter_congr fun r _ => ?_
    rw [Function.comp_apply]
    refine decide_eq_decide.2 ((hdue r).trans ?_)
    constructor
    · exact fun h => h.2
    · intro h
      refine ⟨?_, h⟩
      by_contra hr
      have hrun := hp r (by simpa using hr)
      rw [h.1] at hrun
      cases hrun
  rw [hsame]
  conv => rhs; rw [← List.map_id (s.jobs.filter fun r => decide (r.Due now))]
  refine List.map_congr_left fun r hr => ?_
  obtain ⟨-, hd⟩ := List.mem_filter.1 hr
  rw [if_neg]
  · rfl
  · intro hpr
    have hrun := hp r hpr
    rw [(of_decide_eq_true hd).1] at hrun
    cases hrun

/-- The jobs after `mark_succeeded`, on any store. -/
theorem markSucceeded_jobs {t : UtcTime} {c : Job} {n : Nat} {startedAt : UtcTime}
    {result : List (String × Json)} {r : Reply}
    (hx : (Op.markSucceeded t c w n startedAt result).body deps engine s = .ok (r, s')) :
    s'.jobs = updateWhere (fun r => r.id == c.id && r.status = .running && sqlEq r.lockedBy (some w))
      (succeededUpdate (deps.dumps (.obj result)) n (toDbTime t)) s.jobs := by
  cases engine with
  | sqlite =>
    obtain ⟨j, hx, -⟩ := reply_ok.1 hx
    obtain ⟨begun, s₀, hget, hx⟩ := Tx.bind_eq_ok.1 hx
    cases hget
    obtain ⟨count, s₁, hupd, hx⟩ := Tx.bind_eq_ok.1 hx
    cases hupd
    split at hx
    · rename_i hzero
      obtain ⟨_, _, hset, hx⟩ := Tx.bind_eq_ok.1 hx
      cases hset
      cases hx
      exact (updateWhere_eq_self (countP_zero_iff.1 hzero)).symm
    · obtain ⟨_, s₂, hins, hx⟩ := Tx.bind_eq_ok.1 hx
      obtain ⟨row, s₃, hsel, hx⟩ := Tx.bind_eq_ok.1 hx
      cases hsel
      cases hx
      rw [(insertAttempt_ok hins).2]
      rfl
  | postgres =>
    obtain ⟨j, hx, -⟩ := reply_ok.1 hx
    obtain ⟨returned, s₁, hupd, hx⟩ := Tx.bind_eq_ok.1 hx
    generalize returned.head? = first at hx
    cases hupd
    cases first with
    | none =>
      obtain ⟨current, s₂, hsel, hx⟩ := Tx.bind_eq_ok.1 hx
      cases hsel
      cases hx
      rfl
    | some row =>
      obtain ⟨_, s₂, hins, hx⟩ := Tx.bind_eq_ok.1 hx
      cases hx
      rw [(insertAttempt_ok hins).2]
      rfl

/-- The jobs after an idle operation: the same, or a running one succeeded. -/
theorem Op.Idle.jobs {op : Op} (hop : op.Idle) {r : Reply}
    (hx : op.body deps engine s = .ok (r, s')) :
    s'.dueJobs now = s.dueJobs now ∧ s'.jobs.map (·.id) = s.jobs.map (·.id) := by
  have hsame : s'.jobs = s.jobs →
      s'.dueJobs now = s.dueJobs now ∧ s'.jobs.map (·.id) = s.jobs.map (·.id) := by
    intro h
    unfold Store.dueJobs
    rw [h]
    exact ⟨rfl, rfl⟩
  cases op with
  | createSchedule t id request m timeout =>
    refine hsame ?_
    cases engine <;>
    · obtain ⟨u, hx, -⟩ := reply_ok.1 hx
      obtain ⟨next, s₀, hnext, hx⟩ := Tx.bind_eq_ok.1 hx
      obtain ⟨-, rfl⟩ := Tx.ofExcept_eq_ok.1 hnext
      unfold insertSchedule at hx
      split at hx
      · cases hx
      · cases hx
        rfl
  | writeSchedule t id enabled next =>
    refine hsame ?_
    cases engine <;>
    · obtain ⟨n, hx, -⟩ := reply_ok.1 hx
      cases hx
      rfl
  | deleteSchedule id =>
    refine hsame ?_
    cases engine <;>
    · obtain ⟨n, hx, -⟩ := reply_ok.1 hx
      cases hx
      rfl
  | markSucceeded t c w n startedAt result =>
    have hjobs := markSucceeded_jobs hx
    constructor
    · unfold Store.dueJobs
      rw [hjobs]
      refine dueJobs_update (fun r hr => (lease_guard.1 hr).2.1) fun r => ?_
      simp [succeededUpdate]
    · rw [hjobs]
      exact map_updateWhere fun _ _ => rfl
  | initializeRuntimeConfig t c =>
    refine hsame ?_
    cases engine <;> obtain ⟨u, hx, -⟩ := reply_ok.1 hx <;>
      (try rw [Postgres.initializeRuntimeConfigTxn_eq] at hx) <;>
      obtain ⟨c, rfl⟩ := Sqlite.initializeRuntimeConfigTxn_ok hx <;> rfl
  | patchRuntimeConfig t patch =>
    refine hsame ?_
    cases engine <;> obtain ⟨u, hx, -⟩ := reply_ok.1 hx <;>
      (try rw [Postgres.patchRuntimeConfigTxn_eq] at hx) <;>
      obtain ⟨c, rfl⟩ := Sqlite.patchRuntimeConfigTxn_ok hx <;> rfl
  | heartbeatWorker t id active busy =>
    refine hsame ?_
    cases engine <;>
    · obtain ⟨u, hx, -⟩ := reply_ok.1 hx
      cases hx
      rfl
  | _ => cases hop

/-- What remains due after a claim. -/
theorem dueJobs_claim (hn : (s.jobs.map (·.id)).Nodup) {r : JobRow} (h : First now s r) (t : DbTime) :
    (s.dueJobs now).Perm (r :: (s.claim w t r).dueJobs now) := by
  have hr : r ∈ s.dueJobs now := List.mem_filter.2 ⟨h.1, decide_eq_true h.2.1⟩
  have hnd : (s.dueJobs now).Nodup := (hn.of_map).filter _
  have hclaimed : ∀ o : JobRow, ¬ (o.claimed w t).Due now := fun o ho => by cases ho.1
  have hrest : (s.claim w t r).dueJobs now = (s.dueJobs now).erase r := by
    rw [hnd.erase_eq_filter]
    unfold Store.dueJobs Store.claim
    rw [List.filter_map, List.filter_filter]
    have hsel : s.jobs.filter ((fun o => decide (o.Due now)) ∘
        fun o => if o.id = r.id then o.claimed w t else o) =
          s.jobs.filter fun o => o != r && decide (o.Due now) := by
      refine List.filter_congr fun o ho => ?_
      rw [Function.comp_apply]
      by_cases he : o.id = r.id
      · rw [if_pos he, unique_of_nodup hn h.1 ho he]
        simp [hclaimed r]
      · have hne : o ≠ r := fun hor => he (congrArg JobRow.id hor)
        simp [he, hne]
    rw [hsel]
    conv => rhs; rw [← List.map_id (s.jobs.filter fun o => o != r && decide (o.Due now))]
    refine List.map_congr_left fun o ho => ?_
    obtain ⟨ho, hsel⟩ := List.mem_filter.1 ho
    rw [if_neg]
    · rfl
    · intro he
      rw [unique_of_nodup hn h.1 ho he] at hsel
      simp at hsel
  rw [hrest]
  exact List.perm_cons_erase hr

/-- The claims of a run return due jobs, each once, in the order of their priorities, and then nothing;
what they did not return is still due. -/
theorem ClaimRun.drained {js : List (Option Job)} (hrun : ClaimRun deps engine now s js s') :
    (s.jobs.map (·.id)).Nodup → ∃ (taken : List Job) (m : Nat),
      js = taken.map some ++ List.replicate m none ∧
      ((s.dueJobs now).map (·.id)).Perm (taken.map (·.id) ++ (s'.dueJobs now).map (·.id)) ∧
      (∀ c ∈ taken, ∃ r ∈ s.dueJobs now, r.id = c.id ∧ r.priority = c.priority) ∧
      taken.Pairwise (fun a b => b.priority ≤ a.priority) ∧ (m ≠ 0 → s'.dueJobs now = []) := by
  induction hrun with
  | nil s => exact fun _ => ⟨[], 0, rfl, .refl _, by simp, .nil, by simp⟩
  | @claim s s₁ s' j js w hcl hrun ih =>
    intro hn
    rcases @claimNextJob_cases deps engine s now w hn with ⟨hnone, hx⟩ | ⟨r, hfirst, hx⟩
    · cases hcl.symm.trans hx
      obtain ⟨taken, m, hjs, hperm, -, -, -⟩ := ih hn
      -- nothing is due, so no later claim returns a job either
      rw [hnone] at hperm
      obtain ⟨htaken, hrest⟩ := List.append_eq_nil_iff.1 (List.nil_perm.1 hperm)
      rw [List.map_eq_nil_iff] at htaken hrest
      subst htaken
      refine ⟨[], m + 1, ?_, ?_, by simp, .nil, fun _ => hrest⟩
      · rw [hjs]
        rfl
      · simp [hnone, hrest]
    · cases hcl.symm.trans hx
      have hn₁ : ((s.claim w (toDbTime now) r).jobs.map (·.id)).Nodup := by
        rw [← claim_eq]
        refine (congrArg List.Nodup (map_updateWhere ?_)).mpr hn
        exact fun _ _ => rfl
      have hdue := dueJobs_claim (w := w) hn hfirst (toDbTime now)
      obtain ⟨taken, m, hjs, hperm, hrows, hsorted, hend⟩ := ih hn₁
      have hmem : ∀ o ∈ (s.claim w (toDbTime now) r).dueJobs now, o ∈ s.dueJobs now :=
        fun o ho => hdue.mem_iff.2 (List.mem_cons_of_mem _ ho)
      refine ⟨jobFromRow deps (r.claimed w (toDbTime now)) :: taken, m, ?_, ?_, ?_, ?_, hend⟩
      · rw [hjs]
        rfl
      · exact (hdue.map _).trans (hperm.cons r.id)
      · intro c hc
        rcases List.mem_cons.1 hc with rfl | hc
        · exact ⟨r, hdue.mem_iff.2 (List.mem_cons_self ..), rfl, rfl⟩
        · obtain ⟨o, ho, hid, hp⟩ := hrows c hc
          exact ⟨o, hmem o ho, hid, hp⟩
      · refine List.pairwise_cons.2 ⟨fun c hc => ?_, hsorted⟩
        obtain ⟨o, ho, -, hp⟩ := hrows c hc
        obtain ⟨hjob, hodue⟩ := List.mem_filter.1 (hmem o ho)
        have hnot := hfirst.2.2 o hjob (of_decide_eq_true hodue)
        rw [← hp]
        exact not_lt.1 fun hlt => hnot (.inl hlt)
  | @idle s s' js op hop hrun ih =>
    intro hn
    rcases atomically_cases (op.body deps engine) s with ⟨r, s₁, hx, hat⟩ | ⟨e, -, hat⟩
    · rw [hat] at ih
      obtain ⟨hdue, hids⟩ := @Op.Idle.jobs deps engine s s₁ now op hop r hx
      rw [← hdue]
      exact ih (hids.symm ▸ hn)
    · rw [hat] at ih
      exact ih hn
  | @reorder s s₁ s' js hre hrun ih =>
    intro hn
    obtain ⟨taken, m, hjs, hperm, hrows, hsorted, hend⟩ := ih ((hre.jobs.map _).nodup_iff.1 hn)
    have hdue : (s.dueJobs now).Perm (s₁.dueJobs now) := hre.jobs.filter _
    refine ⟨taken, m, hjs, (hdue.map _).trans hperm, fun c hc => ?_, hsorted, hend⟩
    obtain ⟨r, hr, hid⟩ := hrows c hc
    exact ⟨r, hdue.mem_iff.2 hr, hid⟩

/-- On every store, at every clock reading: `claim_next_job` returns `None` and changes nothing iff no
job is due, and otherwise takes a first due job and changes its row only. Claims repeated at this
clock reading at least as often as there are due jobs return each due job once, in the order of their
priorities, and then `None`. -/
theorem claim_selection (hn : (s.jobs.map (·.id)).Nodup) (now : UtcTime) (w : String) :
    ((Method.claimNextJob now w).run deps engine s = (.ok (.job none), s) ↔
        ∀ r ∈ s.jobs, ¬ r.Due now) ∧
      ((∃ r ∈ s.jobs, r.Due now) → ∃ r, First now s r ∧
        (Method.claimNextJob now w).run deps engine s =
          (.ok (.job (some (jobFromRow deps (r.claimed w (toDbTime now))))),
            s.claim w (toDbTime now) r)) ∧
      ∀ (js : List (Option Job)) (s' : Store), ClaimRun deps engine now s js s' →
        (s.dueJobs now).length ≤ js.length → ∃ taken : List Job,
          js = taken.map some ++ List.replicate (js.length - (s.dueJobs now).length) none ∧
          ((s.dueJobs now).map (·.id)).Perm (taken.map (·.id)) ∧
          taken.Pairwise fun a b => b.priority ≤ a.priority := by
  have hdue : s.dueJobs now = [] ↔ ∀ r ∈ s.jobs, ¬ r.Due now := by
    simp [Store.dueJobs, List.filter_eq_nil_iff]
  refine ⟨?_, fun hex => ?_, fun js s' hrun hlen => ?_⟩
  · rcases @claimNextJob_cases deps engine s now w hn with ⟨hnone, hx⟩ | ⟨r, hfirst, hx⟩
    · exact iff_of_true hx (hdue.1 hnone)
    · refine iff_of_false (fun h => ?_) fun h => h r hfirst.1 hfirst.2.1
      have hval := congrArg Prod.fst (h.symm.trans hx)
      cases hval
  · rcases @claimNextJob_cases deps engine s now w hn with ⟨hnone, -⟩ | hclaim
    · obtain ⟨r, hr, hd⟩ := hex
      exact absurd hd (hdue.1 hnone r hr)
    · exact hclaim
  · obtain ⟨taken, m, hjs, hperm, -, hsorted, hend⟩ := hrun.drained hn
    have hcount := hperm.length_eq
    have hjslen := congrArg List.length hjs
    simp only [List.length_append, List.length_map, List.length_replicate] at hcount hjslen
    have hrest : s'.dueJobs now = [] := by
      by_cases hm : m = 0
      · exact List.eq_nil_of_length_eq_zero (by omega)
      · exact hend hm
    rw [hrest] at hperm hcount
    simp only [List.map_nil, List.append_nil, List.length_nil] at hperm hcount
    refine ⟨taken, ?_, hperm, hsorted⟩
    have hm : js.length - (s.dueJobs now).length = m := by omega
    rw [hm]
    exact hjs

end

def tiedRow (id : String) (priority : Int) (runAt createdAt : Fin 1000) : JobRow :=
  { sampleRow with
    id := id
    priority := priority
    runAt := toDbTime (sampleTime runAt)
    createdAt := toDbTime (sampleTime createdAt) }

/-- Three jobs of one priority, two of them with one run time, and the most urgent one is not due yet. -/
def tiedStore : Store :=
  { Store.empty with
    jobs := [tiedRow "a" 0 0 0, tiedRow "b" 5 1 1, tiedRow "c" 5 1 0, tiedRow "d" 5 0 2,
      tiedRow "e" 9 500 0] }

def tiedJob (r : JobRow) : Job := jobFromRow sampleDeps (r.claimed "w" (toDbTime (sampleTime 2)))

/-- Five claims of its four due jobs. -/
theorem claim_selection_sample : ∃ taken : List Job,
    [some (tiedJob (tiedRow "d" 5 0 2)), some (tiedJob (tiedRow "c" 5 1 0)),
        some (tiedJob (tiedRow "b" 5 1 1)), some (tiedJob (tiedRow "a" 0 0 0)), none] =
        taken.map some ++ List.replicate 1 none ∧
      ["a", "b", "c", "d"].Perm (taken.map (·.id)) ∧
      taken.Pairwise fun a b => b.priority ≤ a.priority :=
  (@claim_selection sampleDeps .sqlite tiedStore (by decide) (sampleTime 2) "w").2.2 [_, _, _, _, none] _
    (.claim "w" rfl (.claim "w" rfl (.claim "w" rfl (.claim "w" rfl (.claim "w" rfl (.nil _))))))
    (by decide)

end PulseQueue
