import PulseQueue.Proof.QueueDepth
import PulseQueue.Proof.Reaper
import PulseQueue.Proof.Submitted

/-!
# The books balance

What the calls of a run returned (`tally`) against what the tables then show (`Balanced`): the jobs are those
of the submissions, each claim either has an attempt row or its job still runs, and the cancelled jobs and
the abandoned attempts are as many as the calls reported. Each committed call posts what it returned
(`Sound.posts`).
-/

namespace PulseQueue

open Txn Trace Table

/-- What calls returned: the jobs submitted, claimed, recovered and cancelled. -/
structure Tally where
  submitted : Nat := 0
  claimed : Nat := 0
  recovered : Nat := 0
  cancelled : Nat := 0

/-- What the event says. -/
def Event.tally : Event → Tally
  | .call (.createJob ..) (.ok _) => { submitted := 1 }
  | .call (.createJobsBatch _ _ requests _ _) (.ok _) => { submitted := requests.length }
  | .call (.materialize ..) (.ok (.count n)) => { submitted := n }
  | .call (.claim ..) (.ok (.job (some _))) => { claimed := 1 }
  | .call (.recoverStaleJobs ..) (.ok (.count n)) => { recovered := n }
  | .call (.cancelJob ..) (.ok (.count n)) => { cancelled := n }
  | .call (.drainQueue ..) (.ok (.count n)) => { cancelled := n }
  | _ => {}

def Tally.add (t u : Tally) : Tally :=
  ⟨t.submitted + u.submitted, t.claimed + u.claimed, t.recovered + u.recovered, t.cancelled + u.cancelled⟩

/-- What the calls of a run said. -/
def tally : History Event Store → Tally
  | [] => {}
  | e :: h => (tally h).add e.event.tally

/-- The number of attempts that ended as `a`. -/
def endedAs (s : Store) (a : AttemptStatus) : Nat := s.jobAttempts.countP fun r => r.status = a

/-- The tables show what the calls returned. -/
structure Balanced (t : Tally) (s : Store) : Prop where
  jobs : s.jobs.length = t.submitted
  claims : Sqlite.statusCount s .running + s.jobAttempts.length = t.claimed
  succeeded : Sqlite.statusCount s .succeeded = endedAs s .succeeded
  abandoned : endedAs s .abandoned = t.recovered
  cancelled : Sqlite.statusCount s .cancelled = t.cancelled
  failed : Sqlite.statusCount s .failed = 0

/-- From `s` to `s'` the tables change by `u`. -/
structure Posts (u : Tally) (s s' : Store) : Prop where
  jobs : s'.jobs.length = s.jobs.length + u.submitted
  claims : Sqlite.statusCount s' .running + s'.jobAttempts.length =
    Sqlite.statusCount s .running + s.jobAttempts.length + u.claimed
  succeeded : Sqlite.statusCount s' .succeeded + endedAs s .succeeded =
    Sqlite.statusCount s .succeeded + endedAs s' .succeeded
  abandoned : endedAs s' .abandoned = endedAs s .abandoned + u.recovered
  cancelled : Sqlite.statusCount s' .cancelled = Sqlite.statusCount s .cancelled + u.cancelled
  failed : Sqlite.statusCount s' .failed = Sqlite.statusCount s .failed

section
variable {deps : Deps} {engine : Engine} {h : History Event Store} {s s' : Store} {t u : Tally}

theorem Balanced.post (hb : Balanced t s) (hp : Posts u s s') : Balanced (t.add u) s' := by
  obtain ⟨h1, h2, h3, h4, h5, h6⟩ := hb
  obtain ⟨p1, p2, p3, p4, p5, p6⟩ := hp
  constructor
  · exact p1.trans (congrArg (· + u.submitted) h1)
  · rw [p2, h2]
    rfl
  · omega
  · exact p4.trans (congrArg (· + u.recovered) h4)
  · exact p5.trans (congrArg (· + u.cancelled) h5)
  · exact p6.trans h6

/-! ## Steps -/

/-- Neither the jobs nor the attempts change. -/
theorem Posts.frame (hj : s'.jobs = s.jobs) (ha : s'.jobAttempts = s.jobAttempts) : Posts {} s s' := by
  constructor <;> simp only [Sqlite.statusCount, endedAs, hj, ha, Nat.add_zero]

theorem Posts.reorder (hj : s.jobs.Perm s'.jobs) (ha : s.jobAttempts.Perm s'.jobAttempts) :
    Posts {} s s' := by
  have hcount : ∀ st, Sqlite.statusCount s' st = Sqlite.statusCount s st := fun st => (hj.countP_eq _).symm
  have hended : ∀ a, endedAs s' a = endedAs s a := fun a => (ha.countP_eq _).symm
  constructor <;> simp only [hcount, hended, hj.length_eq, ha.length_eq, Nat.add_zero]

/-- New jobs. -/
theorem Posts.submit {rows : List JobRow} (hq : ∀ r ∈ rows, r.status = .queued)
    (hj : s'.jobs = s.jobs ++ rows) (ha : s'.jobAttempts = s.jobAttempts) :
    Posts { submitted := rows.length } s s' := by
  have hcount : ∀ st, st ≠ .queued → Sqlite.statusCount s' st = Sqlite.statusCount s st := by
    intro st hst
    have hnone : rows.countP (fun r => r.status = st) = 0 :=
      countP_zero_iff.2 fun r hr => by simp [hq r hr, Ne.symm hst]
    rw [Sqlite.statusCount, hj, List.countP_append, hnone]
    rfl
  constructor <;> simp [hcount, endedAs, hj, ha]

/-- An update takes its rows from `a` to `b` on a status. -/
theorem statusCount_update {p : JobRow → Bool} {f : JobRow → JobRow}
    (hj : s'.jobs = updateWhere p f s.jobs) (st : JobStatus) (a b : Bool)
    (h : ∀ r ∈ s.jobs, p r = true → decide (r.status = st) = a ∧ decide ((f r).status = st) = b) :
    Sqlite.statusCount s' st + (if a then s.jobs.countP p else 0) =
      Sqlite.statusCount s st + if b then s.jobs.countP p else 0 := by
  rw [Sqlite.statusCount, hj]
  exact countP_updateWhere a b h

/-- Queued jobs are claimed, or cancelled. -/
theorem Posts.update {p : JobRow → Bool} {f : JobRow → JobRow} (claim : Bool)
    (hp : ∀ r ∈ s.jobs, p r = true → r.status = .queued ∧
      (f r).status = if claim then .running else .cancelled)
    (hj : s'.jobs = updateWhere p f s.jobs) (ha : s'.jobAttempts = s.jobAttempts) :
    Posts (if claim then { claimed := s.jobs.countP p } else { cancelled := s.jobs.countP p }) s s' := by
  have hrunning := statusCount_update hj .running false claim fun r hr hpr => by
    cases claim <;> simp [hp r hr hpr]
  have hsucceeded := statusCount_update hj .succeeded false false fun r hr hpr => by
    cases claim <;> simp [hp r hr hpr]
  have hcancelled := statusCount_update hj .cancelled false (!claim) fun r hr hpr => by
    cases claim <;> simp [hp r hr hpr]
  have hfailed := statusCount_update hj .failed false false fun r hr hpr => by
    cases claim <;> simp [hp r hr hpr]
  have hlen : s'.jobs.length = s.jobs.length := by
    rw [hj]
    exact List.length_map _
  cases claim <;> constructor <;> simp [endedAs, ha, hlen] at hrunning hsucceeded hcancelled hfailed ⊢ <;>
    omega

/-- The rows with the id of a row are that row. -/
theorem Store.Ok.countP_id (hok : s.Ok deps) {r : JobRow} (hr : r ∈ s.jobs) :
    s.jobs.countP (·.id == r.id) = 1 := by
  rcases update_key_cases (f := id) hok.nodup (k := r.id) (p := (·.id == r.id)) (by simp) with
    ⟨hnone, -⟩ | ⟨r', -, -, hone, -⟩
  · have hne := countP_zero_iff.1 hnone r hr
    simp at hne
  · exact hone

theorem Posts.claim (hok : s.Ok deps) {now : UtcTime} {w : String} {j : Option Job}
    (ht : Takes deps now w s j s') : Posts { claimed := j.isSome.toNat } s s' := by
  cases ht with
  | idle => exact Posts.frame rfl rfl
  | @took r hr hq =>
    have hp : Posts { claimed := s.jobs.countP (·.id == r.id) } s
        { s with jobs := updateWhere (·.id == r.id) (·.claimed w (toDbTime now)) s.jobs } :=
      Posts.update true (fun o ho hid => ?_) rfl rfl
    · rw [hok.countP_id hr] at hp
      exact hp
    · rw [hok.unique hr ho (by simpa using hid)]
      exact ⟨hq, rfl⟩

/-- The status of a job whose attempt has ended. -/
structure JobStatus.AfterAttempt (st : JobStatus) (success : Bool) : Prop where
  succeeded : decide (st = .succeeded) = success
  not_running : st ≠ .running
  not_cancelled : st ≠ .cancelled
  not_failed : st ≠ .failed

/-- Attempts of running jobs end, all well or none, with an attempt row each. -/
theorem Posts.ended {p : JobRow → Bool} {f : JobRow → JobRow} {rows : List AttemptRow} (success : Bool)
    (hj : s'.jobs = updateWhere p f s.jobs) (ha : s'.jobAttempts = s.jobAttempts ++ rows)
    (hlen : rows.length = s.jobs.countP p)
    (hp : ∀ r ∈ s.jobs, p r = true → r.status = .running ∧ (f r).status.AfterAttempt success)
    (hrows : ∀ a ∈ rows, decide (a.status = .succeeded) = success) :
    Posts { recovered := rows.countP fun a => a.status = .abandoned } s s' := by
  have hrunning := statusCount_update hj .running true false fun r hr hpr => by
    simp [(hp r hr hpr).1, (hp r hr hpr).2.not_running]
  have hsucceeded := statusCount_update hj .succeeded false success fun r hr hpr => by
    simp [(hp r hr hpr).1, (hp r hr hpr).2.succeeded]
  have hcancelled := statusCount_update hj .cancelled false false fun r hr hpr => by
    simp [(hp r hr hpr).1, (hp r hr hpr).2.not_cancelled]
  have hfailed := statusCount_update hj .failed false false fun r hr hpr => by
    simp [(hp r hr hpr).1, (hp r hr hpr).2.not_failed]
  have hended : rows.countP (fun a => a.status = .succeeded) = if success then rows.length else 0 := by
    cases success with
    | true => exact List.countP_eq_length.2 fun a ha => by simpa using hrows a ha
    | false => exact countP_zero_iff.2 hrows
  have hjobs : s'.jobs.length = s.jobs.length := by
    rw [hj]
    exact List.length_map _
  simp only [if_true, Bool.false_eq_true, if_false, Nat.add_zero] at hrunning hsucceeded hcancelled hfailed
  have hattempts : ∀ a, endedAs s' a = endedAs s a + rows.countP fun r => r.status = a := by
    intro a
    rw [endedAs, ha, List.countP_append]
    rfl
  refine ⟨hjobs, ?_, ?_, hattempts _, hcancelled, hfailed⟩
  · rw [ha, List.length_append, hlen]
    show _ = _ + 0
    omega
  · rw [hattempts, hended, hsucceeded, hlen]
    omega

theorem afterFailure (c : Prop) [Decidable c] :
    JobStatus.AfterAttempt (if c then .queued else .deadLettered) false := by
  split
  · exact ⟨rfl, nofun, nofun, nofun⟩
  · exact ⟨rfl, nofun, nofun, nofun⟩

/-- A completion. -/
theorem Posts.settle (hok : s.Ok deps) {a : AttemptRow} (hs : Settled deps s s' a)
    (hm : a.status ≠ .abandoned) : Posts {} s s' := by
  obtain ⟨-, hstep, hattempts⟩ := hs
  cases hstep with
  | @settle _ r w startedAt o now hr hrun hw ho hc =>
    obtain rfl : r.attempt w startedAt o now = a := List.singleton_inj.1 (List.append_cancel_left hattempts)
    have hafter : (r.settled o now).status.AfterAttempt (decide (o.mark = .succeeded)) := by
      cases o with
      | success result => exact ⟨rfl, nofun, nofun, nofun⟩
      | failure m error runAt payload =>
        have hmark : decide (m = .succeeded) = false := decide_eq_false ho.1
        show JobStatus.AfterAttempt _ (decide (m = .succeeded))
        rw [hmark]
        exact afterFailure _
    have hp := Posts.ended (s := s) (decide (o.mark = .succeeded)) rfl hattempts (hok.countP_id hr).symm
      (fun x hx hid => ?_) (fun x hx => ?_)
    · have hnone : [r.attempt w startedAt o now].countP (fun x => x.status = .abandoned) = 0 := by
        simp [hm]
      rw [hnone] at hp
      exact hp
    · rw [hok.unique hr hx (by simpa using hid)]
      exact ⟨hrun, hafter⟩
    · rw [List.mem_singleton.1 hx]
      rfl

/-- A pass of the reaper. -/
theorem Posts.recover {rows : List JobRow} {now : UtcTime} (hrows : rows.Sublist s.jobs)
    (hok : s.Ok deps) (hrun : ∀ r ∈ rows, r.status = .running) :
    Posts { recovered := rows.length } s (s.recover now rows) := by
  have hp : Posts { recovered := (rows.map (reapAttempt now)).countP fun a => a.status = .abandoned } s
      (s.recover now rows) :=
    Posts.ended (p := fun r => r ∈ rows) (f := JobRow.recovered now) false
      (by simp [Store.recover, updateWhere]) rfl ?_ (fun r hr hm => ?_) (fun a ha => ?_)
  · have hall : (rows.map (reapAttempt now)).countP (fun a => a.status = .abandoned) = rows.length := by
      rw [List.countP_eq_length.2 fun a ha => ?_, List.length_map]
      obtain ⟨r, -, rfl⟩ := List.mem_map.1 ha
      rfl
    rw [hall] at hp
    exact hp
  · rw [List.length_map, List.countP_eq_length_filter]
    refine (List.Perm.length_eq ?_).symm
    have hn : s.jobs.Nodup := List.Nodup.of_map _ hok.nodup
    rw [List.perm_ext_iff_of_nodup (hn.filter _) (hn.sublist hrows)]
    intro r
    simp only [List.mem_filter, decide_eq_true_eq]
    exact ⟨And.right, fun hr => ⟨hrows.subset hr, hr⟩⟩
  · exact ⟨hrun r (of_decide_eq_true hm), afterFailure _⟩
  · obtain ⟨r, -, rfl⟩ := List.mem_map.1 ha
    rfl

/-! ## Calls -/

/-- The loop of `materialize_due_schedules`, with the insert `ins`, counts the jobs it inserts. -/
theorem materializes_posts {F : Nat → Nat → List ScheduleRow → Body Nat} {ins : JobRow → Body Nat}
    {now : UtcTime} {uuids : Nat → String} (count : Nat → Nat) (h0 : count 0 = 0) (h1 : count 1 = 1)
    (hins : ∀ {r : JobRow} {s s' : Store} {n : Nat}, ins r s = .ok (n, s') →
      (n = 0 ∧ s' = s) ∨ (n = 1 ∧ (∀ o ∈ s.jobs, r.clash o = false) ∧ s' = { s with jobs := s.jobs ++ [r] }))
    (hnil : ∀ i n, F i n [] = pure n)
    (hcons : ∀ i n row rows, F i n (row :: rows) = (do
      let changes ← ins (Sqlite.occurrenceRow now (uuids i) row)
      let next ← Tx.ofExcept (nextCronRun deps row.cronExpression (parseDbTime row.nextRunAt))
      let _ ← updateSchedule row.id fun r => { r with
        lastRunAt := some row.nextRunAt, nextRunAt := toDbTime next, updatedAt := toDbTime now }
      F (i + 1) (n + count changes) rows)) :
    ∀ (rows : List ScheduleRow) {s s' : Store} {i n m : Nat}, F i n rows s = .ok (m, s') →
      ∃ new : List JobRow, (∀ r ∈ new, r.status = .queued) ∧ s'.jobs = s.jobs ++ new ∧
        s'.jobAttempts = s.jobAttempts ∧ m = n + new.length
  | [], s, s', i, n, m, hx => by
    rw [hnil] at hx
    cases hx
    exact ⟨[], by simp, by simp, rfl, rfl⟩
  | row :: rows, s, s', i, n, m, hx => by
    rw [hcons] at hx
    obtain ⟨changes, s₁, hrow, hx⟩ := Tx.bind_eq_ok.1 hx
    obtain ⟨next, s₂, hnext, hx⟩ := Tx.bind_eq_ok.1 hx
    obtain ⟨-, rfl⟩ := Tx.ofExcept_eq_ok.1 hnext
    obtain ⟨_, s₃, hupd, hx⟩ := Tx.bind_eq_ok.1 hx
    obtain ⟨new, hq, hj, ha, hm⟩ := materializes_posts count h0 h1 hins hnil hcons rows hx
    cases hupd
    rcases hins hrow with ⟨rfl, rfl⟩ | ⟨rfl, -, rfl⟩
    · exact ⟨new, hq, hj, ha, by rw [hm, h0, Nat.add_zero]⟩
    · refine ⟨Sqlite.occurrenceRow now (uuids i) row :: new, ?_, ?_, ha, ?_⟩
      · exact List.forall_mem_cons.2 ⟨rfl, hq⟩
      · rw [hj]
        simp
      · rw [hm, h1, List.length_cons]
        omega

theorem length_batchRows {now : UtcTime} {uuids : Nat → String} {m : Nat} {t : ℚ} :
    ∀ (requests : List JobCreate) (i : Nat),
      (Sqlite.batchRows deps now uuids m t i requests).length = requests.length
  | [], _ => rfl
  | _ :: requests, i => congrArg (· + 1) (length_batchRows requests (i + 1))

/-- A committed call posts what it returned. -/
theorem Sound.posts (hs : PulseQueue.Sound deps h) {op : Op} (ha : Allowed h op) {r : Reply}
    (hx : op.body deps engine (present h) = .ok (r, s')) :
    Posts (Event.tally (.call op (.ok r))) (present h) s' := by
  have hcomp : ∀ c w n m, op.completes = some (c, w, n) → op.mark = some m → m ≠ .abandoned →
      Posts {} (present h) s' := by
    intro c w n m hop hmark hm
    rcases hs.completion ha hop hx with ⟨rfl, -⟩ | ⟨a, hset, -, -, -, hmark'⟩
    · exact Posts.frame rfl rfl
    · cases hmark.symm.trans hmark'
      exact Posts.settle hs.ok hset hm
  cases op with
  | createJob now id request m t key =>
    have hs' := submits_ok (by simp [Op.submits]) hx
    have hp : Posts { submitted := (Op.submits deps (.createJob now id request m t key)).length }
        (present h) s' :=
      Posts.submit (by simp [Op.submits, submittedRow, Sqlite.batchRow]) (congrArg Store.jobs hs')
        (by rw [hs'])
    exact hp
  | createJobsBatch now uuids requests m t =>
    have hx' : ∃ u, Sqlite.insertJobs (Sqlite.batchRows deps now uuids m t 0 requests) (present h) =
        .ok (u, s') := by
      cases engine <;> obtain ⟨u, hx, -⟩ := reply_ok.1 hx
      · exact ⟨u, hx⟩
      · rw [Postgres.insertJobs_eq, Postgres.batchRows_eq] at hx
        exact ⟨u, hx⟩
    obtain ⟨u, hx'⟩ := hx'
    have hs' := insertJobs_append _ hx'
    have hp := Posts.submit (fun r hr => (Sqlite.batchRows_new requests 0 r hr).status)
      (congrArg Store.jobs hs') (by rw [hs'])
    rw [length_batchRows] at hp
    exact hp
  | createSchedule now id request m t =>
    obtain ⟨row, rfl⟩ := createSchedule_call hx
    exact Posts.frame rfl rfl
  | writeSchedule now id enabled next =>
    cases engine <;> obtain ⟨n, hx', rfl⟩ := reply_ok.1 hx <;> cases hx' <;> exact Posts.frame rfl rfl
  | deleteSchedule id =>
    cases engine <;> obtain ⟨n, hx', rfl⟩ := reply_ok.1 hx <;> cases hx' <;> exact Posts.frame rfl rfl
  | materialize skipped now uuids limit =>
    have hnew : ∃ n, r = .count n ∧ ∃ new : List JobRow, (∀ r ∈ new, r.status = .queued) ∧
        s'.jobs = (present h).jobs ++ new ∧ s'.jobAttempts = (present h).jobAttempts ∧
        n = 0 + new.length := by
      cases engine <;> obtain ⟨n, hx', rfl⟩ := reply_ok.1 hx <;>
        obtain ⟨begun, s₀, hget, hloop⟩ := Tx.bind_eq_ok.1 hx' <;> cases hget
      · exact ⟨n, rfl, materializes_posts (fun n => if n > 0 then 1 else 0) rfl rfl
          insertJobOrIgnore_ok (fun _ _ => rfl) (fun _ _ _ _ => rfl) _ hloop⟩
      · exact ⟨n, rfl, materializes_posts id rfl rfl insertJobOnConflictDoNothing_ok
          (fun _ _ => rfl) (fun _ _ _ _ => rfl) _ hloop⟩
    obtain ⟨n, rfl, new, hq, hj, ha, rfl⟩ := hnew
    rw [Nat.zero_add]
    exact Posts.submit hq hj ha
  | claim skipped now w =>
    obtain ⟨j, rfl, ht⟩ := claim_takes hs.ok hx
    have hp := Posts.claim hs.ok ht
    cases j <;> exact hp
  | markSucceeded now job w n startedAt result => exact hcomp _ _ _ _ rfl rfl (by simp)
  | markFailedAttempt now job w n startedAt error timedOut backoff =>
    exact hcomp _ _ _ _ rfl rfl (by cases timedOut <;> simp)
  | recoverStaleJobs skipped now grace =>
    rw [hs.reaper] at hx
    cases hx
    have hstale : (Op.recovers engine skipped now grace (present h)).Sublist
        ((present h).staleJobs now grace) := by
      cases engine with
      | sqlite => exact .refl _
      | postgres => exact List.filter_sublist
    refine Posts.recover (hstale.trans List.filter_sublist) hs.ok fun r hr => ?_
    exact (of_decide_eq_true (List.mem_filter.1 (hstale.subset hr)).2).1
  | cancelJob now id =>
    cases engine <;> obtain ⟨n, hx', rfl⟩ := reply_ok.1 hx <;> cases hx' <;>
      exact Posts.update false (fun r hr hpr => by simp at hpr; simp [hpr]) rfl rfl
  | drainQueue now =>
    cases engine <;> obtain ⟨n, hx', rfl⟩ := reply_ok.1 hx <;> cases hx' <;>
      exact Posts.update false (fun r hr hpr => by simp at hpr; simp [hpr]) rfl rfl
  | initializeRuntimeConfig | patchRuntimeConfig =>
    obtain ⟨c, rfl⟩ := config_call rfl hx
    exact Posts.frame rfl rfl
  | heartbeatWorker now id active busy =>
    cases engine <;> obtain ⟨_, hx', rfl⟩ := reply_ok.1 hx <;> cases hx' <;> exact Posts.frame rfl rfl

theorem Run.balanced (hr : Run deps engine h) : Balanced (tally h) (present h) := by
  induction hr with
  | nil => constructor <;> rfl
  | @cons h e s' hr hstep ih =>
    have hs := Run.sound hr
    cases e with
    | abort op =>
      cases hstep
      exact ih.post (Posts.frame rfl rfl)
    | reorder =>
      cases hstep with
      | reorder hre => exact ih.post (Posts.reorder hre.jobs hre.jobAttempts)
    | call op out =>
      obtain ⟨ha, ⟨r, hx, rfl⟩ | ⟨err, rfl, hsame⟩⟩ := hstep.call_cases
      · exact ih.post (hs.posts ha hx)
      · subst hsame
        have hnone : Event.tally (.call op (.error err)) = {} := by cases op <;> rfl
        refine ih.post ?_
        rw [hnone]
        exact Posts.frame rfl rfl

theorem sum_statusCount : (JobStatus.all.map (Sqlite.statusCount s)).sum = s.jobs.length := by
  simp only [JobStatus.all, List.map_cons, List.map_nil, List.sum_cons, List.sum_nil, Sqlite.statusCount]
  induction s.jobs with
  | nil => rfl
  | cons r rows ih =>
    simp only [List.countP_cons, List.length_cons]
    cases hst : r.status <;> simp <;> omega

/-- In every run `queue_depth` and the attempt rows agree with what the calls returned: the jobs add up to
those submitted, each claim either has its attempt row or its job still runs, and the cancelled jobs and the
abandoned attempts are those that were reported. -/
theorem queue_depth_balanced (hr : Run deps engine h) (now : UtcTime) (s₂ : Store) :
    let d := engine.queueDepthOf now (present h) s₂
    d.queued + d.running + d.succeeded + d.deadLettered + d.cancelled = (tally h).submitted ∧
      d.running + (present h).jobAttempts.length = (tally h).claimed ∧
      d.succeeded = endedAs (present h) .succeeded ∧
      endedAs (present h) .abandoned = (tally h).recovered ∧
      d.cancelled = (tally h).cancelled := by
  have hb := Run.balanced hr
  have htotal : (engine.queueDepthOf now (present h) s₂).total = (tally h).submitted := by
    rw [queueDepthOf_eq]
    exact sum_statusCount.trans hb.jobs
  have hparts : (engine.queueDepthOf now (present h) s₂).total = _ := queueDepth_total
  have hfailed : (engine.queueDepthOf now (present h) s₂).failed = 0 := by
    rw [queueDepthOf_eq]
    exact hb.failed
  have heq : engine.queueDepthOf now (present h) s₂ = Sqlite.queueDepthOf now (present h) s₂ := by
    rw [queueDepthOf_eq]
  refine ⟨by omega, ?_, ?_, hb.abandoned, ?_⟩
  · rw [heq]
    exact hb.claims
  · rw [heq]
    exact hb.succeeded
  · rw [heq]
    exact hb.cancelled

/-- One job, submitted, claimed and completed. -/
theorem queue_depth_balanced_done :
    let d := Engine.queueDepthOf .sqlite (sampleTime 3) (present sampleDone) (present sampleDone)
    d.queued + d.running + d.succeeded + d.deadLettered + d.cancelled = 1 ∧
      d.running + (present sampleDone).jobAttempts.length = 1 := by
  have hbalanced := queue_depth_balanced sampleDone_run (sampleTime 3) (present sampleDone)
  exact ⟨hbalanced.1, hbalanced.2.1⟩

end

end PulseQueue
