import PulseQueue.Proof.Runs

/-!
# What the tables carry

The retries and the timeout of a job are those of the submission, or of the schedule it was made for:
no transaction puts in other ones (`Sound.carries`). And only the two transactions about the
configuration touch its row.
-/

namespace PulseQueue

open Txn Trace Table

/-- The configuration row is `c`, and every job and schedule has retries and a timeout with `P`. -/
structure Carries (c : Option ConfigRow) (P : Nat → ℚ → Prop) (s : Store) : Prop where
  row : s.runtimeConfig = c
  jobs : ∀ r ∈ s.jobs, P r.maxRetries r.timeoutSeconds
  schedules : ∀ r ∈ s.recurringSchedules, P r.maxRetries r.timeoutSeconds

/-- The retries and the timeout that a transaction brings in. -/
def Op.brings : Op → Option (Nat × ℚ)
  | .createJob _ _ _ m t _ | .createJobsBatch _ _ _ m t | .createSchedule _ _ _ m t => some (m, t)
  | _ => none

section
variable {deps : Deps} {engine : Engine} {c : Option ConfigRow} {P Q : Nat → ℚ → Prop} {s s' : Store}

theorem Carries.mono (h : Carries c P s) (hPQ : ∀ m t, P m t → Q m t) : Carries c Q s :=
  ⟨h.row, fun r hr => hPQ _ _ (h.jobs r hr), fun r hr => hPQ _ _ (h.schedules r hr)⟩

/-- Changes of other tables. -/
theorem Carries.congr (h : Carries c P s) (hc : s'.runtimeConfig = s.runtimeConfig)
    (hj : s'.jobs = s.jobs) (hs : s'.recurringSchedules = s.recurringSchedules) : Carries c P s' :=
  ⟨hc.trans h.row, hj ▸ h.jobs, hs ▸ h.schedules⟩

/-! ## Statements -/

theorem Carries.updateJobs (h : Carries c P s) {p : JobRow → Bool} {f : JobRow → JobRow}
    (hf : ∀ r, (f r).fixed = r.fixed) (hc : s'.runtimeConfig = s.runtimeConfig)
    (hj : s'.jobs = updateWhere p f s.jobs) (hs : s'.recurringSchedules = s.recurringSchedules) :
    Carries c P s' := by
  refine ⟨hc.trans h.row, fun r hr => ?_, hs ▸ h.schedules⟩
  rw [hj] at hr
  obtain ⟨o, ho, rfl⟩ := mem_updateWhere.1 hr
  split
  · rw [JobRow.maxRetries_eq (hf o), show (f o).timeoutSeconds = o.timeoutSeconds from
      congrArg FixedColumns.timeoutSeconds (hf o)]
    exact h.jobs o ho
  · exact h.jobs o ho

/-- Claims, the ends of attempts and cancellations. -/
theorem StoreStep.carries {k : Kind} (hk : k ≠ .submit ∧ k ≠ .reorder) (hstep : StoreStep deps k s s')
    (h : Carries c P s) : Carries c P s' := by
  cases hstep with
  | submit => exact absurd rfl hk.1
  | claim w t _ _ => exact h.updateJobs (claimed_fixed w t) rfl rfl rfl
  | settle startedAt t _ _ _ _ _ => exact h.updateJobs (settled_fixed _ t) rfl rfl rfl
  | cancel p t => exact h.updateJobs (cancelled_fixed t) rfl rfl rfl
  | side => exact absurd rfl hk.2
  | reorder => exact absurd rfl hk.2

theorem Steps.carries {k : Kind} (hk : k ≠ .submit ∧ k ≠ .reorder)
    (hst : Steps deps (· = k) s s') (h : Carries c P s) : Carries c P s' := by
  induction hst with
  | refl => exact h
  | tail _ hstep ih =>
    obtain ⟨k', rfl, hstep⟩ := hstep
    exact hstep.carries hk ih

theorem Carries.append (h : Carries c P s) {r : JobRow} (hr : P r.maxRetries r.timeoutSeconds) :
    Carries c P { s with jobs := s.jobs ++ [r] } := by
  refine ⟨h.row, fun o ho => ?_, h.schedules⟩
  rcases List.mem_append.1 ho with ho | ho
  · exact h.jobs o ho
  · rw [List.mem_singleton.1 ho]
    exact hr

theorem Carries.insertJob (h : Carries c P s) {r : JobRow} {u : Unit}
    (hr : P r.maxRetries r.timeoutSeconds) (hx : insertJob r s = .ok (u, s')) : Carries c P s' := by
  obtain ⟨-, rfl⟩ := insertJob_ok hx
  exact h.append hr

theorem Carries.insertJobs (rows : List JobRow) {u : Unit} (h : Carries c P s)
    (hr : ∀ r ∈ rows, P r.maxRetries r.timeoutSeconds) (hx : Sqlite.insertJobs rows s = .ok (u, s')) :
    Carries c P s' :=
  Sqlite.insertJobs_keeps (R := fun s s' => Carries c P s → Carries c P s') (fun _ h => h)
    (fun h h' hc => h' (h hc)) rows (fun row hrow _ _ _ hx hc => hc.insertJob (hr row hrow) hx)
    s u s' hx h

theorem Carries.insertSchedule (h : Carries c P s) {r : ScheduleRow} {u : Unit}
    (hr : P r.maxRetries r.timeoutSeconds) (hx : insertSchedule r s = .ok (u, s')) :
    Carries c P s' := by
  unfold PulseQueue.insertSchedule at hx
  split at hx
  · cases hx
  · cases hx
    refine ⟨h.row, h.jobs, fun o ho => ?_⟩
    rcases List.mem_append.1 ho with ho | ho
    · exact h.schedules o ho
    · rw [List.mem_singleton.1 ho]
      exact hr

theorem Carries.updateSchedule (h : Carries c P s) {id : String} {f : ScheduleRow → ScheduleRow}
    {n : Nat} (hx : updateSchedule id f s = .ok (n, s')) (hm : ∀ r, (f r).maxRetries = r.maxRetries)
    (ht : ∀ r, (f r).timeoutSeconds = r.timeoutSeconds) : Carries c P s' := by
  cases hx
  refine ⟨h.row, h.jobs, fun r hr => ?_⟩
  obtain ⟨o, ho, rfl⟩ := mem_updateWhere.1 hr
  split
  · rw [hm, ht]
    exact h.schedules o ho
  · exact h.schedules o ho

/-! ## Passes over the schedules -/

theorem Materializes.carries {now : UtcTime} {uuids : Nat → String} {i : Nat}
    {rows : List ScheduleRow} (hm : Materializes now uuids i rows s s') (h : Carries c P s)
    (hr : ∀ r ∈ rows, P r.maxRetries r.timeoutSeconds) : Carries c P s' := by
  induction hm with
  | nil => exact h
  | @cons i n row rows s s₁ s₂ s' next hins hupd _ ih =>
    obtain ⟨hrow, hrest⟩ := List.forall_mem_cons.1 hr
    have h1 : Carries c P s₁ := by
      rcases hins with rfl | ⟨-, rfl⟩
      · exact h
      · exact h.append hrow
    exact ih (h1.updateSchedule hupd (fun _ => rfl) (fun _ => rfl)) hrest

theorem materialize_carries (h : Carries c P s) {skipped : String → Bool} {now : UtcTime}
    {uuids : Nat → String} {limit : Nat} {r : Reply}
    (hx : (Op.materialize skipped now uuids limit).body deps engine s = .ok (r, s')) :
    Carries c P s' := by
  cases engine <;> obtain ⟨_, hx, -⟩ := reply_ok.1 hx <;>
    obtain ⟨begun, s₀, hget, hx⟩ := Tx.bind_eq_ok.1 hx <;> cases hget
  · exact (Sqlite.materializeRows_ok _ hx).carries h
      fun r hr => h.schedules r (Sqlite.mem_dueSchedules hr)
  · exact (Postgres.materializeRows_ok _ hx).carries h
      fun r hr => h.schedules r (Postgres.mem_dueSchedules hr)

/-! ## Submissions -/

theorem batchRows_carried {now : UtcTime} {uuids : Nat → String} {m : Nat} {t : ℚ} (hP : P m t)
    (requests : List JobCreate) (i : Nat) :
    ∀ r ∈ Sqlite.batchRows deps now uuids m t i requests, P r.maxRetries r.timeoutSeconds := by
  intro r hr
  obtain ⟨request, k, rfl⟩ := Sqlite.mem_batchRows hr
  exact hP

end

section
variable {deps : Deps} {engine : Engine} {c : Option ConfigRow} {P : Nat → ℚ → Prop}
  {h : History Event Store} {s' : Store}

/-- Every transaction but the two about the configuration leaves the row, and puts in no retries and no
timeout other than those it brings. -/
theorem Sound.carries (hs : Sound deps h) {op : Op} (ha : Allowed h op) (hop : op.onConfig = false)
    (hP : ∀ m t, op.brings = some (m, t) → P m t) (hc : Carries c P (present h)) {r : Reply}
    (hx : op.body deps engine (present h) = .ok (r, s')) : Carries c P s' := by
  have hst := hs.call ha hx
  cases op with
  | initializeRuntimeConfig | patchRuntimeConfig => cases hop
  | claim | markSucceeded | markFailedAttempt | recoverStaleJobs | cancelJob | drainQueue =>
    exact Steps.carries (by simp) hst hc
  | createJob now id request m t key =>
    cases engine <;> obtain ⟨_, hx, -⟩ := reply_ok.1 hx <;> exact hc.insertJob (hP m t rfl) hx
  | createJobsBatch now uuids requests m t =>
    cases engine <;> obtain ⟨_, hx, -⟩ := reply_ok.1 hx
    · exact Carries.insertJobs _ hc (batchRows_carried (hP m t rfl) _ _) hx
    · rw [Postgres.insertJobs_eq, Postgres.batchRows_eq] at hx
      exact Carries.insertJobs _ hc (batchRows_carried (hP m t rfl) _ _) hx
  | createSchedule now id request m t =>
    cases engine <;> obtain ⟨_, hx, -⟩ := reply_ok.1 hx <;>
      obtain ⟨next, s₀, hnext, hx⟩ := Tx.bind_eq_ok.1 hx <;>
      obtain ⟨-, rfl⟩ := Tx.ofExcept_eq_ok.1 hnext <;>
      exact hc.insertSchedule (hP m t rfl) hx
  | writeSchedule now id enabled next =>
    cases engine <;> obtain ⟨_, hx, -⟩ := reply_ok.1 hx <;>
      exact hc.updateSchedule hx (fun _ => rfl) (fun _ => rfl)
  | deleteSchedule id =>
    cases engine <;> obtain ⟨_, hx, -⟩ := reply_ok.1 hx <;> cases hx <;>
      exact ⟨hc.row, hc.jobs, fun o ho => hc.schedules o (List.mem_filter.1 ho).1⟩
  | materialize skipped now uuids limit => exact materialize_carries hc hx
  | heartbeatWorker now id active busy =>
    cases engine <;> obtain ⟨_, hx, -⟩ := reply_ok.1 hx <;> cases hx <;> exact hc.congr rfl rfl rfl

/-- The same for the events of a run. -/
theorem Sound.carries_event (hs : Sound deps h) {e : Event} (hstep : RunStep deps engine h e s')
    (hop : ∀ op out, e = .call op out → op.onConfig = false)
    (hP : ∀ op out m t, e = .call op out → op.brings = some (m, t) → P m t)
    (hc : Carries c P (present h)) : Carries c P s' := by
  cases e with
  | abort op =>
    cases hstep
    exact hc
  | reorder =>
    cases hstep with
    | reorder hr =>
      exact ⟨hr.runtimeConfig ▸ hc.row, fun r hm => hc.jobs r (hr.jobs.mem_iff.2 hm),
        fun r hm => hc.schedules r (hr.recurringSchedules.mem_iff.2 hm)⟩
  | call op out =>
    obtain ⟨ha, ⟨r, hx, -⟩ | ⟨err, -, rfl⟩⟩ := hstep.call_cases
    · exact hs.carries ha (hop op out rfl) (hP op out · · rfl) hc hx
    · exact hc

end

end PulseQueue
