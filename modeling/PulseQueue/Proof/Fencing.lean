import PulseQueue.Proof.Invariants

/-!
# Lease exclusivity and fencing

After a claim `c` by `w` the job is either held under this claim in every state since
(`HeldSince`), or the attempt is spent: its number is taken (`Spent`). A completion on behalf of a spent
claim meets the unique index of the attempt rows or no row at all, and changes nothing
(`completion_fenced`). While the job stays running it is held, so no claim returns it
(`lease_exclusive`).
-/

namespace PulseQueue

open Txn Trace Table

/-- The job runs under the claim `c` by `w`. -/
def Held (s : Store) (w : String) (c : Job) : Prop :=
  ∃ r, s.job? c.id = some r ∧ r.status = .running ∧ r.lockedBy = some w ∧
    r.attemptCount = c.attemptCount

/-- The attempt of the claim `c` has ended. -/
def Spent (s : Store) (c : Job) : Prop := ∃ r, s.job? c.id = some r ∧ c.attemptCount < r.attemptCount

def Running (s : Store) (id : String) : Prop := ∃ r, s.job? id = some r ∧ r.status = .running

/-- The event is a claim that returned the job `id`. -/
def Event.Claims (e : Event) (id : String) : Prop := ∃ w c, e.claimed = some (w, c) ∧ c.id = id

/-- In every state since, the job runs under the claim `c` by `w`, and no other claim returned it. -/
def HeldSince (mid : History Event Store) (w : String) (c : Job) : Prop :=
  ∀ e ∈ mid, Held e.after w c ∧ ¬ e.event.Claims c.id

section
variable {deps : Deps} {engine : Engine} {s s' : Store} {w : String} {c : Job}

/-- Steps that are no claims leave the job held, or end the attempt and the run. -/
theorem Held.quiet (hok : s.Ok deps) (h : Held s w c) (hst : Steps deps Quiet s s') :
    Held s' w c ∨ Spent s' c ∧ ¬ Running s' c.id := by
  have hv := hst.keeps (P := fun v => ∃ r, v.job = some r ∧
    (r.status = .running ∧ r.lockedBy = some w ∧ r.attemptCount = c.attemptCount ∨
      c.attemptCount < r.attemptCount ∧ r.status ≠ .running)) ?_ hok c.id ?_
  · obtain ⟨r, hr, ⟨hrun, hw, hcnt⟩ | ⟨hlt, hrun⟩⟩ := hv
    · exact .inl ⟨r, hr, hrun, hw, hcnt⟩
    · refine .inr ⟨⟨r, hr, hlt⟩, ?_⟩
      rintro ⟨r', hr', hrun'⟩
      rw [show s'.job? c.id = some r from hr] at hr'
      cases hr'
      exact hrun hrun'
  · rintro k ⟨j, as, ds⟩ v' hq ⟨r, hr, hcase⟩ hstep
    cases hr
    cases hstep with
    | claim w' t hqueued => exact absurd rfl (hq w')
    | settle startedAt t hrun hw' ho =>
      rename_i o
      have hle : c.attemptCount ≤ r.attemptCount := by
        rcases hcase with ⟨-, -, hcnt⟩ | ⟨hlt, -⟩ <;> omega
      refine ⟨_, rfl, .inr ⟨by rw [settled_count]; omega, ?_⟩⟩
      cases o with
      | success result => simp [JobRow.settled]
      | failure m e runAt p =>
        simp only [JobRow.settled]
        split <;> simp
    | cancel t hqueued =>
      refine ⟨_, rfl, .inr ?_⟩
      rcases hcase with ⟨hrun, -⟩ | ⟨hlt, -⟩
      · rw [hqueued] at hrun
        cases hrun
      · exact ⟨hlt, by simp [JobRow.cancelled]⟩
    | reorder _ _ => exact ⟨r, rfl, hcase⟩
  · obtain ⟨r, hr, hrun, hw, hcnt⟩ := h
    exact ⟨r, hr, .inl ⟨hrun, hw, hcnt⟩⟩

/-- A claim takes another job while this one runs. -/
theorem Held.claims (h : Held s w c) (hok : s.Ok deps) {w' : String} {j : Option Job}
    (hc : Claims deps w' s j s') : Held s' w c ∧ ∀ c' ∈ j, c'.id ≠ c.id := by
  obtain ⟨r, hr, hrun, hw, hcnt⟩ := h
  cases hc with
  | idle => exact ⟨⟨r, hr, hrun, hw, hcnt⟩, by simp⟩
  | @took o t ho hq =>
    have hne : c.id ≠ o.id := by
      intro he
      rw [he, hok.job?_mem ho] at hr
      cases hr
      rw [hq] at hrun
      cases hrun
    refine ⟨⟨r, ?_, hrun, hw, hcnt⟩, ?_⟩
    · rw [job?_update s o.id (·.claimed w' t) (fun _ => rfl), if_neg hne]
      exact hr
    · intro c' hc'
      cases hc'
      exact hne.symm

theorem Spent.later (hok : s.Ok deps) {L : Kind → Prop} (hst : Steps deps L s s')
    (h : Spent s c) : Spent s' c := by
  obtain ⟨r, hr, hlt⟩ := h
  obtain ⟨r', hr', hl⟩ := hst.later hok hr
  exact ⟨r', hr', Nat.lt_of_lt_of_le hlt hl.count⟩

/-- The claim itself. -/
theorem claimed_held {h : History Event Store} {e : Event} (hs : Sound deps h)
    (hstep : RunStep deps engine h e s') (hc : e.claimed = some (w, c)) : Held s' w c := by
  obtain ⟨-, ⟨-, hn⟩ | ⟨w', j, hcl, hj⟩⟩ := hs.entry hstep
  · rw [hn] at hc
    cases hc
  · rw [hj] at hc
    cases hcl with
    | idle => cases hc
    | @took r t hr hq =>
      cases hc
      refine ⟨r.claimed w t, ?_, rfl, rfl, rfl⟩
      rw [job?_update (present h) r.id (·.claimed w t) (fun _ => rfl)]
      simp [jobFromRow, JobRow.claimed, hs.ok.job?_mem hr]

/-- Since its claim the job is held, or the attempt is spent and the job stopped running. -/
theorem held_or_spent {e₀ : Entry Event Store} {pre : History Event Store}
    (hc : e₀.event.claimed = some (w, c)) : ∀ {mid : History Event Store},
    Run deps engine (mid ++ e₀ :: pre) →
      HeldSince mid w c ∧ Held (present (mid ++ e₀ :: pre)) w c ∨
        Spent (present (mid ++ e₀ :: pre)) c ∧ ∃ e ∈ mid, ¬ Running e.after c.id
  | [], hr => by
    have hheld := claimed_held (Run.sound (Valid.tail hr)) (Valid.head hr) hc
    exact .inl ⟨fun e he => absurd he List.not_mem_nil, hheld⟩
  | e :: mid, hr => by
    have hr' : Run deps engine (mid ++ e₀ :: pre) := Valid.tail hr
    have hs := Run.sound hr'
    obtain ⟨⟨L, hst⟩, hcase⟩ := hs.entry (Valid.head hr)
    rcases held_or_spent hc hr' with ⟨hsince, hheld⟩ | ⟨hspent, x, hx, hstop⟩
    · have hnext : (Held e.after w c ∧ ¬ e.event.Claims c.id) ∨
          Spent e.after c ∧ ¬ Running e.after c.id := by
        rcases hcase with ⟨hq, hn⟩ | ⟨w', j, hcl, hj⟩
        · refine (hheld.quiet hs.ok hq).imp_left fun hh => ⟨hh, ?_⟩
          rintro ⟨w', c', hc', -⟩
          rw [hn] at hc'
          cases hc'
        · obtain ⟨hh, hne⟩ := hheld.claims hs.ok hcl
          refine .inl ⟨hh, ?_⟩
          rintro ⟨w'', c', hc', hid⟩
          rw [hj, Option.map_eq_some_iff] at hc'
          obtain ⟨c'', hc'', he⟩ := hc'
          cases he
          exact hne c' hc'' hid
      rcases hnext with hh | ⟨hspent, hstop⟩
      · refine .inl ⟨fun x hx => ?_, hh.1⟩
        rcases List.mem_cons.1 hx with rfl | hx
        · exact hh
        · exact hsince x hx
      · exact .inr ⟨hspent, e, List.mem_cons_self .., hstop⟩
    · exact .inr ⟨hspent.later hs.ok hst, x, List.mem_cons_of_mem _ hx, hstop⟩

/-- No claim returns a job that is held. -/
theorem Held.not_claimed {h : History Event Store} {e : Event} (hheld : Held (present h) w c)
    (hs : Sound deps h) (hstep : RunStep deps engine h e s') : ¬ e.Claims c.id := by
  rintro ⟨w', c', hc', hid⟩
  obtain ⟨-, ⟨-, hn⟩ | ⟨w'', j, hcl, hj⟩⟩ := hs.entry hstep
  · rw [hn] at hc'
    cases hc'
  · rw [hj, Option.map_eq_some_iff] at hc'
    obtain ⟨c'', hc'', he⟩ := hc'
    cases he
    exact (hheld.claims hs.ok hcl).2 c' hc'' hid

/-- While the job runs, no other claim returns it. -/
theorem lease_exclusive {e e₀ : Entry Event Store} {mid pre : History Event Store}
    (hr : Run deps engine (e :: mid ++ e₀ :: pre)) (hc : e₀.event.claimed = some (w, c))
    (hrun : ∀ x ∈ mid, Running x.after c.id) : ¬ e.event.Claims c.id := by
  have hr' : Run deps engine (mid ++ e₀ :: pre) := Valid.tail hr
  rcases held_or_spent hc hr' with ⟨-, hheld⟩ | ⟨-, x, hx, hstop⟩
  · exact hheld.not_claimed (Run.sound hr') (Valid.head hr)
  · exact absurd (hrun x hx) hstop

/-- A completion that changed the store settled an attempt that was still held. -/
theorem completion_fenced {op : Op} {out : Except Err Reply} {e₀ : Entry Event Store}
    {mid pre : History Event Store}
    (hr : Run deps engine (⟨.call op out, s'⟩ :: mid ++ e₀ :: pre))
    (hc : e₀.event.claimed = some (w, c)) {n : Nat} (hop : op.completes = some (c, w, n))
    (hne : s' ≠ present (mid ++ e₀ :: pre)) : HeldSince mid w c := by
  have hr' : Run deps engine (mid ++ e₀ :: pre) := Valid.tail hr
  have hs := Run.sound hr'
  have hset : ∃ r, (present (mid ++ e₀ :: pre)).job? c.id = some r ∧
      r.attemptCount = c.attemptCount := by
    obtain ⟨ha, ⟨rep, hx, -⟩ | ⟨err, -, hs'⟩⟩ := RunStep.call_cases (Valid.head hr)
    · rcases hs.completion ha hop hx with ⟨hs', -⟩ | ⟨a, hset, hj, -, hno, -⟩
      · exact absurd hs' hne
      · obtain ⟨r, hrow, hid, -, -, hno'⟩ := hset.row
        refine ⟨r, ?_, by omega⟩
        rw [← hj, ← hid]
        exact hs.ok.job?_mem hrow
    · exact absurd hs' hne
  rcases held_or_spent hc hr' with ⟨hsince, -⟩ | ⟨⟨r', hr'', hlt⟩, -⟩
  · exact hsince
  · obtain ⟨r, hrow, hcnt⟩ := hset
    rw [hrow] at hr''
    cases hr''
    omega

/-- From a claim `c` by `w` on: no other claim returns the job while it runs, and a completion on
behalf of `c` leaves the store as it is unless the job has been running under `c` ever since. -/
theorem lease_fencing {e e₀ : Entry Event Store} {mid pre : History Event Store}
    (hr : Run deps engine (e :: mid ++ e₀ :: pre)) (hc : e₀.event.claimed = some (w, c)) :
    ((∀ x ∈ mid, Running x.after c.id) → ¬ e.event.Claims c.id) ∧
      ∀ op out n, e.event = .call op out → op.completes = some (c, w, n) → ¬ HeldSince mid w c →
        e.after = present (mid ++ e₀ :: pre) := by
  refine ⟨lease_exclusive hr hc, fun op out n he hop hsince => ?_⟩
  obtain ⟨ev, s'⟩ := e
  cases he
  by_contra hne
  exact hsince (completion_fenced hr hc hop hne)

/-- The same completion, a second time. -/
theorem lease_fencing_late :
    present (afterCall sampleDeps .sqlite sampleDone sampleSuccess) = present sampleDone := by
  have hrun : Run sampleDeps .sqlite
      (⟨.call sampleSuccess _, present (afterCall sampleDeps .sqlite sampleDone sampleSuccess)⟩ ::
        [⟨.call sampleSuccess _, present sampleDone⟩] ++ sampleClaimed) :=
    Run.afterCall sampleDone_run (sampleSuccess_allowed
      ⟨_, List.mem_cons_of_mem _ (List.mem_cons_self ..), rfl⟩)
  refine (lease_fencing (w := "w") (c := sampleJob) hrun rfl).2 sampleSuccess _ 1 rfl rfl
    fun hsince => ?_
  obtain ⟨⟨r, hr, hrunning, -⟩, -⟩ := hsince _ (List.mem_cons_self ..)
  have hdone : (present sampleDone).job? sampleJob.id = some sampleDoneRow := rfl
  cases hdone.symm.trans hr
  cases hrunning

end

end PulseQueue
