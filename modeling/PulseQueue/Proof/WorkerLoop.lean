import PulseQueue.Spec.Workers

/-!
# What ends a worker thread

Nothing that the maintenance steps do raises (`guarded_upkeep`), whatever their calls answer. One round
of the loop ends with an exception exactly when `claim_next_job` or `mark_failed_attempt` raised in it,
or `str(exc)` (`workerRound_ends`): the claim stands before the `try` of `process_one`, the text of the
exception and the record of the failure in its `except` clauses. So a thread leaves its loop through the
checks exactly when these three never raise (`worker_loop_exit`).
-/

namespace PulseQueue

open Interaction

section
variable {ρ : Type} {tr past : Talk ρ} {slot : Nat} {x : Exchange (Command ρ) Command.Answer}

/-- Nothing fatal so far. -/
def Calm (tr : Talk ρ) : Prop := ∀ x ∈ tr, ¬ Fatal x

/-- A command other than the repository calls of `process_one` and the handler. -/
def Upkeep (_ : Talk ρ) : Command ρ → Prop
  | .jobs _ | .handler _ _ _ => False
  | _ => True

theorem Calm.nil : Calm ([] : Talk ρ) := fun _ hx => absurd hx List.not_mem_nil

theorem calm_append {tr' : Talk ρ} : Calm (tr ++ tr') ↔ Calm tr ∧ Calm tr' := by
  simp only [Calm, List.mem_append, or_imp, forall_and]

theorem calm_snoc : Calm (tr ++ [x]) ↔ Calm tr ∧ ¬ Fatal x := by
  rw [calm_append]
  simp only [Calm, List.mem_singleton, forall_eq]

theorem Calm.snoc (h : Calm tr) (hx : ¬ Fatal x) : Calm (tr ++ [x]) := calm_snoc.2 ⟨h, hx⟩

theorem not_calm_snoc (hx : Fatal x) : ¬ Calm (tr ++ [x]) := fun h => (calm_snoc.1 h).2 hx

theorem leftByCheck_snoc : LeftByCheck slot (tr ++ [x]) ↔ ExitCheck slot x := by
  simp only [LeftByCheck, List.getLast?_concat, Option.some.injEq, exists_eq_left']

/-- The last round decides. -/
theorem leftByCheck_append {tr' : Talk ρ} (hne : tr' ≠ []) :
    LeftByCheck slot (tr ++ tr') ↔ LeftByCheck slot tr' := by
  simp only [LeftByCheck, List.getLast?_append_of_ne_nil tr hne]

theorem Upkeep.not_fatal {c : Command ρ} (hc : Upkeep past c) (y : c.Answer) : ¬ Fatal ⟨c, y⟩ := by
  intro hf
  cases hf with
  | claim w e => exact hc
  | failure => exact hc
  | unprintable hx _ =>
    cases c with
    | jobs q => exact hc
    | handler => exact hc
    | _ => cases hx

/-- Of what the `except` clauses get only the unprintable is fatal. -/
theorem fatal_iff_of_caught {exc : PyExc} (hx : caught x = some exc) : Fatal x ↔ exc.Unprintable := by
  constructor
  · intro hf
    cases hf with
    | claim | failure => cases hx
    | unprintable hx' hexc =>
      cases hx.symm.trans hx'
      exact hexc
  · exact Fatal.unprintable hx

theorem calm_caught {exc : PyExc} (hc : Calm past) (hx : caught x = some exc) :
    Calm (past ++ [x]) ↔ ¬ exc.Unprintable := by
  rw [calm_snoc, fatal_iff_of_caught hx]
  exact and_iff_right hc

/-- A repository call that gets through is not fatal. -/
theorem not_fatal_ok (q : JobCall ρ) (j : Option Job) : ¬ Fatal ⟨.jobs q, .ok j⟩ := by
  intro hf
  cases hf with
  | unprintable hx _ => cases q <;> cases hx

/-- Upkeep stays calm. -/
theorem upkeep_calm {α : Type} {Q : Talk ρ → Except PyExc α → Prop} {p : Code ρ α}
    (h : Meets Upkeep Q past p) (hc : Calm past) :
    Meets (fun _ _ => True) (fun tr r => Calm tr ∧ Q tr r) past p := by
  induction p generalizing past with
  | pure a => exact ⟨hc, h⟩
  | raise e => exact ⟨hc, h⟩
  | call c k ih => exact ⟨trivial, fun y => ih y (h.2 y) (hc.snoc (Upkeep.not_fatal h.1 y))⟩

/-! ## Maintenance -/

/-- Every exception of the body is dropped. -/
theorem guarded_upkeep {step : Maintenance} {interval : ℚ} {body : ℚ → Code ρ Unit}
    (hbody : ∀ now past, Meets Upkeep (fun _ _ => True) past (body now)) :
    Meets Upkeep (fun _ r => ∃ u, r = .ok u) past (guarded step interval body) := by
  apply Meets.call trivial
  intro now
  apply Meets.call trivial
  intro last
  show Meets _ _ _ (ite _ _ _)
  split
  · exact ⟨_, rfl⟩
  · apply Meets.call trivial
    rintro (_ | _)
    · exact ⟨_, rfl⟩
    · have hinner : ∀ past, Meets Upkeep (fun _ (_ : Except PyExc Unit) => True) past (do
          let now ← Code.monotonic
          let last ← Code.lastRun step
          if now - last < interval then pure () else body now) := by
        intro past
        apply Meets.call trivial
        intro now'
        apply Meets.call trivial
        intro last'
        show Meets _ _ _ (ite _ _ _)
        split
        · trivial
        · exact hbody _ _
      -- the exceptions end in the handler, and releasing the lock raises nothing
      have hcaught : ∀ past, Meets Upkeep (fun _ (r : Except PyExc Unit) => ∃ u, r = .ok u) past
          (Prog.tryCatch (do
            let now ← Code.monotonic
            let last ← Code.lastRun step
            if now - last < interval then pure () else body now) fun _ => pure ()) :=
        fun past => Meets.tryCatch (hinner past) (fun _ u _ => ⟨u, rfl⟩) fun _ _ _ => ⟨_, rfl⟩
      refine Meets.tryFinally (hcaught _) fun tr r hr => ?_
      apply Meets.call trivial
      intro u
      exact hr

theorem startThreads_upkeep (n : Nat) (first : Nat) (past : Talk ρ) :
    Meets Upkeep (fun _ _ => True) past (startThreads first n) := by
  induction n generalizing first past with
  | zero => trivial
  | succ n ih =>
    apply Meets.call trivial
    rintro (e | u)
    · trivial
    · exact ih (first + 1) _

theorem reconcile_upkeep (past : Talk ρ) : Meets Upkeep (fun _ _ => True) past reconcile := by
  apply Meets.call trivial
  rintro (_ | _)
  · trivial
  · apply Meets.call trivial
    intro current
    apply Meets.call trivial
    intro config
    exact startThreads_upkeep _ _ _

theorem maybeSyncRuntimeConfig_upkeep (pool : WorkerPool) :
    Meets Upkeep (fun _ r => ∃ u, r = .ok u) past (maybeSyncRuntimeConfig pool) := by
  refine guarded_upkeep fun now past => ?_
  apply Meets.call trivial
  rintro (e | shared)
  · trivial
  · apply Meets.call trivial
    intro (view : RuntimeConfig)
    apply Meets.call trivial
    rintro ⟨⟩
    have hchanged : ∀ past : Talk ρ, Meets Upkeep (fun _ _ => True) past
        (if shared ≠ view then reconcile else pure ()) := by
      intro past
      split
      · exact reconcile_upkeep past
      · trivial
    show Meets _ _ _ ((if shared ≠ view then reconcile else pure ()) >>= _)
    refine Meets.bind (hchanged _) (fun tr u _ => ?_) fun _ _ _ => trivial
    apply Meets.call trivial
    intro activeThreads
    apply Meets.call trivial
    intro busy
    apply Meets.call trivial
    rintro (e | u)
    · trivial
    · exact Meets.call trivial fun _ => trivial

theorem maybeMaterializeSchedules_upkeep (pool : WorkerPool) :
    Meets Upkeep (fun _ r => ∃ u, r = .ok u) past (maybeMaterializeSchedules pool) := by
  refine guarded_upkeep fun now past => ?_
  apply Meets.call trivial
  rintro (e | created)
  · trivial
  · exact Meets.call trivial fun _ => trivial

theorem maybeRecoverStaleJobs_upkeep (pool : WorkerPool) :
    Meets Upkeep (fun _ r => ∃ u, r = .ok u) past (maybeRecoverStaleJobs pool) := by
  refine guarded_upkeep fun now past => ?_
  apply Meets.call trivial
  rintro (e | recovered)
  · trivial
  · exact Meets.call trivial fun _ => trivial

/-! ## One job -/

/-- The `except` clauses record the failure, or `str(exc)` raises. -/
theorem excepted_meets {P : Talk ρ → Command ρ → Prop} {Q : Talk ρ → Except PyExc (Option Job) → Prop}
    {job : Job} {w : String} {n : Nat} {t : UtcTime} {exc : PyExc}
    (hrecord : ∀ error timedOut, Meets P Q past (recordFailure job w n t error timedOut))
    (hraise : ∀ e, Q past (.error e)) : Meets P Q past
      (if exc.isTimeout then recordFailure job w n t "attempt timed out" true
      else do
        let error ← Prog.ofExcept exc.str
        recordFailure job w n t error false) := by
  split
  · exact hrecord _ _
  · exact Meets.ofExcept_bind (fun error _ => hrecord error false) fun e _ => hraise e

/-- Exceptions are fatal answers, and the other way round. -/
def Decided {α : Type} (tr : Talk ρ) : Except PyExc α → Prop
  | .ok _ => Calm tr
  | .error _ => ¬ Calm tr

theorem recordFailure_decided {job : Job} {w : String} {n : Nat} {t : UtcTime} {error : String}
    {timedOut : Bool} (hc : Calm past) :
    Meets (fun _ _ => True) Decided past (recordFailure job w n t error timedOut) := by
  apply Meets.call trivial
  intro config
  apply Meets.call trivial
  have hview : Calm (past ++ [⟨.configView, config⟩]) := hc.snoc nofun
  rintro (e | j)
  · exact not_calm_snoc (.failure ..)
  · exact hview.snoc (not_fatal_ok _ _)

/-- The `try` block is calm unless it raises what cannot be printed. -/
def Tried {α : Type} (tr : Talk ρ) : Except PyExc α → Prop
  | .ok _ => Calm tr
  | .error exc => Calm tr ↔ ¬ exc.Unprintable

theorem attempt_tried {job : Job} {w : String} {n : Nat} {t : UtcTime} (hc : Calm past) :
    Meets (fun _ _ => True) Tried past (do
      let result ← runWithTimeout job n
      Code.jobs (.markSucceeded job w n t result)) := by
  apply Meets.call trivial
  rintro (e | result | e | _)
  · exact calm_caught hc rfl
  · have hreturned : Calm (past ++ [⟨.handler job.payload n job.timeoutSeconds, .ok (.returned result)⟩]) :=
      hc.snoc (by
        intro hf
        cases hf with
        | unprintable hx _ => cases hx)
    apply Meets.call trivial
    rintro (e | j)
    · exact calm_caught hreturned rfl
    · exact hreturned.snoc (not_fatal_ok _ _)
  · exact calm_caught hc rfl
  · exact calm_caught hc rfl

theorem excepted_decided {job : Job} {w : String} {n : Nat} {t : UtcTime} {exc : PyExc}
    (hq : Calm past ↔ ¬ exc.Unprintable) : Meets (fun _ _ => True) Decided past
      (if exc.isTimeout then recordFailure job w n t "attempt timed out" true
      else do
        let error ← Prog.ofExcept exc.str
        recordFailure job w n t error false) := by
  split
  · rename_i htimeout
    exact recordFailure_decided (hq.2 fun hexc => by simp [hexc.1] at htimeout)
  · rename_i htimeout
    have hother : exc.isTimeout = false := Bool.eq_false_iff.2 htimeout
    refine Meets.ofExcept_bind (fun error herror => ?_) fun raised hraised => ?_
    · refine recordFailure_decided (hq.2 fun hexc => ?_)
      obtain ⟨-, raised, hraised⟩ := hexc
      cases herror.symm.trans hraised
    · exact fun hcalm => hq.1 hcalm ⟨hother, raised, hraised⟩

/-- `process_one` raises exactly when its claim, its record of a failure or `str(exc)` raised, and the last
answer is then no check of the loop. -/
theorem processOne_ends {w : String} (hc : Calm past) :
    Meets (fun _ _ => True) (fun tr r => Decided tr r ∧ ¬ LeftByCheck slot tr) past
      (processOne w) := by
  apply Meets.call trivial
  rintro (e | _ | job)
  · exact ⟨not_calm_snoc (.claim ..), mt leftByCheck_snoc.1 (by rintro ⟨⟩)⟩
  · exact ⟨hc.snoc (not_fatal_ok _ _), mt leftByCheck_snoc.1 (by rintro ⟨⟩)⟩
  · have hclaim : Calm (past ++ [⟨.jobs (.claimNextJob w), .ok (some job)⟩]) :=
      hc.snoc (not_fatal_ok _ _)
    apply Meets.call trivial
    intro startedAt
    apply Meets.call trivial
    rintro ⟨⟩
    have hbusy := (hclaim.snoc (x := ⟨.utcnow, startedAt⟩) nofun).snoc (x := ⟨.addBusy 1, ()⟩) nofun
    refine Meets.tryFinally (Q := Decided) (Meets.tryCatch (attempt_tried hbusy)
      (fun _ _ hcalm => hcalm) fun tr exc hq => excepted_decided hq) fun tr r hr => ?_
    · apply Meets.call trivial
      rintro ⟨⟩
      refine ⟨?_, mt leftByCheck_snoc.1 (by rintro ⟨⟩)⟩
      cases r with
      | ok j => exact Calm.snoc hr nofun
      | error e => exact fun hcalm => hr (calm_snoc.1 hcalm).1

/-! ## The loop -/

/-- How a round ends: it leaves the loop by a check, or it goes on, both without fatal answers; or it
raises after one. -/
def RoundEnd (slot : Nat) (tr : Talk ρ) : Except PyExc Bool → Prop
  | .ok true => Calm tr ∧ LeftByCheck slot tr
  | .ok false => Calm tr
  | .error _ => ¬ Calm tr ∧ ¬ LeftByCheck slot tr

theorem workerRound_ends (pool : WorkerPool) (slot : Nat) :
    Meets (fun _ _ => True) (RoundEnd slot) ([] : Talk ρ) (workerRound pool slot) := by
  apply Meets.call trivial
  have hstart : ∀ b : Bool, Calm ([] ++ [⟨.stopIsSet, b⟩] : Talk ρ) := fun b => Calm.nil.snoc nofun
  rintro (_ | _)
  · show Meets _ _ _ (maybeSyncRuntimeConfig pool >>= _)
    refine Meets.bind (upkeep_calm (maybeSyncRuntimeConfig_upkeep pool) (hstart _)) ?_ ?_
    swap
    · rintro tr e ⟨-, u, hu⟩
      cases hu
    rintro tr u ⟨hsync, -⟩
    apply Meets.call trivial
    intro config
    have hview : Calm (tr ++ [⟨.configView, config⟩]) := hsync.snoc nofun
    show Meets _ _ _ (ite _ _ _)
    split
    · rename_i hsurplus
      exact ⟨hview, leftByCheck_snoc.2 (.surplus config hsurplus)⟩
    · refine Meets.bind (upkeep_calm (maybeMaterializeSchedules_upkeep pool) hview) ?_ ?_
      swap
      · rintro tr e ⟨-, u, hu⟩
        cases hu
      rintro tr u ⟨hmaterialize, -⟩
      refine Meets.bind (upkeep_calm (maybeRecoverStaleJobs_upkeep pool) hmaterialize) ?_ ?_
      swap
      · rintro tr e ⟨-, u, hu⟩
        cases hu
      rintro tr u ⟨hrecover, -⟩
      refine Meets.bind (processOne_ends hrecover) ?_ fun _ _ hend => hend
      rintro tr j ⟨hcalm, -⟩
      cases j with
      | none => exact Meets.call trivial fun _ => Calm.snoc hcalm nofun
      | some j => exact hcalm
  · exact ⟨hstart _, leftByCheck_snoc.2 .stop⟩

theorem WorkerLoop.ne_nil {pool : WorkerPool} {result : Except PyExc Unit}
    (h : WorkerLoop pool slot tr result) : tr ≠ [] := by
  have hround : ∀ {tr : Talk ρ} {r : Except PyExc Bool},
      After (workerRound pool slot) tr (Prog.ofExcept r) → tr ≠ [] := by
    rintro _ (e | b) hr rfl <;> cases hr
  induction h with
  | next hr _ ih => exact fun he => ih (List.append_eq_nil_iff.1 he).2
  | leave hr => exact hround (r := .ok true) hr
  | @raised _ exc hr => exact hround (r := .error exc) hr

/-- A thread that ends left its loop through one of the two checks exactly when none of its
`claim_next_job` and `mark_failed_attempt` calls raised, and neither did `str(exc)` in the `except` clause of
`process_one`. -/
theorem worker_loop_exit {pool : WorkerPool} {result : Except PyExc Unit}
    (h : WorkerLoop pool slot tr result) : LeftByCheck slot tr ↔ ∀ x ∈ tr, ¬ Fatal x := by
  show _ ↔ Calm tr
  induction h with
  | next hr hrest ih =>
    have hcalm : Calm _ := (workerRound_ends pool slot).result (r := .ok false) hr
    rw [leftByCheck_append hrest.ne_nil, ih, calm_append]
    exact ⟨fun hc => ⟨hcalm, hc⟩, fun hc => hc.2⟩
  | leave hr =>
    obtain ⟨hcalm, hleft⟩ := (workerRound_ends pool slot).result (r := .ok true) hr
    exact ⟨fun _ => hcalm, fun _ => hleft⟩
  | @raised tr exc hr =>
    obtain ⟨hcalm, hleft⟩ := (workerRound_ends pool slot).result (r := .error exc) hr
    exact ⟨fun hl => absurd hl hleft, fun hc => absurd hc hcalm⟩

/-! ### Two threads -/

def samplePool : WorkerPool := ⟨"i", 1, 15, 5, 1, 1⟩

def sampleConfig : RuntimeConfig where
  defaultMaxRetries := 3
  defaultTimeoutSeconds := .rat 300
  maxTimeoutSeconds := .rat 900
  workerConcurrency := 1
  backoffBaseSeconds := .rat 2
  backoffMaxSeconds := .rat 60
  isValid := by decide +kernel

/-- The step ran a moment ago. -/
def notDue (step : Maintenance) : Talk JsonObject := [⟨.monotonic, (0 : ℚ)⟩, ⟨.lastRun step, (0 : ℚ)⟩]

/-- A round up to the check of the slot, nothing due. -/
def roundStart : Talk JsonObject :=
  ⟨.stopIsSet, false⟩ :: notDue .configSync ++ [⟨.configView, sampleConfig⟩]

theorem notDue_after {step : Maintenance} {interval : ℚ} {body : ℚ → Code JsonObject Unit} {α : Type}
    {f : Unit → Code JsonObject α} {tr : Talk JsonObject} {q : Code JsonObject α}
    (hi : 0 < interval) (h : After (f ()) tr q) :
    After (guarded step interval body >>= f) (notDue step ++ tr) q := by
  apply After.cons
  apply After.cons
  show After (Prog.bind (ite _ _ _) f) tr q
  rw [if_pos (by rwa [sub_zero])]
  exact h

/-- A thread of slot 2 leaves: one worker is enough. -/
theorem worker_loop_exit_surplus : LeftByCheck 2 roundStart ↔ ∀ x ∈ roundStart, ¬ Fatal x :=
  worker_loop_exit (@WorkerLoop.leave _ samplePool 2 _
    (.cons (notDue_after (by decide +kernel) (.cons .nil))))

/-- The thread of slot 1 finds the database locked when it claims a job. -/
def lockedTalk : Talk JsonObject :=
  roundStart ++ notDue .scheduler ++ notDue .reaper ++
    [⟨.jobs (.claimNextJob "i-1"), .error (.plain false "database is locked")⟩]

/-- It ends with the exception, after no check. -/
theorem worker_loop_claim_raises :
    WorkerLoop samplePool 1 lockedTalk (.error (.plain false "database is locked")) ∧
      ¬ LeftByCheck 1 lockedTalk := by
  constructor
  · refine .raised (.cons (notDue_after (by decide +kernel) (.cons ?_)))
    exact notDue_after (by decide +kernel) (notDue_after (by decide +kernel) (.cons .nil))
  · exact mt leftByCheck_snoc.1 (by rintro ⟨⟩)

end

end PulseQueue
