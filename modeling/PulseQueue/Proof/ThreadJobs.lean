import PulseQueue.Proof.Maintenance
import PulseQueue.Proof.Runs

/-!
# The jobs of the worker threads

`_busy_workers` is the number of threads that have a job (`busy_workers_count`): what a thread adds before
the `try` of `process_one` it takes back however that ends. Once the stop event is set, only threads that
have looked at it before still claim a job, and each of them one at most (`claims_after_stop`).
-/

namespace PulseQueue

open Interaction Trace Shared

section
variable {ρ : Type} {pool : WorkerPool} {past : Talk ρ} {start : ℚ}
  {h : History (ThreadEvent ρ) (ThreadsState ρ)}

/-! ## The commands of the maintenance steps -/

/-- The commands of the three steps. -/
def Command.upkeep : Command ρ → Prop
  | .jobs _ | .handler _ _ _ | .utcnow | .stopIsSet | .wait _ | .addBusy _ => False
  | _ => True

theorem Command.reconciles.upkeep {c : Command ρ} (hc : c.reconciles) : c.upkeep := by
  cases c <;> trivial

theorem guarded_asks {step : Maintenance} {interval : ℚ} {body : ℚ → Code ρ Unit}
    (hbody : ∀ now past, Meets (fun _ c => c.upkeep) (fun _ _ => True) past (body now)) :
    Meets (fun _ c => c.upkeep) (fun _ _ => True) past (guarded step interval body) := by
  apply Meets.call trivial
  intro t
  apply Meets.call trivial
  intro last
  show Meets _ _ _ (ite _ _ _)
  split
  · trivial
  · apply Meets.call trivial
    rintro (_ | _)
    · trivial
    · refine Meets.tryFinally (Q := fun _ _ => True)
        (Meets.tryCatch (Q := fun _ _ => True) ?_ (fun _ _ _ => trivial) fun _ _ _ => trivial)
        fun _ _ _ => Meets.call trivial fun _ => trivial
      apply Meets.call trivial
      intro now
      apply Meets.call trivial
      intro last
      show Meets _ _ _ (ite _ _ _)
      split
      · trivial
      · exact hbody _ _

theorem maybeSyncRuntimeConfig_asks (pool : WorkerPool) :
    Meets (fun _ c => c.upkeep) (fun _ _ => True) past (maybeSyncRuntimeConfig pool) := by
  refine guarded_asks fun now past => ?_
  apply Meets.call trivial
  rintro (e | shared)
  · trivial
  · apply Meets.call trivial
    intro (view : RuntimeConfig)
    apply Meets.call trivial
    rintro ⟨⟩
    show Meets _ _ _ ((if shared ≠ view then reconcile else pure ()) >>= _)
    refine Meets.bind (Q := fun _ _ => True) ?_ (fun tr u _ => ?_) fun _ _ _ => trivial
    · split
      · exact (reconcile_commands _).mono_commands fun _ _ hc => hc.upkeep
      · trivial
    · apply Meets.call trivial
      intro active
      apply Meets.call trivial
      intro busy
      apply Meets.call trivial
      rintro (e | u)
      · trivial
      · exact Meets.call trivial fun _ => trivial

theorem maybeMaterializeSchedules_asks (pool : WorkerPool) :
    Meets (fun _ c => c.upkeep) (fun _ _ => True) past (maybeMaterializeSchedules pool) := by
  refine guarded_asks fun now past => ?_
  apply Meets.call trivial
  rintro (e | created)
  · trivial
  · exact Meets.call trivial fun _ => trivial

theorem maybeRecoverStaleJobs_asks (pool : WorkerPool) :
    Meets (fun _ c => c.upkeep) (fun _ _ => True) past (maybeRecoverStaleJobs pool) := by
  refine guarded_asks fun now past => ?_
  apply Meets.call trivial
  rintro (e | recovered)
  · trivial
  · exact Meets.call trivial fun _ => trivial

/-! ## Busy threads -/

/-- What the exchange adds to `_busy_workers`. -/
def busyGain : Exchange (Command ρ) Command.Answer → ℤ
  | ⟨.addBusy n, _⟩ => n
  | _ => 0

theorem holdsJob_snoc (past : Talk ρ) (x : Exchange (Command ρ) Command.Answer) :
    holdsJob (past ++ [x]) = holdCheck (holdsJob past) x := by
  simp [holdsJob]

/-- The exchange neither counts nor takes nor gives back a job. -/
structure Uncounted (x : Exchange (Command ρ) Command.Answer) : Prop where
  gain : busyGain x = 0
  hold : ∀ b, holdCheck b x = b

theorem Command.upkeep.quiet {c : Command ρ} (hc : c.upkeep) (x : c.Answer) : Uncounted ⟨c, x⟩ := by
  cases c with
  | jobs | handler | utcnow | stopIsSet | wait | addBusy => exact absurd hc id
  | _ => exact ⟨rfl, fun _ => rfl⟩

/-- The thread has added `n` to `_busy_workers`, and holds a job or not. -/
structure Stands (n : ℤ) (b : Bool) (past : Talk ρ) : Prop where
  balance : balance busyGain past = n
  hold : holdsJob past = b

theorem Stands.snoc {n : ℤ} {b : Bool} {x : Exchange (Command ρ) Command.Answer} (h : Stands n b past)
    (hx : Uncounted x) : Stands n b (past ++ [x]) where
  balance := by rw [balance_snoc, h.balance, hx.gain, add_zero]
  hold := by rw [holdsJob_snoc, h.hold, hx.hold]

/-- When a command is issued: the thread has no job, or is about to count it, or works on it. -/
inductive Counted (past : Talk ρ) (c : Command ρ) : Prop
  | away : ¬ c.works → Stands 0 false past → Counted past c
  | entering : ¬ c.works → ¬ c.rests → c.enters = true → Stands 0 true past → Counted past c
  | working : ¬ c.rests → c.enters = false → Stands 1 true past → Counted past c

/-- Maintenance adds nothing. -/
theorem upkeep_counted {α : Type} {p : Code ρ α} (hb : Stands 0 false past)
    (h : Meets (fun _ c => c.upkeep) (fun _ _ => True) past p) :
    Meets Counted (fun tr _ => Stands 0 false tr) past p := by
  induction p generalizing past with
  | pure a => exact hb
  | raise e => exact hb
  | call c k ih =>
    obtain ⟨hc, hk⟩ := h
    refine ⟨.away (fun hw => ?_) hb, fun x => ih x (hb.snoc (hc.quiet x)) (hk x)⟩
    cases c <;> first | exact hc | exact hw

theorem recordFailure_counted {job : Job} {w : String} {n : Nat} {t : UtcTime} {error : String}
    {timedOut : Bool} (hb : Stands 1 true past) :
    Meets Counted (fun tr _ => Stands 1 true tr) past
      (recordFailure job w n t error timedOut) := by
  apply Meets.call (.working id rfl hb)
  intro config
  have hview : Stands 1 true (past ++ [⟨.configView, config⟩]) := hb.snoc ⟨rfl, fun _ => rfl⟩
  apply Meets.call (.working id rfl hview)
  intro r
  exact Meets.ofExcept (hview.snoc ⟨rfl, fun _ => rfl⟩)

/-- The `finally` clause takes back what was added before the `try`. -/
theorem processOne_counted (w : String) (hb : Stands 0 false past) :
    Meets Counted (fun tr _ => Stands 0 false tr) past (processOne w) := by
  apply Meets.call (.away id hb)
  rintro (e | _ | job)
  · exact hb.snoc ⟨rfl, fun _ => rfl⟩
  · exact hb.snoc ⟨rfl, fun _ => rfl⟩
  · have hclaim : Stands 0 true (past ++ [⟨.jobs (.claimNextJob w), .ok (some job)⟩]) := by
      refine ⟨?_, ?_⟩
      · rw [balance_snoc, hb.balance]
        rfl
      · rw [holdsJob_snoc]
        rfl
    apply Meets.call (.entering id id rfl hclaim)
    intro (t : UtcTime)
    have hclock : Stands 0 true (past ++ [⟨.jobs (.claimNextJob w), .ok (some job)⟩] ++
        [⟨.utcnow, t⟩]) := hclaim.snoc ⟨rfl, fun _ => rfl⟩
    apply Meets.call (.entering id id rfl hclock)
    rintro ⟨⟩
    have hadded : Stands 1 true (past ++ [⟨.jobs (.claimNextJob w), .ok (some job)⟩] ++
        [⟨.utcnow, t⟩] ++ [⟨.addBusy 1, ()⟩]) := by
      refine ⟨?_, ?_⟩
      · rw [balance_snoc, hclock.balance]
        rfl
      · rw [holdsJob_snoc, hclock.hold]
        rfl
    refine Meets.tryFinally (Q := fun tr _ => Stands 1 true tr)
      (Meets.tryCatch (Q := fun tr _ => Stands 1 true tr) ?_ (fun _ _ hq => hq)
        fun tr exc hq => excepted_meets (fun _ _ => recordFailure_counted hq) fun _ => hq) fun tr r hq => ?_
    · apply Meets.call (.working id rfl hadded)
      intro o
      have hhandled : Stands 1 true (past ++ [⟨.jobs (.claimNextJob w), .ok (some job)⟩] ++
          [⟨.utcnow, t⟩] ++ [⟨.addBusy 1, ()⟩] ++
          [⟨.handler job.payload (job.attemptCount + 1) job.timeoutSeconds, o⟩]) :=
        hadded.snoc ⟨rfl, fun _ => rfl⟩
      rcases o with e | result | exc | _
      · exact hhandled
      · apply Meets.call (.working id rfl hhandled)
        intro r
        exact Meets.ofExcept (hhandled.snoc ⟨rfl, fun _ => rfl⟩)
      · exact hhandled
      · exact hhandled
    · apply Meets.call (.working id rfl hq)
      intro u
      show Stands 0 false (tr ++ [⟨.addBusy (-1), u⟩])
      refine ⟨?_, ?_⟩
      · rw [balance_snoc, hq.balance]
        rfl
      · rw [holdsJob_snoc]
        rfl

theorem workerRound_counted (pool : WorkerPool) (slot : Nat) (hb : Stands 0 false past) :
    Meets Counted (fun (tr : Talk ρ) _ => Stands 0 false tr) past (workerRound pool slot) := by
  have hstop : ∀ b : Bool, Stands 0 false (past ++ [⟨.stopIsSet, b⟩]) :=
    fun b => hb.snoc ⟨rfl, fun _ => rfl⟩
  apply Meets.call (.away id hb)
  rintro (_ | _)
  · show Meets _ _ _ (maybeSyncRuntimeConfig pool >>= _)
    refine Meets.bind (upkeep_counted (hstop _) (maybeSyncRuntimeConfig_asks pool))
      (fun tr u hsync => ?_) fun _ _ hq => hq
    apply Meets.call (.away id hsync)
    intro (config : RuntimeConfig)
    have hview : Stands 0 false (tr ++ [⟨.configView, config⟩]) := hsync.snoc ⟨rfl, fun _ => rfl⟩
    show Meets _ _ _ (ite _ _ _)
    split
    · exact hview
    · refine Meets.bind (upkeep_counted hview (maybeMaterializeSchedules_asks pool))
        (fun tr u hmaterialize => ?_) fun _ _ hq => hq
      refine Meets.bind (upkeep_counted hmaterialize (maybeRecoverStaleJobs_asks pool))
        (fun tr u hrecover => ?_) fun _ _ hq => hq
      refine Meets.bind (processOne_counted _ hrecover) (fun tr j hprocessed => ?_) fun _ _ hq => hq
      cases j with
      | none =>
        apply Meets.call (.away id hprocessed)
        intro u
        exact Stands.snoc (x := ⟨.wait pool.pollIntervalSeconds, u⟩) hprocessed ⟨rfl, fun _ => rfl⟩
      | some j => exact hprocessed
  · exact hstop true

theorem workerThreads_counted (pool : WorkerPool) :
    Discipline (workerThreads ρ pool) Counted (fun tr _ => Stands 0 false tr) (Stands 0 false) where
  start := ⟨balance_nil, rfl⟩
  body := fun slot _ hb => workerRound_counted pool slot hb
  again := fun _ _ hb _ => hb

/-- What a thread has added to `_busy_workers`. -/
theorem balance_eq {t : WorkerThread ρ} (h : Meets Counted (fun tr _ => Stands 0 false tr) t.past t.rest) :
    balance busyGain t.past = if countsBusy t then 1 else 0 := by
  cases hrest : t.rest with
  | call c k =>
    rw [hrest] at h
    cases h.1 with
    | away _ hs => simp [countsBusy, hrest, hs.balance, hs.hold]
    | entering _ _ hc hs => simp [countsBusy, hrest, hs.balance, hs.hold, hc]
    | working _ hc hs => simp [countsBusy, hrest, hs.balance, hs.hold, hc]
  | pure a =>
    rw [hrest] at h
    have hs : Stands 0 false t.past := h
    simp [countsBusy, hs.balance, hs.hold]
  | raise e =>
    rw [hrest] at h
    have hs : Stands 0 false t.past := h
    simp [countsBusy, hs.balance, hs.hold]

/-- `_busy_workers` counts the threads that hold a job and have got past its `+= 1`: among them every thread
that waits for its handler or for the record of an attempt, and none that rests or has ended. -/
structure BusyCount (s : ThreadsState ρ) : Prop where
  count : s.memory.busy = s.threads.countP countsBusy
  working : ∀ t ∈ s.threads, Awaits (fun c => c.works) t → countsBusy t = true
  resting : ∀ t ∈ s.threads, Awaits (fun c => c.rests) t ∨ Ended t → countsBusy t = false

theorem busy_workers_count (hr : ThreadsRun pool start h) : BusyCount (threadsNow start h) := by
  have hmeets := Run.meets (workerThreads_counted pool) hr
  refine ⟨?_, fun t ht hw => ?_, fun t ht hw => ?_⟩
  · have htotal := Run.total (δ := busyGain) (μ := PoolMemory.busy) ?_ ?_ hr
    · rw [htotal, total_eq_countP (p := countsBusy)]
      · exact zero_add _
      · exact fun t ht => balance_eq (hmeets t ht)
    · intro c m x m' ha
      cases c with
      | addBusy n =>
        cases ha
        rfl
      | monotonic | lastRun | acquire | stopIsSet | busyWorkers =>
        obtain ⟨-, rfl⟩ := ha
        exact (add_zero _).symm
      | _ =>
        cases ha
        exact (add_zero _).symm
    · rintro m m' ⟨b, rfl⟩
      rfl
  · obtain ⟨c, k, hrest, hc⟩ := hw
    have hm := hmeets t ht
    rw [hrest] at hm
    cases hm.1 with
    | away hno _ => exact absurd hc hno
    | entering hno _ _ _ => exact absurd hc hno
    | working _ henters hs => simp [countsBusy, hrest, hs.hold, henters]
  · have hm := hmeets t ht
    rcases hw with ⟨c, k, hrest, hc⟩ | hrest | ⟨exc, hrest⟩
    · rw [hrest] at hm
      cases hm.1 with
      | away _ hs => simp [countsBusy, hs.hold]
      | entering _ hno _ _ => exact absurd hc hno
      | working hno _ _ => exact absurd hc hno
    · rw [hrest] at hm
      have hs : Stands 0 false t.past := hm
      simp [countsBusy, hs.hold]
    · rw [hrest] at hm
      have hs : Stands 0 false t.past := hm
      simp [countsBusy, hs.hold]

/-! ## Claims after a stop -/

theorem check_snoc (past : Talk ρ) (x : Exchange (Command ρ) Command.Answer) :
    claimState (past ++ [x]) = claimCheck (claimState past) x := by
  simp [claimState]

/-- Every claim is allowed by a look at the stop event. -/
def Checked (past : Talk ρ) (c : Command ρ) : Prop :=
  ∀ w, c = .jobs (.claimNextJob w) → claimState past = true

/-- Maintenance claims nothing. -/
theorem upkeep_checked {α : Type} {p : Code ρ α} (hb : claimState past = true)
    (h : Meets (fun _ c => c.upkeep) (fun _ _ => True) past p) :
    Meets Checked (fun tr _ => claimState tr = true) past p := by
  induction p generalizing past with
  | pure a => exact hb
  | raise e => exact hb
  | call c k ih =>
    obtain ⟨hc, hk⟩ := h
    refine ⟨?_, fun x => ih x ?_ (hk x)⟩
    · rintro w rfl
      exact absurd hc id
    · rw [check_snoc, hb]
      cases c <;> first | rfl | exact absurd hc id

/-- `process_one` claims once, at its beginning. -/
theorem processOne_checked (w : String) (hb : claimState past = true) :
    Meets Checked (fun _ _ => True) past (processOne w) := by
  have hfailure : ∀ {job : Job} {n : Nat} {t : UtcTime} {error : String} {timedOut : Bool}
      (past : Talk ρ), Meets Checked (fun _ _ => True) past
        (recordFailure job w n t error timedOut) :=
    fun _ => Meets.call nofun fun _ => Meets.call nofun fun _ => Meets.ofExcept trivial
  apply Meets.call fun _ _ => hb
  rintro (e | _ | job)
  · trivial
  · trivial
  · apply Meets.call nofun
    intro t
    apply Meets.call nofun
    intro u
    refine Meets.tryFinally (Q := fun _ _ => True)
      (Meets.tryCatch (Q := fun _ _ => True) ?_ (fun _ _ _ => trivial) fun tr exc _ =>
        excepted_meets (fun _ _ => hfailure tr) fun _ => trivial)
      fun _ _ _ => Meets.call nofun fun _ => trivial
    apply Meets.call nofun
    rintro (e | result | exc | _)
    · trivial
    · exact Meets.call nofun fun _ => Meets.ofExcept trivial
    · trivial
    · trivial

theorem workerRound_checked (pool : WorkerPool) (slot : Nat) (past : Talk ρ) :
    Meets Checked (fun _ _ => True) past (workerRound pool slot) := by
  apply Meets.call nofun
  rintro (_ | _)
  · have hstop : claimState (past ++ [⟨.stopIsSet, false⟩]) = true := by
      rw [check_snoc]
      exact Bool.or_true _
    show Meets _ _ _ (maybeSyncRuntimeConfig pool >>= _)
    refine Meets.bind (upkeep_checked hstop (maybeSyncRuntimeConfig_asks pool))
      (fun tr u hsync => ?_) fun _ _ _ => trivial
    apply Meets.call nofun
    intro (config : RuntimeConfig)
    have hview : claimState (tr ++ [⟨.configView, config⟩]) = true := by
      rw [check_snoc, hsync]
      rfl
    show Meets _ _ _ (ite _ _ _)
    split
    · trivial
    · refine Meets.bind (upkeep_checked hview (maybeMaterializeSchedules_asks pool))
        (fun tr u hmaterialize => ?_) fun _ _ _ => trivial
      refine Meets.bind (upkeep_checked hmaterialize (maybeRecoverStaleJobs_asks pool))
        (fun tr u hrecover => ?_) fun _ _ _ => trivial
      refine Meets.bind (processOne_checked _ hrecover) (fun tr j _ => ?_) fun _ _ _ => trivial
      cases j with
      | none => exact Meets.call nofun fun _ => trivial
      | some j => trivial
  · trivial

theorem workerThreads_checked (pool : WorkerPool) :
    Discipline (workerThreads ρ pool) Checked (fun _ _ => True) fun _ => True where
  start := trivial
  body := fun slot past _ => workerRound_checked pool slot past
  again := fun _ _ _ _ => trivial

/-- While the event is set, an exchange that claims uses up what allowed it, and nothing allows another
claim. -/
theorem claim_exchange {m m' : PoolMemory} {c : Command ρ} {x : c.Answer} (hcheck : Checked past c)
    (hstop : m.stopSet = true) (ha : m.Answers c x m') :
    (if claims (.act ⟨c, x⟩ : ThreadEvent ρ) then 1 else 0) +
        (if claimState (past ++ [⟨c, x⟩]) then 1 else 0) ≤ if claimState past then 1 else 0 := by
  rw [check_snoc]
  cases c with
  | stopIsSet =>
    have hx : x = true := ha.1.trans hstop
    subst hx
    simp [claims, claimCheck]
  | jobs q =>
    cases q with
    | claimNextJob w => simp [claims, claimCheck, hcheck w rfl]
    | markSucceeded | markFailedAttempt => exact (Nat.zero_add _).le
  | _ => exact (Nat.zero_add _).le

theorem claim_step {s s' : ThreadsState ρ} {e : ThreadEvent ρ}
    (hs : Step (workerThreads ρ pool) s e s')
    (hm : ∀ t ∈ s.threads, Meets Checked (fun _ _ => True) t.past t.rest)
    (hstop : s.memory.stopSet = true) :
    (if claims e then 1 else 0) + s'.threads.countP mayClaim ≤ s.threads.countP mayClaim := by
  cases hs with
  | spawn i => simp [claims, mayClaim, claimState]
  | change _ => simp [claims]
  | again _ =>
    simp only [List.countP_append, List.countP_cons]
    exact (Nat.zero_add _).le
  | @act m m' l r i past c k x ha =>
    have hcall := (hm ⟨i, past, .call c k⟩ (by simp)).1
    have hcheck : _ + (if mayClaim ⟨i, past ++ [⟨c, x⟩], k x⟩ then 1 else 0) ≤
        (if mayClaim ⟨i, past, .call c k⟩ then 1 else 0) := claim_exchange hcall hstop ha
    simp only [List.countP_append, List.countP_cons]
    omega

/-- The claims of a thread, and the one that it may still make. -/
def claimPotential (past : Talk ρ) : ℕ := claimCount past + if claimState past then 1 else 0

theorem claimPotential_step {s s' : ThreadsState ρ} {e : ThreadEvent ρ}
    (hs : Step (workerThreads ρ pool) s e s')
    (hm : ∀ t ∈ s.threads, Meets Checked (fun _ _ => True) t.past t.rest)
    (hstop : s.memory.stopSet = true) (j : ℕ) :
    potential claimPotential s'.threads j ≤ potential claimPotential s.threads j := by
  refine hs.potential_le rfl (fun t ht c k hrest x m' ha => ?_) j
  have hmeets := hm t ht
  rw [hrest] at hmeets
  have hexchange := claim_exchange hmeets.1 hstop ha
  simp only [claimPotential, claimCount, List.countP_append, List.countP_singleton]
  omega

/-- Of the threads that were there with the event set, and of later ones. -/
theorem claims_of_potential {ts ts' : List (WorkerThread ρ)}
    (h : ∀ j, potential claimPotential ts' j ≤ potential claimPotential ts j) {j : ℕ} {t' : WorkerThread ρ}
    (ht' : ts'[j]? = some t') :
    (∀ t : WorkerThread ρ, ts[j]? = some t →
        claimCount t'.past ≤ claimCount t.past + if mayClaim t then 1 else 0) ∧
      (ts[j]? = none → claimCount t'.past = 0) := by
  have hj := h j
  simp only [potential, ht', Option.map_some, Option.getD_some, claimPotential] at hj
  constructor
  · intro t ht
    simp only [ht, Option.map_some, Option.getD_some] at hj
    show _ ≤ claimCount t.past + if claimState t.past then 1 else 0
    omega
  · intro hnone
    simp only [hnone, Option.map_none, Option.getD_none] at hj
    omega

/-- Once the stop event is set for good, no more jobs are claimed than threads have looked at it before and
not claimed since; each of these threads claims one at most, the other threads none, and a thread that is
started later none. -/
theorem claims_after_stop {post pre : History (ThreadEvent ρ) (ThreadsState ρ)}
    (hr : ThreadsRun pool start (post ++ pre)) (hpre : (threadsNow start pre).memory.stopSet = true)
    (hpost : ∀ e ∈ post, e.after.memory.stopSet = true) :
    post.countP (fun e => claims e.event) + (threadsNow start (post ++ pre)).threads.countP mayClaim ≤
        (threadsNow start pre).threads.countP mayClaim ∧
      ∀ j : ℕ, ∀ t' : WorkerThread ρ, (threadsNow start (post ++ pre)).threads[j]? = some t' →
        (∀ t : WorkerThread ρ, (threadsNow start pre).threads[j]? = some t →
          claimCount t'.past ≤ claimCount t.past + if mayClaim t then 1 else 0) ∧
        ((threadsNow start pre).threads[j]? = none → claimCount t'.past = 0) := by
  suffices h : post.countP (fun e => claims e.event) +
      (threadsNow start (post ++ pre)).threads.countP mayClaim ≤
        (threadsNow start pre).threads.countP mayClaim ∧
      ∀ j, potential claimPotential (threadsNow start (post ++ pre)).threads j ≤
        potential claimPotential (threadsNow start pre).threads j from
    ⟨h.1, fun j t' ht' => claims_of_potential h.2 ht'⟩
  induction post with
  | nil => exact ⟨by simp, fun j => le_rfl⟩
  | cons e post ih =>
    have hr' := hr.tail
    obtain ⟨hcount, hpot⟩ := ih hr' fun e he => hpost e (List.mem_cons_of_mem _ he)
    have hset : (threadsNow start (post ++ pre)).memory.stopSet = true := by
      cases post with
      | nil => exact hpre
      | cons e' post => exact hpost e' (by simp)
    have hmeets := Run.meets (workerThreads_checked pool) hr'
    rw [List.countP_cons, List.cons_append, threadsNow, now_cons]
    constructor
    · have hstep : _ + e.after.threads.countP mayClaim ≤
          (threadsNow start (post ++ pre)).threads.countP mayClaim := claim_step hr.head hmeets hset
      omega
    · exact fun j => (claimPotential_step hr.head hmeets hset j).trans (hpot j)

/-! ### A thread and its job -/

/-- The thread of slot 1, with no maintenance due. -/
def calmRound : Talk JsonObject := roundStart ++ notDue .scheduler ++ notDue .reaper

/-- It claims a job and counts as busy. -/
def claimTalk : Talk JsonObject :=
  [⟨.jobs (.claimNextJob "i-1"), .ok (some sampleJob)⟩, ⟨.utcnow, sampleTime 1⟩, ⟨.addBusy 1, ()⟩]

theorem calmRound_after : ∃ k, After (workerRound samplePool 1) calmRound
    (.call (.jobs (.claimNextJob "i-1")) k) ∧ ∃ k', After (.call (.jobs (.claimNextJob "i-1")) k) claimTalk
      (.call (.handler sampleJob.payload (sampleJob.attemptCount + 1) sampleJob.timeoutSeconds) k') := by
  apply Exists.intro
  constructor
  · exact .cons (notDue_after (by decide +kernel) (.cons (notDue_after (by decide +kernel)
      (notDue_after (by decide +kernel) .nil))))
  · apply Exists.intro
    exact .cons (.cons (.cons .nil))

theorem notDue_plays {step : Maintenance} {tr : Talk JsonObject} {m : PoolMemory}
    (h : Plays (workerThreads JsonObject samplePool) (.new 0) tr m) :
    Plays (workerThreads JsonObject samplePool) (.new 0) (notDue step ++ tr) m :=
  .cons ⟨le_rfl, rfl⟩ (.cons ⟨rfl, rfl⟩ h)

theorem calmRound_plays :
    Plays (workerThreads JsonObject samplePool) (.new 0) calmRound (.new 0) :=
  .cons ⟨rfl, rfl⟩ (notDue_plays (.cons rfl (notDue_plays (notDue_plays (.nil _)))))

theorem claimTalk_plays :
    Plays (workerThreads JsonObject samplePool) (.new 0) claimTalk
      ⟨0, fun _ => 0, fun _ => false, 1, false⟩ :=
  .cons rfl (.cons rfl (.cons rfl (.nil _)))

def oneThreadEarly : History (ThreadEvent JsonObject) (ThreadsState JsonObject) :=
  [⟨.spawn 1, ⟨.new 0, [⟨1, [], workerRound samplePool 1⟩]⟩⟩]

/-- The handler works on the job. -/
theorem busy_workers_count_one : ∃ h : History (ThreadEvent JsonObject) (ThreadsState JsonObject),
    ThreadsRun samplePool 0 h ∧ (threadsNow 0 h).memory.busy = 1 ∧ BusyCount (threadsNow 0 h) := by
  obtain ⟨k, hafter, k', hafter'⟩ := calmRound_after
  obtain ⟨post, hrun, hend, -⟩ :=
    Run.play hafter (h := oneThreadEarly) (Valid.cons .nil (.spawn 1)) rfl calmRound_plays
  obtain ⟨post', hrun', hend', -⟩ := Run.play hafter' hrun hend claimTalk_plays
  refine ⟨_, hrun', ?_, busy_workers_count hrun'⟩
  rw [threadsNow, hend']

/-- The event is set after the thread has looked at it, and the thread still claims its job. -/
theorem claims_after_stop_one : ∃ post pre : History (ThreadEvent JsonObject) (ThreadsState JsonObject),
    ThreadsRun samplePool 0 (post ++ pre) ∧ (threadsNow 0 pre).memory.stopSet = true ∧
      post.countP (fun e => claims e.event) = 1 ∧
      post.countP (fun e => claims e.event) + (threadsNow 0 (post ++ pre)).threads.countP mayClaim ≤
        (threadsNow 0 pre).threads.countP mayClaim ∧
      ∀ j : ℕ, ∀ t' t : WorkerThread JsonObject, (threadsNow 0 (post ++ pre)).threads[j]? = some t' →
        (threadsNow 0 pre).threads[j]? = some t → claimCount t'.past ≤ claimCount t.past + 1 := by
  obtain ⟨k, hafter, -⟩ := calmRound_after
  obtain ⟨past, hrun, hend, -⟩ :=
    Run.play hafter (h := oneThreadEarly) (Valid.cons .nil (.spawn 1)) rfl calmRound_plays
  let m : PoolMemory := { PoolMemory.new 0 with stopSet := true }
  let call : Command JsonObject := .jobs (.claimNextJob "i-1")
  have hstop : Step (workerThreads JsonObject samplePool) (threadsNow 0 (past ++ oneThreadEarly)) .change
      ⟨m, [⟨1, [] ++ calmRound, .call call k⟩]⟩ := by
    rw [threadsNow, hend]
    exact .change ⟨true, rfl⟩
  have hclaim : Step (workerThreads JsonObject samplePool) ⟨m, [⟨1, [] ++ calmRound, .call call k⟩]⟩
      (.act ⟨call, .ok none⟩) ⟨m, [⟨1, [] ++ calmRound ++ [⟨call, .ok none⟩], k (.ok none)⟩]⟩ :=
    Step.act (l := []) (r := []) rfl
  have hrun' : ThreadsRun samplePool 0 ([⟨.act ⟨call, .ok none⟩, _⟩] ++ ⟨.change, _⟩ ::
      (past ++ oneThreadEarly)) := Valid.cons (Valid.cons hrun hstop) hclaim
  have hclaims := claims_after_stop hrun' rfl (by
    intro e he
    rw [List.mem_singleton.1 he])
  refine ⟨_, _, hrun', rfl, rfl, hclaims.1, fun j t' t ht' ht => ?_⟩
  refine ((hclaims.2 j t' ht').1 t ht).trans (Nat.add_le_add_left ?_ _)
  split <;> simp

end

end PulseQueue
