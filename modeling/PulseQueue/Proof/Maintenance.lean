import PulseQueue.Proof.WorkerLoop
import PulseQueue.Spec.Threads

/-!
# Maintenance in one process

Whatever the threads of a pool are answered, one of them at a time does a maintenance step
(`maintenance_exclusive`), no thread ends with a lock in its hands, and the successful passes of a step are
at least its interval apart (`maintenance_spaced`). A thread takes the lock, looks at the last run again,
and only then works and writes (`guarded_careful`); so what it knows of the last run is still true when it
writes.
-/

namespace PulseQueue

open Interaction Trace Shared

section
variable {ρ : Type} {pool : WorkerPool} {step : Maintenance} {past : Talk ρ} {α : Type}

/-! ## The locks -/

/-- What the exchange means for the lock of the step. -/
def useOf (step : Maintenance) : Exchange (Command ρ) Command.Answer → Use ℚ
  | ⟨.acquire s, true⟩ => if s = step then .acquired else .other
  | ⟨.release s, _⟩ => if s = step then .released else .other
  | ⟨.lastRun s, t⟩ => if s = step then .read t else .other
  | ⟨.setLastRun s t, _⟩ => if s = step then .wrote t else .other
  | _ => .other

theorem useOf_moves (step : Maintenance) (c : Command ρ) (m : PoolMemory) (x : c.Answer)
    (m' : PoolMemory) (h : PoolMemory.Answers c m x m') :
    (useOf step ⟨c, x⟩).Moves (m.locked step, m.lastRun step) (m'.locked step, m'.lastRun step) := by
  cases c with
  | acquire s =>
    obtain ⟨hb, rfl⟩ := h
    cases hl : m.locked s with
    | true =>
      have hx : x = false := by rw [hb, hl]; rfl
      subst hx
      by_cases hs : s = step
      · subst hs
        simpa [useOf, hl] using Use.Moves.other true (m.lastRun s)
      · simpa [useOf, Function.update_of_ne (Ne.symm hs)] using Use.Moves.other _ _
    | false =>
      have hx : x = true := by rw [hb, hl]; rfl
      subst hx
      by_cases hs : s = step
      · subst hs
        simpa [useOf, hl] using Use.Moves.acquired (m.lastRun s)
      · simpa [useOf, hs, Function.update_of_ne (Ne.symm hs)] using Use.Moves.other _ _
  | release s =>
    cases h
    by_cases hs : s = step
    · subst hs
      simpa [useOf] using Use.Moves.released _ _
    · simpa [useOf, hs, Function.update_of_ne (Ne.symm hs)] using Use.Moves.other _ _
  | lastRun s =>
    obtain ⟨rfl, rfl⟩ := h
    by_cases hs : s = step
    · subst hs
      simpa [useOf] using Use.Moves.read _ _
    · simpa [useOf, hs] using Use.Moves.other _ _
  | setLastRun s t =>
    cases h
    by_cases hs : s = step
    · subst hs
      simpa [useOf] using Use.Moves.wrote _ _ t
    · simpa [useOf, hs, Function.update_of_ne (Ne.symm hs)] using Use.Moves.other _ _
  | monotonic =>
    obtain ⟨-, rfl⟩ := h
    exact .other _ _
  | stopIsSet | busyWorkers =>
    obtain ⟨-, rfl⟩ := h
    exact .other _ _
  | _ =>
    cases h
    exact .other _ _

theorem useOf_unchanged (step : Maintenance) (m m' : PoolMemory) (h : m.Changes m') :
    (m'.locked step, m'.lastRun step) = (m.locked step, m.lastRun step) := by
  obtain ⟨b, rfl⟩ := h
  rfl

/-- The lock of a step, with its last run. -/
def maintenanceLock (ρ : Type) (pool : WorkerPool) (step : Maintenance) : Lock (workerThreads ρ pool) ℚ where
  cell m := (m.locked step, m.lastRun step)
  use := useOf step
  moves := useOf_moves step
  unchanged := useOf_unchanged step

/-- Where a thread is with respect to the lock of the step. -/
def placeAt (step : Maintenance) (past : Talk ρ) : Place ℚ := place (useOf step) past

theorem placeAt_snoc (past : Talk ρ) (x : Exchange (Command ρ) Command.Answer) :
    placeAt step (past ++ [x]) = (placeAt step past).after (useOf step x) := place_snoc _ past x

/-- The thread has the lock of the step: it has acquired it and not released it since. -/
def Holds (step : Maintenance) (past : Talk ρ) : Prop := (placeAt step past).isInside = true

/-- Counts the successful passes of the step that are not recorded. -/
def passDelta (step : Maintenance) : Exchange (Command ρ) Command.Answer → ℤ
  | ⟨.heartbeatWorker _ _ _, .ok _⟩ => if step = .configSync then 1 else 0
  | ⟨.materializeDueSchedules, .ok _⟩ => if step = .scheduler then 1 else 0
  | ⟨.recoverStaleJobs _, .ok _⟩ => if step = .reaper then 1 else 0
  | ⟨.setLastRun s _, _⟩ => if step = s then -1 else 0
  | _ => 0

/-! ## Where a thread is -/

/-- The thread has nothing to do with the step. -/
structure Away (step : Maintenance) (past : Talk ρ) : Prop where
  out : placeAt step past = .out
  none : balance (passDelta step) past = 0

/-- The thread is about no step. -/
def Idle (past : Talk ρ) : Prop := ∀ step, Away step past

/-- The thread is about this step only, and has `n` passes to record. -/
structure About (step : Maintenance) (n : ℤ) (past : Talk ρ) : Prop where
  holds : Holds step past
  passes : balance (passDelta step) past = n
  others : ∀ s, s ≠ step → Away s past

/-- About no step, or about one with a pass to record or none. -/
def Steady (past : Talk ρ) : Prop := Idle past ∨ ∃ step n, About step n past ∧ 0 ≤ n ∧ n ≤ 1

section
variable {x : Exchange (Command ρ) Command.Answer} {n : ℤ}

theorem Idle.nil : Idle ([] : Talk ρ) := fun _ => ⟨rfl, rfl⟩

theorem Away.snoc (h : Away step past) (hu : Place.out.after (useOf step x) = .out)
    (hd : passDelta step x = 0) : Away step (past ++ [x]) := by
  refine ⟨?_, ?_⟩
  · rw [placeAt_snoc, h.out]
    exact hu
  · rw [balance_snoc, h.none, hd, add_zero]

theorem About.snoc (h : About step n past)
    (hu : ((placeAt step past).after (useOf step x)).isInside = true)
    (hx : ∀ s, s ≠ step → useOf s x = .other ∧ passDelta s x = 0) :
    About step (n + passDelta step x) (past ++ [x]) := by
  refine ⟨?_, ?_, fun s hs => (h.others s hs).snoc ?_ (hx s hs).2⟩
  · rw [Holds, placeAt_snoc]
    exact hu
  · rw [balance_snoc, h.passes]
  · rw [(hx s hs).1]
    rfl

/-- An exchange that the lock and the count do not see. -/
theorem About.other (h : About step n past)
    (hx : ∀ s, useOf s x = .other ∧ passDelta s x = 0) : About step n (past ++ [x]) := by
  have hnext := h.snoc (x := x) (by rw [(hx step).1, Place.after_other]; exact h.holds)
    fun s _ => hx s
  rwa [(hx step).2, add_zero] at hnext

theorem Idle.other (h : Idle past) (hx : ∀ s, useOf s x = .other ∧ passDelta s x = 0) :
    Idle (past ++ [x]) :=
  fun s => (h s).snoc (by rw [(hx s).1]; rfl) (hx s).2

theorem About.steady (h : About step 0 past) : Steady past := .inr ⟨step, 0, h, by decide, by decide⟩

end

/-! ## What a thread does with the locks -/

structure Careful (pool : WorkerPool) (past : Talk ρ) (c : Command ρ) : Prop where
  upkeep : ∀ step, c.maintains = some step → Holds step past
  release : ∀ step, c = .release step → Holds step past
  /-- The time was read from the clock, and then the last run was found to be old enough. -/
  write : ∀ step t, c = .setLastRun step t → (⟨.monotonic, t⟩ : Exchange _ Command.Answer) ∈ past ∧
    ∃ last, placeAt step past = .inside (some last) ∧ last + pool.interval step ≤ t
  steady : Steady past

/-- A command that has nothing to do with maintenance. -/
def Command.foreign : Command ρ → Prop
  | .monotonic | .lastRun _ | .setLastRun _ _ | .acquire _ | .release _ | .getRuntimeConfig
  | .heartbeatWorker _ _ _ | .materializeDueSchedules | .recoverStaleJobs _ => False
  | _ => True

theorem Command.foreign.other {c : Command ρ} (hc : c.foreign) (x : c.Answer) (s : Maintenance) :
    useOf s ⟨c, x⟩ = .other ∧ passDelta s ⟨c, x⟩ = 0 := by
  cases c <;> first | exact ⟨rfl, rfl⟩ | exact absurd hc id

/-- A command that releases and writes nothing, and calls no repository for maintenance. -/
def Command.harmless : Command ρ → Prop
  | .release _ | .setLastRun _ _ => False
  | c => c.maintains = none

theorem Careful.plain {c : Command ρ} (hc : c.harmless) (hs : Steady past) : Careful pool past c := by
  refine ⟨fun s hsome => ?_, fun s he => ?_, fun s t he => ?_, hs⟩
  · cases c with
    | release | setLastRun => exact absurd hc id
    | _ =>
      rw [show Command.maintains _ = none from hc] at hsome
      cases hsome
  · subst he
    exact absurd hc id
  · subst he
    exact absurd hc id

theorem Careful.foreign {c : Command ρ} (hc : c.foreign) (hs : Steady past) : Careful pool past c := by
  refine .plain ?_ hs
  cases c <;> first | rfl | exact absurd hc id

/-- A program without maintenance keeps what no foreign exchange changes. -/
theorem foreign_careful {K : Talk ρ → Prop} {p : Code ρ α} (hK : ∀ tr, K tr → Steady tr)
    (hsnoc : ∀ tr (c : Command ρ) (x : c.Answer), K tr → c.foreign → K (tr ++ [⟨c, x⟩])) (hp : K past)
    (h : Meets (fun _ c => c.foreign) (fun _ _ => True) past p) :
    Meets (Careful pool) (fun tr _ => K tr) past p := by
  induction p generalizing past with
  | pure a => exact hp
  | raise e => exact hp
  | call c k ih => exact ⟨.foreign h.1 (hK _ hp), fun x => ih x (hsnoc _ _ x hp h.1) (h.2 x)⟩

theorem Idle.careful {p : Code ρ α} (hp : Idle past)
    (h : Meets (fun _ c => c.foreign) (fun _ _ => True) past p) :
    Meets (Careful pool) (fun tr _ => Idle tr) past p :=
  foreign_careful (fun _ hi => .inl hi) (fun _ _ x hi hc => hi.other (hc.other x)) hp h

/-- Holding the lock, the thread has found the step due at `now`; it has `n` passes to record. -/
structure Due (pool : WorkerPool) (step : Maintenance) (now : ℚ) (n : ℤ) (past : Talk ρ) : Prop where
  about : About step n past
  clock : (⟨.monotonic, now⟩ : Exchange _ Command.Answer) ∈ past
  seen : ∃ last, placeAt step past = .inside (some last) ∧ last + pool.interval step ≤ now

section
variable {x : Exchange (Command ρ) Command.Answer} {now : ℚ} {n : ℤ}

/-- The thread calls the repository, or does something else. -/
theorem Due.snoc (h : Due pool step now n past) (hu : ∀ s, useOf s x = .other)
    (hd : ∀ s, s ≠ step → passDelta s x = 0) :
    Due pool step now (n + passDelta step x) (past ++ [x]) := by
  obtain ⟨last, hlast, hdue⟩ := h.seen
  refine ⟨h.about.snoc ?_ fun s hs => ⟨hu s, hd s hs⟩, List.mem_append_left _ h.clock, last, ?_, hdue⟩
  · rw [hu step, Place.after_other]
    exact h.about.holds
  · rw [placeAt_snoc, hu step, Place.after_other]
    exact hlast

theorem Due.other (h : Due pool step now n past) (hu : ∀ s, useOf s x = .other)
    (hd : ∀ s, passDelta s x = 0) : Due pool step now n (past ++ [x]) := by
  have hnext := h.snoc hu fun s _ => hd s
  rwa [hd step, add_zero] at hnext

theorem Due.careful {p : Code ρ α} (hp : Due pool step now 0 past)
    (h : Meets (fun _ c => c.foreign) (fun _ _ => True) past p) :
    Meets (Careful pool) (fun tr _ => Due pool step now 0 tr) past p :=
  foreign_careful (fun _ hi => hi.about.steady)
    (fun _ _ x hi hc => hi.other (fun s => (hc.other x s).1) fun s => (hc.other x s).2) hp h

/-- Its repository calls are inside the lock. -/
theorem Due.call {c : Command ρ} (h : Due pool step now 0 past) (hm : c.maintains = some step) :
    Careful pool past c := by
  refine ⟨fun s hs => ?_, ?_, ?_, h.about.steady⟩
  · rw [hm, Option.some.injEq] at hs
    subst hs
    exact h.about.holds
  · rintro s rfl
    cases hm
  · rintro s t rfl
    cases hm

/-- The pass is recorded. -/
theorem Due.record (h : Due pool step now 1 past) :
    Meets (Careful pool) (fun tr _ => About step 0 tr) past (Code.setLastRun step now) := by
  obtain ⟨last, hlast, hdue⟩ := h.seen
  have hcall : Careful pool past (.setLastRun step now) := by
    refine ⟨nofun, nofun, ?_, .inr ⟨step, 1, h.about, by decide, by decide⟩⟩
    rintro s t ⟨⟩
    exact ⟨h.clock, last, hlast, hdue⟩
  apply Meets.call hcall
  intro u
  have hnext := h.about.snoc (x := ⟨.setLastRun step now, u⟩) ?_ fun s hs => ⟨?_, ?_⟩
  · have hzero : (1 : ℤ) + passDelta step ⟨.setLastRun step now, u⟩ = 0 := by simp [passDelta]
    rwa [hzero] at hnext
  · rw [hlast]
    simp [useOf, Place.after, Place.isInside]
  · simp [useOf, Ne.symm hs]
  · simp [passDelta, hs]

end

/-- The second look at the last run is the one that counts: the lock is held by then. -/
theorem guarded_careful {body : ℚ → Code ρ Unit}
    (hbody : ∀ now past, Due pool step now 0 past →
      Meets (Careful pool) (fun tr _ => About step 0 tr) past (body now)) (h : Idle past) :
    Meets (Careful pool) (fun tr _ => Idle tr) past (guarded step (pool.interval step) body) := by
  have hmonotonic : ∀ {past : Talk ρ} (t : ℚ), Idle past → Idle (past ++ [⟨.monotonic, t⟩]) :=
    fun _ hi => hi.other fun _ => ⟨rfl, rfl⟩
  -- a look at the last run from outside teaches nothing
  have hlook : ∀ {past : Talk ρ} (t : ℚ), Idle past → Idle (past ++ [⟨.lastRun step, t⟩]) := by
    intro past t hi s
    refine (hi s).snoc ?_ rfl
    by_cases hs : step = s <;> simp [useOf, hs, Place.after]
  apply Meets.call (.plain rfl (.inl h))
  intro (t : ℚ)
  apply Meets.call (.plain rfl (.inl (hmonotonic t h)))
  intro (last : ℚ)
  have hlooked := hlook last (hmonotonic t h)
  show Meets _ _ _ (ite _ _ _)
  split
  · exact hlooked
  · apply Meets.call (.plain rfl (.inl hlooked))
    rintro (_ | _)
    · refine hlooked.other fun s => ⟨rfl, rfl⟩
    · have hin : About step 0 (past ++ [⟨.monotonic, t⟩] ++ [⟨.lastRun step, last⟩] ++
          [⟨.acquire step, true⟩]) := by
        refine ⟨?_, ?_, fun s hs => (hlooked s).snoc ?_ rfl⟩
        · rw [Holds, placeAt_snoc]
          simp [useOf, Place.after, Place.isInside]
        · rw [balance_snoc, (hlooked step).none]
          rfl
        · simp [useOf, Ne.symm hs, Place.after]
      generalize past ++ [⟨.monotonic, t⟩] ++ [⟨.lastRun step, last⟩] ++ [⟨.acquire step, true⟩] = past
        at hin
      refine Meets.tryFinally (Q := fun tr _ => About step 0 tr)
        (Meets.tryCatch (Q := fun tr _ => About step 0 tr) ?_ (fun _ _ hq => hq) fun _ _ hq => hq)
        fun tr r hq => ?_
      · apply Meets.call (.plain rfl hin.steady)
        intro (now : ℚ)
        have hnow : About step 0 (past ++ [⟨.monotonic, now⟩]) := hin.other fun _ => ⟨rfl, rfl⟩
        apply Meets.call (.plain rfl hnow.steady)
        intro (last : ℚ)
        have hplace : placeAt step (past ++ [⟨.monotonic, now⟩] ++ [⟨.lastRun step, last⟩]) =
            .inside (some last) := by
          have hholds := hnow.holds
          rw [placeAt_snoc]
          cases hp : placeAt step (past ++ [⟨.monotonic, now⟩]) with
          | out =>
            rw [Holds, hp] at hholds
            cases hholds
          | inside seen => simp [useOf, Place.after]
        have habout : About step 0 (past ++ [⟨.monotonic, now⟩] ++ [⟨.lastRun step, last⟩]) := by
          refine hnow.snoc (x := ⟨.lastRun step, last⟩) ?_ fun s hs => ⟨?_, rfl⟩
          · rw [← placeAt_snoc, hplace]
            rfl
          · simp [useOf, Ne.symm hs]
        show Meets _ _ _ (ite _ _ _)
        split
        · exact habout
        · rename_i hdue
          exact hbody now _ ⟨habout, by simp, last, hplace, by linarith⟩
      · have hrelease : Careful pool tr (.release step) := by
          refine ⟨fun s hs => (by cases hs), fun s hs => ?_, fun s t hs => (by cases hs), hq.steady⟩
          cases hs
          exact hq.holds
        apply Meets.call hrelease
        intro u s
        by_cases hs : s = step
        · subst hs
          refine ⟨?_, ?_⟩
          · rw [placeAt_snoc]
            simp [useOf, Place.after]
          · rw [balance_snoc, hq.passes]
            rfl
        · refine (hq.others s hs).snoc ?_ rfl
          simp [useOf, Ne.symm hs, Place.after]

/-! ## The three steps -/

/-- The commands of `reconcile`. -/
def Command.reconciles : Command ρ → Prop
  | .started | .aliveThreads | .configView | .startThread _ => True
  | _ => False

theorem Command.reconciles.foreign {c : Command ρ} (hc : c.reconciles) : c.foreign := by
  cases c <;> trivial

theorem startThreads_commands (n first : Nat) (past : Talk ρ) :
    Meets (fun _ c => c.reconciles) (fun _ _ => True) past (startThreads first n) := by
  induction n generalizing first past with
  | zero => trivial
  | succ n ih =>
    apply Meets.call trivial
    intro r
    cases r with
    | error e => trivial
    | ok u => exact ih (first + 1) _

theorem reconcile_commands (past : Talk ρ) :
    Meets (fun _ c => c.reconciles) (fun _ _ => True) past reconcile := by
  apply Meets.call trivial
  intro b
  cases b with
  | false => trivial
  | true =>
    apply Meets.call trivial
    intro current
    apply Meets.call trivial
    intro config
    exact startThreads_commands _ _ _

theorem maybeSyncRuntimeConfig_careful (h : Idle past) :
    Meets (Careful pool) (fun tr _ => Idle tr) past (maybeSyncRuntimeConfig pool) := by
  refine guarded_careful (fun now past hdue => ?_) h
  apply Meets.call (hdue.call rfl)
  rintro (e | shared)
  · exact (hdue.other (fun _ => rfl) fun _ => rfl).about
  · have hread : Due pool .configSync now 0 (past ++ [⟨.getRuntimeConfig, .ok shared⟩]) :=
      hdue.other (fun _ => rfl) fun _ => rfl
    have hforeign : ∀ {past : Talk ρ} {c : Command ρ} (x : c.Answer), c.foreign →
        Due pool .configSync now 0 past → Due pool .configSync now 0 (past ++ [⟨c, x⟩]) :=
      fun x hc hp => hp.other (fun s => (hc.other x s).1) fun s => (hc.other x s).2
    apply Meets.call (.foreign trivial hread.about.steady)
    intro (view : RuntimeConfig)
    have hview := hforeign (c := .configView) view trivial hread
    apply Meets.call (.foreign trivial hview.about.steady)
    rintro ⟨⟩
    have hreplaced := hforeign (c := .configReplace shared) () trivial hview
    have hchanged : ∀ past : Talk ρ, Meets (fun _ c => c.foreign) (fun _ _ => True) past
        (if shared ≠ view then reconcile else pure ()) := by
      intro past
      split
      · exact (reconcile_commands past).mono_commands fun _ _ hc => hc.foreign
      · trivial
    show Meets _ _ _ ((if shared ≠ view then reconcile else pure ()) >>= _)
    refine Meets.bind (hreplaced.careful (hchanged _)) (fun tr u hp => ?_) fun _ _ hp => hp.about
    apply Meets.call (.foreign trivial hp.about.steady)
    intro (active : Nat)
    have hactive := hforeign (c := .aliveThreads) active trivial hp
    apply Meets.call (.foreign trivial hactive.about.steady)
    intro (busy : Nat)
    have hbusy := hforeign (c := .busyWorkers) busy trivial hactive
    apply Meets.call (hbusy.call rfl)
    rintro (e | u)
    · exact (hbusy.other (fun _ => rfl) fun _ => rfl).about
    · exact (hbusy.snoc (x := ⟨.heartbeatWorker _ _ _, .ok u⟩) (fun _ => rfl)
        fun s hs => if_neg hs).record

theorem maybeMaterializeSchedules_careful (h : Idle past) :
    Meets (Careful pool) (fun tr _ => Idle tr) past (maybeMaterializeSchedules pool) := by
  refine guarded_careful (fun now past hdue => ?_) h
  apply Meets.call (hdue.call rfl)
  rintro (e | created)
  · exact (hdue.other (fun _ => rfl) fun _ => rfl).about
  · exact (hdue.snoc (x := ⟨.materializeDueSchedules, .ok created⟩) (fun _ => rfl)
      fun s hs => if_neg hs).record

theorem maybeRecoverStaleJobs_careful (h : Idle past) :
    Meets (Careful pool) (fun tr _ => Idle tr) past (maybeRecoverStaleJobs pool) := by
  refine guarded_careful (fun now past hdue => ?_) h
  apply Meets.call (hdue.call rfl)
  rintro (e | recovered)
  · exact (hdue.other (fun _ => rfl) fun _ => rfl).about
  · exact (hdue.snoc (x := ⟨.recoverStaleJobs _, .ok recovered⟩) (fun _ => rfl)
      fun s hs => if_neg hs).record

/-! ## The loop -/

theorem processOne_foreign (w : String) (past : Talk ρ) :
    Meets (fun _ c => c.foreign) (fun _ _ => True) past (processOne w) := by
  have hfailure : ∀ {job : Job} {n : Nat} {t : UtcTime} {error : String} {timedOut : Bool}
      (past : Talk ρ), Meets (fun _ c => c.foreign) (fun _ _ => True) past
        (recordFailure job w n t error timedOut) :=
    fun _ => Meets.call trivial fun _ => Meets.call trivial fun _ => Meets.ofExcept trivial
  apply Meets.call trivial
  rintro (e | _ | job)
  · trivial
  · trivial
  · apply Meets.call trivial
    intro startedAt
    apply Meets.call trivial
    intro u
    refine Meets.tryFinally (Q := fun _ _ => True)
      (Meets.tryCatch (Q := fun _ _ => True) ?_ (fun _ _ _ => trivial) fun tr exc _ =>
        excepted_meets (fun _ _ => hfailure tr) fun _ => trivial)
      fun _ _ _ => Meets.call trivial fun _ => trivial
    apply Meets.call trivial
    rintro (e | result | exc | _)
    · trivial
    · exact Meets.call trivial fun _ => Meets.ofExcept trivial
    · trivial
    · trivial

/-- A round that begins without a lock ends without one, by an exception too. -/
theorem workerRound_careful (pool : WorkerPool) (slot : Nat) (h : Idle past) :
    Meets (Careful pool) (fun (tr : Talk ρ) _ => Idle tr) past (workerRound pool slot) := by
  have hforeign : ∀ {past : Talk ρ} {c : Command ρ} (x : c.Answer), c.foreign → Idle past →
      Idle (past ++ [⟨c, x⟩]) := fun x hc hi => hi.other (hc.other x)
  apply Meets.call (.foreign trivial (.inl h))
  rintro (_ | _)
  · have hstop := hforeign (c := .stopIsSet) false trivial h
    show Meets _ _ _ (maybeSyncRuntimeConfig pool >>= _)
    refine Meets.bind (maybeSyncRuntimeConfig_careful hstop) (fun tr u hsync => ?_) fun _ _ hi => hi
    apply Meets.call (.foreign trivial (.inl hsync))
    intro (config : RuntimeConfig)
    have hview := hforeign (c := .configView) config trivial hsync
    show Meets _ _ _ (ite _ _ _)
    split
    · exact hview
    · refine Meets.bind (maybeMaterializeSchedules_careful hview) (fun tr u hmaterialize => ?_)
        fun _ _ hi => hi
      refine Meets.bind (maybeRecoverStaleJobs_careful hmaterialize) (fun tr u hrecover => ?_)
        fun _ _ hi => hi
      refine Meets.bind (hrecover.careful (processOne_foreign _ _)) (fun tr j hprocessed => ?_)
        fun _ _ hi => hi
      cases j with
      | none =>
        apply Meets.call (.foreign trivial (.inl hprocessed))
        intro u
        exact hforeign (c := .wait _) u trivial hprocessed
      | some j => exact hprocessed
  · exact hforeign (c := .stopIsSet) true trivial h

theorem workerThreads_careful (pool : WorkerPool) :
    Discipline (workerThreads ρ pool) (Careful pool) (fun tr _ => Idle tr) Idle where
  start := Idle.nil
  body := fun slot _ h => workerRound_careful pool slot h
  again := fun _ _ h _ => h

/-! ## One thread at a time -/

theorem useOf_released {x : Exchange (Command ρ) Command.Answer} (h : useOf step x = .released) :
    x.command = .release step := by
  unfold useOf at h
  split at h <;> first | cases h | (split at h <;> cases h)
  exact congrArg Command.release ‹_ = step›

theorem useOf_wrote {x : Exchange (Command ρ) Command.Answer} {t : ℚ} (h : useOf step x = .wrote t) :
    x.command = .setLastRun step t := by
  unfold useOf at h
  split at h <;> first | cases h | (split at h <;> cases h)
  exact congrArg (Command.setLastRun · t) ‹_ = step›

theorem Careful.orderly {c : Command ρ} (h : Careful pool past c) :
    (maintenanceLock ρ pool step).Orderly past c := by
  rintro x (hx | ⟨t, hx⟩)
  · exact h.release step (useOf_released hx)
  · obtain ⟨-, last, hlast, -⟩ := h.write step t (useOf_wrote hx)
    show (placeAt step past).isInside = true
    rw [hlast]
    rfl

section
variable {start : ℚ} {h : History (ThreadEvent ρ) (ThreadsState ρ)}

theorem ThreadsRun.locked (hr : ThreadsRun pool start h) (step : Maintenance) :
    (maintenanceLock ρ pool step).Inv (threadsNow start h) :=
  Run.locked (workerThreads_careful pool) (fun _ _ hc => hc.orderly) rfl hr

/-- The clock does not go back. -/
theorem clock_answers {c : Command ρ} {m : PoolMemory} {x : c.Answer} {m' : PoolMemory}
    (ha : PoolMemory.Answers c m x m') : m.clock ≤ m'.clock := by
  cases c with
  | monotonic =>
    obtain ⟨hle, rfl⟩ := ha
    exact hle
  | lastRun | acquire | stopIsSet | busyWorkers =>
    obtain ⟨-, rfl⟩ := ha
    exact le_rfl
  | _ =>
    cases ha
    exact le_rfl

theorem clock_step {s s' : ThreadsState ρ} {e : ThreadEvent ρ}
    (hs : Step (workerThreads ρ pool) s e s') : s.memory.clock ≤ s'.memory.clock := by
  cases hs with
  | spawn i => exact le_rfl
  | act ha => exact clock_answers ha
  | again _ => exact le_rfl
  | change hc =>
    obtain ⟨b, rfl⟩ := hc
    exact le_rfl

/-- What a thread read from the clock is past. -/
theorem ThreadsRun.clock (hr : ThreadsRun pool start h) :
    ∀ t ∈ (threadsNow start h).threads, ∀ x ∈ t.past, ∀ now : ℚ, x = ⟨.monotonic, now⟩ →
      now ≤ (threadsNow start h).memory.clock := by
  refine Run.knows (R := fun x m => ∀ now : ℚ, x = ⟨.monotonic, now⟩ → now ≤ m.clock) ?_ ?_ hr
  · intro c m x m' ha
    refine ⟨?_, fun y hy now he => (hy now he).trans (clock_answers ha)⟩
    rintro now ⟨⟩
    obtain ⟨-, rfl⟩ := ha
    exact le_rfl
  · rintro m m' ⟨b, rfl⟩ y hy
    exact hy

/-- The lock has one holder, or is free. -/
theorem ThreadsRun.holders (hr : ThreadsRun pool start h) (step : Maintenance) :
    (threadsNow start h).threads.countP (fun t => (placeAt step t.past).isInside) =
      if (threadsNow start h).memory.locked step then 1 else 0 := (hr.locked step).crowd

theorem ThreadsRun.careful (hr : ThreadsRun pool start h) :
    ∀ t ∈ (threadsNow start h).threads, Meets (Careful pool) (fun tr _ => Idle tr) t.past t.rest :=
  Run.meets (workerThreads_careful pool) hr

theorem Maintaining.holds {t : WorkerThread ρ} (hm : Maintaining step t)
    (ht : Meets (Careful pool) (fun tr _ => Idle tr) t.past t.rest) : Holds step t.past := by
  obtain ⟨c, k, hrest, hc⟩ := hm
  rw [hrest] at ht
  exact ht.1.upkeep step hc

/-- One thread at a time is between the acquire and the release of the step's lock, where all its
repository calls are; and who has the lock still runs. -/
structure Exclusive (step : Maintenance) (s : ThreadsState ρ) : Prop where
  alone : ∀ before mid after t u, s.threads = before ++ t :: mid ++ u :: after →
    Holds step t.past → ¬ Holds step u.past
  locked : ∀ t ∈ s.threads, Holds step t.past → s.memory.locked step = true
  within : ∀ t ∈ s.threads, Maintaining step t → Holds step t.past
  running : s.memory.locked step = true → ∃ t ∈ s.threads, Holds step t.past ∧ Awaits (fun _ => True) t

/-- Whatever the threads of a pool are answered, and whichever of their calls fail: passes of one kind do
not overlap, and no thread leaves its loop or dies with a lock in its hands. -/
theorem maintenance_exclusive (hr : ThreadsRun pool start h) (step : Maintenance) :
    Exclusive step (threadsNow start h) := by
  have hholders := hr.holders step
  have hcareful := hr.careful
  refine ⟨fun before mid after t u hthreads ht hu => ?_, fun t ht hin => ?_,
    fun t ht hm => hm.holds (hcareful t ht), fun hlocked => ?_⟩
  · have hout : placeAt step u.past = .out := (hr.locked step).alone hthreads ht
    rw [Holds, hout] at hu
    cases hu
  · have hpos := List.countP_pos_iff (p := fun t : WorkerThread ρ => (placeAt step t.past).isInside).2
      ⟨t, ht, hin⟩
    rw [hholders] at hpos
    by_contra hfree
    rw [if_neg hfree] at hpos
    exact absurd hpos (lt_irrefl 0)
  · rw [if_pos hlocked] at hholders
    obtain ⟨t, ht, hin⟩ := List.countP_pos_iff.1 (hholders ▸ Nat.one_pos)
    refine ⟨t, ht, hin, ?_⟩
    have hmeets := hcareful t ht
    -- at its end a thread would be idle
    have hnot : ¬ Idle t.past := by
      intro hidle
      rw [(hidle step).out] at hin
      cases hin
    cases hrest : t.rest with
    | call c k => exact ⟨c, k, hrest, trivial⟩
    | pure a =>
      rw [hrest] at hmeets
      exact absurd hmeets hnot
    | raise e =>
      rw [hrest] at hmeets
      exact absurd hmeets hnot

/-! ## Passes and their times -/

/-- Only a record changes the last run. -/
theorem lastRun_step {s s' : ThreadsState ρ} {e : ThreadEvent ρ}
    (hs : Step (workerThreads ρ pool) s e s') :
    s'.memory.lastRun step = (recordedBy step e).getD (s.memory.lastRun step) := by
  cases hs with
  | spawn i => rfl
  | again _ => rfl
  | change hc =>
    obtain ⟨b, rfl⟩ := hc
    rfl
  | @act m m' l r i past c k x ha =>
    have hmoves := useOf_moves step c m x m' ha
    generalize hu : useOf step ⟨c, x⟩ = u at hmoves
    have hnone : (∀ t, u ≠ .wrote t) → recordedBy step (.act ⟨c, x⟩ : ThreadEvent ρ) = none := by
      intro hne
      cases c with
      | setLastRun s t =>
        refine if_neg fun he => hne t ?_
        rw [← hu, he]
        exact if_pos rfl
      | _ => rfl
    cases u with
    | wrote t =>
      obtain rfl : c = .setLastRun step t := useOf_wrote hu
      cases ha
      simp [recordedBy]
    | _ =>
      rw [hnone fun t => nofun]
      exact hmoves.same fun t => nofun

/-- A record comes at least the interval after the one before it, at a time read from the clock. -/
theorem ThreadsRun.record (hr : ThreadsRun pool start h) {e : ThreadEvent ρ} {s : ThreadsState ρ}
    (hs : Step (workerThreads ρ pool) (threadsNow start h) e s) {t : ℚ}
    (ht : recordedBy step e = some t) :
    (threadsNow start h).memory.lastRun step + pool.interval step ≤ t ∧
      t ≤ (threadsNow start h).memory.clock := by
  have hseen := (hr.locked step).seen
  have hclock := hr.clock
  have hcareful := hr.careful
  generalize threadsNow start h = σ at hs hseen hclock hcareful ⊢
  cases hs with
  | spawn i => cases ht
  | again _ => cases ht
  | change _ => cases ht
  | @act m m' l r i past c k x ha =>
    cases c with
    | setLastRun s t' =>
      obtain ⟨rfl, rfl⟩ : s = step ∧ t' = t := by simpa [recordedBy] using ht
      have hmem : (⟨i, past, .call (.setLastRun s t') k⟩ : WorkerThread ρ) ∈
          l ++ ⟨i, past, .call (.setLastRun s t') k⟩ :: r := by simp
      obtain ⟨hread, last, hlast, hdue⟩ := (hcareful _ hmem).1.write s t' rfl
      refine ⟨?_, hclock _ hmem _ hread t' rfl⟩
      have heq : last = m.lastRun s := hseen _ hmem last hlast
      rw [← heq]
      exact hdue
    | _ => cases ht

theorem recorded_cons (e : Entry (ThreadEvent ρ) (ThreadsState ρ)) :
    recorded step (e :: h) = (recordedBy step e.event).toList ++ recorded step h := by
  cases he : recordedBy step e.event <;> simp [recorded, he]

/-- The last run is the latest record, and 0 at first. -/
theorem ThreadsRun.latest (hr : ThreadsRun pool start h) (step : Maintenance) :
    (recorded step h ++ [0]).head? = some ((threadsNow start h).memory.lastRun step) := by
  refine hr.induct (P := fun h =>
    (recorded step h ++ [0]).head? = some ((threadsNow start h).memory.lastRun step)) rfl ?_
  intro h e s hr ih hs
  rw [recorded_cons, threadsNow, now_cons, lastRun_step hs]
  cases recordedBy step e with
  | none => exact ih
  | some t => rfl

/-- What the threads have counted: passes that are not recorded yet. -/
theorem ThreadsRun.passes (hr : ThreadsRun pool start h) (step : Maintenance) :
    (passCount step h : ℤ) =
      (recorded step h).length + total (passDelta step) (threadsNow start h).threads := by
  refine hr.induct (P := fun h => (passCount step h : ℤ) =
    (recorded step h).length + total (passDelta step) (threadsNow start h).threads) rfl ?_
  intro h e s hr ih hs
  have hgain : (if endsPass step e then 1 else 0 : ℤ) =
      (recordedBy step e).toList.length + e.gain (passDelta step) := by
    cases e with
    | act x =>
      obtain ⟨c, x⟩ := x
      cases c with
      | heartbeatWorker | materializeDueSchedules | recoverStaleJobs =>
        cases x <;> simp [endsPass, recordedBy, Event.gain, passDelta]
      | setLastRun s t =>
        by_cases he : s = step
        · simp [endsPass, recordedBy, Event.gain, passDelta, he]
        · simp [endsPass, recordedBy, Event.gain, passDelta, he, Ne.symm he]
      | _ => rfl
    | _ => rfl
  rw [recorded_cons, threadsNow, now_cons, hs.total]
  simp only [passCount, List.countP_cons, List.length_append] at ih ⊢
  push_cast
  rw [ih]
  have hcast : ((if endsPass step e then 1 else 0 : ℕ) : ℤ) =
      if endsPass step e then 1 else 0 := by split <;> rfl
  rw [hgain]
  ring

/-- A thread has at most one pass to record, and only with the lock. -/
theorem Steady.passes (hs : Steady past) (step : Maintenance) :
    0 ≤ balance (passDelta step) past ∧
      balance (passDelta step) past ≤ if (placeAt step past).isInside then 1 else 0 := by
  rcases hs with hidle | ⟨s, n, habout, hn⟩
  · rw [(hidle step).none, (hidle step).out]
    exact ⟨le_rfl, le_rfl⟩
  · by_cases he : step = s
    · subst he
      have hin : (placeAt step past).isInside = true := habout.holds
      rw [habout.passes, if_pos hin]
      exact hn
    · rw [(habout.others step he).none, (habout.others step he).out]
      exact ⟨le_rfl, le_rfl⟩

theorem steady_of_careful {t : WorkerThread ρ}
    (h : Meets (Careful pool) (fun tr _ => Idle tr) t.past t.rest) : Steady t.past := by
  cases hrest : t.rest with
  | call c k =>
    rw [hrest] at h
    exact h.1.steady
  | pure a =>
    rw [hrest] at h
    exact .inl h
  | raise e =>
    rw [hrest] at h
    exact .inl h

/-- The recorded passes of a step are its interval apart, and each successful pass is recorded, but for one
that is about to be. -/
structure Spaced (pool : WorkerPool) (step : Maintenance) (start : ℚ)
    (h : History (ThreadEvent ρ) (ThreadsState ρ)) : Prop where
  /-- counted from 0, the last run of a new pool -/
  apart : (recorded step h ++ [0]).IsChain fun later earlier => earlier + pool.interval step ≤ later
  past : ∀ t ∈ recorded step h, t ≤ (threadsNow start h).memory.clock
  passes : (recorded step h).length ≤ passCount step h ∧
    passCount step h ≤ (recorded step h).length + 1

/-- Any number of threads does not make the passes more frequent than the interval. -/
theorem maintenance_spaced (hr : ThreadsRun pool start h) (step : Maintenance) :
    Spaced pool step start h := by
  refine ⟨?_, ?_, ?_⟩
  · refine hr.induct (P := fun h => (recorded step h ++ [0]).IsChain
      (fun later earlier => earlier + pool.interval step ≤ later)) (by simp [recorded]) ?_
    intro h e s hr ih hs
    rw [recorded_cons]
    cases ht : recordedBy step e with
    | none => exact ih
    | some t =>
      obtain ⟨hdue, -⟩ := ThreadsRun.record hr hs ht
      refine List.isChain_cons.2 ⟨fun last hlast => ?_, ih⟩
      have heq := Option.some.inj ((ThreadsRun.latest hr step).symm.trans hlast)
      rw [← heq]
      exact hdue
  · refine hr.induct (P := fun h => ∀ t ∈ recorded step h, t ≤ (threadsNow start h).memory.clock)
      nofun ?_
    intro h e s hr ih hs t ht
    rw [recorded_cons, List.mem_append, Option.mem_toList] at ht
    have hle : (threadsNow start h).memory.clock ≤ s.memory.clock := clock_step hs
    rcases ht with ht | ht
    · exact (ThreadsRun.record hr hs ht).2.trans hle
    · exact (ih t ht).trans hle
  · have hcount := hr.passes step
    have hholders := hr.holders step
    have hbounds := total_le_countP (p := fun t : WorkerThread ρ => (placeAt step t.past).isInside)
      fun t ht => (steady_of_careful (hr.careful t ht)).passes step
    rw [hholders] at hbounds
    split at hbounds <;> simp only [Nat.cast_zero, Nat.cast_one] at hbounds <;> omega

end

/-! ### A synchronization -/

/-- A new pool with one thread, of slot 1. -/
def oneThread : History (ThreadEvent JsonObject) (ThreadsState JsonObject) :=
  [⟨.spawn 1, ⟨.new 10, [⟨1, [], workerRound samplePool 1⟩]⟩⟩]

theorem oneThread_run : ThreadsRun samplePool 10 oneThread := Valid.cons .nil (.spawn 1)

/-- The thread has found the synchronization due. -/
def syncDue : Talk JsonObject :=
  [⟨.stopIsSet, false⟩, ⟨.monotonic, (10 : ℚ)⟩, ⟨.lastRun .configSync, (0 : ℚ)⟩,
    ⟨.acquire .configSync, true⟩, ⟨.monotonic, (11 : ℚ)⟩, ⟨.lastRun .configSync, (0 : ℚ)⟩]

/-- It synchronizes. -/
def syncTalk : Talk JsonObject :=
  [⟨.getRuntimeConfig, .ok sampleConfig⟩, ⟨.configView, sampleConfig⟩, ⟨.configReplace sampleConfig, ()⟩,
    ⟨.aliveThreads, (1 : ℕ)⟩, ⟨.busyWorkers, (0 : ℕ)⟩, ⟨.heartbeatWorker "i" 1 0, .ok ()⟩,
    ⟨.setLastRun .configSync 11, ()⟩]

theorem syncDue_after : ∃ k, After (workerRound samplePool 1) syncDue (.call .getRuntimeConfig k) ∧
    ∃ q, After (.call .getRuntimeConfig k) syncTalk q := by
  have hdue : ¬ (10 - 0 : ℚ) < samplePool.configSyncIntervalSeconds := by decide +kernel
  have hdue' : ¬ (11 - 0 : ℚ) < samplePool.configSyncIntervalSeconds := by decide +kernel
  apply Exists.intro
  constructor
  · apply After.cons
    apply After.cons
    apply After.cons
    show After (Prog.bind (ite _ _ _) _) _ _
    rw [if_neg hdue]
    apply After.cons
    apply After.cons
    apply After.cons
    show After (Prog.bind (Prog.tryFinally (Prog.tryCatch (ite _ _ _) _) _) _) _ _
    rw [if_neg hdue']
    exact .nil
  · apply Exists.intro
    apply After.cons
    apply After.cons
    apply After.cons
    show After (Prog.bind (Prog.tryFinally (Prog.tryCatch (Prog.bind (ite _ _ _) _) _) _) _) _ _
    rw [if_neg (fun hne => hne rfl)]
    exact .cons (.cons (.cons (.cons .nil)))

theorem syncDue_plays : Shared.Plays (workerThreads JsonObject samplePool) (.new 10) syncDue
    ⟨11, fun _ => 0, Function.update (fun _ => false) .configSync true, 0, false⟩ := by
  refine .cons ⟨rfl, rfl⟩ (.cons ⟨?_, rfl⟩ (.cons ⟨rfl, rfl⟩ (.cons ⟨rfl, rfl⟩ (.cons ⟨?_, rfl⟩
    (.cons ⟨rfl, rfl⟩ (.nil _))))))
  · exact le_rfl
  · show (10 : ℚ) ≤ 11
    decide +kernel

/-- The thread is about to read the configuration. -/
theorem maintenance_exclusive_sync : ∃ h : History (ThreadEvent JsonObject) (ThreadsState JsonObject),
    ThreadsRun samplePool 10 h ∧ (∃ t ∈ (threadsNow 10 h).threads, Maintaining .configSync t) ∧
      Exclusive .configSync (threadsNow 10 h) := by
  obtain ⟨k, hafter, -⟩ := syncDue_after
  obtain ⟨post, hrun, hend, -⟩ := Run.play hafter oneThread_run rfl syncDue_plays
  refine ⟨post ++ oneThread, hrun, ⟨⟨1, syncDue, .call .getRuntimeConfig k⟩, ?_, _, k, rfl, rfl⟩,
    maintenance_exclusive hrun .configSync⟩
  rw [threadsNow, hend]
  exact List.mem_singleton_self _

theorem syncTalk_plays : Shared.Plays (workerThreads JsonObject samplePool)
    ⟨11, fun _ => 0, Function.update (fun _ => false) .configSync true, 0, false⟩ syncTalk
    ⟨11, Function.update (fun _ => 0) .configSync 11,
      Function.update (fun _ => false) .configSync true, 0, false⟩ :=
  .cons rfl (.cons rfl (.cons rfl (.cons rfl (.cons ⟨rfl, rfl⟩ (.cons rfl (.cons rfl (.nil _)))))))

/-- The events of a thread after others. -/
theorem recorded_append (step : Maintenance) (post pre : History (ThreadEvent ρ) (ThreadsState ρ)) :
    recorded step (post ++ pre) = (post.map (·.event)).filterMap (recordedBy step) ++ recorded step pre := by
  rw [recorded, List.filterMap_append, List.filterMap_map]
  rfl

/-- The first synchronization is recorded at the time 11. -/
theorem maintenance_spaced_sync : ∃ h : History (ThreadEvent JsonObject) (ThreadsState JsonObject),
    ThreadsRun samplePool 10 h ∧ recorded .configSync h = [11] ∧ Spaced samplePool .configSync 10 h := by
  obtain ⟨k, hafter, q, hafter'⟩ := syncDue_after
  obtain ⟨post, hrun, hend, hevents⟩ := Run.play hafter oneThread_run rfl syncDue_plays
  obtain ⟨post', hrun', -, hevents'⟩ := Run.play hafter' hrun hend syncTalk_plays
  refine ⟨post' ++ (post ++ oneThread), hrun', ?_, maintenance_spaced hrun' .configSync⟩
  rw [recorded_append, recorded_append, hevents, hevents']
  rfl

end

end PulseQueue
