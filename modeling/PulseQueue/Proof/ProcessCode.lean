import PulseQueue.Proof.Slots

/-!
# The steps of a process are commands of the code

What is left to do for the holder of the lock (`Critical.rest`) and for the synchronization
(`Process.syncRest`), as code of `Model.Worker`. Every step of theirs is the next command of this code,
with an answer that the process gives (`Answers`), and what is left after the step is what the code does
with that answer: `ensure_step`, `sync_step`.
-/

namespace PulseQueue

open Interaction

section
variable {ρ : Type}

/-- How a process answers. -/
inductive Answers (p : Process) : (c : Command ρ) → c.Answer → Prop
  | aliveThreads : Answers p .aliveThreads p.threads.length
  | configView : Answers p .configView p.config.view
  | configReplace (config : RuntimeConfig) : Answers p (.configReplace config) ()
  | getRuntimeConfig : Answers p .getRuntimeConfig (.ok p.row)
  | started : Answers p .started p.started
  | startThread (index : Nat) : Answers p (.startThread index) (.ok ())
  | startThreadRaises (index : Nat) (exc : PyExc) : Answers p (.startThread index) (.error exc)

/-- What is left of `_ensure_threads_locked`. -/
def Critical.rest : Critical → Code ρ Unit
  | .desired current => do
    let config ← Code.configView
    startThreads (current + 1) (config.workerConcurrency.toNat - current)
  | .create next last => startThreads next (last + 1 - next)
  | _ => ensureThreadsLocked

def Process.lockRest (p : Process) : Code ρ Unit :=
  match p.lock with
  | some (_, c) => c.rest
  | none => pure ()

/-- From the heartbeat on. -/
def syncEnding (pool : WorkerPool) (now : ℚ) : Code ρ Unit := do
  let activeThreads ← Code.aliveThreads
  let busy ← Code.busyWorkers
  Code.heartbeatWorker pool.instanceId activeThreads busy
  Code.setLastRun .configSync now

/-- What is left of the synchronization. -/
def Process.syncRest (p : Process) (pool : WorkerPool) (now : ℚ) : Code ρ Unit :=
  match p.sync with
  | .idle => do
    let shared ← Code.getRuntimeConfig
    let view ← Code.configView
    Code.configReplace shared
    (if shared ≠ view then reconcile else pure ())
    syncEnding pool now
  | .read shared => do
    let view ← Code.configView
    Code.configReplace shared
    (if shared ≠ view then reconcile else pure ())
    syncEnding pool now
  | .compared shared changed => do
    Code.configReplace shared
    (if changed then reconcile else pure ())
    syncEnding pool now
  | .changed _ => do
    reconcile
    syncEnding pool now
  | .reconciling _ => do
    p.lockRest
    syncEnding pool now
  | .finishing _ => syncEnding pool now

/-- A synchronization that may run starts from the beginning. -/
theorem maybeSyncRuntimeConfig_eq (pool : WorkerPool) {p : Process} (h : p.sync = .idle) :
    (maybeSyncRuntimeConfig pool : Code ρ Unit) =
      guarded .configSync pool.configSyncIntervalSeconds (p.syncRest pool) := by
  have hrest : p.syncRest pool = fun now => (do
      let shared ← Code.getRuntimeConfig
      let view ← Code.configView
      Code.configReplace shared
      (if shared ≠ view then reconcile else pure ())
      syncEnding pool now : Code ρ Unit) := by
    funext now
    simp only [Process.syncRest, h]
  rw [hrest]
  rfl

/-! ## Steps -/

section
variable {p p' : Process} {e : ProcessEvent} {caller : Caller}

def ProcessEvent.OfLock : ProcessEvent → Prop
  | .count | .desired _ | .create => True
  | _ => False

def ProcessEvent.OfSync : ProcessEvent → Prop
  | .syncRead | .syncCompare | .syncReplace => True
  | .acquire caller => caller = .sync
  | _ => False

theorem range_rest {current : Nat} (hlock : p.lock = some (caller, .desired current)) :
    ((p.range caller current p.desired).lockRest : Code ρ Unit) =
      startThreads (current + 1) (p.desired - current) := by
  unfold Process.range
  split
  · have hn : p.desired + 1 - (current + 1) = p.desired - current := by omega
    show startThreads (current + 1) (p.desired + 1 - (current + 1)) = _
    rw [hn]
  · have hn : p.desired - current = 0 := by omega
    rw [hn]
    cases caller <;> rfl

theorem created_rest {next last : Nat} (hle : next ≤ last) :
    ((p.created caller next last).lockRest : Code ρ Unit) = startThreads (next + 1) (last - next) := by
  unfold Process.created
  dsimp only
  split
  · have hn : last + 1 - (next + 1) = last - next := by omega
    show startThreads (next + 1) (last + 1 - (next + 1)) = _
    rw [hn]
  · have hn : last - next = 0 := by omega
    rw [hn]
    cases caller <;> rfl

theorem create_rest {next last : Nat} (hle : next ≤ last)
    (hlock : p.lock = some (caller, .create next last)) :
    (p.lockRest : Code ρ Unit) = (do
      Code.startThread next
      startThreads (next + 1) (last - next)) := by
  have hn : last + 1 - next = last - next + 1 := by omega
  unfold Process.lockRest
  rw [hlock]
  show startThreads next (last + 1 - next) = _
  rw [hn]
  rfl

/-- A step of the holder of the lock. -/
theorem ensure_step (hranged : p.Ranged) (hstep : ProcessStep p e p') (he : e.OfLock) :
    ∃ c : Command ρ, ∃ x : c.Answer, Answers p c x ∧ After p.lockRest [⟨c, x⟩] p'.lockRest := by
  cases hstep with
  | count hlock =>
    refine ⟨.aliveThreads, _, .aliveThreads, ?_⟩
    unfold Process.lockRest
    rw [hlock]
    exact .cons .nil
  | desired hlock =>
    refine ⟨.configView, _, .configView, ?_⟩
    rw [range_rest hlock]
    unfold Process.lockRest
    rw [hlock]
    exact .cons .nil
  | @create caller next last hlock =>
    have hle := hranged _ _ _ hlock
    refine ⟨.startThread next, _, .startThread next, ?_⟩
    rw [created_rest hle, create_rest hle hlock]
    exact .cons .nil
  | _ => exact he.elim

/-- A thread start that raises. -/
theorem createFails_step (hranged : p.Ranged) (hstep : ProcessStep p .createFails p') (exc : PyExc) :
    ∃ c : Command ρ, ∃ x : c.Answer, Answers p c x ∧ After p.lockRest [⟨c, x⟩] (.raise exc) := by
  cases hstep with
  | @createFails caller next last hlock =>
    refine ⟨.startThread next, _, .startThreadRaises next exc, ?_⟩
    rw [create_rest (hranged _ _ _ hlock) hlock]
    exact .cons .nil

/-- A step of the synchronization without the lock, or the taking of the lock. -/
theorem sync_step (pool : WorkerPool) (now : ℚ) (hstep : ProcessStep p e p') (he : e.OfSync) :
    ∃ c : Command ρ, ∃ x : c.Answer, Answers p c x ∧
      After (p.syncRest pool now) [⟨c, x⟩] (p'.syncRest pool now) := by
  cases hstep with
  | syncRead _ hsync =>
    refine ⟨.getRuntimeConfig, _, .getRuntimeConfig, ?_⟩
    simp only [Process.syncRest, hsync]
    exact .cons .nil
  | syncCompare hsync =>
    refine ⟨.configView, _, .configView, ?_⟩
    simp only [Process.syncRest, hsync, decide_eq_true_eq]
    exact .cons .nil
  | @syncReplace c changed hsync =>
    refine ⟨.configReplace c, (), .configReplace c, ?_⟩
    simp only [Process.syncRest, hsync]
    cases changed <;> exact .cons .nil
  | syncAcquire hlock hsync hstarted =>
    refine ⟨.started, _, .started, ?_⟩
    simp only [Process.syncRest, hsync, hstarted]
    exact .cons .nil
  | syncSkip hlock hsync hstarted =>
    refine ⟨.started, _, .started, ?_⟩
    simp only [Process.syncRest, hsync, hstarted]
    exact .cons .nil
  | acquire | skip => cases he
  | _ => exact he.elim

/-- After its reconcile the synchronization goes on with the heartbeat. -/
theorem handed_rest (pool : WorkerPool) (now : ℚ) {shared : RuntimeConfig} {threads : List Thread}
    {lock : Option (Caller × Critical)} {sync : Sync} (hsync : p.sync = .reconciling shared)
    (hh : p.Handed .sync lock sync) :
    (({ p with threads := threads, lock := lock, sync := sync } : Process).syncRest pool now : Code ρ Unit) =
      (do
        ({ p with threads := threads, lock := lock, sync := sync } : Process).lockRest
        syncEnding pool now) := by
  rcases hh with ⟨-, rfl⟩ | ⟨rfl, rfl⟩
  · simp only [Process.syncRest, hsync]
  · simp only [Process.syncRest, hsync, if_true, Sync.reconciled]
    rfl

/-- A step of the synchronization with the lock. -/
theorem sync_ensure_step (pool : WorkerPool) (now : ℚ) (hranged : p.Ranged) {c : Critical}
    {shared : RuntimeConfig} (hlock : p.lock = some (.sync, c)) (hsync : p.sync = .reconciling shared)
    (hstep : ProcessStep p e p') (he : e.OfLock) :
    ∃ c : Command ρ, ∃ x : c.Answer, Answers p c x ∧
      After (p.syncRest pool now) [⟨c, x⟩] (p'.syncRest pool now) := by
  obtain ⟨k, x, hx, hafter⟩ := @ensure_step ρ p p' e hranged hstep he
  refine ⟨k, x, hx, ?_⟩
  have hbefore : (p.syncRest pool now : Code ρ Unit) = (do
      p.lockRest
      syncEnding pool now) := by
    simp only [Process.syncRest, hsync]
  have hafter' : (p'.syncRest pool now : Code ρ Unit) = (do
      p'.lockRest
      syncEnding pool now) := by
    cases hstep with
    | count hlock' =>
      simp only [Process.syncRest, hsync]
    | @desired caller current hlock' =>
      cases hlock.symm.trans hlock'
      obtain ⟨lock, sync, heq, hh⟩ := range_handed p .sync current p.desired
      rw [heq]
      exact handed_rest pool now hsync hh
    | @create caller next last hlock' =>
      cases hlock.symm.trans hlock'
      obtain ⟨lock, sync, heq, hh⟩ := created_handed p .sync next last
      rw [heq]
      exact handed_rest pool now hsync hh
    | _ => exact he.elim
  rw [hbefore, hafter']
  exact hafter.bind fun _ => syncEnding pool now

end

end

end PulseQueue
