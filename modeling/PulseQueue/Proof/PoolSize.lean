import PulseQueue.Proof.Slots

/-!
# The number of threads

After a reconcile the threads that are to stay (`slot ≤ desired_concurrency`) are as many as desired, if
those that it counted and those that it starts are (`Staffed`). Only a count that includes threads about
to leave, and a replaced store that no reconcile follows, break this (`Keeps`). While it holds, a pool
without reconciles to come has its size (`pool_size`); otherwise it may stay too small:
`pool_size_fails`.
-/

namespace PulseQueue

open Trace

/-- A reconcile is still to come: a thread change is due anyway. -/
def Process.Due (p : Process) : Prop :=
  p.started = false ∨ p.stopSet = true ∨ 0 < p.waiting ∨ ∃ c, p.sync = .changed c

/-- The present reconcile has not yet read the desired size. -/
def Critical.Undecided : Critical → Prop
  | .create _ _ => False
  | _ => True

def Process.Undecided (p : Process) : Prop := ∃ caller c, p.lock = some (caller, c) ∧ c.Undecided

/-- How many threads with a slot up to `size` are about to be started. -/
def Process.coming (p : Process) (size : Nat) : Nat :=
  match p.lock with
  | some (_, .create next last) => min last size + 1 - next
  | _ => 0

/-- The live threads with a slot up to `size`, with `coming` more, are `size` many, and none of them
has left its loop. -/
structure Process.Staffed (p : Process) (size coming : Nat) : Prop where
  stay : ∀ t ∈ p.threads, t.slot ≤ size → t.leaving = false
  count : p.threads.countP (fun t => decide (t.slot ≤ size)) + coming = size

/-- A reconcile that reads the desired size, or a replaced store that no reconcile follows, leaves the
pool staffed, unless another reconcile is to come. -/
def Keeps (p : Process) : ProcessEvent → Prop
  | .desired size => ∀ caller current, p.lock = some (caller, .desired current) →
      p.Due ∨ p.Staffed size (size - current)
  | .replaceRead c => p.Due ∨ p.Undecided ∨ p.Staffed c.size (p.coming c.size)
  | .syncReplace => ∀ c, p.sync = .compared c false →
      p.Due ∨ p.Undecided ∨ p.Staffed c.size (p.coming c.size)
  | _ => True

/-- The invariant. -/
def Process.Converges (p : Process) : Prop :=
  p.Due ∨ p.Undecided ∨ p.Staffed p.desired (p.coming p.desired)

section
variable {p p' : Process} {e : ProcessEvent} {size n : Nat}

/-- The same threads. -/
theorem Process.Staffed.of_threads (hs : p.Staffed size n) (ht : p'.threads = p.threads) :
    p'.Staffed size n where
  stay := ht ▸ hs.stay
  count := ht ▸ hs.count

/-- Reconciles do not get lost. -/
theorem Process.Due.of_eq (hd : p.Due) (h₁ : p'.started = p.started) (h₂ : p'.stopSet = p.stopSet)
    (h₃ : p'.waiting = p.waiting) (h₄ : ∀ c, p.sync = .changed c → p'.sync = .changed c) : p'.Due := by
  rcases hd with hd | hd | hd | ⟨c, hd⟩
  · exact .inl (h₁.trans hd)
  · exact .inr (.inl (h₂.trans hd))
  · exact .inr (.inr (.inl (h₃ ▸ hd)))
  · exact .inr (.inr (.inr ⟨c, h₄ c hd⟩))

/-- Nothing that matters here changes. -/
theorem Process.Converges.of_eq (hc : p.Converges) (h₁ : p'.started = p.started)
    (h₂ : p'.stopSet = p.stopSet) (h₃ : p'.waiting = p.waiting)
    (h₄ : ∀ c, p.sync = .changed c → p'.sync = .changed c) (h₅ : p'.lock = p.lock)
    (h₆ : p'.config = p.config) (h₇ : p'.threads = p.threads) : p'.Converges := by
  rcases hc with hd | hu | hs
  · exact .inl (hd.of_eq h₁ h₂ h₃ h₄)
  · exact .inr (.inl (by rwa [Process.Undecided, h₅]))
  · refine .inr (.inr ?_)
    rw [Process.desired, Process.coming, h₅, h₆]
    exact hs.of_threads h₇

theorem release_due (hd : p.Due) (caller : Caller) : (p.release caller).Due := by
  cases caller with
  | request => exact hd.of_eq rfl rfl rfl fun _ => id
  | sync =>
    refine hd.of_eq rfl rfl rfl fun c hc => ?_
    show p.sync.reconciled = _
    rw [hc]
    rfl

theorem range_due (hd : p.Due) (caller : Caller) (current size : Nat) :
    (p.range caller current size).Due := by
  unfold Process.range
  split
  · exact hd.of_eq rfl rfl rfl fun _ => id
  · exact release_due hd caller

theorem created_due (hd : p.Due) (caller : Caller) (next last : Nat) :
    (p.created caller next last).Due := by
  have hd' : ({ p with threads := ⟨next, false⟩ :: p.threads } : Process).Due :=
    hd.of_eq rfl rfl rfl fun _ => id
  unfold Process.created
  dsimp only
  split
  · exact hd'.of_eq rfl rfl rfl fun _ => id
  · exact release_due hd' caller

theorem release_desired (p : Process) (caller : Caller) : (p.release caller).desired = p.desired := by
  cases caller <;> rfl

theorem range_desired (p : Process) (caller : Caller) (current size : Nat) :
    (p.range caller current size).desired = p.desired := by
  unfold Process.range
  split
  · rfl
  · exact release_desired p caller

theorem created_desired (p : Process) (caller : Caller) (next last : Nat) :
    (p.created caller next last).desired = p.desired := by
  unfold Process.created
  dsimp only
  split
  · rfl
  · exact release_desired _ caller

theorem coming_none (h : p.lock = none) (size : Nat) : p.coming size = 0 := by
  simp [Process.coming, h]

theorem coming_create {caller : Caller} {next last : Nat}
    (h : p.lock = some (caller, .create next last)) (size : Nat) :
    p.coming size = min last size + 1 - next := by
  simp [Process.coming, h]

/-- A range that is read starts the missing threads. -/
theorem range_coming (p : Process) (caller : Caller) (current size : Nat) :
    (p.range caller current size).coming size = size - current := by
  unfold Process.range
  split
  · rw [coming_create rfl]
    omega
  · rw [coming_none (release_lock p caller)]
    omega

/-- One thread less is to come. -/
theorem created_coming (p : Process) (caller : Caller) (next last size : Nat) :
    (p.created caller next last).coming size = min last size + 1 - (next + 1) := by
  unfold Process.created
  dsimp only
  split
  · exact coming_create rfl size
  · rw [coming_none (release_lock _ caller)]
    omega

/-- The thread that leaves or ends is not one of those that stay. -/
theorem countP_erase_leaving {t : Thread} (size : Nat) (h : size < t.slot) (l : List Thread) :
    (l.erase t).countP (fun t => decide (t.slot ≤ size)) =
      l.countP fun t => decide (t.slot ≤ size) := by
  rw [List.countP_erase]
  simp [Nat.not_le.2 h]

/-- A thread is started. -/
theorem Process.Staffed.created {caller : Caller} {next last : Nat}
    (hlock : p.lock = some (caller, .create next last)) (hle : next ≤ last)
    (hs : p.Staffed size (p.coming size)) :
    (p.created caller next last).Staffed size ((p.created caller next last).coming size) := by
  have hcount := hs.count
  rw [coming_create hlock] at hcount
  refine ⟨fun t ht hslot => ?_, ?_⟩
  · rw [created_threads] at ht
    rcases List.mem_cons.1 ht with rfl | ht
    · rfl
    · exact hs.stay t ht hslot
  · rw [created_threads, created_coming, List.countP_cons]
    simp only [decide_eq_true_eq]
    split
    · omega
    · omega

/-- A thread leaves its loop because of its slot. -/
theorem Process.Staffed.leave {slot : Nat} (hslot : size < slot) (hs : p.Staffed size n) :
    ({ p with threads := ⟨slot, true⟩ :: p.threads.erase ⟨slot, false⟩ } : Process).Staffed size n := by
  refine ⟨fun t ht hle => ?_, ?_⟩
  · rcases List.mem_cons.1 ht with rfl | ht
    · exact absurd hle (Nat.not_le.2 hslot)
    · exact hs.stay t (List.mem_of_mem_erase ht) hle
  · have hcount := hs.count
    rw [List.countP_cons, countP_erase_leaving size hslot]
    simpa [Nat.not_le.2 hslot] using hcount

/-- A thread that has left its loop ends. -/
theorem Process.Staffed.exit {slot : Nat} (hmem : ⟨slot, true⟩ ∈ p.threads) (hs : p.Staffed size n) :
    ({ p with threads := p.threads.erase ⟨slot, true⟩ } : Process).Staffed size n := by
  have hslot : size < slot := by
    by_contra hle
    have hstay := hs.stay _ hmem (Nat.not_lt.1 hle)
    cases hstay
  refine ⟨fun t ht => hs.stay t (List.mem_of_mem_erase ht), ?_⟩
  rw [countP_erase_leaving size hslot]
  exact hs.count

/-- The step lemma. -/
theorem Process.Converges.step (hc : p.Converges) (hstep : ProcessStep p e p') (he : e.Orderly)
    (hk : Keeps p e) (hrange : p.Ranged) : p'.Converges := by
  cases hstep with
  | remote | patch | read => exact hc.of_eq rfl rfl rfl (fun _ => id) rfl rfl rfl
  | replacePatched | resize => exact .inl (.inr (.inr (.inl (Nat.succ_pos _))))
  | replaceRead =>
    rcases hk with hd | hu | hs
    · exact .inl hd
    · exact .inr (.inl hu)
    · exact .inr (.inr (hs.of_threads rfl))
  | start | fetch | replaceFetched | setStarted | acquire | syncAcquire | count =>
    exact .inr (.inl ⟨_, _, rfl, trivial⟩)
  | stop => exact .inl (.inr (.inl rfl))
  | stopped => exact .inl (.inl rfl)
  | skip _ _ hno | syncSkip _ _ hno => exact .inl (.inl hno)
  | @desired caller current hlock =>
    rcases hk caller current hlock with hd | hs
    · exact .inl (range_due hd caller current p.desired)
    · refine .inr (.inr ?_)
      rw [range_desired, range_coming]
      exact hs.of_threads (range_threads p caller current p.desired)
  | @create caller next last hlock =>
    rcases hc with hd | ⟨c, k, hu, hk⟩ | hs
    · exact .inl (created_due hd caller next last)
    · rw [hlock] at hu
      cases hu
      cases hk
    · refine .inr (.inr ?_)
      rw [created_desired]
      exact hs.created hlock (hrange caller next last hlock)
  | syncRead _ hsync | syncCompare hsync | syncEnd hsync =>
    exact hc.of_eq rfl rfl rfl (fun c hc => by rw [hsync] at hc; cases hc) rfl rfl rfl
  | @syncReplace c changed hcmp =>
    cases changed with
    | true => exact .inl (.inr (.inr (.inr ⟨c, rfl⟩)))
    | false =>
      rcases hk c hcmp with hd | hu | hs
      · exact .inl (hd.of_eq rfl rfl rfl fun c' hc => by rw [hcmp] at hc; cases hc)
      · exact .inr (.inl hu)
      · exact .inr (.inr (hs.of_threads rfl))
  | @leave slot hmem hcond =>
    rcases hc with hd | hu | hs
    · exact .inl hd
    · exact .inr (.inl hu)
    · rcases hcond with hstop | hslot
      · exact .inl (.inr (.inl hstop))
      · exact .inr (.inr (hs.leave hslot))
  | @exit slot hmem =>
    rcases hc with hd | hu | hs
    · exact .inl hd
    · exact .inr (.inl hu)
    · exact .inr (.inr (hs.exit hmem))
  | fetchFails | createFails | syncFails | die => exact he.elim

/-- While every reconcile leaves the pool staffed, and so does every replaced store that none follows: a
started pool whose stop event is not set, with no reconcile in progress or to come and no live thread
above the desired size, has exactly the desired number of threads. -/
theorem pool_size {row : RuntimeConfig} {h : History ProcessEvent Process} {p : Process}
    (hr : ProcessRun row h) (hp : now (Process.new row) h = p) (horderly : ∀ e ∈ h, e.event.Orderly)
    (hkeeps : Each (fun h e => Keeps (now (Process.new row) h) e) h) (hstarted : p.started = true)
    (hstop : p.stopSet = false) (hwaiting : p.waiting = 0) (hsync : ∀ c, p.sync ≠ .changed c)
    (hlock : p.lock = none) (hslots : ∀ t ∈ p.threads, t.slot ≤ p.desired) :
    p.threads.length = p.desired := by
  have hc : (now (Process.new row) h).Converges := by
    clear hp
    induction hr with
    | nil => exact .inl (.inl rfl)
    | cons hr hstep ih =>
      have hc := ih (fun e he => horderly e (List.mem_cons_of_mem _ he)) hkeeps.2
      exact hc.step hstep (horderly _ (List.mem_cons_self ..)) hkeeps.1 (ProcessRun.ranged hr)
  rw [hp] at hc
  rcases hc with (hd | hd | hd | ⟨c, hd⟩) | ⟨caller, c, hu, -⟩ | hs
  · rw [hstarted] at hd
    cases hd
  · rw [hstop] at hd
    cases hd
  · omega
  · exact absurd hd (hsync c)
  · rw [hlock] at hu
    cases hu
  · have hcount := hs.count
    rw [coming_none hlock, List.countP_eq_length.2 fun t ht => decide_eq_true (hslots t ht)] at hcount
    exact hcount

end

/-- The three threads of a new pool. -/
theorem pool_size_sample : ∃ p, now (Process.new (sizedConfig 3 rfl)) startRun = p ∧
    p.threads.length = p.desired ∧ p.desired = 3 := by
  refine ⟨starting true [3, 2, 1] none, rfl, pool_size startRun_valid rfl ?_ ?_ rfl rfl rfl
    (fun c h => by cases h) rfl (by decide +kernel), rfl⟩
  · simp [startRun, ProcessEvent.Orderly]
  · have hs : (starting true [] (some (.desired 0))).Staffed 3 (3 - 0) := ⟨by decide, by decide⟩
    refine ⟨trivial, trivial, trivial, fun caller current h => ?_, trivial, trivial, trivial, trivial,
      trivial, trivial⟩
    cases h
    exact .inr hs

/-- Then the size goes to two and the reconcile finds two threads; the thread 3 leaves. One thread is left,
and no reconcile is to come. -/
theorem pool_size_fails : ∃ (row : RuntimeConfig) (h : History ProcessEvent Process) (p : Process),
    ProcessRun row h ∧ now (Process.new row) h = p ∧ (∀ e ∈ h, e.event.Orderly) ∧ p.started = true ∧
      p.stopSet = false ∧ p.waiting = 0 ∧ p.sync = .idle ∧ p.lock = none ∧
      (∀ t ∈ p.threads, t.slot ≤ p.desired) ∧ p.threads.length = 1 ∧ p.desired = 2 := by
  obtain ⟨h, hr, horderly, hp⟩ := shrunk_sample
  have h₁ := Valid.cons hr (.patch (sizedConfig 2 rfl))
  rw [hp] at h₁
  have h₂ := Valid.cons h₁ (.replacePatched (List.mem_cons_self ..))
  have h₃ := Valid.cons h₂ (.acquire (n := 0) rfl rfl rfl)
  have h₄ := Valid.cons h₃ (.count rfl)
  have h₅ := Valid.cons h₄ (.desired rfl)
  have h₆ := Valid.cons h₅ (@ProcessStep.leave _ 3 (.head _) (.inr (by decide : 2 < 3)))
  have h₇ := Valid.cons h₆ (@ProcessStep.exit _ 3 (.head _))
  refine ⟨_, _, _, h₇, rfl, ?_, rfl, rfl, rfl, rfl, rfl, ?_, rfl, rfl⟩
  · simpa [ProcessEvent.Orderly] using horderly
  · exact (by decide : ∀ t ∈ [(⟨1, false⟩ : Thread)], t.slot ≤ 2)

end PulseQueue
