import PulseQueue.Proof.ConfigUpdates
import PulseQueue.Spec.Process

/-!
# The slots of live threads

New threads are numbered from the count of the live ones. As long as that never reaches the slot of a
live thread (`Vacant`), no two live threads have the same slot, and so the same `worker_id`
(`slots_unique`). Otherwise they can: `slots_unique_fails`.
-/

namespace PulseQueue

open Trace

/-- When the desired size is read after the count, no live thread has a slot that is about to be used. -/
def Vacant (p : Process) : ProcessEvent → Prop
  | .desired size => ∀ caller current, p.lock = some (caller, .desired current) →
      ∀ t ∈ p.threads, t.slot ≤ current ∨ size < t.slot
  | _ => True

/-- There is always a thread to start in a range. -/
def Process.Ranged (p : Process) : Prop :=
  ∀ caller next last, p.lock = some (caller, .create next last) → next ≤ last

/-- Different slots, and those about to be used are free. -/
structure Slots (p : Process) : Prop where
  nodup : p.slots.Nodup
  free : ∀ caller next last, p.lock = some (caller, .create next last) →
    ∀ t ∈ p.threads, t.slot < next ∨ last < t.slot

section
variable {p p' : Process} {e : ProcessEvent}

/-- No thread is new, and no creation begins. -/
theorem Slots.frame (hs : Slots p) (ht : p'.slots.Sublist p.slots)
    (hl : ∀ caller next last, p'.lock = some (caller, .create next last) →
      p.lock = some (caller, .create next last)) : Slots p' where
  nodup := hs.nodup.sublist ht
  free := by
    intro caller next last hlock
    have hfree := hs.free caller next last (hl caller next last hlock)
    intro t ht'
    obtain ⟨o, ho, hslot⟩ := List.mem_map.1 (ht.subset (List.mem_map_of_mem ht'))
    rw [← hslot]
    exact hfree o ho

/-- Leaving the loop keeps the slot. -/
theorem leave_slots {slot : Nat} (h : ⟨slot, false⟩ ∈ p.threads) :
    (slot :: (p.threads.erase ⟨slot, false⟩).map (·.slot)).Perm p.slots :=
  ((List.perm_cons_erase h).map Thread.slot).symm

theorem Process.Ranged.step (hr : p.Ranged) (hstep : ProcessStep p e p') : p'.Ranged := by
  intro c n l h
  cases hstep with
  | desired hlock =>
    obtain ⟨-, rfl, rfl, hlt⟩ := range_lock h
    exact hlt
  | create hlock =>
    obtain ⟨-, rfl, rfl, hlt⟩ := created_lock h
    exact hlt
  | fetchFails | createFails =>
    rw [abandon_lock] at h
    cases h
  | start | fetch | replaceFetched | setStarted | acquire | syncAcquire | count => cases h
  | _ => exact hr c n l h

theorem Slots.step (hs : Slots p) (hr : p.Ranged) (hstep : ProcessStep p e p') (hn : Vacant p e) :
    Slots p' := by
  cases hstep with
  | @desired caller current hlock =>
    refine ⟨?_, fun c next last h => ?_⟩
    · rw [Process.slots, range_threads]
      exact hs.nodup
    · obtain ⟨-, rfl, rfl, hlt⟩ := range_lock h
      intro t ht
      rw [range_threads] at ht
      exact (hn caller current hlock t ht).imp_left Nat.lt_succ_of_le
  | @create caller next last hlock =>
    have hle := hr caller next last hlock
    have hfree := hs.free caller next last hlock
    refine ⟨?_, fun c n l h => ?_⟩
    · rw [Process.slots, created_threads, List.map_cons, List.nodup_cons]
      refine ⟨fun hmem => ?_, hs.nodup⟩
      obtain ⟨t, ht, hslot⟩ := List.mem_map.1 hmem
      have hno := hfree t ht
      have hslot : t.slot = next := hslot
      omega
    · obtain ⟨-, rfl, rfl, hlt⟩ := created_lock h
      intro t ht
      rw [created_threads] at ht
      rcases List.mem_cons.1 ht with rfl | ht
      · exact .inl (Nat.lt_succ_self _)
      · exact (hfree t ht).imp_left Nat.lt_succ_of_lt
  | @leave slot hmem hcond =>
    have hperm := leave_slots hmem
    refine ⟨hperm.nodup_iff.2 hs.nodup, fun caller next last hlock => ?_⟩
    have hfree := hs.free caller next last hlock
    intro t ht
    obtain ⟨o, ho, hslot⟩ := List.mem_map.1 (hperm.subset (List.mem_map_of_mem (f := Thread.slot) ht))
    rw [← hslot]
    exact hfree o ho
  | exit | die => exact hs.frame (List.erase_sublist.map _) fun _ _ _ => id
  | @fetchFails caller hlock =>
    refine hs.frame ?_ fun c next last h => ?_
    · rw [Process.slots, abandon_threads]
      exact List.Sublist.refl _
    · rw [abandon_lock] at h
      cases h
  | @createFails caller n l hlock =>
    refine hs.frame ?_ fun c next last h => ?_
    · rw [Process.slots, abandon_threads]
      exact List.Sublist.refl _
    · rw [abandon_lock] at h
      cases h
  | start | fetch | replaceFetched | setStarted | acquire | syncAcquire | count =>
    exact hs.frame (List.Sublist.refl _) fun c next last h => by cases h
  | _ => exact hs.frame (List.Sublist.refl _) fun _ _ _ => id

/-- Worker ids differ when slots do. -/
theorem workerId_injective (instanceId : String) : Function.Injective (workerId instanceId) := by
  intro slot slot' h
  unfold workerId at h
  rw [String.append_right_inj] at h
  exact Nat.repr_injective h

theorem ProcessRun.ranged {row : RuntimeConfig} {h : History ProcessEvent Process}
    (hr : ProcessRun row h) : (now (Process.new row) h).Ranged :=
  hr.invariant (fun caller next last h => by cases h) fun _ _ _ _ hp hstep => hp.step hstep

theorem ProcessRun.slots {row : RuntimeConfig} {h : History ProcessEvent Process}
    (hr : ProcessRun row h) (hn : Each (fun h e => Vacant (now (Process.new row) h) e) h) :
    Slots (now (Process.new row) h) := by
  induction hr with
  | nil => exact ⟨List.nodup_nil, fun caller next last h => by cases h⟩
  | cons hr hstep ih => exact (ih hn.2).step (ProcessRun.ranged hr) hstep hn.1

/-- As long as no live thread has a slot that a reconcile is about to use, the live threads have
different slots and different worker ids. -/
theorem slots_unique {row : RuntimeConfig} {h : History ProcessEvent Process}
    (hr : ProcessRun row h) (hn : Each (fun h e => Vacant (now (Process.new row) h) e) h)
    (instanceId : String) :
    (now (Process.new row) h).slots.Nodup ∧
      ((now (Process.new row) h).slots.map (workerId instanceId)).Nodup := by
  have hs := (hr.slots hn).nodup
  exact ⟨hs, hs.map (workerId_injective instanceId)⟩

end

/-- The defaults with `n` workers. -/
def sizedConfig (n : Int) (h : inIntRange 1 64 n) : RuntimeConfig where
  defaultMaxRetries := 3
  defaultTimeoutSeconds := .rat 5
  maxTimeoutSeconds := .rat 60
  workerConcurrency := n
  backoffBaseSeconds := .rat (1 / 4)
  backoffMaxSeconds := .rat 30
  isValid := by
    have hvalid := defaultConfig.isValid
    simp only [ConfigValues.valid, Bool.and_eq_true] at hvalid ⊢
    exact ⟨⟨⟨hvalid.1.1.1, h⟩, hvalid.1.2⟩, hvalid.2⟩

/-- The pool of a new process with three workers; what the request that starts it does next. -/
def starting (started : Bool) (slots : List Nat) (next : Option Critical) : Process :=
  { Process.new (sizedConfig 3 rfl) with
    started := started
    threads := slots.map (⟨·, false⟩)
    lock := next.map (.request, ·) }

def startRun : History ProcessEvent Process :=
  [⟨.create, starting true [3, 2, 1] none⟩,
    ⟨.create, starting true [2, 1] (some (.create 3 3))⟩,
    ⟨.create, starting true [1] (some (.create 2 3))⟩,
    ⟨.desired 3, starting true [] (some (.create 1 3))⟩,
    ⟨.count, starting true [] (some (.desired 0))⟩,
    ⟨.setStarted, starting true [] (some .count)⟩,
    ⟨.replaceFetched, starting false [] (some .started)⟩,
    ⟨.fetch, starting false [] (some (.replace (sizedConfig 3 rfl)))⟩,
    ⟨.start, starting false [] (some .fetch)⟩]

theorem startRun_valid : ProcessRun (sizedConfig 3 rfl) startRun := by
  have h₁ : ProcessRun (sizedConfig 3 rfl) _ := Valid.cons .nil (.start rfl rfl)
  have h₂ := Valid.cons h₁ (.fetch rfl)
  have h₃ := Valid.cons h₂ (.replaceFetched rfl)
  have h₄ := Valid.cons h₃ (.setStarted rfl)
  have h₅ := Valid.cons h₄ (.count rfl)
  have h₆ := Valid.cons h₅ (.desired rfl)
  have h₇ := Valid.cons h₆ (.create rfl)
  have h₈ := Valid.cons h₇ (.create rfl)
  have h₉ := Valid.cons h₈ (.create rfl)
  exact h₉

/-- The three threads of a new pool. -/
theorem slots_unique_sample : (now (Process.new (sizedConfig 3 rfl)) startRun).slots.Nodup ∧
    ((now (Process.new (sizedConfig 3 rfl)) startRun).slots.map (workerId "worker")).Nodup := by
  refine slots_unique startRun_valid ?_ "worker"
  simp [startRun, Each, Vacant, starting]

/-- The size goes from three to one while the thread 3 is busy, and the thread 2 ends. -/
theorem shrunk_sample : ∃ h, ProcessRun (sizedConfig 3 rfl) h ∧ (∀ e ∈ h, e.event.Orderly) ∧
    now (Process.new (sizedConfig 3 rfl)) h =
      { starting true [3, 1] none with
        row := sizedConfig 1 rfl, config := ⟨_, (sizedConfig 1 rfl).isValid⟩ } := by
  have h₁ := Valid.cons startRun_valid (.patch (sizedConfig 1 rfl))
  have h₂ := Valid.cons h₁ (.replacePatched (List.mem_cons_self ..))
  have h₃ := Valid.cons h₂ (.acquire (n := 0) rfl rfl rfl)
  have h₄ := Valid.cons h₃ (.count rfl)
  have h₅ := Valid.cons h₄ (.desired rfl)
  have h₆ := Valid.cons h₅ (@ProcessStep.leave _ 2 (.tail _ (.head _)) (.inr (by decide : 1 < 2)))
  have h₇ := Valid.cons h₆ (@ProcessStep.exit _ 2 (.head _))
  refine ⟨_, h₇, ?_, by decide +kernel⟩
  simp [startRun, ProcessEvent.Orderly]

/-- Then the size goes back to three, and a second thread 3 is started. -/
theorem slots_unique_fails : ∃ (row : RuntimeConfig) (h : History ProcessEvent Process),
    ProcessRun row h ∧ ¬ (now (Process.new row) h).slots.Nodup ∧
      ¬ ((now (Process.new row) h).slots.map (workerId "worker")).Nodup := by
  obtain ⟨h, hr, -, hp⟩ := shrunk_sample
  have h₁ := Valid.cons hr (.patch (sizedConfig 3 rfl))
  rw [hp] at h₁
  have h₂ := Valid.cons h₁ (.replacePatched (List.mem_cons_self ..))
  have h₃ := Valid.cons h₂ (.acquire (n := 0) rfl rfl rfl)
  have h₄ := Valid.cons h₃ (.count rfl)
  have h₅ := Valid.cons h₄ (.desired rfl)
  have h₆ := Valid.cons h₅ (.create rfl)
  refine ⟨_, _, h₆, (by decide : ¬ [3, 3, 1].Nodup), ?_⟩
  exact (by decide +kernel : ¬ ([3, 3, 1].map (workerId "worker")).Nodup)

end PulseQueue
