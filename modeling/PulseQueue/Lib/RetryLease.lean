import Mathlib

/-!
# Leased work with a retry budget

A piece of work waits, is held by a worker, and leaves the worker with a verdict: it is done, it
waits again, or, when the verdicts have used up the budget of retries, it is dead. Waiting work can be
dropped. `log` has the verdicts in order. `Inv` says what the log of any reachable state looks
like; it is proved per step (`Inv.step`) and for runs (`Inv.reachable`).
-/

namespace RetryLease

variable {W V : Type}

inductive Phase (W : Type)
  | waiting
  | held (w : W)
  | done
  | dead
  | dropped

structure State (W V : Type) where
  phase : Phase W
  log : List V

/-- The phases in which more verdicts may follow, or might have. -/
def Phase.open : Phase W → Prop
  | waiting | held _ | dropped => True
  | done | dead => False

section
variable (good : V → Prop) (budget : Nat)

inductive Step : State W V → State W V → Prop
  | take (log : List V) (w : W) : Step ⟨.waiting, log⟩ ⟨.held w, log⟩
  | finish {log : List V} {w : W} {v : V} : good v → Step ⟨.held w, log⟩ ⟨.done, log ++ [v]⟩
  | retry {log : List V} {w : W} {v : V} : ¬ good v → log.length + 1 ≤ budget →
      Step ⟨.held w, log⟩ ⟨.waiting, log ++ [v]⟩
  | exhaust {log : List V} {w : W} {v : V} : ¬ good v → budget < log.length + 1 →
      Step ⟨.held w, log⟩ ⟨.dead, log ++ [v]⟩
  | drop (log : List V) : Step ⟨.waiting, log⟩ ⟨.dropped, log⟩

structure Inv (s : State W V) : Prop where
  bad : ∀ v ∈ s.log.dropLast, ¬ good v
  last : (∃ v, s.log.getLast? = some v ∧ good v) ↔ s.phase = .done
  open_le : s.phase.open → s.log.length ≤ budget
  done_le : s.phase = .done → 1 ≤ s.log.length ∧ s.log.length ≤ budget + 1
  dead_eq : s.phase = .dead → s.log.length = budget + 1

end

variable {good : V → Prop} {budget : Nat} {s s' : State W V}

theorem Inv.init : Inv good budget (⟨.waiting, []⟩ : State W V) where
  bad := by simp
  last := by simp
  open_le := by simp
  done_le := by simp
  dead_eq := by simp

/-- While the work is not done every verdict is bad. -/
theorem Inv.all_bad (h : Inv good budget s) (hp : s.phase ≠ .done) : ∀ v ∈ s.log, ¬ good v := by
  intro v hv
  rcases List.eq_nil_or_concat s.log with hn | ⟨l, x, hl⟩
  · rw [hn] at hv
    cases hv
  · have hb := h.bad
    have hlast := h.last
    rw [hl, List.concat_eq_append] at hb hlast hv
    rw [List.dropLast_concat] at hb
    rcases List.mem_append.1 hv with hv | hv
    · exact hb v hv
    · rw [List.mem_singleton.1 hv]
      exact fun hg => hp (hlast.1 ⟨x, by simp, hg⟩)

/-- The budget of verdicts. -/
theorem Inv.length_le (h : Inv good budget s) : s.log.length ≤ budget + 1 := by
  obtain ⟨phase, log⟩ := s
  cases phase with
  | waiting | held | dropped => exact Nat.le_succ_of_le (h.open_le trivial)
  | done => exact (h.done_le rfl).2
  | dead => exact Nat.le_of_eq (h.dead_eq rfl)

/-- A verdict is added to held work, in the phase that `Step` allows. -/
theorem Inv.extend {log : List V} {w : W} {v : V} {p : Phase W}
    (h : Inv good budget ⟨.held w, log⟩) (hv : good v ↔ p = .done)
    (ho : p.open → log.length + 1 ≤ budget) (hd : p = .dead → budget < log.length + 1) :
    Inv good budget ⟨p, log ++ [v]⟩ := by
  have hle : log.length ≤ budget := h.open_le trivial
  refine ⟨?_, ?_, ?_, ?_, ?_⟩
  · simpa using h.all_bad (by simp)
  · simpa using hv
  · intro hp
    simpa using ho hp
  · intro _
    simp only [List.length_append, List.length_cons, List.length_nil]
    omega
  · intro hp
    have := hd hp
    simp only [List.length_append, List.length_cons, List.length_nil]
    omega

theorem Inv.step (h : Inv good budget s) (hs : Step good budget s s') : Inv good budget s' := by
  cases hs with
  | take log w => exact ⟨h.bad, by simpa using h.last, fun _ => h.open_le trivial, by simp, by simp⟩
  | finish hv => exact h.extend (by simpa using hv) (by simp [Phase.open]) (by simp)
  | retry hv hb => exact h.extend (by simpa using hv) (fun _ => hb) (by simp)
  | exhaust hv hb => exact h.extend (by simpa using hv) (by simp [Phase.open]) (fun _ => hb)
  | drop log => exact ⟨h.bad, by simpa using h.last, fun _ => h.open_le trivial, by simp, by simp⟩

theorem Inv.reachable (hr : Relation.ReflTransGen (Step good budget) ⟨.waiting, []⟩ s) :
    Inv good budget s := by
  induction hr with
  | refl => exact Inv.init
  | tail _ hs ih => exact ih.step hs

end RetryLease
