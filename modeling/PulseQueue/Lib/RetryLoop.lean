import PulseQueue.Lib.RetryLease

/-!
# The reference of a retry loop

Attempts are claimed, run and recorded, one after the other. A good outcome ends the loop; after a bad one
the work waits until its next time (`next`), or is dead when the budget of retries is used up. A run is
the list of what happened, newest first. Its verdicts are those of leased work (`Run.lease`), so
everything about their number and order comes from `RetryLease.Inv`; what is added here are the numbers
of the attempts (`Run.outcomes_eq`, `Run.invocations`) and the times of the claims (`Run.due`).
-/

namespace RetryLoop

variable {O T C : Type}

inductive Happening (O T C : Type)
  | claimed (time : T) (number : Nat)
  | invoked (number : Nat) (outcome : O)
  | finished (time : T) (number : Nat)
  /-- recorded as a failure, with the configuration in force -/
  | failed (time : T) (number : Nat) (config : C)

inductive Phase (O T : Type)
  | waiting (due : Option T)
  | claimed
  | invoked (outcome : O)
  | done
  | dead

structure State (O T : Type) where
  phase : Phase O T
  /-- the recorded outcomes, in order -/
  log : List O

/-- The outcome that is not yet recorded. -/
def Phase.pending : Phase O T → List O
  | .invoked o => [o]
  | _ => []

/-- The outcomes of all attempts so far. -/
def State.outcomes (s : State O T) : List O := s.log ++ s.phase.pending

section
variable [LE T] (good : O → Prop) (budget : Nat) (next : C → Nat → T → T → Prop)

inductive Step : State O T → Happening O T C → State O T → Prop
  | claim {log : List O} {due : Option T} {now : T} : (∀ t ∈ due, t ≤ now) →
      Step ⟨.waiting due, log⟩ (.claimed now (log.length + 1)) ⟨.claimed, log⟩
  | invoke {log : List O} (o : O) :
      Step ⟨.claimed, log⟩ (.invoked (log.length + 1) o) ⟨.invoked o, log⟩
  | finish {log : List O} {o : O} (now : T) : good o →
      Step ⟨.invoked o, log⟩ (.finished now (log.length + 1)) ⟨.done, log ++ [o]⟩
  | retry {log : List O} {o : O} {now due : T} {c : C} : ¬ good o → log.length + 1 ≤ budget →
      next c (log.length + 1) now due →
      Step ⟨.invoked o, log⟩ (.failed now (log.length + 1) c) ⟨.waiting (some due), log ++ [o]⟩
  | exhaust {log : List O} {o : O} (now : T) (c : C) : ¬ good o → budget < log.length + 1 →
      Step ⟨.invoked o, log⟩ (.failed now (log.length + 1) c) ⟨.dead, log ++ [o]⟩

inductive Run : List (Happening O T C) → State O T → Prop
  | nil : Run [] ⟨.waiting none, []⟩
  | cons {l : List (Happening O T C)} {s s' : State O T} {e : Happening O T C} : Run l s →
      Step good budget next s e s' → Run (e :: l) s'

end

/-- The number and the outcome of an invocation. -/
def Happening.invocation : Happening O T C → Option (Nat × O)
  | .invoked n o => some (n, o)
  | _ => none

/-! ## Verdicts -/

/-- The state of the work under lease. -/
def State.lease (s : State O T) : RetryLease.State Unit O where
  log := s.log
  phase := match s.phase with
    | .waiting _ => .waiting
    | .claimed | .invoked _ => .held ()
    | .done => .done
    | .dead => .dead

section
variable [LE T] {good : O → Prop} {budget : Nat} {next : C → Nat → T → T → Prop}
  {l : List (Happening O T C)} {s s' : State O T} {e : Happening O T C}

/-- A step is a step of the lease, or the invocation, which the lease does not see. -/
theorem Step.lease (hs : Step good budget next s e s') :
    s'.lease = s.lease ∨ RetryLease.Step good budget s.lease s'.lease := by
  cases hs with
  | @claim log => exact .inr (.take log ())
  | invoke => exact .inl rfl
  | finish now hg => exact .inr (.finish hg)
  | retry hg hb => exact .inr (.retry hg hb)
  | exhaust now c hg hb => exact .inr (.exhaust hg hb)

theorem Run.lease (hr : Run good budget next l s) : RetryLease.Inv good budget s.lease := by
  induction hr with
  | nil => exact RetryLease.Inv.init
  | cons _ hs ih =>
    rcases hs.lease with he | hstep
    · rw [he]
      exact ih
    · exact ih.step hstep

/-- One attempt more than retries. -/
theorem Run.outcomes_le (hr : Run good budget next l s) : s.outcomes.length ≤ budget + 1 := by
  have hinv := hr.lease
  obtain ⟨phase, log⟩ := s
  cases phase with
  | waiting due =>
    have hle : log.length ≤ budget := hinv.open_le trivial
    simp only [State.outcomes, Phase.pending, List.append_nil]
    omega
  | claimed =>
    have hle : log.length ≤ budget := hinv.open_le trivial
    simp only [State.outcomes, Phase.pending, List.append_nil]
    omega
  | invoked o =>
    have hle : log.length ≤ budget := hinv.open_le trivial
    simp only [State.outcomes, Phase.pending, List.length_append, List.length_singleton]
    omega
  | done =>
    have hle : 1 ≤ log.length ∧ log.length ≤ budget + 1 := hinv.done_le rfl
    simp only [State.outcomes, Phase.pending, List.append_nil]
    omega
  | dead =>
    have heq : log.length = budget + 1 := hinv.dead_eq rfl
    simp only [State.outcomes, Phase.pending, List.append_nil]
    omega

/-! ## Invocations -/

/-- A step invokes the handler for the next attempt, or not at all. -/
theorem Step.outcomes (hs : Step good budget next s e s') :
    (∃ o, e = .invoked (s.outcomes.length + 1) o ∧ s'.outcomes = s.outcomes ++ [o]) ∨
      e.invocation = none ∧ s'.outcomes = s.outcomes := by
  cases hs with
  | invoke o => exact .inl ⟨o, by simp [State.outcomes, Phase.pending]⟩
  | claim | finish | retry | exhaust => exact .inr ⟨rfl, by simp [State.outcomes, Phase.pending]⟩

/-- The invocations are numbered 1, 2, 3 and so on, in this order. -/
theorem Run.invocations (hr : Run good budget next l s) :
    (l.filterMap Happening.invocation).reverse =
      (List.range' 1 s.outcomes.length).zip s.outcomes := by
  induction hr with
  | nil => rfl
  | cons hr hs ih =>
    rcases hs.outcomes with ⟨o, rfl, ho⟩ | ⟨he, ho⟩
    · rw [List.filterMap_cons_some (f := Happening.invocation) rfl, List.reverse_cons, ih, ho,
        List.length_append, List.length_singleton, List.range'_concat, List.zip_append (by simp)]
      simp [Nat.add_comm]
    · rw [List.filterMap_cons_none he, ih, ho]

/-- The outcomes are those of the handler. -/
theorem Run.outcomes_eq (hr : Run good budget next l s) {o : Nat → O}
    (ho : ∀ n x, .invoked n x ∈ l → x = o n) : s.outcomes = (List.range' 1 s.outcomes.length).map o := by
  induction hr with
  | nil => rfl
  | cons hr hs ih =>
    have ih := ih fun n x hx => ho n x (List.mem_cons_of_mem _ hx)
    rcases hs.outcomes with ⟨x, rfl, hx⟩ | ⟨-, hx⟩
    · have hnew := ho _ _ (List.mem_cons_self ..)
      rw [hx, List.length_append, List.length_singleton, List.range'_concat, List.map_append, ← ih,
        hnew]
      simp [Nat.add_comm]
    · rw [hx]
      exact ih

/-- An outcome is that of one invocation. -/
theorem Run.invoked_iff (hr : Run good budget next l s) {n : Nat} {x : O} :
    .invoked n x ∈ l ↔ 1 ≤ n ∧ s.outcomes[n - 1]? = some x := by
  have hmem : .invoked n x ∈ l ↔ (n, x) ∈ (List.range' 1 s.outcomes.length).zip s.outcomes := by
    rw [← hr.invocations, List.mem_reverse, List.mem_filterMap]
    constructor
    · intro hx
      exact ⟨_, hx, rfl⟩
    · rintro ⟨e, he, hn⟩
      cases e with
      | invoked m y =>
        cases hn
        exact he
      | claimed | finished | failed => cases hn
  rw [hmem, List.mem_iff_getElem?]
  constructor
  · rintro ⟨i, hi⟩
    obtain ⟨hn, hx⟩ := List.getElem?_zip_eq_some.1 hi
    obtain ⟨_, hn⟩ := List.getElem?_eq_some_iff.1 hn
    rw [List.getElem_range', Nat.one_mul] at hn
    obtain rfl : i = n - 1 := by omega
    exact ⟨by omega, hx⟩
  · rintro ⟨h1, hx⟩
    obtain ⟨hlt, -⟩ := List.getElem?_eq_some_iff.1 hx
    refine ⟨n - 1, List.getElem?_zip_eq_some.2 ⟨?_, hx⟩⟩
    rw [List.getElem?_range' hlt]
    congr 1
    omega

/-! ## Times -/

/-- Waiting work has failed at some time and is due at the time that follows from it. -/
def Waits (next : C → Nat → T → T → Prop) (l : List (Happening O T C)) (s : State O T) : Prop :=
  ∀ due, s.phase = .waiting due → (due = none ∧ s.log = []) ∨
    ∃ t c t', due = some t' ∧ .failed t s.log.length c ∈ l ∧ next c s.log.length t t'

theorem Run.waits (hr : Run good budget next l s) : Waits next l s := by
  cases hr with
  | nil =>
    intro due hd
    cases hd
    exact .inl ⟨rfl, rfl⟩
  | cons hr hs =>
    intro due hd
    cases hs with
    | @retry log o now due' c hg hb hn =>
      cases hd
      refine .inr ⟨now, c, due', rfl, ?_, ?_⟩
      · rw [List.length_append]
        exact List.mem_cons_self ..
      · rw [List.length_append]
        exact hn
    | claim | invoke | finish | exhaust => cases hd

/-- An attempt other than the first is not claimed before the time that follows from the failure of the one
before it. -/
theorem Run.due (hr : Run good budget next l s) {now : T} {n : Nat} (hc : .claimed now n ∈ l) :
    n = 1 ∨ ∃ t c t', .failed t (n - 1) c ∈ l ∧ next c (n - 1) t t' ∧ t' ≤ now := by
  induction hr with
  | nil => cases hc
  | cons hr hs ih =>
    rcases List.mem_cons.1 hc with rfl | hc
    · cases hs with
      | claim hdue =>
        rcases hr.waits _ rfl with ⟨-, hlog⟩ | ⟨t, c, t', rfl, hmem, hnext⟩
        · subst hlog
          exact .inl rfl
        · exact .inr ⟨t, c, t', List.mem_cons_of_mem _ hmem, hnext, hdue t' rfl⟩
    · rcases ih hc with h1 | ⟨t, c, t', hmem, hnext⟩
      · exact .inl h1
      · exact .inr ⟨t, c, t', List.mem_cons_of_mem _ hmem, hnext⟩

/-- A failure is that of the next attempt. -/
theorem Step.failed_number {t : T} {n : Nat} {c : C} (hs : Step good budget next s (.failed t n c) s') :
    n = s.log.length + 1 ∧ s'.log.length = n := by
  cases hs <;> simp

theorem Step.log_le (hs : Step good budget next s e s') : s.log.length ≤ s'.log.length := by
  cases hs <;> simp

theorem Run.failed_le (hr : Run good budget next l s) {t : T} {n : Nat} {c : C}
    (hf : .failed t n c ∈ l) : 1 ≤ n ∧ n ≤ s.log.length := by
  induction hr with
  | nil => cases hf
  | cons hr hs ih =>
    rcases List.mem_cons.1 hf with rfl | hf
    · obtain ⟨hn, hlen⟩ := hs.failed_number
      omega
    · obtain ⟨hpos, hle⟩ := ih hf
      exact ⟨hpos, hle.trans hs.log_le⟩

/-- No failure is recorded twice. -/
theorem Run.failed_unique (hr : Run good budget next l s) {t t' : T} {n : Nat} {c c' : C}
    (hf : .failed t n c ∈ l) (hf' : .failed t' n c' ∈ l) : t' = t ∧ c' = c := by
  induction hr with
  | nil => cases hf
  | cons hr hs ih =>
    rcases List.mem_cons.1 hf with rfl | hmem <;> rcases List.mem_cons.1 hf' with he | hmem'
    · cases he
      exact ⟨rfl, rfl⟩
    · have hn := hs.failed_number.1
      have hle := (hr.failed_le hmem').2
      omega
    · subst he
      have hn := hs.failed_number.1
      have hle := (hr.failed_le hmem).2
      omega
    · exact ih hmem hmem'

/-! ## Ends -/

section
variable {o : Nat → O}

/-- The outcome of the attempt `i + 1`. -/
theorem Run.log_get (hr : Run good budget next l s) (ho : ∀ n x, .invoked n x ∈ l → x = o n) {i : Nat}
    (hi : i < s.log.length) : s.log[i] = o (i + 1) := by
  have hlt : i < s.outcomes.length := by
    rw [State.outcomes, List.length_append]
    omega
  have hget : s.outcomes[i] = o (i + 1) := by
    have heq := hr.outcomes_eq ho
    have hget := List.getElem_of_eq heq hlt
    rw [hget, List.getElem_map, List.getElem_range']
    congr 1
    omega
  rw [← hget]
  simp only [State.outcomes, List.getElem_append_left hi]

/-- The loop is done after the first good outcome. -/
theorem Run.done (hr : Run good budget next l s) (ho : ∀ n x, .invoked n x ∈ l → x = o n)
    (hd : s.phase = .done) : 1 ≤ s.log.length ∧ s.log.length ≤ budget + 1 ∧ good (o s.log.length) ∧
      ∀ j, 1 ≤ j → j < s.log.length → ¬ good (o j) := by
  have hphase : s.lease.phase = .done := by simp [State.lease, hd]
  have hinv := hr.lease
  obtain ⟨hpos, hle⟩ : 1 ≤ s.log.length ∧ s.log.length ≤ budget + 1 := hinv.done_le hphase
  refine ⟨hpos, hle, ?_, fun j h1 hj => ?_⟩
  · obtain ⟨v, hv, hgood⟩ := hinv.last.2 hphase
    have hv : s.log.getLast? = some v := hv
    rw [List.getLast?_eq_getElem?, List.getElem?_eq_getElem (by omega), Option.some.injEq,
      hr.log_get ho, Nat.sub_add_cancel hpos] at hv
    rw [hv]
    exact hgood
  · have hbad := hinv.bad (o j)
    refine hbad ?_
    show o j ∈ s.log.dropLast
    have hget := hr.log_get ho (i := j - 1) (by omega)
    rw [Nat.sub_add_cancel h1] at hget
    rw [← hget, List.dropLast_eq_take]
    exact List.mem_take_iff_getElem.2 ⟨j - 1, by omega, rfl⟩

/-- The loop is dead after one bad outcome more than retries. -/
theorem Run.dead (hr : Run good budget next l s) (ho : ∀ n x, .invoked n x ∈ l → x = o n)
    (hd : s.phase = .dead) : s.log.length = budget + 1 ∧
      ∀ j, 1 ≤ j → j ≤ budget + 1 → ¬ good (o j) := by
  have hphase : s.lease.phase = .dead := by simp [State.lease, hd]
  have hinv := hr.lease
  have hlen : s.log.length = budget + 1 := hinv.dead_eq hphase
  refine ⟨hlen, fun j h1 hj => ?_⟩
  have hget := hr.log_get ho (i := j - 1) (by omega)
  rw [Nat.sub_add_cancel h1] at hget
  rw [← hget]
  exact hinv.all_bad (by rw [hphase]; simp) _ (List.getElem_mem _)

end

end

end RetryLoop
