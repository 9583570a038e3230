import PulseQueue.Lib.Interaction
import PulseQueue.Lib.Trace

/-!
# Threads on a shared memory

Any number of threads run bodies over and over, and a memory that they share answers their commands one at
a time, in any interleaving; the memory may also change by itself. What a body does command by command
holds of all threads in all runs (`Run.meets`). `Run.total` is the rule for a counter: its value is what
the threads have added to it. A `Lock` is a lock that threads try to take and a variable that only its
holder writes; `Lock.Inv` says that one thread at most is inside, and knows the variable (`Run.locked`).
-/

namespace Shared

open Interaction Trace

variable {ι C E α σ V : Type} {A : C → Type}

structure Thread (ι C : Type) (A : C → Type) (E α : Type) where
  id : ι
  /-- its exchanges so far, in all rounds -/
  past : Conversation C A
  rest : Prog C A E α

structure State (ι C : Type) (A : C → Type) (E α σ : Type) where
  memory : σ
  threads : List (Thread ι C A E α)

/-- How the memory answers, how it changes by itself, what a thread runs, and after which results it does
so again. -/
structure Machine (ι C : Type) (A : C → Type) (E α σ : Type) where
  answers : (c : C) → σ → A c → σ → Prop
  changes : σ → σ → Prop
  body : ι → Prog C A E α
  again : α → Prop

inductive Event (ι C : Type) (A : C → Type)
  | spawn (i : ι)
  | act (x : Exchange C A)
  | again (i : ι)
  | change

inductive Step (M : Machine ι C A E α σ) :
    State ι C A E α σ → Event ι C A → State ι C A E α σ → Prop
  | spawn {m : σ} {ts : List (Thread ι C A E α)} (i : ι) :
      Step M ⟨m, ts⟩ (.spawn i) ⟨m, ts ++ [⟨i, [], M.body i⟩]⟩
  | act {m m' : σ} {l r : List (Thread ι C A E α)} {i : ι} {past : Conversation C A} {c : C}
      {k : A c → Prog C A E α} {x : A c} : M.answers c m x m' →
      Step M ⟨m, l ++ ⟨i, past, .call c k⟩ :: r⟩ (.act ⟨c, x⟩)
        ⟨m', l ++ ⟨i, past ++ [⟨c, x⟩], k x⟩ :: r⟩
  | again {m : σ} {l r : List (Thread ι C A E α)} {i : ι} {past : Conversation C A} {a : α} :
      M.again a → Step M ⟨m, l ++ ⟨i, past, .pure a⟩ :: r⟩ (.again i)
        ⟨m, l ++ ⟨i, past, M.body i⟩ :: r⟩
  | change {m m' : σ} {ts : List (Thread ι C A E α)} : M.changes m m' →
      Step M ⟨m, ts⟩ .change ⟨m', ts⟩

abbrev Past (_ : Machine ι C A E α σ) : Type := History (Event ι C A) (State ι C A E α σ)

/-- The runs from the memory `m`, without threads at first. -/
abbrev Run (M : Machine ι C A E α σ) (m : σ) (h : Past M) : Prop :=
  Valid (State.mk m []) (fun h => Step M (now (State.mk m []) h)) h

variable {M : Machine ι C A E α σ} {m : σ} {h : Past M} {s s' : State ι C A E α σ} {e : Event ι C A}

theorem mem_middle {t u : Thread ι C A E α} {l r : List (Thread ι C A E α)}
    (ht : t ∈ l ++ u :: r) : t = u ∨ t ∈ l ++ r := by
  simp only [List.mem_append, List.mem_cons] at ht ⊢
  tauto

theorem mem_of_middle {t u : Thread ι C A E α} {l r : List (Thread ι C A E α)} (ht : t ∈ l ++ r) :
    t ∈ l ++ u :: r := by
  simp only [List.mem_append, List.mem_cons] at ht ⊢
  tauto

/-! ## A thread alone -/

/-- The memory can give these answers, one after the other. -/
inductive Plays (M : Machine ι C A E α σ) : σ → Conversation C A → σ → Prop
  | nil (m : σ) : Plays M m [] m
  | cons {m m' m'' : σ} {c : C} {x : A c} {tr : Conversation C A} : M.answers c m x m' →
      Plays M m' tr m'' → Plays M m (⟨c, x⟩ :: tr) m''

/-- A thread goes as far as the memory can answer. -/
theorem Run.play {i : ι} {p q : Prog C A E α} {tr : Conversation C A} (ha : After p tr q) :
    ∀ {h : Past M} {m₁ m₂ : σ} {past : Conversation C A}, Run M m h →
      now (State.mk m []) h = ⟨m₁, [⟨i, past, p⟩]⟩ → Plays M m₁ tr m₂ →
      ∃ post : Past M, Run M m (post ++ h) ∧
        now (State.mk m []) (post ++ h) = ⟨m₂, [⟨i, past ++ tr, q⟩]⟩ ∧
        post.map (·.event) = (tr.map Event.act).reverse := by
  induction ha with
  | nil =>
    intro h m₁ m₂ past hr hnow hp
    cases hp
    exact ⟨[], hr, by rw [List.append_nil]; exact hnow, rfl⟩
  | @cons c k x tr q _ ih =>
    intro h m₁ m₂ past hr hnow hp
    cases hp with
    | @cons _ m' _ _ _ _ hans hp =>
      have hstep : Step M (now (State.mk m []) h) (.act ⟨c, x⟩) ⟨m', [⟨i, past ++ [⟨c, x⟩], k x⟩]⟩ := by
        rw [hnow]
        exact Step.act (l := []) (r := []) hans
      obtain ⟨post, hrun, hend, hevents⟩ := ih (Valid.cons hr hstep) rfl hp
      refine ⟨post ++ [⟨.act ⟨c, x⟩, ⟨m', [⟨i, past ++ [⟨c, x⟩], k x⟩]⟩⟩], ?_, ?_, ?_⟩
      · rw [List.append_assoc]
        exact hrun
      · rw [List.append_assoc]
        rw [List.append_assoc] at hend
        exact hend
      · simp [hevents]

/-! ## What all threads meet -/

/-- From any past with `J` the body meets `P`, and ends with `Q`; a new thread and one that goes on have
`J`. -/
structure Discipline (M : Machine ι C A E α σ) (P : Conversation C A → C → Prop)
    (Q : Conversation C A → Except E α → Prop) (J : Conversation C A → Prop) : Prop where
  start : J []
  body : ∀ i past, J past → Meets P Q past (M.body i)
  again : ∀ past a, Q past (.ok a) → M.again a → J past

section
variable {P : Conversation C A → C → Prop} {Q : Conversation C A → Except E α → Prop}
  {J : Conversation C A → Prop}

theorem Step.meets (hd : Discipline M P Q J) (hs : Step M s e s')
    (h : ∀ t ∈ s.threads, Meets P Q t.past t.rest) : ∀ t ∈ s'.threads, Meets P Q t.past t.rest := by
  intro t ht
  cases hs with
  | spawn i =>
    rcases List.mem_append.1 ht with ht | ht
    · exact h t ht
    · rw [List.mem_singleton.1 ht]
      exact hd.body i [] hd.start
  | @act _ _ l r _ past c k x _ =>
    rcases mem_middle ht with rfl | ht
    · have hcall := h _ (List.mem_append_right _ (List.mem_cons_self ..))
      exact hcall.2 x
    · exact h t (mem_of_middle ht)
  | @again _ l r i past a ha =>
    rcases mem_middle ht with rfl | ht
    · have hend := h _ (List.mem_append_right _ (List.mem_cons_self ..))
      exact hd.body i past (hd.again past a hend ha)
    · exact h t (mem_of_middle ht)
  | change _ => exact h t ht

theorem Run.meets (hd : Discipline M P Q J) (hr : Run M m h) :
    ∀ t ∈ (now (State.mk m []) h).threads, Meets P Q t.past t.rest :=
  hr.invariant (P := fun s => ∀ t ∈ s.threads, Meets P Q t.past t.rest)
    (fun _ ht => absurd ht List.not_mem_nil) fun _ _ _ _ hm hs => hs.meets hd hm

end

/-! ## What a thread was told -/

/-- What an answer tells about the memory, and what no later change takes back, a thread may go on
believing. -/
theorem Run.knows {R : Exchange C A → σ → Prop}
    (hact : ∀ c m x m', M.answers c m x m' → R ⟨c, x⟩ m' ∧ ∀ y, R y m → R y m')
    (hchange : ∀ m m', M.changes m m' → ∀ y, R y m → R y m') (hr : Run M m h) :
    ∀ t ∈ (now (State.mk m []) h).threads, ∀ x ∈ t.past, R x (now (State.mk m []) h).memory := by
  refine hr.invariant (P := fun s => ∀ t ∈ s.threads, ∀ x ∈ t.past, R x s.memory) ?_ ?_
  · exact fun _ ht => absurd ht List.not_mem_nil
  · intro h e s' _ ih hs t ht y hy
    generalize now (State.mk m []) h = s at ih hs
    cases hs with
    | spawn i =>
      rcases List.mem_append.1 ht with ht | ht
      · exact ih t ht y hy
      · rw [List.mem_singleton.1 ht] at hy
        cases hy
    | @act m m' l r i past c k x ha =>
      obtain ⟨hnew, hkept⟩ := hact c m x m' ha
      rcases mem_middle ht with rfl | ht
      · rcases List.mem_append.1 hy with hy | hy
        · exact hkept y (ih ⟨i, past, .call c k⟩ (by simp) y hy)
        · rw [List.mem_singleton.1 hy]
          exact hnew
      · exact hkept y (ih t (mem_of_middle ht) y hy)
    | @again m l r i past a ha =>
      rcases mem_middle ht with rfl | ht
      · exact ih ⟨i, past, .pure a⟩ (by simp) y hy
      · exact ih t (mem_of_middle ht) y hy
    | change hc => exact hchange _ _ hc y (ih t ht y hy)

/-- What the commands that the bodies issue keep of the memory. -/
theorem Run.keeps {P : Conversation C A → C → Prop} {Q : Conversation C A → Except E α → Prop}
    {J : Conversation C A → Prop} {I : σ → Prop} (hd : Discipline M P Q J) (hstart : I m)
    (hact : ∀ past c m x m', P past c → I m → M.answers c m x m' → I m')
    (hchange : ∀ m m', M.changes m m' → I m → I m') (hr : Run M m h) :
    I (now (State.mk m []) h).memory := by
  refine hr.invariant (P := fun s => I s.memory) hstart ?_
  intro h e s' hrun ih hs
  have hmeets := Run.meets hd hrun
  generalize now (State.mk m []) h = s at ih hs hmeets
  cases hs with
  | spawn i => exact ih
  | @act m m' l r i past c k x ha =>
    have hcall := hmeets ⟨i, past, .call c k⟩ (by simp)
    exact hact past c m x m' hcall.1 ih ha
  | again _ => exact ih
  | change hc => exact hchange _ _ hc ih

/-- An answer to a command that a body issues, from a memory of which the thread believes what it was
told. -/
theorem Run.answered {P : Conversation C A → C → Prop} {Q : Conversation C A → Except E α → Prop}
    {J : Conversation C A → Prop} {I : σ → Prop} {R : Exchange C A → σ → Prop}
    {S : Conversation C A → Exchange C A → Prop} (hd : Discipline M P Q J)
    (hstays : ∀ h, Run M m h → I (now (State.mk m []) h).memory)
    (hknows : ∀ h, Run M m h → ∀ t ∈ (now (State.mk m []) h).threads, ∀ x ∈ t.past,
      R x (now (State.mk m []) h).memory)
    (hact : ∀ past c m x m', P past c → I m → (∀ y ∈ past, R y m) → M.answers c m x m' → S past ⟨c, x⟩)
    (hr : Run M m h) : ∀ t ∈ (now (State.mk m []) h).threads, ∀ pre x post,
      t.past = pre ++ x :: post → S pre x := by
  refine hr.invariant (P := fun s => ∀ t ∈ s.threads, ∀ pre x post, t.past = pre ++ x :: post → S pre x) ?_ ?_
  · exact fun _ ht => absurd ht List.not_mem_nil
  · intro h e s' hrun ih hs t ht pre y post hpast
    have hmeets := Run.meets hd hrun
    have hstay := hstays h hrun
    have hknow := hknows h hrun
    generalize now (State.mk m []) h = s at ih hs hmeets hstay hknow
    cases hs with
    | spawn i =>
      rcases List.mem_append.1 ht with ht | ht
      · exact ih t ht pre y post hpast
      · rw [List.mem_singleton.1 ht] at hpast
        simp at hpast
    | @act m m' l r i past c k x ha =>
      rcases mem_middle ht with rfl | ht
      · have hcall := hmeets ⟨i, past, .call c k⟩ (by simp)
        rcases List.eq_nil_or_concat post with rfl | ⟨post, z, rfl⟩
        · obtain ⟨rfl, rfl⟩ := List.append_inj' hpast rfl |>.imp id List.singleton_inj.1
          exact hact past c m x m' hcall.1 hstay (hknow ⟨i, past, .call c k⟩ (by simp)) ha
        · rw [List.concat_eq_append, ← List.cons_append, ← List.append_assoc] at hpast
          obtain ⟨hpast, -⟩ := List.append_inj' hpast rfl
          exact ih ⟨i, past, .call c k⟩ (by simp) pre y post hpast
      · exact ih t (mem_of_middle ht) pre y post hpast
    | @again m l r i past a ha =>
      rcases mem_middle ht with rfl | ht
      · exact ih ⟨i, past, .pure a⟩ (by simp) pre y post hpast
      · exact ih t (mem_of_middle ht) pre y post hpast
    | change _ => exact ih t ht pre y post hpast

/-! ## Counters -/

/-- What the exchanges have added. -/
def balance (δ : Exchange C A → ℤ) (past : Conversation C A) : ℤ := (past.map δ).sum

def total (δ : Exchange C A → ℤ) (ts : List (Thread ι C A E α)) : ℤ :=
  (ts.map fun t => balance δ t.past).sum

section
variable {δ : Exchange C A → ℤ}

@[simp] theorem balance_nil : balance δ ([] : Conversation C A) = 0 := rfl

@[simp] theorem balance_snoc (past : Conversation C A) (x : Exchange C A) :
    balance δ (past ++ [x]) = balance δ past + δ x := by
  simp [balance]

theorem total_append (l r : List (Thread ι C A E α)) : total δ (l ++ r) = total δ l + total δ r := by
  simp [total]

theorem total_cons (t : Thread ι C A E α) (ts : List (Thread ι C A E α)) :
    total δ (t :: ts) = balance δ t.past + total δ ts := by
  simp [total]

/-- When each thread has added 1 or nothing, the total counts the ones. -/
theorem total_eq_countP {p : Thread ι C A E α → Bool} : ∀ {ts : List (Thread ι C A E α)},
    (∀ t ∈ ts, balance δ t.past = if p t then 1 else 0) → total δ ts = ts.countP p
  | [], _ => rfl
  | t :: ts, h => by
    have ht := h t (List.mem_cons_self ..)
    have ih := total_eq_countP fun u hu => h u (List.mem_cons_of_mem _ hu)
    rw [total_cons, ht, ih, List.countP_cons]
    split <;> simp [add_comm]

/-- The total is small when few threads have added at most 1. -/
theorem total_le_countP {p : Thread ι C A E α → Bool} : ∀ {ts : List (Thread ι C A E α)},
    (∀ t ∈ ts, 0 ≤ balance δ t.past ∧ balance δ t.past ≤ if p t then 1 else 0) →
      0 ≤ total δ ts ∧ total δ ts ≤ ts.countP p
  | [], _ => ⟨Int.le_refl 0, Int.le_refl 0⟩
  | t :: ts, h => by
    have ht := h t (List.mem_cons_self ..)
    have ih := total_le_countP fun u hu => h u (List.mem_cons_of_mem _ hu)
    rw [total_cons, List.countP_cons]
    split at ht <;> simp_all <;> omega

/-- What the event adds. -/
def Event.gain (δ : Exchange C A → ℤ) : Event ι C A → ℤ
  | .act x => δ x
  | _ => 0

theorem Step.total (hs : Step M s e s') : total δ s'.threads = total δ s.threads + e.gain δ := by
  cases hs with
  | spawn i => simp [total, Event.gain]
  | act _ =>
    simp only [total_append, total_cons, balance_snoc, Event.gain]
    ring
  | again _ => simp [total_append, total_cons, Event.gain]
  | change _ => simp [Event.gain]

/-- A counter that changes by what the exchanges add to it. -/
theorem Run.total {μ : σ → ℤ} (hact : ∀ c m x m', M.answers c m x m' → μ m' = μ m + δ ⟨c, x⟩)
    (hchange : ∀ m m', M.changes m m' → μ m' = μ m) (hr : Run M m h) :
    μ (now (State.mk m []) h).memory = μ m + total δ (now (State.mk m []) h).threads := by
  refine hr.invariant (P := fun s => μ s.memory = μ m + Shared.total δ s.threads) ?_ ?_
  · simp [Shared.total]
  · intro h e s _ ih hs
    rw [hs.total, ← add_assoc, ← ih]
    generalize now (State.mk m []) h = s₀ at hs
    cases hs with
    | spawn i => simp [Event.gain]
    | act ha => exact hact _ _ _ _ ha
    | again _ => simp [Event.gain]
    | change hc =>
      simp only [Event.gain, add_zero]
      exact hchange _ _ hc

end

/-! ## Potentials -/

/-- What the thread with the number `j` has, nothing before it is started. -/
def potential (f : Conversation C A → ℕ) (ts : List (Thread ι C A E α)) (j : ℕ) : ℕ :=
  (ts[j]?.map fun t => f t.past).getD 0

/-- What no exchange increases, no thread gets more of. -/
theorem Step.potential_le {f : Conversation C A → ℕ} (hnil : f [] = 0)
    (hact : ∀ t ∈ s.threads, ∀ c k, t.rest = .call c k → ∀ x m', M.answers c s.memory x m' →
      f (t.past ++ [⟨c, x⟩]) ≤ f t.past)
    (hs : Step M s e s') (j : ℕ) : potential f s'.threads j ≤ potential f s.threads j := by
  cases hs with
  | @spawn m ts i =>
    simp only [potential, List.getElem?_append]
    split
    · exact le_rfl
    · rename_i hlt
      rw [List.getElem?_eq_none (not_lt.1 hlt)]
      cases h : [(⟨i, [], M.body i⟩ : Thread ι C A E α)][j - ts.length]? with
      | none => exact le_rfl
      | some t =>
        rw [List.mem_singleton.1 (List.mem_of_getElem? h)]
        simp [hnil]
  | @act m m' l r i past c k x ha =>
    have hle := hact ⟨i, past, .call c k⟩ (by simp) c k rfl x m' ha
    simp only [potential, List.getElem?_append, List.getElem?_cons]
    split
    · exact le_rfl
    · split
      · simpa using hle
      · exact le_rfl
  | @again m l r i past a ha =>
    simp only [potential, List.getElem?_append, List.getElem?_cons]
    split
    · exact le_rfl
    · split
      · simp
      · exact le_rfl
  | change _ => exact le_rfl

/-! ## Locks -/

/-- What an exchange means for a lock and its variable. -/
inductive Use (V : Type)
  | acquired
  | released
  | read (v : V)
  | wrote (v : V)
  | other

/-- What it does to them; the lock is taken or free. -/
inductive Use.Moves : Use V → Bool × V → Bool × V → Prop
  | acquired (v : V) : Moves .acquired (false, v) (true, v)
  | released (b : Bool) (v : V) : Moves .released (b, v) (false, v)
  | read (b : Bool) (v : V) : Moves (.read v) (b, v) (b, v)
  | wrote (b : Bool) (v w : V) : Moves (.wrote w) (b, v) (b, w)
  | other (b : Bool) (v : V) : Moves .other (b, v) (b, v)

/-- Only a write changes the variable. -/
theorem Use.Moves.same {u : Use V} {s s' : Bool × V} (h : u.Moves s s') (hu : ∀ v, u ≠ .wrote v) :
    s'.2 = s.2 := by
  cases h with
  | wrote b v w => exact absurd rfl (hu w)
  | acquired | released | read | other => rfl

/-- Where a thread is: inside it may know the value of the variable. -/
inductive Place (V : Type)
  | out
  | inside (seen : Option V)

namespace Place

def after : Place V → Use V → Place V
  | _, .acquired => inside none
  | _, .released => out
  | inside _, .read v => inside (some v)
  | inside _, .wrote v => inside (some v)
  | p, _ => p

def isInside : Place V → Bool
  | inside _ => true
  | out => false

end Place

@[simp] theorem Place.after_other (p : Place V) : p.after .other = p := by cases p <;> rfl

/-- Where a thread is after its exchanges. -/
def place (use : Exchange C A → Use V) (past : Conversation C A) : Place V :=
  past.foldl (fun p x => p.after (use x)) .out

@[simp] theorem place_nil (use : Exchange C A → Use V) : place use [] = .out := rfl

@[simp] theorem place_snoc (use : Exchange C A → Use V) (past : Conversation C A) (x : Exchange C A) :
    place use (past ++ [x]) = (place use past).after (use x) := by
  simp [place]

/-- A lock of the memory with its variable, and what the exchanges mean for them. -/
structure Lock (M : Machine ι C A E α σ) (V : Type) where
  cell : σ → Bool × V
  use : Exchange C A → Use V
  moves : ∀ c m x m', M.answers c m x m' → (use ⟨c, x⟩).Moves (cell m) (cell m')
  unchanged : ∀ m m', M.changes m m' → cell m' = cell m

namespace Lock

variable (L : Lock M V)

/-- Releases and writes come from inside. -/
def Orderly (past : Conversation C A) (c : C) : Prop :=
  ∀ x, L.use ⟨c, x⟩ = .released ∨ (∃ v, L.use ⟨c, x⟩ = .wrote v) → (place L.use past).isInside = true

/-- How many threads are inside. -/
def crowd (ts : List (Thread ι C A E α)) : ℕ := ts.countP fun t => (place L.use t.past).isInside

structure Inv (s : State ι C A E α σ) : Prop where
  crowd : L.crowd s.threads = if (L.cell s.memory).1 then 1 else 0
  seen : ∀ t ∈ s.threads, ∀ v, place L.use t.past = .inside (some v) → v = (L.cell s.memory).2

variable {L}

theorem crowd_middle (l r : List (Thread ι C A E α)) (t : Thread ι C A E α) :
    L.crowd (l ++ t :: r) = L.crowd (l ++ r) + if (place L.use t.past).isInside then 1 else 0 := by
  simp only [Lock.crowd, List.countP_append, List.countP_cons]
  omega

theorem out_of_crowd {ts : List (Thread ι C A E α)} (h : L.crowd ts = 0) {t : Thread ι C A E α}
    (ht : t ∈ ts) : place L.use t.past = .out := by
  have hnot := List.countP_eq_zero.1 h t ht
  cases hp : place L.use t.past with
  | out => rfl
  | inside seen => simp [hp, Place.isInside] at hnot

theorem Inv.step {P : Conversation C A → C → Prop} {Q : Conversation C A → Except E α → Prop}
    (hP : ∀ past c, P past c → L.Orderly past c)
    (hmeets : ∀ t ∈ s.threads, Meets P Q t.past t.rest) (hi : L.Inv s) (hs : Step M s e s') :
    L.Inv s' := by
  cases hs with
  | @spawn m ts i =>
    refine ⟨?_, fun t ht v hv => ?_⟩
    · rw [crowd_middle ts [] ⟨i, [], M.body i⟩, List.append_nil, hi.crowd]
      simp [Place.isInside]
    · rcases List.mem_append.1 ht with ht | ht
      · exact hi.seen t ht v hv
      · rw [List.mem_singleton.1 ht] at hv
        cases hv
  | @again m l r i past a ha =>
    refine ⟨?_, fun t ht v hv => ?_⟩
    · rw [crowd_middle, ← crowd_middle l r ⟨i, past, .pure a⟩]
      exact hi.crowd
    · rcases mem_middle ht with rfl | ht
      · exact hi.seen ⟨i, past, .pure a⟩ (by simp) v hv
      · exact hi.seen t (mem_of_middle ht) v hv
  | @change m m' ts hc =>
    have hcell := L.unchanged m m' hc
    refine ⟨?_, fun t ht v hv => ?_⟩
    · rw [hcell]
      exact hi.crowd
    · rw [hcell]
      exact hi.seen t ht v hv
  | @act m m' l r i past c k x ha =>
    have hcrowd := hi.crowd
    have horderly := hP past c (hmeets ⟨i, past, .call c k⟩ (by simp)).1 x
    have hown := hi.seen ⟨i, past, .call c k⟩ (by simp)
    have hothers : ∀ t ∈ l ++ r, ∀ v, place L.use t.past = .inside (some v) → v = (L.cell m).2 :=
      fun t ht => hi.seen t (mem_of_middle ht)
    -- nobody else is inside with this thread, so a write is seen by nobody else
    have halone : (place L.use past).isInside = true → ∀ t ∈ l ++ r, place L.use t.past = .out := by
      intro hin t ht
      refine out_of_crowd ?_ ht
      simp only [crowd_middle, hin, if_true] at hcrowd
      split at hcrowd <;> omega
    simp only [crowd_middle] at hcrowd
    have hmoves := L.moves c m x m' ha
    suffices h : (L.crowd (l ++ r) + if (place L.use (past ++ [⟨c, x⟩])).isInside then 1 else 0) =
        (if (L.cell m').1 then 1 else 0) ∧
        (∀ v, place L.use (past ++ [⟨c, x⟩]) = .inside (some v) → v = (L.cell m').2) ∧
        ∀ t ∈ l ++ r, ∀ v, place L.use t.past = .inside (some v) → v = (L.cell m').2 by
      refine ⟨?_, fun t ht v hv => ?_⟩
      · rw [crowd_middle]
        exact h.1
      · rcases mem_middle ht with rfl | ht
        · exact h.2.1 v hv
        · exact h.2.2 t ht v hv
    rw [place_snoc]
    generalize L.cell m = before at hcrowd hown hothers hmoves
    generalize L.cell m' = after at hmoves
    generalize hu : L.use ⟨c, x⟩ = u at horderly hmoves
    cases hmoves with
    | acquired v =>
      have hzero : L.crowd (l ++ r) = 0 := by
        simp only [Bool.false_eq_true, if_false] at hcrowd
        omega
      refine ⟨by simp [Place.after, Place.isInside, hzero], ?_, fun t ht w hw => ?_⟩
      · rintro w ⟨⟩
      · rw [out_of_crowd hzero ht] at hw
        cases hw
    | released b v =>
      have hin := horderly (.inl rfl)
      have hzero : L.crowd (l ++ r) = 0 := by
        rw [hin] at hcrowd
        simp only [if_true] at hcrowd
        split at hcrowd <;> omega
      refine ⟨by simp [Place.after, Place.isInside, hzero], ?_, hothers⟩
      rintro w ⟨⟩
    | read b v =>
      cases hp : place L.use past with
      | out =>
        rw [hp] at hcrowd
        exact ⟨hcrowd, nofun, hothers⟩
      | inside seen =>
        rw [hp] at hcrowd
        refine ⟨hcrowd, ?_, hothers⟩
        rintro w ⟨⟩
        rfl
    | wrote b v w =>
      have hin := horderly (.inr ⟨w, rfl⟩)
      cases hp : place L.use past with
      | out =>
        rw [hp] at hin
        cases hin
      | inside seen =>
        rw [hp] at hcrowd
        refine ⟨hcrowd, ?_, fun t ht u hu => ?_⟩
        · rintro u ⟨⟩
          rfl
        · rw [halone hin t ht] at hu
          cases hu
    | other b v =>
      rw [Place.after_other]
      exact ⟨hcrowd, hown, hothers⟩

end Lock

/-- In every run one thread at most is inside, only while the lock is taken, and what it knows of the
variable is true. -/
theorem Run.locked {P : Conversation C A → C → Prop} {Q : Conversation C A → Except E α → Prop}
    {J : Conversation C A → Prop} (hd : Discipline M P Q J) {L : Lock M V}
    (hP : ∀ past c, P past c → L.Orderly past c) (hfree : (L.cell m).1 = false) (hr : Run M m h) :
    L.Inv (now (State.mk m []) h) := by
  refine hr.induct (P := fun h => L.Inv (now (State.mk m []) h)) ?_ ?_
  · refine ⟨?_, fun _ ht => absurd ht List.not_mem_nil⟩
    show 0 = if (L.cell m).1 then 1 else 0
    simp [hfree]
  · intro h e s hr ih hs
    exact ih.step hP (Run.meets hd hr) hs

/-- Two threads inside are one. -/
theorem Lock.Inv.alone {L : Lock M V} (hi : L.Inv s) {before mid after : List (Thread ι C A E α)}
    {t u : Thread ι C A E α} (hs : s.threads = before ++ t :: mid ++ u :: after)
    (ht : (place L.use t.past).isInside = true) : place L.use u.past = .out := by
  have hcrowd := hi.crowd
  rw [hs, crowd_middle, List.append_assoc, List.cons_append, crowd_middle, ht, if_pos rfl] at hcrowd
  cases hp : place L.use u.past with
  | out => rfl
  | inside seen =>
    simp only [hp, Place.isInside, if_true] at hcrowd
    split at hcrowd <;> omega

end Shared
