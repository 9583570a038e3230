import PulseQueue.Lib.Txn

/-!
# Agreement of transactions

Two programs agree with respect to a relation `R` on stores when, started on related stores, they have
the same result or raise the same error, and end in related stores: `Agree` for transactions,
`AgreeConn` for code that runs several. There is a rule for each way to build a program. For a loop
that adds up the results of its iterations (`total`), the order of the list does not matter when the
iterations commute (`total_perm`).
-/

namespace Txn

variable {σ ε α β : Type} {R : σ → σ → Prop}

/-- Both succeed with the same result, or both raise the same error. -/
inductive Outcomes (R : σ → σ → Prop) : Except ε (α × σ) → Except ε (α × σ) → Prop
  | ok (a : α) {s t : σ} : R s t → Outcomes R (.ok (a, s)) (.ok (a, t))
  | error (e : ε) : Outcomes R (.error e) (.error e)

theorem Outcomes.trans (ht : ∀ a b c, R a b → R b c → R a c) {x y z : Except ε (α × σ)}
    (h : Outcomes R x y) (h' : Outcomes R y z) : Outcomes R x z := by
  cases h with
  | ok a hr =>
    cases h' with
    | ok _ hr' => exact .ok a (ht _ _ _ hr hr')
  | error e =>
    cases h' with
    | error _ => exact .error e

theorem Outcomes.bind {x y : Tx σ ε α} {f g : α → Tx σ ε β} {s t : σ} (hx : Outcomes R (x s) (y t))
    (hf : ∀ a s' t', R s' t' → Outcomes R (f a s') (g a t')) :
    Outcomes R ((x >>= f) s) ((y >>= g) t) := by
  rw [Tx.bind_run, Tx.bind_run]
  generalize x s = xs at hx
  generalize y t = yt at hx
  cases hx with
  | ok a hr => exact hf a _ _ hr
  | error e => exact .error e

theorem Outcomes.run {x y : Tx σ ε α} {s t : σ} (h : Outcomes R (x s) (y t)) (hr : R s t) :
    (Conn.run x s).1 = (Conn.run y t).1 ∧ R (Conn.run x s).2 (Conn.run y t).2 := by
  rw [Conn.run_run, Conn.run_run]
  unfold atomically
  generalize x s = xs at h
  generalize y t = yt at h
  cases h with
  | ok a hr' => exact ⟨rfl, hr'⟩
  | error e => exact ⟨rfl, hr⟩

/-! ## Transactions -/

def Agree (R : σ → σ → Prop) (x y : Tx σ ε α) : Prop := ∀ s t, R s t → Outcomes R (x s) (y t)

theorem Agree.pure (a : α) : Agree R (Pure.pure a : Tx σ ε α) (Pure.pure a) :=
  fun _ _ h => .ok a h

theorem Agree.ofExcept (x : Except ε α) : Agree R (Tx.ofExcept x : Tx σ ε α) (Tx.ofExcept x) := by
  intro s t h
  cases x with
  | ok a => exact .ok a h
  | error e => exact .error e

theorem Agree.bind {x y : Tx σ ε α} {f g : α → Tx σ ε β} (hx : Agree R x y)
    (hf : ∀ a, Agree R (f a) (g a)) : Agree R (x >>= f) (y >>= g) :=
  fun s t h => (hx s t h).bind fun a s' t' h' => hf a s' t' h'

/-! ## Several transactions -/

def AgreeConn (R : σ → σ → Prop) (x y : Conn σ ε α) : Prop :=
  ∀ s t, R s t → (x s).1 = (y t).1 ∧ R (x s).2 (y t).2

theorem AgreeConn.run {x y : Tx σ ε α} (h : Agree R x y) : AgreeConn R (Conn.run x) (Conn.run y) :=
  fun s t hr => (h s t hr).run hr

theorem AgreeConn.pure (a : α) : AgreeConn R (Pure.pure a : Conn σ ε α) (Pure.pure a) :=
  fun _ _ h => ⟨rfl, h⟩

theorem AgreeConn.raise (e : ε) : AgreeConn R (Conn.raise e : Conn σ ε α) (Conn.raise e) :=
  fun _ _ h => ⟨rfl, h⟩

/-- A query that has the same answer on related stores. -/
theorem AgreeConn.query {f g : σ → Except ε α} (h : ∀ s t, R s t → f s = g t) :
    AgreeConn R (fun s => (f s, s)) (fun s => (g s, s)) :=
  fun s t hr => ⟨h s t hr, hr⟩

theorem AgreeConn.attempt {x y : Conn σ ε α} (h : AgreeConn R x y) :
    AgreeConn R (Conn.attempt x) (Conn.attempt y) := by
  intro s t hr
  obtain ⟨h1, h2⟩ := h s t hr
  exact ⟨congrArg Except.ok h1, h2⟩

theorem AgreeConn.bind {x y : Conn σ ε α} {f g : α → Conn σ ε β} (hx : AgreeConn R x y)
    (hf : ∀ a, AgreeConn R (f a) (g a)) : AgreeConn R (x >>= f) (y >>= g) := by
  intro s t hr
  obtain ⟨h1, h2⟩ := hx s t hr
  rw [Conn.bind_run, Conn.bind_run]
  rcases hxs : x s with ⟨a, s'⟩
  rcases hyt : y t with ⟨b, t'⟩
  rw [hxs, hyt] at h1 h2
  obtain rfl : a = b := h1
  cases a with
  | ok a => exact hf a s' t' h2
  | error e => exact ⟨rfl, h2⟩

/-! ## Loops whose iterations commute -/

variable {ι : Type}

/-- The sum of the results, one iteration for each element of the list. -/
def total (f : ι → Tx σ ε Nat) : Nat → List ι → Tx σ ε Nat
  | n, [] => pure n
  | n, x :: xs => do
    let k ← f x
    total f (n + k) xs

/-- Two bodies one after the other. -/
def inTurn (x y : Tx σ ε Nat) : Tx σ ε Nat := do
  let i ← x
  let j ← y
  pure (i + j)

theorem total_cons_cons (f : ι → Tx σ ε Nat) (n : Nat) (x y : ι) (xs : List ι) :
    total f n (x :: y :: xs) = inTurn (f x) (f y) >>= fun k => total f (n + k) xs := by
  funext s
  simp only [total, inTurn, Tx.bind_run]
  cases f x s with
  | error e => rfl
  | ok p =>
    obtain ⟨i, s'⟩ := p
    dsimp only
    cases f y s' with
    | error e => rfl
    | ok q =>
      obtain ⟨j, s''⟩ := q
      dsimp only
      rw [Nat.add_assoc]
      rfl

theorem Agree.total {f g : ι → Tx σ ε Nat} : ∀ {l : List ι}, (∀ x ∈ l, Agree R (f x) (g x)) →
    ∀ n, Agree R (total f n l) (total g n l)
  | [], _, n => Agree.pure n
  | x :: _, h, n =>
    (h x (List.mem_cons_self ..)).bind fun k =>
      Agree.total (fun y hy => h y (List.mem_cons_of_mem _ hy)) (n + k)

/-- The order of the iterations does not matter when they commute. -/
theorem total_perm (ht : ∀ a b c, R a b → R b c → R a c) (hr : ∀ a b, R a b → R b b)
    {f : ι → Tx σ ε Nat} {l l' : List ι} (hp : l.Perm l') (hn : l.Nodup)
    (hself : ∀ x ∈ l, Agree R (f x) (f x))
    (hcomm : ∀ x ∈ l, ∀ y ∈ l, x ≠ y → ∀ s, R s s →
      Outcomes R (inTurn (f x) (f y) s) (inTurn (f y) (f x) s)) :
    ∀ n, Agree R (Txn.total f n l) (Txn.total f n l') := by
  induction hp with
  | nil => exact fun n => Agree.pure n
  | @cons x l l' _ ih =>
    intro n
    refine (hself x (List.mem_cons_self ..)).bind fun k => ih ?_ ?_ ?_ (n + k)
    · exact (List.nodup_cons.1 hn).2
    · exact fun y hy => hself y (List.mem_cons_of_mem _ hy)
    · exact fun y hy z hz => hcomm y (List.mem_cons_of_mem _ hy) z (List.mem_cons_of_mem _ hz)
  | swap x y l =>
    intro n s t hst
    rw [total_cons_cons, total_cons_cons]
    have hx : x ∈ y :: x :: l := List.mem_cons_of_mem _ (List.mem_cons_self ..)
    have hy : y ∈ y :: x :: l := List.mem_cons_self ..
    have hne : y ≠ x := by
      intro he
      rw [he] at hn
      exact (List.nodup_cons.1 hn).1 (List.mem_cons_self ..)
    have hself' : Agree R (inTurn (f y) (f x)) (inTurn (f y) (f x)) :=
      (hself y hy).bind fun i => (hself x hx).bind fun j => Agree.pure (i + j)
    have hpair : Outcomes R (inTurn (f y) (f x) s) (inTurn (f x) (f y) t) :=
      (hself' s t hst).trans ht (hcomm y hy x hx hne t (hr s t hst))
    refine hpair.bind fun k s' t' hst' => ?_
    refine Agree.total (fun z hz => hself z ?_) (n + k) s' t' hst'
    exact List.mem_cons_of_mem _ (List.mem_cons_of_mem _ hz)
  | @trans l₁ l₂ l₃ h₁ _ ih₁ ih₂ =>
    intro n s t hst
    have hm : ∀ x, x ∈ l₂ → x ∈ l₁ := fun x hx => h₁.mem_iff.2 hx
    refine (ih₁ hn hself hcomm n s t hst).trans ht (ih₂ ?_ ?_ ?_ n t t (hr s t hst))
    · exact h₁.nodup_iff.1 hn
    · exact fun x hx => hself x (hm x hx)
    · exact fun x hx y hy => hcomm x (hm x hx) y (hm y hy)

end Txn
