import PulseQueue.Lib.Interaction

/-!
# Transactions under one write lock

Any number of connections run transactions on one shared value, statement by statement and in any
interleaving; each may be rolled back at any moment. A statement that takes the write lock waits while
another connection has it, and from then on the transaction works on a copy that its commit publishes;
a statement without the lock reads what is committed (`Step`). When every body takes the lock with its
first statement, or is over after it (`LockFirst`), the commits are serial: each is a run of its whole
body on the value committed before it, or changes nothing (`Good.commit`).
-/

namespace Locking

open Interaction

variable {ι κ C σ E ρ : Type} {A : C → Type}

/-- The statements: what each answers and leaves, and whether it takes the write lock. One that does
not take it only reads. -/
structure Statements (C : Type) (A : C → Type) (σ : Type) where
  exec : (c : C) → σ → A c × σ
  locks : C → σ → Bool
  reads : ∀ c s, locks c s = false → (exec c s).2 = s

/-- The body alone on a value. -/
def run (D : Statements C A σ) : Prog C A E ρ → σ → Except E (ρ × σ)
  | .pure a, s => .ok (a, s)
  | .raise e, _ => .error e
  | .call c k, s => run D (k (D.exec c s).1) (D.exec c s).2

theorem run_bind {α : Type} (D : Statements C A σ) (p : Prog C A E ρ) (f : ρ → Prog C A E α) (s : σ) :
    run D (p >>= f) s = match run D p s with
      | .ok (a, s') => run D (f a) s'
      | .error e => .error e := by
  show run D (p.bind f) s = _
  induction p generalizing s with
  | pure a => rfl
  | raise e => rfl
  | call c k ih => exact ih _ _

/-- No statement is left. -/
def Finished : Prog C A E ρ → Prop
  | .call _ _ => False
  | _ => True

/-- The first statement takes the lock, or it is the only one. -/
def LockFirst (D : Statements C A σ) : Prog C A E ρ → Prop
  | .call c k => ∀ s, D.locks c s = false → Finished (k (D.exec c s).1)
  | _ => True

/-- The first statement of `p` takes no lock on the value `s` and leaves `q` of the body. -/
def Glances (D : Statements C A σ) (s : σ) (p q : Prog C A E ρ) : Prop :=
  ∃ c k, p = .call c k ∧ D.locks c s = false ∧ q = k (D.exec c s).1

/-- An open transaction: its call and what is left of the body. -/
structure Transaction (κ C : Type) (A : C → Type) (E ρ : Type) where
  call : κ
  rest : Prog C A E ρ

/-- The database: the committed value, the connection with the lock and its copy, and the open
transactions. -/
structure Db (ι κ C : Type) (A : C → Type) (E ρ σ : Type) where
  committed : σ
  holder : Option (ι × σ)
  open? : ι → Option (Transaction κ C A E ρ)

def Db.start (s : σ) : Db ι κ C A E ρ σ := ⟨s, none, fun _ => none⟩

/-- The connection has the lock and works on the copy `s`. -/
def Db.Holds (d : Db ι κ C A E ρ σ) (i : ι) (s : σ) : Prop := d.holder = some (i, s)

inductive Event (ι κ ρ : Type)
  | begin (i : ι) (call : κ)
  | statement (i : ι)
  | commit (i : ι) (call : κ) (a : ρ)
  | rollback (i : ι)

section
variable [DecidableEq ι]

def Db.set (d : Db ι κ C A E ρ σ) (i : ι) (t : Option (Transaction κ C A E ρ)) :
    ι → Option (Transaction κ C A E ρ) := Function.update d.open? i t

/-- The lock after `i` lets it go. -/
def Db.released (d : Db ι κ C A E ρ σ) (i : ι) : Option (ι × σ) :=
  d.holder.filter fun h => h.1 ≠ i

inductive Step (D : Statements C A σ) (body : κ → Prog C A E ρ) :
    Event ι κ ρ → Db ι κ C A E ρ σ → Db ι κ C A E ρ σ → Prop
  | begin {d : Db ι κ C A E ρ σ} (i : ι) (call : κ) : d.open? i = none →
      Step D body (.begin i call) d { d with open? := d.set i (some ⟨call, body call⟩) }
  /-- Without the lock, and without taking it. -/
  | read {d : Db ι κ C A E ρ σ} {i : ι} {call : κ} {c : C} {k : A c → Prog C A E ρ} :
      d.open? i = some ⟨call, .call c k⟩ → (∀ s, ¬ d.Holds i s) → D.locks c d.committed = false →
      Step D body (.statement i) d
        { d with open? := d.set i (some ⟨call, k (D.exec c d.committed).1⟩) }
  /-- Taking the lock. -/
  | lock {d : Db ι κ C A E ρ σ} {i : ι} {call : κ} {c : C} {k : A c → Prog C A E ρ} :
      d.open? i = some ⟨call, .call c k⟩ → d.holder = none → D.locks c d.committed = true →
      Step D body (.statement i) d
        { d with holder := some (i, (D.exec c d.committed).2)
                 open? := d.set i (some ⟨call, k (D.exec c d.committed).1⟩) }
  /-- With the lock. -/
  | write {d : Db ι κ C A E ρ σ} {i : ι} {s : σ} {call : κ} {c : C} {k : A c → Prog C A E ρ} :
      d.open? i = some ⟨call, .call c k⟩ → d.Holds i s →
      Step D body (.statement i) d
        { d with holder := some (i, (D.exec c s).2)
                 open? := d.set i (some ⟨call, k (D.exec c s).1⟩) }
  | commit {d : Db ι κ C A E ρ σ} {i : ι} {s : σ} {call : κ} {a : ρ} :
      d.open? i = some ⟨call, .pure a⟩ → d.Holds i s →
      Step D body (.commit i call a) d ⟨s, none, d.set i none⟩
  /-- The commit of a transaction that took no lock. -/
  | finish {d : Db ι κ C A E ρ σ} {i : ι} {call : κ} {a : ρ} :
      d.open? i = some ⟨call, .pure a⟩ → (∀ s, ¬ d.Holds i s) →
      Step D body (.commit i call a) d { d with open? := d.set i none }
  | rollback {d : Db ι κ C A E ρ σ} (i : ι) :
      Step D body (.rollback i) d { d with holder := d.released i, open? := d.set i none }

end

/-! ## The invariant -/

/-- The copy of the holder is where its body gets from the committed value; the others have not begun,
or finished without a lock on some earlier value. -/
structure Good (D : Statements C A σ) (body : κ → Prog C A E ρ) (le : σ → σ → Prop)
    (d : Db ι κ C A E ρ σ) : Prop where
  holder : ∀ i s, d.Holds i s →
    ∃ t, d.open? i = some t ∧ run D (body t.call) d.committed = run D t.rest s
  other : ∀ i t, d.open? i = some t → (∀ s, ¬ d.Holds i s) → t.rest = body t.call ∨
    Finished t.rest ∧ ∃ s, le s d.committed ∧ Glances D s (body t.call) t.rest

section
variable {D : Statements C A σ} {body : κ → Prog C A E ρ} {le : σ → σ → Prop}
  {d d' : Db ι κ C A E ρ σ} {e : Event ι κ ρ}

theorem Good.start (s : σ) : Good D body le (Db.start s : Db ι κ C A E ρ σ) where
  holder := by
    intro i s h
    cases h
  other := by
    intro i t h
    cases h

theorem Db.Holds.unique {i j : ι} {s s' : σ} (h : d.Holds i s) (h' : d.Holds j s') : i = j ∧ s = s' := by
  unfold Db.Holds at h h'
  rw [h] at h'
  cases h'
  exact ⟨rfl, rfl⟩

variable [DecidableEq ι]

/-- What a commit leaves. -/
theorem Good.commit (hg : Good D body le d) {i : ι} {call : κ} {a : ρ}
    (hs : Step D body (.commit i call a) d d') :
    run D (body call) d.committed = .ok (a, d'.committed) ∨
      d'.committed = d.committed ∧ ∃ s, le s d.committed ∧ Glances D s (body call) (.pure a) := by
  cases hs with
  | commit hopen hholds =>
    left
    obtain ⟨t, ht, hrun⟩ := hg.holder _ _ hholds
    rw [hopen] at ht
    cases ht
    exact hrun
  | finish hopen hnot =>
    rcases hg.other _ _ hopen hnot with hrest | ⟨-, hglance⟩
    · left
      have hbody : body call = .pure a := hrest.symm
      rw [hbody]
      rfl
    · exact .inr ⟨rfl, hglance⟩

/-- Only commits change the committed value. -/
theorem Step.committed (hs : Step D body e d d') (he : ∀ i call a, e ≠ .commit i call a) :
    d'.committed = d.committed := by
  cases hs with
  | commit => exact absurd rfl (he _ _ _)
  | finish => rfl
  | begin | read | lock | write | rollback => rfl

theorem Good.step (hlock : ∀ call, LockFirst D (body call)) (hrefl : ∀ s, le s s)
    (htrans : ∀ {a b c}, le a b → le b c → le a c)
    (hup : ∀ call s a s', run D (body call) s = .ok (a, s') → le s s')
    (hg : Good D body le d) (hs : Step D body e d d') : Good D body le d' := by
  cases hs with
  | begin i call hnone =>
    refine ⟨fun j s hj => ?_, fun j t ht hnot => ?_⟩
    · obtain ⟨t, ht, hrun⟩ := hg.holder j s hj
      refine ⟨t, ?_, hrun⟩
      have hne : j ≠ i := fun he => by rw [he, hnone] at ht; cases ht
      simpa [Db.set, hne] using ht
    · by_cases hji : j = i
      · subst hji
        simp only [Db.set, Function.update_self, Option.some.injEq] at ht
        subst ht
        exact .inl rfl
      · simp only [Db.set, Function.update_of_ne hji] at ht
        exact hg.other j t ht hnot
  | @read _ i call c k hopen hnoti hread =>
    refine ⟨fun j s hj => ?_, fun j t ht hnot => ?_⟩
    · obtain ⟨t, ht, hrun⟩ := hg.holder j s hj
      refine ⟨t, ?_, hrun⟩
      have hne : j ≠ i := fun he => hnoti s (he ▸ hj)
      simpa [Db.set, hne] using ht
    · by_cases hji : j = i
      · subst hji
        simp only [Db.set, Function.update_self, Option.some.injEq] at ht
        subst ht
        -- a finished transaction has no statement left, so the body has not begun
        rcases hg.other _ _ hopen hnoti with hrest | ⟨hfin, -⟩
        · have hbody : body call = .call c k := hrest.symm
          have hfirst := hlock call
          rw [hbody] at hfirst
          exact .inr ⟨hfirst _ hread, d.committed, hrefl _, c, k, hbody, hread, rfl⟩
        · exact absurd hfin id
      · simp only [Db.set, Function.update_of_ne hji] at ht
        exact hg.other j t ht hnot
  | @lock _ i call c k hopen hfree hlocks =>
    have hnoti : ∀ j s, ¬ d.Holds j s := by
      intro j s hj
      unfold Db.Holds at hj
      rw [hfree] at hj
      cases hj
    refine ⟨fun j s hj => ?_, fun j t ht hnot => ?_⟩
    · cases hj
      refine ⟨⟨call, k (D.exec c d.committed).1⟩, by simp [Db.set], ?_⟩
      rcases hg.other _ _ hopen (hnoti i) with hrest | ⟨hfin, -⟩
      · have hbody : body call = .call c k := hrest.symm
        show run D (body call) d.committed = _
        rw [hbody, run]
      · exact absurd hfin id
    · by_cases hji : j = i
      · subst hji
        exact absurd rfl (hnot _)
      · simp only [Db.set, Function.update_of_ne hji] at ht
        exact hg.other j t ht (hnoti j)
  | @write _ i s call c k hopen hholds =>
    refine ⟨fun j s' hj => ?_, fun j t ht hnot => ?_⟩
    · cases hj
      obtain ⟨t, ht, hrun⟩ := hg.holder _ _ hholds
      rw [hopen] at ht
      cases ht
      exact ⟨⟨call, k (D.exec c s).1⟩, by simp [Db.set], hrun⟩
    · by_cases hji : j = i
      · subst hji
        exact absurd rfl (hnot _)
      · simp only [Db.set, Function.update_of_ne hji] at ht
        exact hg.other j t ht fun s' hs' => hji (hs'.unique hholds).1
  | @commit _ i s call a hopen hholds =>
    obtain ⟨t, ht, hrun⟩ := hg.holder _ _ hholds
    rw [hopen] at ht
    cases ht
    have hle : le d.committed s := hup call d.committed a s hrun
    refine ⟨fun j s' hj => (by cases hj), fun j t ht hnot => ?_⟩
    by_cases hji : j = i
    · subst hji
      simp [Db.set] at ht
    · simp only [Db.set, Function.update_of_ne hji] at ht
      refine (hg.other j t ht fun s' hs' => hji (hs'.unique hholds).1).imp_right ?_
      rintro ⟨hfin, s₀, hle₀, hglance⟩
      exact ⟨hfin, s₀, htrans hle₀ hle, hglance⟩
  | @finish _ i call a hopen hnoti =>
    refine ⟨fun j s hj => ?_, fun j t ht hnot => ?_⟩
    · obtain ⟨t, ht, hrun⟩ := hg.holder j s hj
      refine ⟨t, ?_, hrun⟩
      have hne : j ≠ i := fun he => hnoti s (he ▸ hj)
      simpa [Db.set, hne] using ht
    · by_cases hji : j = i
      · subst hji
        simp [Db.set] at ht
      · simp only [Db.set, Function.update_of_ne hji] at ht
        exact hg.other j t ht hnot
  | rollback i =>
    have hkept : ∀ j s, (d.released i = some (j, s)) ↔ d.Holds j s ∧ j ≠ i := by
      intro j s
      simp [Db.released, Db.Holds, Option.filter_eq_some_iff]
    refine ⟨fun j s hj => ?_, fun j t ht hnot => ?_⟩
    · obtain ⟨hj, hne⟩ := (hkept j s).1 hj
      obtain ⟨t, ht, hrun⟩ := hg.holder j s hj
      refine ⟨t, ?_, hrun⟩
      simpa [Db.set, hne] using ht
    · by_cases hji : j = i
      · subst hji
        simp [Db.set] at ht
      · simp only [Db.set, Function.update_of_ne hji] at ht
        exact hg.other j t ht fun s hs => hnot s ((hkept j s).2 ⟨hs, hji⟩)

end

end Locking
