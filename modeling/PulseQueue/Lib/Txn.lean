import Mathlib

/-!
# Transactions

`Tx σ ε α` is a transaction body on a store of type `σ`: it reads and writes a working copy and may
raise. `atomically` runs a body as a transaction: a body that raises leaves the store as it was.
`Conn σ ε α` is code that runs transactions one after another; what an earlier one committed stays
when a later one raises.

`Keeps R tx` is the rule format for bodies: every successful run relates the stores before and after
by `R`. It composes over `bind` (`Keeps.bind`), so a loop keeps what each of its statements keeps.
-/

namespace Txn

variable {σ ε α β : Type}

def Tx (σ ε α : Type) : Type := σ → Except ε (α × σ)

namespace Tx

instance : Monad (Tx σ ε) where
  pure a := fun s => .ok (a, s)
  bind x f := fun s =>
    match x s with
    | .ok (a, s') => f a s'
    | .error e => .error e

def raise (e : ε) : Tx σ ε α := fun _ => .error e
def get : Tx σ ε σ := fun s => .ok (s, s)
def set (s : σ) : Tx σ ε Unit := fun _ => .ok ((), s)
def ofExcept (x : Except ε α) : Tx σ ε α := fun s => x.map (·, s)

@[simp] theorem pure_run (a : α) (s : σ) : (pure a : Tx σ ε α) s = .ok (a, s) := rfl
@[simp] theorem raise_run (e : ε) (s : σ) : (raise e : Tx σ ε α) s = .error e := rfl
@[simp] theorem get_run (s : σ) : (get : Tx σ ε σ) s = .ok (s, s) := rfl
@[simp] theorem set_run (s s' : σ) : (set s' : Tx σ ε Unit) s = .ok ((), s') := rfl

theorem bind_run (x : Tx σ ε α) (f : α → Tx σ ε β) (s : σ) :
    (x >>= f) s = match x s with
      | .ok (a, s') => f a s'
      | .error e => .error e := rfl

@[simp] theorem ofExcept_ok (a : α) (s : σ) : (ofExcept (.ok a) : Tx σ ε α) s = .ok (a, s) := rfl
@[simp] theorem ofExcept_error (e : ε) (s : σ) :
    (ofExcept (.error e) : Tx σ ε α) s = .error e := rfl

theorem ofExcept_eq_ok {x : Except ε α} {s s' : σ} {a : α} :
    ofExcept x s = .ok (a, s') ↔ x = .ok a ∧ s = s' := by
  cases x <;> simp

theorem bind_ok {x : Tx σ ε α} {f : α → Tx σ ε β} {s s' : σ} {a : α} (h : x s = .ok (a, s')) :
    (x >>= f) s = f a s' := by
  rw [bind_run, h]

theorem bind_error {x : Tx σ ε α} {f : α → Tx σ ε β} {s : σ} {e : ε} (h : x s = .error e) :
    (x >>= f) s = .error e := by
  rw [bind_run, h]

/-- A successful `bind` is two successful parts. -/
theorem bind_eq_ok {x : Tx σ ε α} {f : α → Tx σ ε β} {s s'' : σ} {b : β} :
    (x >>= f) s = .ok (b, s'') ↔ ∃ a s', x s = .ok (a, s') ∧ f a s' = .ok (b, s'') := by
  rw [bind_run]
  cases h : x s with
  | error e => simp
  | ok p =>
    obtain ⟨a, s'⟩ := p
    simp

theorem bind_assoc {γ : Type} (x : Tx σ ε α) (f : α → Tx σ ε β) (g : β → Tx σ ε γ) :
    x >>= f >>= g = x >>= fun a => f a >>= g := by
  funext s
  simp only [bind_run]
  cases x s <;> rfl

/-- A statement that runs only if `p` fails, and what follows it. -/
theorem ite_bind {p : Prop} [Decidable p] (x : Tx σ ε Unit) (f : Unit → Tx σ ε β) :
    (if p then f () else x >>= f) = (if p then pure () else x) >>= f := by
  by_cases hp : p
  · rw [if_pos hp, if_pos hp]
    rfl
  · rw [if_neg hp, if_neg hp]

theorem ite_bind_eq_ok {p : Prop} [Decidable p] {x : Tx σ ε Unit} {f : Unit → Tx σ ε β}
    {s s'' : σ} {b : β} (h : (if p then f () else x >>= f) s = .ok (b, s'')) :
    ∃ s', (if p then pure () else x : Tx σ ε Unit) s = .ok ((), s') ∧ f () s' = .ok (b, s'') := by
  rw [ite_bind] at h
  obtain ⟨_, s', hx, hf⟩ := bind_eq_ok.1 h
  exact ⟨s', hx, hf⟩

end Tx

/-! ## Committing -/

/-- `BEGIN`, the body, then `COMMIT`, or `ROLLBACK` when the body raises. -/
def atomically (x : Tx σ ε α) (s : σ) : Except ε α × σ :=
  match x s with
  | .ok (a, s') => (.ok a, s')
  | .error e => (.error e, s)

theorem atomically_ok {x : Tx σ ε α} {s s' : σ} {a : α} (h : x s = .ok (a, s')) :
    atomically x s = (.ok a, s') := by
  simp only [atomically, h]

theorem atomically_error {x : Tx σ ε α} {s : σ} {e : ε} (h : x s = .error e) :
    atomically x s = (.error e, s) := by
  simp only [atomically, h]

/-- Either the body succeeded and its result is the new store, or nothing changed. -/
theorem atomically_cases (x : Tx σ ε α) (s : σ) :
    (∃ a s', x s = .ok (a, s') ∧ atomically x s = (.ok a, s')) ∨
      (∃ e, x s = .error e ∧ atomically x s = (.error e, s)) := by
  cases h : x s with
  | ok p => exact .inl ⟨p.1, p.2, rfl, atomically_ok h⟩
  | error e => exact .inr ⟨e, rfl, atomically_error h⟩

theorem atomically_eq_ok {x : Tx σ ε α} {s s' : σ} {a : α} :
    atomically x s = (.ok a, s') ↔ x s = .ok (a, s') := by
  constructor
  · intro h
    rcases atomically_cases x s with ⟨b, s₁, hx, hat⟩ | ⟨e, -, hat⟩
    · rw [hat] at h
      cases h
      exact hx
    · rw [hat] at h
      cases h
  · exact atomically_ok

/-! ## Rules -/

/-- Every successful run of `x` relates the stores before and after. -/
def Keeps (R : σ → σ → Prop) (x : Tx σ ε α) : Prop := ∀ s a s', x s = .ok (a, s') → R s s'

theorem Keeps.pure {R : σ → σ → Prop} (hr : ∀ s, R s s) (a : α) :
    Keeps R (Pure.pure a : Tx σ ε α) := by
  intro s b s' h
  cases h
  exact hr s

theorem Keeps.bind {R : σ → σ → Prop} {x : Tx σ ε α} {f : α → Tx σ ε β} (hx : Keeps R x)
    (ht : ∀ {a b c}, R a b → R b c → R a c) (hf : ∀ a, Keeps R (f a)) : Keeps R (x >>= f) := by
  intro s b s'' h
  obtain ⟨a, s', h1, h2⟩ := Tx.bind_eq_ok.1 h
  exact ht (hx _ _ _ h1) (hf a _ _ _ h2)

/-! ## Sequences of transactions -/

/-- Code that runs transactions in turn; it may raise between and after them. -/
def Conn (σ ε α : Type) : Type := σ → Except ε α × σ

namespace Conn

instance : Monad (Conn σ ε) where
  pure a := fun s => (.ok a, s)
  bind x f := fun s =>
    match x s with
    | (.ok a, s') => f a s'
    | (.error e, s') => (.error e, s')

def run (x : Tx σ ε α) : Conn σ ε α := atomically x
def raise (e : ε) : Conn σ ε α := fun s => (.error e, s)
/-- `try`: the exception becomes a value. -/
def attempt (x : Conn σ ε α) : Conn σ ε (Except ε α) := fun s => (.ok (x s).1, (x s).2)

@[simp] theorem pure_run (a : α) (s : σ) : (pure a : Conn σ ε α) s = (.ok a, s) := rfl
@[simp] theorem raise_run (e : ε) (s : σ) : (raise e : Conn σ ε α) s = (.error e, s) := rfl
@[simp] theorem run_run (x : Tx σ ε α) (s : σ) : run x s = atomically x s := rfl
@[simp] theorem attempt_run (x : Conn σ ε α) (s : σ) : attempt x s = (.ok (x s).1, (x s).2) := rfl

theorem bind_run (x : Conn σ ε α) (f : α → Conn σ ε β) (s : σ) :
    (x >>= f) s = match x s with
      | (.ok a, s') => f a s'
      | (.error e, s') => (.error e, s') := rfl

theorem bind_ok {x : Conn σ ε α} {f : α → Conn σ ε β} {s s' : σ} {a : α} (h : x s = (.ok a, s')) :
    (x >>= f) s = f a s' := by
  rw [bind_run, h]

theorem bind_error {x : Conn σ ε α} {f : α → Conn σ ε β} {s s' : σ} {e : ε}
    (h : x s = (.error e, s')) : (x >>= f) s = (.error e, s') := by
  rw [bind_run, h]

end Conn
end Txn
