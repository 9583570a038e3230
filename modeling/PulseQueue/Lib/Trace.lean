import Mathlib

/-!
# Histories

A history is the list of the events of a system with the state after each, newest first. What may
happen next may depend on the whole history (`step`), so that a message can be answered late,
twice or never. `Valid` histories are those whose every entry was allowed when it happened. The rules:
`Valid.induct` for properties of histories, `Valid.invariant` for properties of the present state,
`Valid.suffix` and `Valid.split` to go back in time, `Valid.related` for what relates an earlier
state to a later one. `Each` is a condition on every event and what came before it.
-/

namespace Trace

variable {ε σ : Type}

structure Entry (ε σ : Type) where
  event : ε
  after : σ

abbrev History (ε σ : Type) := List (Entry ε σ)

/-- The present state. -/
def now (init : σ) : History ε σ → σ
  | [] => init
  | e :: _ => e.after

inductive Valid (init : σ) (step : History ε σ → ε → σ → Prop) : History ε σ → Prop
  | nil : Valid init step []
  | cons {h : History ε σ} {e : ε} {s : σ} : Valid init step h → step h e s →
      Valid init step (⟨e, s⟩ :: h)

variable {init : σ} {step : History ε σ → ε → σ → Prop} {h post pre : History ε σ}

@[simp] theorem now_cons (e : Entry ε σ) : now init (e :: h) = e.after := rfl

theorem Valid.tail {e : Entry ε σ} (hv : Valid init step (e :: h)) : Valid init step h := by
  cases hv with
  | cons hv _ => exact hv

theorem Valid.head {e : Entry ε σ} (hv : Valid init step (e :: h)) : step h e.event e.after := by
  cases hv with
  | cons _ hs => exact hs

/-- What was valid later was valid before. -/
theorem Valid.suffix : ∀ {post : History ε σ}, Valid init step (post ++ pre) → Valid init step pre
  | [], hv => hv
  | _ :: _, hv => Valid.suffix (Valid.tail hv)

/-- The entry at a split was allowed after what came before it. -/
theorem Valid.split {e : Entry ε σ} (hv : Valid init step (post ++ e :: pre)) :
    Valid init step pre ∧ step pre e.event e.after :=
  ⟨hv.suffix.tail, hv.suffix.head⟩

theorem Valid.induct {P : History ε σ → Prop} (h0 : P [])
    (hs : ∀ h e s, Valid init step h → P h → step h e s → P (⟨e, s⟩ :: h))
    (hv : Valid init step h) : P h := by
  induction hv with
  | nil => exact h0
  | cons hv hstep ih => exact hs _ _ _ hv ih hstep

theorem Valid.invariant {P : σ → Prop} (h0 : P init)
    (hs : ∀ h e s, Valid init step h → P (now init h) → step h e s → P s)
    (hv : Valid init step h) : P (now init h) :=
  hv.induct (P := fun h => P (now init h)) h0 fun h e s hv hp hstep => hs h e s hv hp hstep

/-- A preorder that every step respects relates the state at a split to the present one. -/
theorem Valid.related {R : σ → σ → Prop} (hr : ∀ s, R s s)
    (ht : ∀ {a b c}, R a b → R b c → R a c)
    (hs : ∀ h e s, Valid init step h → step h e s → R (now init h) s) :
    ∀ {post : History ε σ}, Valid init step (post ++ pre) → R (now init pre) (now init (post ++ pre))
  | [], _ => hr _
  | _ :: _, hv => ht (Valid.related hr ht hs (Valid.tail hv)) (hs _ _ _ (Valid.tail hv) (Valid.head hv))

/-- Every event meets `P` with the history before it. -/
def Each (P : History ε σ → ε → Prop) : History ε σ → Prop
  | [] => True
  | e :: h => P h e.event ∧ Each P h

/-- A member of a history is where it splits. -/
theorem mem_split {e : Entry ε σ} (he : e ∈ h) : ∃ post pre, h = post ++ e :: pre :=
  List.append_of_mem he

end Trace
