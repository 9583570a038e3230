import Mathlib

/-!
# Programs with commands and exceptions

A program (`Prog`) returns a value, raises an exception, or issues a command and goes on with the
answer; what the answers are is up to its surroundings. `After p tr q`: with the answers of the
conversation `tr` the program `p` gets to `q`. The rules for such programs are those of `Meets P Q`: every
command meets `P` when it is issued, and the end meets `Q`; both see the conversation so far
(`Meets.bind`, `Meets.tryCatch`, `Meets.tryFinally`, `Meets.after`).
-/

namespace Interaction

inductive Prog (C : Type) (A : C → Type) (E α : Type) where
  | pure (a : α)
  | raise (e : E)
  | call (c : C) (k : A c → Prog C A E α)

/-- A command and its answer. -/
structure Exchange (C : Type) (A : C → Type) where
  command : C
  answer : A command

/-- The exchanges so far, oldest first. -/
abbrev Conversation (C : Type) (A : C → Type) := List (Exchange C A)

variable {C : Type} {A : C → Type} {E α β : Type}

namespace Prog

protected def bind : Prog C A E α → (α → Prog C A E β) → Prog C A E β
  | .pure a, f => f a
  | .raise e, _ => .raise e
  | .call c k, f => .call c fun x => (k x).bind f

instance : Monad (Prog C A E) where
  pure := .pure
  bind := Prog.bind

/-- `try: ... except`. -/
def tryCatch : Prog C A E α → (E → Prog C A E α) → Prog C A E α
  | .pure a, _ => .pure a
  | .raise e, handler => handler e
  | .call c k, handler => .call c fun x => (k x).tryCatch handler

/-- `try: ... finally`. -/
def tryFinally : Prog C A E α → Prog C A E Unit → Prog C A E α
  | .pure a, final => final.bind fun _ => .pure a
  | .raise e, final => final.bind fun _ => .raise e
  | .call c k, final => .call c fun x => (k x).tryFinally final

def ofExcept : Except E α → Prog C A E α
  | .ok a => .pure a
  | .error e => .raise e

end Prog

/-! ## Runs -/

/-- With the answers of `tr` the program gets to the second one. -/
inductive After : Prog C A E α → Conversation C A → Prog C A E α → Prop
  | nil {p : Prog C A E α} : After p [] p
  | cons {c : C} {k : A c → Prog C A E α} {x : A c} {tr : Conversation C A} {q : Prog C A E α} :
      After (k x) tr q → After (.call c k) (⟨c, x⟩ :: tr) q

/-- One more answer. -/
theorem After.snoc {p : Prog C A E α} {tr : Conversation C A} {c : C} {k : A c → Prog C A E α}
    (h : After p tr (.call c k)) (x : A c) : After p (tr ++ [⟨c, x⟩]) (k x) := by
  generalize hq : Prog.call c k = q at h
  induction h with
  | nil =>
    subst hq
    exact .cons .nil
  | cons _ ih => exact .cons (ih hq)

theorem After.bind {p q : Prog C A E α} {tr : Conversation C A} (h : After p tr q)
    (f : α → Prog C A E β) : After (p >>= f) tr (q >>= f) := by
  induction h with
  | nil => exact .nil
  | cons _ ih => exact .cons ih

/-! ## Rules -/

/-- Every command meets `P` when it is issued, and the result meets `Q`. -/
def Meets (P : Conversation C A → C → Prop) (Q : Conversation C A → Except E α → Prop) :
    Conversation C A → Prog C A E α → Prop
  | past, .pure a => Q past (.ok a)
  | past, .raise e => Q past (.error e)
  | past, .call c k => P past c ∧ ∀ x, Meets P Q (past ++ [⟨c, x⟩]) (k x)

section
variable {P : Conversation C A → C → Prop} {Q Q' : Conversation C A → Except E α → Prop}
  {R : Conversation C A → Except E β → Prop} {past : Conversation C A} {p : Prog C A E α}

theorem Meets.call {c : C} {k : A c → Prog C A E α} (hc : P past c)
    (hk : ∀ x, Meets P Q (past ++ [⟨c, x⟩]) (k x)) : Meets P Q past (.call c k) := ⟨hc, hk⟩

theorem Meets.ofExcept {r : Except E α} (h : Q past r) : Meets P Q past (Prog.ofExcept r) := by
  cases r <;> exact h

theorem Meets.ofExcept_bind {r : Except E α} {f : α → Prog C A E β}
    (hok : ∀ a, r = .ok a → Meets P R past (f a)) (herr : ∀ e, r = .error e → R past (.error e)) :
    Meets P R past (Prog.ofExcept r >>= f) := by
  cases r with
  | ok a => exact hok a rfl
  | error e => exact herr e rfl

theorem Meets.bind {f : α → Prog C A E β} (h : Meets P Q past p)
    (hok : ∀ tr a, Q tr (.ok a) → Meets P R tr (f a))
    (herr : ∀ tr e, Q tr (.error e) → R tr (.error e)) : Meets P R past (p >>= f) := by
  show Meets P R past (p.bind f)
  induction p generalizing past with
  | pure a => exact hok past a h
  | raise e => exact herr past e h
  | call c k ih => exact ⟨h.1, fun x => ih x (h.2 x)⟩

theorem Meets.tryCatch {handler : E → Prog C A E α} (h : Meets P Q past p)
    (hok : ∀ tr a, Q tr (.ok a) → Q' tr (.ok a))
    (herr : ∀ tr e, Q tr (.error e) → Meets P Q' tr (handler e)) :
    Meets P Q' past (p.tryCatch handler) := by
  induction p generalizing past with
  | pure a => exact hok past a h
  | raise e => exact herr past e h
  | call c k ih => exact ⟨h.1, fun x => ih x (h.2 x)⟩

/-- An exception of the last part wins. -/
theorem Meets.tryFinally {final : Prog C A E Unit} (h : Meets P Q past p)
    (hfinal : ∀ tr r, Q tr r → Meets P (fun tr' u => match u with
      | .ok () => Q' tr' r
      | .error e => Q' tr' (.error e)) tr final) : Meets P Q' past (p.tryFinally final) := by
  induction p generalizing past with
  | pure a => exact (hfinal past _ h).bind (fun _ _ hq => hq) fun _ _ hq => hq
  | raise e => exact (hfinal past _ h).bind (fun _ _ hq => hq) fun _ _ hq => hq
  | call c k ih => exact ⟨h.1, fun x => ih x (h.2 x)⟩

theorem Meets.mono (h : Meets P Q past p) (hq : ∀ tr r, Q tr r → Q' tr r) : Meets P Q' past p := by
  induction p generalizing past with
  | pure a => exact hq past _ h
  | raise e => exact hq past _ h
  | call c k ih => exact ⟨h.1, fun x => ih x (h.2 x)⟩

theorem Meets.mono_commands {P' : Conversation C A → C → Prop} (h : Meets P Q past p)
    (hc : ∀ tr c, P tr c → P' tr c) : Meets P' Q past p := by
  induction p generalizing past with
  | pure a => exact h
  | raise e => exact h
  | call c k ih => exact ⟨hc past c h.1, fun x => ih x (h.2 x)⟩

/-- What a program meets it still meets on its way. -/
theorem Meets.after {tr : Conversation C A} {q : Prog C A E α} (h : Meets P Q past p)
    (hr : After p tr q) : Meets P Q (past ++ tr) q := by
  induction hr generalizing past with
  | nil =>
    rw [List.append_nil]
    exact h
  | @cons c k x tr q _ ih =>
    have hnext := ih (h.2 x)
    rwa [List.append_assoc] at hnext

/-- The result of a run. -/
theorem Meets.result {tr : Conversation C A} {r : Except E α} (h : Meets P Q [] p)
    (hr : After p tr (Prog.ofExcept r)) : Q tr r := by
  have hend := h.after hr
  rw [List.nil_append] at hend
  cases r <;> exact hend

/-- A command that a run issues. -/
theorem Meets.issued {tr : Conversation C A} {c : C} {k : A c → Prog C A E α} (h : Meets P Q [] p)
    (hr : After p tr (.call c k)) : P tr c :=
  (h.after hr).1

end

end Interaction
