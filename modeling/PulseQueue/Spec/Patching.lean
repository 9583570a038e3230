import PulseQueue.Spec.Runs

/-!
# Concurrent `set_schedule_enabled`

A call of `set_schedule_enabled` reads its schedule in one transaction, then the clock, and writes
`next_run_at` in another transaction. A `PatchSystem` is the history of the store, the clock and any
number of such calls between their read and their write. Between their steps everything else may happen
that a run may do (`PatchSystem.Step`): scheduler passes, of which a call remembers what the last one
wrote (`PatchCall.seen`), but also creations and deletions.
-/

namespace PulseQueue

open Txn Trace

/-- A call that has read its schedule. `since` is no part of the code: it has the `next_run_at` that the
last pass since then wrote. -/
structure PatchCall where
  enabled : Bool
  current : Schedule
  now : Option UtcTime
  since : Option DbTime

/-- `next_run_at` of a schedule. -/
def Store.cursor? (s : Store) (S : String) : Option DbTime := (s.schedule? S).map (·.nextRunAt)

/-- The call, when `e` has led from `s` to `s'`. -/
def PatchCall.seen (e : Event) (s s' : Store) (c : PatchCall) : PatchCall :=
  match e with
  | .call (.materialize ..) _ =>
    if s'.cursor? c.current.id = s.cursor? c.current.id then c
    else { c with since := s'.cursor? c.current.id }
  | _ => c

/-- The event has a clock reading from `clock` or before, and is no write of a call. -/
def Event.OtherAt (clock : UtcTime) : Event → Prop
  | .call (.materialize _ now _ _) _ => now ≤ clock
  | .call (.createSchedule now _ _ _ _) _ => now ≤ clock
  | .call (.writeSchedule ..) _ => False
  | _ => True

structure PatchSystem where
  history : History Event Store
  clock : UtcTime
  calls : List PatchCall

namespace PatchSystem

def start (clock : UtcTime) : PatchSystem := ⟨[], clock, []⟩

def store (σ : PatchSystem) : Store := present σ.history

/-- One step, where the writes of calls meet the condition `C` on the call and the run that it writes. -/
inductive Step (deps : Deps) (engine : Engine) (C : PatchCall → UtcTime → Prop) :
    PatchSystem → PatchSystem → Prop
  | tick {h : History Event Store} {clock clock' : UtcTime} {cs : List PatchCall} : clock ≤ clock' →
      Step deps engine C ⟨h, clock, cs⟩ ⟨h, clock', cs⟩
  | read {h : History Event Store} {clock : UtcTime} {cs : List PatchCall} {row : ScheduleRow}
      (S : String) (enabled : Bool) : (present h).schedule? S = some row →
      Step deps engine C ⟨h, clock, cs⟩
        ⟨h, clock, cs ++ [⟨enabled, scheduleFromRow deps row, none, none⟩]⟩
  | now {h : History Event Store} {clock : UtcTime} {before after : List PatchCall} {c : PatchCall} :
      c.now = none → Step deps engine C ⟨h, clock, before ++ c :: after⟩
        ⟨h, clock, before ++ { c with now := some clock } :: after⟩
  | raise {h : History Event Store} {clock now : UtcTime} {before after : List PatchCall} {c : PatchCall}
      {e : Err} : c.now = some now → Sqlite.patchedNextRun deps now c.current c.enabled = .error e →
      Step deps engine C ⟨h, clock, before ++ c :: after⟩ ⟨h, clock, before ++ after⟩
  | write {h : History Event Store} {clock now next : UtcTime} {before after : List PatchCall}
      {c : PatchCall} : c.now = some now →
      Sqlite.patchedNextRun deps now c.current c.enabled = .ok next → C c next →
      Step deps engine C ⟨h, clock, before ++ c :: after⟩
        ⟨afterCall deps engine h (.writeSchedule now c.current.id c.enabled next), clock, before ++ after⟩
  | other {h : History Event Store} {clock : UtcTime} {cs : List PatchCall} {e : Event} {s : Store} :
      RunStep deps engine h e s → e.Fresh h → e.OtherAt clock →
      Step deps engine C ⟨h, clock, cs⟩ ⟨⟨e, s⟩ :: h, clock, cs.map (PatchCall.seen e (present h) s)⟩

/-- The systems that can come after `σ`. -/
abbrev Steps (deps : Deps) (engine : Engine) (C : PatchCall → UtcTime → Prop) :
    PatchSystem → PatchSystem → Prop :=
  Relation.ReflTransGen (Step deps engine C)

end PatchSystem

/-! ## What is claimed -/

/-- The last run of every schedule is before its next one. -/
def Store.CursorsAhead (s : Store) : Prop :=
  ∀ row ∈ s.recurringSchedules, ∀ last, row.lastRunAt = some last → last < row.nextRunAt

/-- The step from `σ` to `σ'` is the write of `next` by the call. -/
def PatchSystem.Writes (deps : Deps) (engine : Engine) (c : PatchCall) (next : UtcTime)
    (σ σ' : PatchSystem) : Prop :=
  ∃ now before after, c.now = some now ∧ Sqlite.patchedNextRun deps now c.current c.enabled = .ok next ∧
    σ.calls = before ++ c :: after ∧
    σ' = ⟨afterCall deps engine σ.history (.writeSchedule now c.current.id c.enabled next), σ.clock,
      before ++ after⟩

/-- The call, which takes the store from `s` to `s'`, does not replace the run that a pass wrote since its
read by an earlier one. -/
def PatchCall.KeepsPass (s s' : Store) (c : PatchCall) : Prop :=
  ∀ n, c.since = some n → s.cursor? c.current.id = some n →
    ∃ n', s'.cursor? c.current.id = some n' ∧ n ≤ n'

/-- No pass has moved the schedule since the read, or not beyond what the call writes. -/
def PatchCall.InTime (c : PatchCall) (next : UtcTime) : Prop :=
  ∀ n, c.since = some n → n ≤ toDbTime next

end PulseQueue
