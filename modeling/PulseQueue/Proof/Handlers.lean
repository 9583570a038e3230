import PulseQueue.Proof.Retries
import PulseQueue.Spec.Handlers

/-!
# The fate of a job is that of its payload

An invocation of the handler is about the payload of the row, which no step changes, so its outcome is that
of `execute_job` or too late (`ExecutedRun.found`). The retry loop does the rest (`ExecutedRun.fate`); with
the action `fail` the payload says how many attempts it takes (`Fate.failures`).
-/

namespace PulseQueue

open Txn Trace Interaction

section
variable {py : Builtins} {deps : Deps} {engine : Engine} {id : String} {l : Attempts}

theorem ExecutedRun.retry {σ : Pool} (hr : ExecutedRun py deps engine id l σ) :
    RetryRun deps engine id l σ := by
  induction hr with
  | empty => exact .empty
  | move _ hm hspare _ ih => exact ih.move hm hspare

/-- The invocations so far are about a claimed snapshot of the job. -/
def Invoked (py : Builtins) (id : String) (l : Attempts) (h : History Event Store) : Prop :=
  ∀ n o, .invoked n o ∈ l → ∃ w job, Claimed h w job ∧ job.id = id ∧
    ∀ kv, job.payload = .obj kv → Finds (executeJob py kv n) o

theorem Invoked.mono {h h' : History Event Store} (hi : Invoked py id l h)
    (hsub : ∀ w job, Claimed h w job → Claimed h' w job) : Invoked py id l h' := by
  intro n o hmem
  obtain ⟨w, job, hclaimed, hjob⟩ := hi n o hmem
  exact ⟨w, job, hsub w job hclaimed, hjob⟩

theorem not_noted {α : Type} {p : Prop} [Decidable p] {a b : α} (h : a ≠ b) :
    a ∉ (if p then [b] else []) := by
  split
  · simp [h]
  · simp

/-- An invocation is noted when the handler answers. -/
theorem Move.note_invoked {m : Move} {n : Nat} {o : HandlerOutcome JsonObject}
    (hm : .invoked n o ∈ m.note id) : ∃ tr payload timeout,
      m = .inform tr ⟨.handler payload n timeout, .ok o⟩ ∧ (workingOn tr).any (·.id == id) = true := by
  cases m with
  | start | fault | other => cases hm
  | inform tr x =>
    obtain ⟨c, a⟩ := x
    cases c with
    | handler payload k timeout =>
      cases a with
      | error exc => cases hm
      | ok o =>
        simp only [Move.note] at hm
        split at hm
        · rename_i hon
          cases List.mem_singleton.1 hm
          exact ⟨tr, payload, timeout, rfl, hon⟩
        · cases hm
    | _ => cases hm
  | perform tr now q x =>
    cases q with
    | claimNextJob w =>
      rcases x with e | _ | job
      · cases hm
      · cases hm
      · exact absurd hm (not_noted (by simp))
    | markSucceeded job w k t result =>
      cases x with
      | error exc => cases hm
      | ok j => exact absurd hm (not_noted (by simp))
    | markFailedAttempt job w k t error timedOut backoff =>
      cases x with
      | error exc => cases hm
      | ok j =>
        simp only [Move.note] at hm
        split at hm
        · exact absurd hm (not_noted (by simp))
        · cases hm

/-- A step of the pool keeps the claims. -/
theorem Pool.Moves.claimed {σ σ' : Pool} {m : Move} (hm : Pool.Moves deps engine σ m σ') {w : String}
    {job : Job} (hc : Claimed σ.history w job) : Claimed σ'.history w job := by
  cases hm with
  | start | inform | fault => exact hc
  | perform | other => exact hc.cons _

theorem ExecutedRun.found {σ : Pool} (hr : ExecutedRun py deps engine id l σ) :
    Invoked py id l σ.history := by
  induction hr with
  | empty =>
    intro n o hmem
    cases hmem
  | @move l σ σ' m hr hm hspare hexec ih =>
    have hold := ih.mono fun w job hc => hm.claimed hc
    intro n o hmem
    rcases List.mem_append.1 hmem with hnew | hmem
    · obtain ⟨tr, payload, timeout, rfl, hon⟩ := Move.note_invoked hnew
      have howns := hr.retry.tracks.sound.owns
      cases hm with
      | @inform h before after ps w tr c k hr' x hne =>
        obtain ⟨job, t, rfl, rfl, rfl, rfl⟩ := (processOne_handles w).issued hr'
        have hid : job.id = id := by simpa [workingOn, taken] using hon
        refine ⟨w, job, ?_, hid, hexec⟩
        exact howns _ (List.mem_append_right _ (List.mem_cons_self ..)) job (List.mem_cons_self ..)
    · exact hold n o hmem

/-! ## No timeout of its own -/

theorem mapError_other {α : Type} {x : Except String α} {exc : PyExc}
    (h : x.mapError PyExc.other = .error exc) : exc.isTimeout = false := by
  cases x with
  | ok a => cases h
  | error text =>
    cases h
    rfl

theorem Builtins.int_error {value : Json} {exc : PyExc} (h : py.int value = .error exc) :
    exc.isTimeout = false := by
  cases value with
  | str s => exact mapError_other h
  | float x =>
    cases x with
    | rat q => cases h
    | nan =>
      cases h
      rfl
  | bool | int => cases h
  | null | arr | obj =>
    cases h
    rfl

theorem Builtins.float_error {value : Json} {exc : PyExc} (h : py.float value = .error exc) :
    exc.isTimeout = false := by
  cases value with
  | str s => exact mapError_other h
  | bool | int | float => cases h
  | null | arr | obj =>
    cases h
    rfl

theorem Builtins.sleep_error {seconds : PyFloat} {exc : PyExc} (h : py.sleep seconds = .error exc) :
    exc.isTimeout = false := by
  cases seconds with
  | nan =>
    cases h
    rfl
  | rat q =>
    simp only [Builtins.sleep] at h
    split at h
    · cases h
    · cases h
      rfl

/-- An error comes from the first part or from the second. -/
theorem bind_error {α β : Type} {x : Except PyExc α} {f : α → Except PyExc β} {exc : PyExc}
    (h : x >>= f = .error exc) : x = .error exc ∨ ∃ a, f a = .error exc := by
  cases x with
  | error e =>
    cases h
    exact .inl rfl
  | ok a => exact .inr ⟨a, h⟩

/-- `execute_job` raises no `TimeoutError`. -/
theorem executeJob_error {payload : JsonObject} {n : Nat} {exc : PyExc}
    (h : executeJob py payload n = .error exc) : exc.isTimeout = false := by
  unfold executeJob at h
  split at h
  · cases h
  · rcases bind_error h with h | ⟨f, h⟩
    · exact Builtins.int_error h
    · split at h
      · cases h
        rfl
      · cases h
  · rcases bind_error h with h | ⟨seconds, h⟩
    · exact Builtins.float_error h
    · rcases bind_error h with h | ⟨-, h⟩
      · exact Builtins.sleep_error h
      · cases h
  · rcases bind_error h with h | ⟨k, h⟩
    · exact Builtins.int_error h
    · cases h
  · cases h
    rfl

/-! ## The fate of a job -/

/-- The outcomes as a function of the attempt. -/
def outcomeAt (st : RetryLoop.State (HandlerOutcome JsonObject) UtcTime) (n : Nat) :
    HandlerOutcome JsonObject := st.outcomes[n - 1]?.getD .late

section
variable {s : Store} {under : List Attempt} {r : JobRow}
  {st : RetryLoop.State (HandlerOutcome JsonObject) UtcTime}

theorem ShowsLoop.invoked_eq (h : ShowsLoop deps id l s under r st) {n : Nat} {x : HandlerOutcome JsonObject}
    (hx : .invoked n x ∈ l) : x = outcomeAt st n := by
  rw [outcomeAt, (h.run.invoked_iff.1 hx).2, Option.getD_some]

/-- The recorded attempts have been made. -/
theorem ShowsLoop.invoked (h : ShowsLoop deps id l s under r st) {n : Nat} (h1 : 1 ≤ n)
    (hn : n ≤ r.attemptCount) : .invoked n (outcomeAt st n) ∈ l := by
  have hle : st.log.length ≤ st.outcomes.length := by simp [RetryLoop.State.outcomes]
  have hcount := h.count
  obtain ⟨x, hx⟩ : ∃ x, st.outcomes[n - 1]? = some x := ⟨_, List.getElem?_eq_getElem (by omega)⟩
  refine h.run.invoked_iff.2 ⟨h1, ?_⟩
  rw [outcomeAt, hx, Option.getD_some]

end

/-- An attempt that did not return came to nothing. -/
theorem Finds.fails {payload : JsonObject} {n : Nat} {o : HandlerOutcome JsonObject}
    (hf : Finds (executeJob py payload n) o) (hmem : .invoked n o ∈ l) (ho : ¬ o.Returns) :
    Fails py payload l n := by
  generalize hx : executeJob py payload n = x at hf
  cases hf with
  | returned result => exact absurd trivial ho
  | raised exc => exact .inr ⟨exc, hx⟩
  | late => exact .inl hmem

/-- The error that it leaves. -/
theorem Finds.failsWith {payload : JsonObject} {n : Nat} {o : HandlerOutcome JsonObject}
    (hf : Finds (executeJob py payload n) o) (hmem : .invoked n o ∈ l) {error : Option String}
    (herror : error.map .ok = o.exc.map recordedError) (ho : ¬ o.Returns) :
    FailsWith py payload l n error := by
  generalize hx : executeJob py payload n = x at hf
  cases hf with
  | returned result => exact absurd trivial ho
  | raised exc =>
    obtain ⟨text, rfl, htext⟩ := Option.map_eq_some_iff.1 herror
    rw [recordedError, executeJob_error hx] at htext
    exact .inr ⟨exc, text, hx, htext.symm, rfl⟩
  | late =>
    obtain ⟨text, rfl, htext⟩ := Option.map_eq_some_iff.1 herror
    cases htext
    exact .inl ⟨hmem, rfl⟩

theorem ExecutedRun.finds {σ : Pool} (hr : ExecutedRun py deps engine id l σ) {r : JobRow}
    (hrow : (present σ.history).job? id = some r) {payload : JsonObject}
    (hpayload : deps.loads r.payload = .obj payload) {n : Nat} {o : HandlerOutcome JsonObject}
    (hmem : .invoked n o ∈ l) : Finds (executeJob py payload n) o := by
  obtain ⟨w, job, hclaimed, hid, hfinds⟩ := hr.found n o hmem
  have hs := Run.sound hr.retry.tracks.sound.run
  obtain ⟨hrmem, hrid⟩ := Store.job?_some hrow
  have hsame := ((hs.claims w job hclaimed).same hs.ok hrmem (hrid.trans hid.symm)).2
  exact hfinds payload (hsame.trans hpayload)

theorem ExecutedRun.fate {σ : Pool} (hr : ExecutedRun py deps engine id l σ) {r : JobRow}
    (hrow : (present σ.history).job? id = some r) {payload : JsonObject}
    (hpayload : deps.loads r.payload = .obj payload) : Fate py deps payload l r := by
  obtain ⟨st, hshows⟩ := hr.retry.tracks.refines.born r hrow
  have ho : ∀ n x, .invoked n x ∈ l → x = outcomeAt st n := fun n x => hshows.invoked_eq
  have hfinds : ∀ n, 1 ≤ n → n ≤ r.attemptCount → Finds (executeJob py payload n) (outcomeAt st n) :=
    fun n h1 hn => hr.finds hrow hpayload (hshows.invoked h1 hn)
  constructor
  · intro hst
    rcases hshows.ends ho (by rw [hst]; rfl) with ⟨-, hle, h1, ⟨result, hret, hres⟩, hbad⟩ | ⟨hdead, -⟩
    · refine ⟨h1, hle, ⟨result, ?_, hres⟩, fun n hn hlt => ?_⟩
      · have hlast := hfinds r.attemptCount h1 (Nat.le_refl _)
        rw [hret] at hlast
        generalize executeJob py payload r.attemptCount = x at hlast ⊢
        cases hlast
        rfl
      · exact (hfinds n hn (Nat.le_of_lt hlt)).fails (hshows.invoked hn (Nat.le_of_lt hlt)) (hbad n hn hlt)
    · rw [hst] at hdead
      cases hdead
  · intro hst
    rcases hshows.ends ho (by rw [hst]; rfl) with ⟨hdone, -⟩ | ⟨-, hcount, herr, hbad⟩
    · rw [hst] at hdone
      cases hdone
    · refine ⟨hcount, fun n hn hle => ?_, ?_⟩
      · have hle' : n ≤ r.attemptCount := hcount ▸ hle
        exact (hfinds n hn hle').fails (hshows.invoked hn hle') (hbad n hn hle)
      · have h1 : 1 ≤ r.maxRetries + 1 := by omega
        have hle : r.maxRetries + 1 ≤ r.attemptCount := by omega
        rw [hcount] at herr
        exact (hfinds _ h1 hle).failsWith (hshows.invoked h1 hle) herr (hbad _ h1 (Nat.le_refl _))

/-- A job that has ended, in a run that spares it. -/
theorem RetryRun.ended {σ : Pool} (hr : RetryRun deps engine id l σ) {r : JobRow}
    (hrow : (present σ.history).job? id = some r) (hend : r.status.terminal = true) :
    r.status = .succeeded ∨ r.status = .deadLettered := by
  obtain ⟨st, hshows⟩ := hr.tracks.refines.born r hrow
  rcases hshows.ends (fun n x => hshows.invoked_eq) hend with ⟨hst, -⟩ | ⟨hst, -⟩
  · exact .inl hst
  · exact .inr hst

/-! ## Failures on purpose -/

theorem AsksFailures.execute {payload : JsonObject} {f : Int} (h : AsksFailures py payload f) (n : Nat) :
    executeJob py payload n =
      if n ≤ f then .error (.other ("simulated transient failure on attempt " ++ toString n))
      else .ok [("recovered", .bool true), ("attempt", .int n)] := by
  simp only [executeJob, h.action, Option.getD_some, h.failures]
  rfl

theorem AsksFailures.fails {payload : JsonObject} {f : Int} (h : AsksFailures py payload f) {n : Nat}
    (hin : InTime l) : Fails py payload l n ↔ n ≤ f := by
  rw [Fails, h.execute]
  split
  · rename_i hle
    exact ⟨fun _ => hle, fun _ => .inr ⟨_, rfl⟩⟩
  · rename_i hlt
    refine ⟨?_, fun hle => absurd hle hlt⟩
    rintro (hlate | ⟨exc, hexc⟩)
    · exact absurd hlate (hin n)
    · cases hexc

/-- A job that fails on purpose. -/
theorem Fate.failures {payload : JsonObject} {r : JobRow} (hfate : Fate py deps payload l r)
    (hends : r.status.terminal = true → r.status = .succeeded ∨ r.status = .deadLettered) {f : Int}
    (h : AsksFailures py payload f) : FailFate deps f l r := by
  have hsucceeded : r.status = .succeeded → f < r.attemptCount ∧
      r.result = some (deps.dumps (.obj [("recovered", .bool true), ("attempt", .int r.attemptCount)])) := by
    intro hst
    obtain ⟨-, -, ⟨result, hexec, hres⟩, -⟩ := hfate.succeeded hst
    rw [h.execute] at hexec
    split at hexec
    · cases hexec
    · rename_i hlt
      cases hexec
      exact ⟨by omega, hres⟩
  refine ⟨hsucceeded, fun hlt hend => ?_, fun hle hin hend => ?_, fun hst hin => ?_⟩
  · rcases hends hend with hst | hst
    · have hearly := (hsucceeded hst).1
      have hcount := (hfate.succeeded hst).2.1
      omega
    · exact hst
  · rcases hends hend with hst | hst
    · obtain ⟨h1, -, -, hbad⟩ := hfate.succeeded hst
      have hearly := (hsucceeded hst).1
      refine ⟨hst, ?_⟩
      by_contra hne
      have hlast := (h.fails hin).1 (hbad (r.attemptCount - 1) (by omega) (by omega))
      omega
    · have hlast := (h.fails hin).1 ((hfate.dead hst).2.1 (r.maxRetries + 1) (by omega) (Nat.le_refl _))
      omega
  · rcases (hfate.dead hst).2.2 with ⟨hlate, -⟩ | ⟨exc, text, hexec, htext, herr⟩
    · exact absurd hlate (hin _)
    · rw [h.execute] at hexec
      split at hexec
      · cases hexec
        cases htext
        exact herr
      · cases hexec

/-- In every run of a pool whose handler is `execute_job` and that spares a job, what becomes of the job is
decided by its payload. -/
theorem handler_fate {σ : Pool} (hr : ExecutedRun py deps engine id l σ) {r : JobRow}
    (hrow : (present σ.history).job? id = some r) {payload : JsonObject}
    (hpayload : deps.loads r.payload = .obj payload) :
    Fate py deps payload l r ∧ ∀ f, AsksFailures py payload f → FailFate deps f l r :=
  ⟨hr.fate hrow hpayload, fun _ h =>
    (hr.fate hrow hpayload).failures (fun hend => hr.retry.ended hrow hend) h⟩

end

/-! ## A job that recovers -/

/-- A Python that parses no texts. -/
def sampleBuiltins : Builtins where
  intOfStr := fun s => .error s
  floatOfStr := fun s => .error s
  str := fun _ => ""
  sleepError := fun _ => none

theorem executedRun_continues {py : Builtins} {deps : Deps} {engine : Engine} {id : String} :
    Continues deps engine id (Move.Executes py) (ExecutedRun py deps engine id) where
  empty := .empty
  move := fun hr hm hs hx => hr.move hm hs hx

theorem Move.executes_of_plain {py : Builtins} {m : Move} (h : ¬ m.Handles) : m.Executes py := by
  unfold Move.Executes
  split
  · exact absurd trivial h
  · trivial

theorem flaky_payload : flakyDeps.loads flakyText = .obj (loadTestFail 1 0) := by
  simp only [flakyDeps, if_true]

theorem flaky_fails : executeJob sampleBuiltins (loadTestFail 1 0) 1 = .error flakyRaised := rfl

theorem flaky_recovers : executeJob sampleBuiltins (loadTestFail 1 0) 2 = .ok flakyResult := rfl

theorem flaky_executed : ∃ σ, ExecutedRun sampleBuiltins flakyDeps .sqlite "j" flakyAttempts σ ∧
    σ.history = flakyDone := by
  refine flaky_run executedRun_continues (fun _ => Move.executes_of_plain) (fun tr kv hkv => ?_)
    fun tr kv hkv => ?_
  · cases flaky_payload.symm.trans hkv
    rw [flaky_fails]
    exact .raised flakyRaised
  · cases flaky_payload.symm.trans hkv
    rw [flaky_recovers]
    exact .returned flakyResult

theorem handler_fate_recovers : ∃ σ, ExecutedRun sampleBuiltins flakyDeps .sqlite "j" flakyAttempts σ ∧
    (present σ.history).job? "j" = some flakyDoneRow ∧
    Fate sampleBuiltins flakyDeps (loadTestFail 1 0) flakyAttempts flakyDoneRow ∧
    FailFate flakyDeps 1 flakyAttempts flakyDoneRow := by
  obtain ⟨σ, hrun, hσ⟩ := flaky_executed
  have hrow : (present σ.history).job? "j" = some flakyDoneRow := by
    rw [hσ]
    decide +kernel
  obtain ⟨hfate, hfails⟩ := handler_fate hrun hrow flaky_payload
  exact ⟨σ, hrun, hrow, hfate, hfails 1 ⟨rfl, rfl⟩⟩

end PulseQueue
