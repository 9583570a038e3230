import PulseQueue.Proof.Charging
import PulseQueue.Proof.LiveLease
import PulseQueue.Spec.Retries

/-!
# Attempts under way

What a `process_one` call has claimed and not yet recorded (`underWay`), read off what was said. A row with
its attempt rows and the attempts under way shows a state of the reference (`ShowsLoop`), and a store
refines the reference for a job when its row does (`Refines`). What happens to the job, one lemma each:
`Refines.claim`, `Refines.invoke`, `Refines.finish`, `Refines.fail`.
-/

namespace PulseQueue

open Txn Trace Interaction Table

/-! ## What `process_one` does -/

/-- The handler is only asked for the attempt of the call's own claim. -/
def HandlesOnly (w : String) (past : Talk JsonObject) : Command JsonObject → Prop
  | .handler payload n timeout => ∃ (job : Job) (t : UtcTime), past =
      [⟨.jobs (.claimNextJob w), .ok (some job)⟩, ⟨.utcnow, t⟩, ⟨.addBusy 1, ()⟩] ∧
        payload = job.payload ∧ n = job.attemptCount + 1 ∧ timeout = job.timeoutSeconds
  | _ => True

theorem recordFailure_meets {P : Talk JsonObject → Command JsonObject → Prop} {w : String} {job : Job}
    {t : UtcTime} {n : Nat} {error : String} {timedOut : Bool} {past : Talk JsonObject}
    {Q : Talk JsonObject → Except PyExc (Option Job) → Prop}
    (hview : P past .configView)
    (hmark : ∀ config backoff, P (past ++ [⟨.configView, config⟩])
      (.jobs (.markFailedAttempt job w n t error timedOut backoff)))
    (hend : ∀ config backoff r, Q (past ++ [⟨.configView, config⟩] ++
      [⟨.jobs (.markFailedAttempt job w n t error timedOut backoff), r⟩]) r) :
    Meets P Q past (recordFailure job w n t error timedOut) :=
  Meets.call hview fun config => Meets.call (hmark config _) fun r => Meets.ofExcept (hend config _ r)

theorem processOne_handles (w : String) :
    Meets (HandlesOnly w) (fun _ _ => True) [] (processOne w) := by
  refine Meets.call trivial ?_
  rintro (e | _ | job)
  · trivial
  · trivial
  · apply Meets.call trivial
    intro (t : UtcTime)
    apply Meets.call trivial
    rintro ⟨⟩
    refine Meets.tryFinally (Q := fun _ _ => True) (Meets.tryCatch (Q := fun _ _ => True) ?_
      (fun _ _ _ => trivial) fun tr exc _ => excepted_meets (fun _ _ => recordFailure_meets trivial
        (fun _ _ => trivial) fun _ _ _ => trivial) fun _ => trivial) fun tr r _ =>
      Meets.call trivial fun _ => trivial
    refine Meets.call ⟨job, t, rfl, rfl, rfl, rfl⟩ ?_
    rintro (e | result | exc | _)
    · trivial
    · exact Meets.call trivial fun r => Meets.ofExcept trivial
    · trivial
    · trivial

/-- What the calls so far have added to `_busy_workers`. -/
def busyOf (tr : Talk JsonObject) : Int := (tr.map busyDelta).sum

theorem busyOf_snoc (tr : Talk JsonObject) (x : Exchange (Command JsonObject) Command.Answer) :
    busyOf (tr ++ [x]) = busyOf tr + busyDelta x := by
  simp [busyOf]

/-- The `finally` clause takes back what was added before the `try`. -/
theorem processOne_busy (w : String) :
    Meets (fun _ _ => True) (fun tr _ => busyOf tr = 0) [] (processOne w) := by
  refine Meets.call trivial ?_
  rintro (e | _ | job)
  · rfl
  · rfl
  · apply Meets.call trivial
    intro (t : UtcTime)
    apply Meets.call trivial
    rintro ⟨⟩
    refine Meets.tryFinally (Q := fun tr _ => busyOf tr = 1)
      (Meets.tryCatch (Q := fun tr _ => busyOf tr = 1) ?_ (fun _ _ hb => hb) fun tr exc hb => ?_)
      fun tr r hb => Meets.call trivial fun u => ?_
    · apply Meets.call trivial
      rintro (e | result | exc | _)
      · rfl
      · apply Meets.call trivial
        intro r
        exact Meets.ofExcept rfl
      · rfl
      · rfl
    · have hend : ∀ config error timedOut backoff r, busyOf (tr ++ [⟨.configView, config⟩] ++
          [⟨.jobs (.markFailedAttempt job w (job.attemptCount + 1) t error timedOut backoff), r⟩]) = 1 := by
        intro config error timedOut backoff r
        rw [busyOf_snoc, busyOf_snoc, hb]
        rfl
      exact excepted_meets (fun _ _ => recordFailure_meets trivial (fun _ _ => trivial) fun _ _ _ => hend ..)
        fun _ => hb
    · show busyOf (tr ++ [⟨.addBusy (-1), u⟩]) = 0
      rw [busyOf_snoc, hb]
      rfl

theorem Call.Finished.busy {c : Call} (hc : c.Finished) : c.busy = 0 := by
  obtain ⟨r, hcode⟩ := hc
  have hreached := c.reached
  rw [hcode] at hreached
  exact (processOne_busy c.workerId).result hreached

/-! ## Attempts under way -/

/-- The exchange records an attempt, or fails to. -/
def records : Exchange (Command JsonObject) Command.Answer → Bool
  | ⟨.jobs (.markSucceeded _ _ _ _ _), _⟩ => true
  | ⟨.jobs (.markFailedAttempt _ _ _ _ _ _ _), _⟩ => true
  | _ => false

/-- An attempt: its worker, its number, and its outcome once it is known. -/
abbrev Attempt := String × Nat × Option (HandlerOutcome JsonObject)

/-- The attempt at the job `id` that is claimed and not recorded. -/
def underWay (id w : String) (tr : Talk JsonObject) : Option Attempt :=
  if tr.any records then none
  else match workingOn tr with
    | some job =>
      if job.id = id then some (w, job.attemptCount + 1, (tr.filterMap heard).head?) else none
    | none => none

def Call.attempt (id : String) (c : Call) : Option Attempt := underWay id c.workerId c.talk

/-- An attempt got lost: the handler was refused, or the record of the attempt failed. -/
inductive Lost : Exchange (Command JsonObject) Command.Answer → Prop
  | refused (payload : Json) (n : Nat) (timeout : ℚ) (exc : PyExc) :
      Lost ⟨.handler payload n timeout, .error exc⟩
  | record {q : JobCall JsonObject} {job : Job} (exc : PyExc) : q.completes = some job →
      Lost ⟨.jobs q, .error exc⟩

/-- No attempt at the job got lost. -/
def NothingLost (id : String) (tr : Talk JsonObject) : Prop :=
  (workingOn tr).any (·.id == id) = true → ∀ x ∈ tr, ¬ Lost x

section
variable {id w : String} {tr : Talk JsonObject} {x : Exchange (Command JsonObject) Command.Answer}

/-- An exchange that neither claims, handles nor records. -/
theorem underWay_snoc (ht : taken x = none) (hh : heard x = none) (hr : records x = false) :
    underWay id w (tr ++ [x]) = underWay id w tr := by
  simp [underWay, workingOn, List.filterMap_append, ht, hh, hr]

theorem underWay_record (hr : records x = true) : underWay id w (tr ++ [x]) = none := by
  simp [underWay, hr]

/-- The talk before the handler is asked. -/
def started (w : String) (job : Job) (t : UtcTime) : Talk JsonObject :=
  [⟨.jobs (.claimNextJob w), .ok (some job)⟩, ⟨.utcnow, t⟩, ⟨.addBusy 1, ()⟩]

theorem underWay_started (job : Job) (t : UtcTime) : underWay id w (started w job t) =
    if job.id = id then some (w, job.attemptCount + 1, none) else none := rfl

theorem underWay_opening (job : Job) (t : UtcTime) (x : Except PyExc (HandlerOutcome JsonObject)) :
    underWay id w (opening w job t x) =
      if job.id = id then some (w, job.attemptCount + 1, x.toOption) else none := by
  cases x <;> rfl

theorem underWay_claim (job : Job) :
    underWay id w [⟨.jobs (.claimNextJob w), .ok (some job)⟩] =
      if job.id = id then some (w, job.attemptCount + 1, none) else none := rfl

end

/-- When an attempt at the job is recorded, the call has it under way, and the record is that of its
outcome. -/
inductive Recording (id w : String) (tr : Talk JsonObject) (job : Job) : JobCall JsonObject → Prop
  | succeeded (t : UtcTime) (result : JsonObject) :
      underWay id w tr = some (w, job.attemptCount + 1, some (.returned result)) →
      Recording id w tr job (.markSucceeded job w (job.attemptCount + 1) t result)
  | failed (t : UtcTime) {o : HandlerOutcome JsonObject} {exc : PyExc} {error : String}
      (config : RuntimeConfig) : underWay id w tr = some (w, job.attemptCount + 1, some o) →
      o.exc = some exc → recordedError exc = .ok error → tr.getLast? = some ⟨.configView, config⟩ →
      Recording id w tr job (failureCall w job t exc error config)

/-- A record is about the job of the call. -/
theorem Asked.workingOn {w : String} {tr : Talk JsonObject} {q : JobCall JsonObject} (hq : Asked w tr q)
    {job : Job} (hc : q.completes = some job) : workingOn tr = some job := by
  cases hq with
  | claim => cases hc
  | succeeded | failed | lost =>
    cases hc
    rfl

theorem Asked.recording {id w : String} {tr : Talk JsonObject} {q : JobCall JsonObject}
    (hq : Asked w tr q) (hlost : NothingLost id tr) {job : Job}
    (hc : q.completes = some job) (hid : job.id = id) : Owns w tr job ∧ Recording id w tr job q := by
  have hlost : ∀ x ∈ tr, ¬ Lost x := hlost (by simp [hq.workingOn hc, hid])
  cases hq with
  | claim => cases hc
  | succeeded job' t result =>
    cases hc
    refine ⟨by simp [Owns, opening], .succeeded t result ?_⟩
    rw [underWay_opening, if_pos hid]
    rfl
  | @failed job' t x exc error config hx herror =>
    cases hc
    cases x with
    | error e =>
      have hrefused : Lost ⟨.handler job.payload (job.attemptCount + 1) job.timeoutSeconds, .error e⟩ :=
        .refused _ _ _ e
      exact absurd hrefused (hlost _ (by simp [opening]))
    | ok o =>
      refine ⟨by simp [Owns, opening], .failed t config ?_ hx herror (by rw [List.getLast?_concat])⟩
      rw [underWay_snoc rfl rfl rfl, underWay_opening, if_pos hid]
      rfl
  | @lost job' t result exc error config =>
    -- the record of the success would have failed before
    cases hc
    refine absurd (.record exc rfl) (hlost ⟨.jobs (.markSucceeded job w (job.attemptCount + 1) t
      result), .error exc⟩ ?_)
    simp [opening]

/-- A call about another job has nothing under way here. -/
theorem Asked.elsewhere {id w : String} {tr : Talk JsonObject} {q : JobCall JsonObject}
    (hq : Asked w tr q) {job : Job} (hc : q.completes = some job) (hid : job.id ≠ id) :
    underWay id w tr = none := by
  have hopen : ∀ t x, underWay id w (opening w job t x) = none := by
    intro t x
    rw [underWay_opening, if_neg hid]
  cases hq with
  | claim => cases hc
  | succeeded job' t result =>
    cases hc
    exact hopen _ _
  | failed job' t config =>
    cases hc
    rw [underWay_snoc rfl rfl rfl, hopen]
  | lost job' t result config => simp [underWay, records]

/-! ## The state that is shown -/

/-- The verdict that the code takes the outcome for. -/
def HandlerOutcome.verdict {ρ : Type} (o : HandlerOutcome ρ) : AttemptStatus :=
  match o.exc with
  | none => .succeeded
  | some exc => if exc.isTimeout then .timedOut else .failed

theorem HandlerOutcome.verdict_eq {ρ : Type} {o : HandlerOutcome ρ} (h : ¬ o.RaisesTimeout) :
    o.verdict = o.mark := by
  cases o with
  | raised e => simp_all [RaisesTimeout, verdict, HandlerOutcome.exc, mark]
  | returned | late => rfl

/-- A recorded error is the one that the outcome deserves. -/
theorem HandlerOutcome.error_eq {ρ : Type} {o : HandlerOutcome ρ} (h : ¬ o.RaisesTimeout)
    {lastError : Option String} (hlast : lastError.map .ok = o.exc.map recordedError) :
    lastError = o.error := by
  cases o with
  | returned => exact Option.map_eq_none_iff.1 hlast
  | late =>
    obtain ⟨text, rfl, htext⟩ := Option.map_eq_some_iff.1 hlast
    cases htext
    rfl
  | raised exc =>
    obtain ⟨text, rfl, htext⟩ := Option.map_eq_some_iff.1 hlast
    have hother : ¬ exc.isTimeout = true := h
    rw [recordedError, if_neg hother] at htext
    rw [HandlerOutcome.error, ← htext]
    rfl

theorem HandlerOutcome.returns_iff {ρ : Type} {o : HandlerOutcome ρ} : o.Returns ↔ o.exc = none := by
  cases o <;> simp [Returns, HandlerOutcome.exc]

/-- The state of the reference that a row and the attempts under way show. -/
inductive ShowsPhase (deps : Deps) (r : JobRow) :
    RetryLoop.State (HandlerOutcome JsonObject) UtcTime → List Attempt → Prop
  | waiting {log : List (HandlerOutcome JsonObject)} {due : Option UtcTime} : r.status = .queued →
      (∀ t ∈ due, r.runAt = toDbTime t) → ShowsPhase deps r ⟨.waiting due, log⟩ []
  | claimed {log : List (HandlerOutcome JsonObject)} (w : String) : r.status = .running →
      r.lockedBy = some w → ShowsPhase deps r ⟨.claimed, log⟩ [(w, r.attemptCount + 1, none)]
  | invoked {log : List (HandlerOutcome JsonObject)} (w : String) (o : HandlerOutcome JsonObject) :
      r.status = .running → r.lockedBy = some w →
      ShowsPhase deps r ⟨.invoked o, log⟩ [(w, r.attemptCount + 1, some o)]
  | done {log : List (HandlerOutcome JsonObject)} (result : JsonObject) : r.status = .succeeded →
      r.result = some (deps.dumps (.obj result)) → ShowsPhase deps r ⟨.done, log ++ [.returned result]⟩ []
  | dead {log : List (HandlerOutcome JsonObject)} (o : HandlerOutcome JsonObject) :
      r.status = .deadLettered → r.lastError.map .ok = o.exc.map recordedError →
      ShowsPhase deps r ⟨.dead, log ++ [o]⟩ []

/-- The happenings `l` are a run of the reference to the state that is shown. -/
structure ShowsLoop (deps : Deps) (id : String) (l : Attempts) (s : Store) (under : List Attempt)
    (r : JobRow) (st : RetryLoop.State (HandlerOutcome JsonObject) UtcTime) : Prop where
  run : RetryLoop.Run HandlerOutcome.Returns r.maxRetries nextAttempt l st
  count : r.attemptCount = st.log.length
  phase : ShowsPhase deps r st under
  rows : ∀ a ∈ s.jobAttempts, a.jobId = id →
    ∃ o, st.log[a.attemptNo - 1]? = some o ∧ a.status = o.verdict

/-- A store with attempts under way refines the reference for the job `id`. -/
structure Refines (deps : Deps) (id : String) (l : Attempts) (s : Store) (under : List Attempt) : Prop
    where
  unborn : s.job? id = none → l = [] ∧ under = []
  born : ∀ r, s.job? id = some r → ∃ st, ShowsLoop deps id l s under r st

section
variable {deps : Deps} {id : String} {l : Attempts} {s s' : Store} {under : List Attempt}

/-- What does not concern the job. -/
theorem Refines.frame (h : Refines deps id l s under) (hjob : s'.job? id = s.job? id)
    (hatt : ∀ a ∈ s'.jobAttempts, a.jobId = id → a ∈ s.jobAttempts) : Refines deps id l s' under where
  unborn hn := h.unborn (hjob ▸ hn)
  born r hr := by
    obtain ⟨st, hrun, hcount, hphase, hrows⟩ := h.born r (hjob ▸ hr)
    exact ⟨st, hrun, hcount, hphase, fun a ha hid => hrows a (hatt a ha hid) hid⟩

/-- The job of an attempt under way exists. -/
theorem Refines.exists_row (h : Refines deps id l s under) (hu : under ≠ []) :
    ∃ r st, s.job? id = some r ∧ ShowsLoop deps id l s under r st := by
  cases hr : s.job? id with
  | none => exact absurd (h.unborn hr).2 hu
  | some r =>
    obtain ⟨st, hst⟩ := h.born r hr
    exact ⟨r, st, rfl, hst⟩

end

/-! ## One call of many -/

section
variable {α β : Type} {f : α → Option β} {before after : List α} {c c' : α}

theorem filterMap_replace (h : f c' = f c) :
    (before ++ c' :: after).filterMap f = (before ++ c :: after).filterMap f := by
  simp [List.filterMap_append, List.filterMap_cons, h]

/-- The one that yields something is the only one. -/
theorem filterMap_single {a b : β} (h : (before ++ c :: after).filterMap f = [a]) (hc : f c = some b) :
    b = a ∧ ∀ c', (before ++ c' :: after).filterMap f = (f c').toList := by
  rw [List.filterMap_append, List.filterMap_cons_some hc] at h
  have hlen := congrArg List.length h
  simp only [List.length_append, List.length_cons, List.length_nil] at hlen
  have hbefore : before.filterMap f = [] := List.length_eq_zero_iff.1 (by omega)
  have hafter : after.filterMap f = [] := List.length_eq_zero_iff.1 (by omega)
  rw [hbefore, hafter] at h
  refine ⟨by simpa using h, fun c' => ?_⟩
  rw [List.filterMap_append, hbefore, List.filterMap_cons, hafter]
  cases f c' <;> rfl

theorem filterMap_fresh (h : (before ++ c :: after).filterMap f = []) (c' : α) :
    (before ++ c' :: after).filterMap f = (f c').toList := by
  rw [List.filterMap_append, List.append_eq_nil_iff] at h
  obtain ⟨hbefore, hafter⟩ := h
  have hafter : after.filterMap f = [] := by
    rw [List.filterMap_eq_nil_iff] at hafter ⊢
    exact fun x hx => hafter x (List.mem_cons_of_mem _ hx)
  rw [List.filterMap_append, hbefore, List.filterMap_cons, hafter]
  cases f c' <;> rfl

end

/-! ## Steps of the job -/

section
variable {deps : Deps} {id : String} {l : Attempts} {s : Store} {under : List Attempt} {row : JobRow}
  {w : String} {n : Nat}

/-- A job that waits is in nobody's hands. -/
theorem Refines.idle (h : Refines deps id l s under) (hrow : s.job? id = some row)
    (hq : row.status = .queued) : under = [] := by
  obtain ⟨st, hrun, hcount, hphase, hrows⟩ := h.born row hrow
  cases hphase with
  | waiting => rfl
  | claimed w hrun' | invoked w o hrun' =>
    rw [hq] at hrun'
    cases hrun'
  | done | dead => rfl

/-- A row with the state that it shows. -/
theorem Refines.of_shows {r : JobRow} {st : RetryLoop.State (HandlerOutcome JsonObject) UtcTime}
    (hr : s.job? id = some r) (h : ShowsLoop deps id l s under r st) : Refines deps id l s under where
  unborn hn := by
    rw [hr] at hn
    cases hn
  born r' hr' := by
    rw [hr] at hr'
    cases hr'
    exact ⟨st, h⟩

theorem Refines.claim (h : Refines deps id l s []) (hok : s.Ok deps) {now : UtcTime}
    (hrow : row ∈ s.jobs) (hid : row.id = id) (hq : row.status = .queued)
    (hdue : row.runAt ≤ toDbTime now) :
    Refines deps id (.claimed now (row.attemptCount + 1) :: l)
      { s with jobs := updateWhere (·.id == row.id) (·.claimed w (toDbTime now)) s.jobs }
      [(w, row.attemptCount + 1, none)] := by
  subst hid
  have hjob := hok.job?_mem hrow
  have hnew := job?_update s row.id (·.claimed w (toDbTime now)) (fun _ => rfl) row.id
  rw [if_pos rfl, hjob, Option.map_some] at hnew
  obtain ⟨st, hrun, hcount, hphase, hrows⟩ := h.born row hjob
  cases hphase with
  | @waiting log due _ hrunAt =>
    have hcount : row.attemptCount = log.length := hcount
    have hstep : RetryLoop.Step HandlerOutcome.Returns row.maxRetries nextAttempt ⟨.waiting due, log⟩
        (.claimed now (row.attemptCount + 1)) ⟨.claimed, log⟩ := by
      rw [hcount]
      refine .claim fun t ht => ?_
      rw [hrunAt t ht] at hdue
      exact toDbTime_le.1 hdue
    exact Refines.of_shows hnew ⟨.cons hrun hstep, hcount, .claimed w rfl rfl, hrows⟩
  | done result hst | dead o hst =>
    rw [hq] at hst
    cases hst

theorem Refines.invoke (h : Refines deps id l s [(w, n, none)]) (o : HandlerOutcome JsonObject) :
    Refines deps id (.invoked n o :: l) s [(w, n, some o)] := by
  obtain ⟨r, st, hr, hrun, hcount, hphase, hrows⟩ := h.exists_row (by simp)
  cases hphase with
  | @claimed log _ hst hw =>
    have hcount : r.attemptCount = log.length := hcount
    refine Refines.of_shows hr ⟨.cons hrun ?_, hcount, .invoked w o hst hw, hrows⟩
    rw [hcount]
    exact .invoke o

/-- What an attempt that waits for its record says about the row. -/
theorem Refines.held (h : Refines deps id l s [(w, n, some o)]) : ∃ r log, s.job? id = some r ∧
    ShowsLoop deps id l s [(w, n, some o)] r ⟨.invoked o, log⟩ ∧ r.status = .running ∧
    r.lockedBy = some w ∧ n = r.attemptCount + 1 := by
  obtain ⟨r, st, hr, hshows⟩ := h.exists_row (by simp)
  have hphase := hshows.phase
  cases hphase with
  | @invoked log _ _ hst hw => exact ⟨r, log, hr, hshows, hst, hw, rfl⟩

/-- The attempt rows after a settlement. -/
theorem settle_rows {log : List (HandlerOutcome JsonObject)} {out : HandlerOutcome JsonObject}
    {startedAt t : DbTime} {o : Outcome} (hcount : row.attemptCount = log.length)
    (hrows : ∀ a ∈ s.jobAttempts, a.jobId = row.id →
      ∃ o, log[a.attemptNo - 1]? = some o ∧ a.status = o.verdict) (ho : o.mark = out.verdict) :
    ∀ a ∈ (s.settle row w startedAt o t).jobAttempts, a.jobId = row.id →
      ∃ o, (log ++ [out])[a.attemptNo - 1]? = some o ∧ a.status = o.verdict := by
  intro a ha hid
  rcases List.mem_append.1 ha with ha | ha
  · obtain ⟨x, hx, hst⟩ := hrows a ha hid
    exact ⟨x, by rw [List.getElem?_append_left (List.getElem?_eq_some_iff.1 hx).1, hx], hst⟩
  · rw [List.mem_singleton.1 ha]
    exact ⟨out, by simp [JobRow.attempt, hcount], ho⟩

theorem Refines.finish {result : JsonObject}
    (h : Refines deps row.id l s [(w, n, some (.returned result))]) (hn : (s.jobs.map (·.id)).Nodup)
    (hrow : row ∈ s.jobs) (startedAt : DbTime) (now : UtcTime) :
    Refines deps row.id (.finished now n :: l)
      (s.settle row w startedAt (.success (deps.dumps (.obj result))) (toDbTime now)) [] := by
  obtain ⟨r, log, hr, hshows, -, -, rfl⟩ := h.held
  rw [show s.job? row.id = some row from lookup_of_mem hn hrow] at hr
  cases hr
  have hcount : row.attemptCount = log.length := hshows.count
  refine Refines.of_shows (settled_job? hn hrow rfl) ⟨.cons hshows.run ?_, ?_, .done result rfl rfl,
    settle_rows hcount hshows.rows rfl⟩
  · rw [hcount]
    exact .finish now trivial
  · simp [JobRow.settled, hcount]

theorem Refines.fail {o : HandlerOutcome JsonObject} {exc : PyExc} {error : String} {now runAt : UtcTime}
    {config : RuntimeConfig} {payload : String}
    (h : Refines deps row.id l s [(w, n, some o)]) (hn : (s.jobs.map (·.id)).Nodup)
    (hrow : row ∈ s.jobs) (ho : o.exc = some exc) (herror : recordedError exc = .ok error)
    (hnext : n ≤ row.maxRetries → nextAttempt config n now runAt) (startedAt : DbTime) :
    Refines deps row.id (.failed now n config :: l)
      (s.settle row w startedAt (.failure (if exc.isTimeout then .timedOut else .failed)
        error (toDbTime runAt) payload) (toDbTime now)) [] := by
  obtain ⟨r, log, hr, hshows, -, -, rfl⟩ := h.held
  rw [show s.job? row.id = some row from lookup_of_mem hn hrow] at hr
  cases hr
  have hcount : row.attemptCount = log.length := hshows.count
  have hbad : ¬ o.Returns := by
    rw [HandlerOutcome.returns_iff, ho]
    simp
  have hrows := @settle_rows s row w log o startedAt (toDbTime now)
    (.failure (if exc.isTimeout then .timedOut else .failed) error (toDbTime runAt) payload)
    hcount hshows.rows (by simp [Outcome.mark, HandlerOutcome.verdict, ho])
  have hjob : (s.settle row w startedAt (.failure (if exc.isTimeout then .timedOut else .failed)
      error (toDbTime runAt) payload) (toDbTime now)).job? row.id = some _ :=
    settled_job? hn hrow rfl
  by_cases hle : row.attemptCount + 1 ≤ row.maxRetries
  · have hstep : RetryLoop.Step HandlerOutcome.Returns row.maxRetries nextAttempt ⟨.invoked o, log⟩
        (.failed now (row.attemptCount + 1) config) ⟨.waiting (some runAt), log ++ [o]⟩ := by
      rw [hcount] at hle hnext ⊢
      exact .retry hbad hle (hnext hle)
    refine Refines.of_shows hjob ⟨.cons hshows.run hstep, ?_, .waiting ?_ ?_, hrows⟩
    · simp [JobRow.settled, hcount]
    · simp [JobRow.settled, hle]
    · intro t ht
      cases ht
      rfl
  · have hstep : RetryLoop.Step HandlerOutcome.Returns row.maxRetries nextAttempt ⟨.invoked o, log⟩
        (.failed now (row.attemptCount + 1) config) ⟨.dead, log ++ [o]⟩ := by
      rw [hcount] at hle ⊢
      exact .exhaust now config hbad (Nat.lt_of_not_le hle)
    refine Refines.of_shows hjob ⟨.cons hshows.run hstep, ?_, .dead o ?_ ?_, hrows⟩
    · simp [JobRow.settled, hcount]
    · simp [JobRow.settled, hle]
    · rw [ho]
      exact congrArg some herror.symm

end

end PulseQueue
