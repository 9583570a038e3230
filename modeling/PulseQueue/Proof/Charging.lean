import PulseQueue.Proof.Runs
import PulseQueue.Proof.WorkerLoop

/-!
# What a worker charges a handler with

`Asked` has the repository calls of `process_one` with all that was said before each; the code asks for
nothing else (`processOne_asks`). Its completions belong to its own claim, so a pool of such calls is one
of the runs considered elsewhere (`Pool.run`), and what a completion writes is known from
`Sound.completion` (`Effect`). The `try` block of `process_one` covers the handler and the record of its
success, so a lost success is recorded as a failure: a call is fair exactly when that record does not
get through (`fair_iff_benign`).
-/

namespace PulseQueue

open Txn Trace Interaction Table

/-! ## The calls of `process_one` -/

/-- What was said when the handler has ended, or could not be submitted. -/
def opening (w : String) (job : Job) (startedAt : UtcTime) (x : Except PyExc (HandlerOutcome JsonObject)) :
    Talk JsonObject :=
  [⟨.jobs (.claimNextJob w), .ok (some job)⟩, ⟨.utcnow, startedAt⟩, ⟨.addBusy 1, ()⟩,
    ⟨.handler job.payload (job.attemptCount + 1) job.timeoutSeconds, x⟩]

/-- The record of the failure `exc`, printed as `error`. -/
def failureCall (w : String) (job : Job) (startedAt : UtcTime) (exc : PyExc) (error : String)
    (config : RuntimeConfig) : JobCall JsonObject :=
  .markFailedAttempt job w (job.attemptCount + 1) startedAt error exc.isTimeout
    (backoffOf config (job.attemptCount + 1))

/-- What the handler's answer raises in `process_one`. -/
abbrev caughtBy (job : Job) (x : Except PyExc (HandlerOutcome JsonObject)) : Option PyExc :=
  caught ⟨.handler job.payload (job.attemptCount + 1) job.timeoutSeconds, x⟩

inductive Asked (w : String) : Talk JsonObject → JobCall JsonObject → Prop
  | claim : Asked w [] (.claimNextJob w)
  | succeeded (job : Job) (t : UtcTime) (result : JsonObject) :
      Asked w (opening w job t (.ok (.returned result)))
        (.markSucceeded job w (job.attemptCount + 1) t result)
  | failed (job : Job) (t : UtcTime) {x : Except PyExc (HandlerOutcome JsonObject)} {exc : PyExc}
      {error : String} (config : RuntimeConfig) : caughtBy job x = some exc → recordedError exc = .ok error →
      Asked w (opening w job t x ++ [⟨.configView, config⟩]) (failureCall w job t exc error config)
  | lost (job : Job) (t : UtcTime) (result : JsonObject) {exc : PyExc} {error : String}
      (config : RuntimeConfig) : recordedError exc = .ok error →
      Asked w (opening w job t (.ok (.returned result)) ++
        [⟨.jobs (.markSucceeded job w (job.attemptCount + 1) t result), .error exc⟩,
          ⟨.configView, config⟩]) (failureCall w job t exc error config)

/-- Repository calls are made as `Asked` says. -/
def AsksOnly (w : String) (past : Talk JsonObject) : Command JsonObject → Prop
  | .jobs q => Asked w past q
  | _ => True

/-- The `except` clauses record what they can print. -/
theorem recordFailure_asks {w : String} {job : Job} {t : UtcTime} {exc : PyExc}
    {past : Talk JsonObject}
    (h : ∀ error, recordedError exc = .ok error → ∀ config,
      Asked w (past ++ [⟨.configView, config⟩]) (failureCall w job t exc error config)) :
    Meets (AsksOnly w) (fun _ _ => True) past
      (if exc.isTimeout then
        recordFailure job w (job.attemptCount + 1) t "attempt timed out" true
      else do
        let error ← Prog.ofExcept exc.str
        recordFailure job w (job.attemptCount + 1) t error false) := by
  have hrecord : ∀ error, recordedError exc = .ok error → Meets (AsksOnly w) (fun _ _ => True) past
      (recordFailure job w (job.attemptCount + 1) t error exc.isTimeout) := by
    intro error herror
    apply Meets.call trivial
    intro config
    exact Meets.call (h error herror config) fun r => Meets.ofExcept trivial
  cases htimeout : exc.isTimeout with
  | true =>
    have hlate := hrecord "attempt timed out" (by simp [recordedError, htimeout])
    rw [htimeout] at hlate
    exact hlate
  | false =>
    refine Meets.ofExcept_bind (fun error herror => ?_) fun _ _ => trivial
    have hfailed := hrecord error (by simp [recordedError, htimeout, herror])
    rw [htimeout] at hfailed
    exact hfailed

theorem processOne_asks (w : String) :
    Meets (AsksOnly w) (fun _ _ => True) [] (processOne w) := by
  refine Meets.call Asked.claim ?_
  rintro (e | _ | job)
  · trivial
  · trivial
  · apply Meets.call trivial
    intro (t : UtcTime)
    apply Meets.call trivial
    rintro ⟨⟩
    refine Meets.tryFinally (Q := fun _ _ => True) (Meets.tryCatch
      (Q := fun tr r => ∀ exc, r = .error exc → ∀ error, recordedError exc = .ok error → ∀ config,
        Asked w (tr ++ [⟨.configView, config⟩]) (failureCall w job t exc error config))
      ?_ (fun _ _ _ => trivial) fun tr exc hq => recordFailure_asks (hq exc rfl)) fun tr r _ => ?_
    · apply Meets.call trivial
      rintro (exc | result | exc | _)
      · rintro _ ⟨⟩ error herror config
        exact .failed job t config rfl herror
      · refine Meets.call (Asked.succeeded job t result) ?_
        rintro (exc | j)
        · rintro _ ⟨⟩ error herror config
          exact .lost job t result config herror
        · rintro _ ⟨⟩
      · rintro _ ⟨⟩ error herror config
        exact .failed job t config rfl herror
      · rintro _ ⟨⟩ error herror config
        exact .failed job t config rfl herror
    · exact Meets.call trivial fun _ => trivial

/-! ## What was said -/

theorem heard_unique {tr : Talk JsonObject} {x : Except PyExc (HandlerOutcome JsonObject)}
    {o : HandlerOutcome JsonObject} (h : tr.filterMap heard = x.toOption.toList) {payload : Json} {n : Nat}
    {timeout : ℚ} (ho : (⟨.handler payload n timeout, .ok o⟩ : Exchange _ Command.Answer) ∈ tr) :
    x = .ok o := by
  have hmem : o ∈ tr.filterMap heard := List.mem_filterMap.2 ⟨_, ho, rfl⟩
  rw [h] at hmem
  cases x with
  | error exc => cases hmem
  | ok o' => rw [List.mem_singleton.1 hmem]

theorem taken_unique {tr : Talk JsonObject} {w : String} {job job' : Job}
    (h : tr.filterMap taken = [job]) (ho : Owns w tr job') : job' = job := by
  have hmem : job' ∈ tr.filterMap taken := List.mem_filterMap.2 ⟨_, ho, rfl⟩
  rw [h] at hmem
  exact List.mem_singleton.1 hmem

/-- Once the handler has ended or been refused, one job is claimed and one answer is known. -/
structure Known (w : String) (tr : Talk JsonObject) (job : Job)
    (x : Except PyExc (HandlerOutcome JsonObject)) : Prop where
  owns : Owns w tr job
  handled : (⟨.handler job.payload (job.attemptCount + 1) job.timeoutSeconds, x⟩ :
    Exchange _ Command.Answer) ∈ tr
  job_unique : tr.filterMap taken = [job]
  outcome_unique : tr.filterMap heard = x.toOption.toList

theorem known_opening {w : String} {job : Job} {t : UtcTime} {x : Except PyExc (HandlerOutcome JsonObject)}
    {rest : Talk JsonObject} (ht : rest.filterMap taken = []) (hh : rest.filterMap heard = []) :
    Known w (opening w job t x ++ rest) job x where
  owns := List.mem_append_left _ (by simp [opening])
  handled := List.mem_append_left _ (by simp [opening])
  job_unique := by rw [List.filterMap_append, ht]; rfl
  outcome_unique := by
    rw [List.filterMap_append, hh]
    cases x <;> rfl

/-! ## Effects on the store -/

section
variable {deps : Deps} {engine : Engine} {s s' : Store} {h : History Event Store}

theorem Settled.wrote {a b : AttemptRow} (hs : Settled deps s s' a) (hb : b ∈ s'.jobAttempts)
    (hn : b ∉ s.jobAttempts) : b = a := by
  rw [hs.attempts, List.mem_append, List.mem_singleton] at hb
  exact hb.resolve_left hn

theorem Settled.new {a : AttemptRow} (hs : Settled deps s s' a) :
    a ∈ s'.jobAttempts ∧ a ∉ s.jobAttempts := by
  refine ⟨by simp [hs.attempts], fun hmem => ?_⟩
  have hattempts := hs.attempts
  cases hs.step with
  | settle startedAt t hr hrun hw ho hfree =>
    have hclash := hfree a hmem
    rw [List.singleton_inj.1 (List.append_cancel_left hattempts)] at hclash
    simp [AttemptRow.clash] at hclash

/-- The only job that a settlement can dead-letter is its own, and not with a success. -/
theorem Settled.deadLettered {a : AttemptRow} (hs : Settled deps s s' a) {id : String}
    (hd : s'.DeadLettered id) (hn : ¬ s.DeadLettered id) : id = a.jobId ∧ a.status ≠ .succeeded := by
  have hattempts := hs.attempts
  cases hs.step with
  | settle startedAt t hr hrun hw ho hfree =>
    rename_i r w o
    have ha := List.singleton_inj.1 (List.append_cancel_left hattempts)
    obtain ⟨row, hrow, hdead⟩ := hd
    have hrow' : (if id = r.id then (s.job? id).map (·.settled o t) else s.job? id) = some row :=
      (job?_update s r.id (·.settled o t) (fun x => settled_id o t x) id).symm.trans hrow
    split at hrow'
    · rename_i he
      subst he
      refine ⟨by rw [← ha]; rfl, fun hsucc => ?_⟩
      obtain ⟨x, hx, rfl⟩ := Option.map_eq_some_iff.1 hrow'
      cases o with
      | success result => cases hdead
      | failure m error runAt payload =>
        rw [← ha] at hsucc
        exact ho.1 hsucc
    · exact absurd ⟨row, hrow', hdead⟩ hn

/-- What a completion by `w` for `c` does to the store: nothing, since it raises or the lease is gone;
or it holds the lease and records the attempt with the mark of the call. -/
inductive Effect (deps : Deps) (op : Op) (w : String) (c : Job) (s : Store) :
    Except Err Reply → Store → Prop
  | raised (err : Err) : Effect deps op w c s (.error err) s
  | fenced (r : Reply) : ¬ Leased s w c.id → Effect deps op w c s (.ok r) s
  | settled {s' : Store} {a : AttemptRow} (r : Reply) : Leased s w c.id → Settled deps s s' a →
      a.jobId = c.id → a.workerId = w → a.attemptNo = c.attemptCount + 1 → op.mark = some a.status →
      Effect deps op w c s (.ok r) s'

theorem Sound.effect (hs : Sound deps h) {op : Op} (ha : Allowed h op) {c : Job} {w : String} {n : Nat}
    (hop : op.completes = some (c, w, n)) :
    Effect deps op w c (present h) (atomically (op.body deps engine) (present h)).1
      (present (afterCall deps engine h op)) := by
  show Effect _ _ _ _ _ _ (atomically (op.body deps engine) (present h)).2
  rcases atomically_cases (op.body deps engine) (present h) with ⟨r, s', hx, hat⟩ | ⟨e, -, hat⟩
  · rw [hat]
    rcases hs.completion ha hop hx with ⟨rfl, hl⟩ | ⟨a, hset, hj, hw, hno, hmark⟩
    · exact .fenced r hl
    · obtain ⟨row, hrow, hid, hrun, hlock, -⟩ := hset.row
      rw [hj] at hid
      rw [hw] at hlock
      exact .settled r ⟨row, hrow, hid, hrun, hlock⟩ hset hj hw hno hmark
  · rw [hat]
    exact .raised e

/-- A claim writes no attempt row and dead-letters nothing. -/
theorem claim_quiet (hok : s.Ok deps) {skipped : String → Bool} {now : UtcTime} {w : String} :
    let next := (atomically ((Op.claim skipped now w).body deps engine) s).2
    next.jobAttempts = s.jobAttempts ∧ ∀ id, next.DeadLettered id → s.DeadLettered id := by
  rcases atomically_cases ((Op.claim skipped now w).body deps engine) s with
    ⟨r, s', hx, hat⟩ | ⟨e, -, hat⟩
  · rw [hat]
    obtain ⟨j, -, hc⟩ := claim_ok hok hx
    cases hc with
    | idle => exact ⟨rfl, fun _ hd => hd⟩
    | @took o t ho hq =>
      refine ⟨rfl, ?_⟩
      rintro id ⟨row, hrow, hdead⟩
      have hrow' : (if id = o.id then (s.job? id).map (·.claimed w t) else s.job? id) = some row :=
        (job?_update s o.id (·.claimed w t) (fun _ => rfl) id).symm.trans hrow
      split at hrow'
      · obtain ⟨x, hx, rfl⟩ := Option.map_eq_some_iff.1 hrow'
        cases hdead
      · exact ⟨row, hrow', hdead⟩
  · rw [hat]
    exact ⟨rfl, fun _ hd => hd⟩

/-! ## Fair and benign -/

namespace Performed

variable {e : Performed}

theorem fair_of_quiet (ha : e.after.jobAttempts = e.before.jobAttempts)
    (hd : ∀ id, e.after.DeadLettered id → e.before.DeadLettered id) : e.Fair where
  failed _ hw _ := absurd (ha ▸ hw.1) hw.2
  timedOut _ hw _ := absurd (ha ▸ hw.1) hw.2
  returned _ _ hw _ := absurd (ha ▸ hw.1) hw.2
  deadLettered id hafter hbefore := absurd (hd id hafter) hbefore

theorem fair_of_same (h : e.after = e.before) : e.Fair :=
  fair_of_quiet (by rw [h]) (by rw [h]; exact fun _ hd => hd)

theorem handled_iff {job : Job} {x : Except PyExc (HandlerOutcome JsonObject)}
    {o : HandlerOutcome JsonObject} (hk : Known e.workerId e.talk job x) {a : AttemptRow}
    (hj : a.jobId = job.id) (hw : a.workerId = e.workerId) (hn : a.attemptNo = job.attemptCount + 1) :
    e.Handled a o ↔ x = .ok o := by
  constructor
  · rintro ⟨job', howns, -, -, -, hmem⟩
    exact heard_unique hk.outcome_unique hmem
  · rintro rfl
    exact ⟨job, hk.owns, hj, hn, hw, hk.handled⟩

/-- A settlement is fair when the row has the status that the answer asks for. -/
theorem fair_settled {job : Job} {x : Except PyExc (HandlerOutcome JsonObject)}
    (hk : Known e.workerId e.talk job x) {a : AttemptRow} (hset : Settled deps e.before e.after a)
    (hj : a.jobId = job.id) (hw : a.workerId = e.workerId) (hn : a.attemptNo = job.attemptCount + 1) :
    e.Fair ↔ (a.status = .failed → ∃ exc, x = .ok (.raised exc)) ∧ (a.status = .timedOut → x = .ok .late) ∧
      (∀ result, x = .ok (.returned result) → a.status = .succeeded) ∧
      (a.status ≠ .succeeded → e.after.DeadLettered a.jobId → ¬ e.before.DeadLettered a.jobId →
        (∃ exc, x = .ok (.raised exc)) ∨ x = .ok .late) := by
  have hiff : ∀ {b o}, b = a → (e.Handled b o ↔ x = .ok o) := fun hb => hb ▸ handled_iff hk hj hw hn
  constructor
  · intro hf
    refine ⟨fun hst => ?_, fun hst => ?_, fun result ho => ?_, fun _ hafter hbefore => ?_⟩
    · obtain ⟨exc, hexc⟩ := hf.failed a hset.new hst
      exact ⟨exc, (hiff rfl).1 hexc⟩
    · exact (hiff rfl).1 (hf.timedOut a hset.new hst)
    · exact hf.returned a result hset.new ((hiff rfl).2 ho)
    · obtain ⟨b, hb, -, hcause⟩ := hf.deadLettered _ hafter hbefore
      have hba := hset.wrote hb.1 hb.2
      rcases hcause with ⟨exc, hexc⟩ | hlate
      · exact .inl ⟨exc, (hiff hba).1 hexc⟩
      · exact .inr ((hiff hba).1 hlate)
  · rintro ⟨hfailed, htimedOut, hreturned, hdead⟩
    refine ⟨fun b hb hst => ?_, fun b hb hst => ?_, fun b result hb ho => ?_, fun id hafter hbefore => ?_⟩
    · have hba := hset.wrote hb.1 hb.2
      obtain ⟨exc, ho⟩ := hfailed (hba ▸ hst)
      exact ⟨exc, (hiff hba).2 ho⟩
    · have hba := hset.wrote hb.1 hb.2
      exact (hiff hba).2 (htimedOut (hba ▸ hst))
    · have hba := hset.wrote hb.1 hb.2
      rw [hba]
      exact hreturned result ((hiff hba).1 ho)
    · obtain ⟨rfl, hne⟩ := hset.deadLettered hafter hbefore
      refine ⟨a, hset.new, rfl, ?_⟩
      rcases hdead hne hafter hbefore with ⟨exc, ho⟩ | ho
      · exact .inl ⟨exc, (hiff rfl).2 ho⟩
      · exact .inr ((hiff rfl).2 ho)

/-- The call was made by the code, for a claim of its own, on the store of a run. -/
structure Real (deps : Deps) (engine : Engine) (e : Performed) : Prop where
  asked : Asked e.workerId e.talk e.call
  happened : ∃ h, Run deps engine h ∧ e.before = present h ∧
    (∀ job, Owns e.workerId e.talk job → Claimed h e.workerId job) ∧
    ((∃ exc, e.answer = .error exc) ∧ e.after = e.before ∨
      ∃ skipped now op, e.call.op skipped now = some op ∧
        e.call.Answers (atomically (op.body deps engine) (present h)).1 e.answer ∧
        e.after = present (afterCall deps engine h op))

/-- The mark that `mark_failed_attempt` gets for `exc` is what the answer deserves. -/
def Deserved (exc : PyExc) : Except PyExc (HandlerOutcome JsonObject) → Prop
  | .error _ => False
  | .ok (.returned _) => False
  | .ok (.raised _) => exc.isTimeout = false
  | .ok .late => exc.isTimeout = true

/-- A failure is fair when it is deserved, or when its record does not get through. -/
theorem fair_failure {job : Job} {x : Except PyExc (HandlerOutcome JsonObject)} {exc : PyExc} {op : Op}
    {out : Except Err Reply} (hk : Known e.workerId e.talk job x)
    (heff : Effect deps op e.workerId job e.before out e.after)
    (hmark : op.mark = some (if exc.isTimeout then .timedOut else .failed)) :
    e.Fair ↔ (¬ Deserved exc x → (∃ err, out = .error err) ∨ ¬ Leased e.before e.workerId job.id) := by
  generalize hb : e.before = before at heff
  generalize hafter : e.after = after at heff
  cases heff with
  | raised err => exact ⟨fun _ _ => .inl ⟨err, rfl⟩, fun _ => fair_of_same (hafter.trans hb.symm)⟩
  | fenced r hl => exact ⟨fun _ _ => .inr hl, fun _ => fair_of_same (hafter.trans hb.symm)⟩
  | @settled s' a r hl hset hj hw hn hm =>
    have hst : a.status = if exc.isTimeout then .timedOut else .failed :=
      (Option.some.inj (hmark.symm.trans hm)).symm
    rw [fair_settled hk (hb ▸ hafter ▸ hset) hj hw hn, hst]
    -- the record gets through, so the outcome has to deserve it
    have hthrough : ¬ ((∃ err, Except.ok r = Except.error (α := Reply) (ε := Err) err) ∨
        ¬ Leased before e.workerId job.id) := by
      rintro (⟨err, he⟩ | hn)
      · cases he
      · exact hn hl
    have hneed : (¬ Deserved exc x → (∃ err, Except.ok r = Except.error (α := Reply) (ε := Err) err) ∨
        ¬ Leased before e.workerId job.id) ↔ Deserved exc x :=
      ⟨fun hall => not_not.1 fun hnot => hthrough (hall hnot), fun hd hnot => absurd hd hnot⟩
    rw [hneed]
    cases htimeout : exc.isTimeout <;> rcases x with err | result | err | _ <;> simp [Deserved, htimeout]

theorem answers_error {q : JobCall JsonObject} {out : Except Err Reply}
    {x : Except PyExc (Option Job)} (h : q.Answers out x) :
    (∃ exc, x = .error exc) ↔ ∃ err, out = .error err := by
  cases h
  case raised err text => exact ⟨fun _ => ⟨err, rfl⟩, fun _ => ⟨_, rfl⟩⟩
  all_goals
    constructor
    · rintro ⟨_, ⟨⟩⟩
    · rintro ⟨_, ⟨⟩⟩

/-- The transaction of the record of a failure. -/
theorem failureCall_op {w : String} {job : Job} {t : UtcTime} {exc : PyExc} {error : String}
    {config : RuntimeConfig} {skipped : String → Bool} {now : UtcTime} {op : Op}
    (hop : (failureCall w job t exc error config).op skipped now = some op) :
    op.completes = some (job, w, job.attemptCount + 1) ∧
      op.mark = some (if exc.isTimeout then .timedOut else .failed) := by
  unfold failureCall at hop
  generalize backoffOf config (job.attemptCount + 1) = backoff at hop
  cases backoff with
  | rat q =>
    cases hop
    exact ⟨rfl, rfl⟩
  | nan =>
    simp only [JobCall.op] at hop
    split at hop
    · cases hop
    · cases hop
      exact ⟨rfl, rfl⟩

/-- The record of a failure is fair when it is benign. -/
theorem fair_iff_of_failure {job : Job} {t : UtcTime} {x : Except PyExc (HandlerOutcome JsonObject)}
    {exc : PyExc} {error : String} {config : RuntimeConfig} (hr : e.Real deps engine)
    (hk : Known e.workerId e.talk job x) (hcall : e.call = failureCall e.workerId job t exc error config)
    (hmis : (∃ y ∈ e.talk, Misleading y) ↔ ¬ Deserved exc x) : e.Fair ↔ e.Benign := by
  obtain ⟨h, hrun, hbefore, howns, hcase⟩ := hr.happened
  have hbenign : e.Benign ↔ (¬ Deserved exc x →
      (∃ err, e.answer = .error err) ∨ ¬ Leased e.before e.workerId job.id) := by
    unfold Benign
    rw [hmis]
    refine imp_congr_right fun _ => or_congr_right ⟨fun hall => hall job hk.owns, fun hn job' hj => ?_⟩
    rw [taken_unique hk.job_unique hj]
    exact hn
  rcases hcase with ⟨herr, hsame⟩ | ⟨skipped, now, op, hop, hans, hafter⟩
  · rw [hbenign]
    exact ⟨fun _ _ => .inl herr, fun _ => fair_of_same hsame⟩
  · rw [hcall] at hop
    have hcompletes := failureCall_op hop
    have hallowed : Allowed h op := by
      intro c w n hc
      rw [hcompletes.1] at hc
      cases hc
      exact ⟨rfl, howns _ hk.owns⟩
    have heff : Effect deps op e.workerId job e.before
        (atomically (op.body deps engine) (present h)).1 e.after := by
      rw [hbefore, hafter]
      exact (Run.sound hrun).effect hallowed hcompletes.1
    rw [hbenign, answers_error hans]
    exact fair_failure hk heff hcompletes.2

/-- The handler's answer is misleading when its record is not deserved. -/
theorem misleading_iff {job : Job} {x : Except PyExc (HandlerOutcome JsonObject)} {exc : PyExc}
    (hx : caughtBy job x = some exc) :
    Misleading ⟨.handler job.payload (job.attemptCount + 1) job.timeoutSeconds, x⟩ ↔ ¬ Deserved exc x := by
  rcases x with err | result | err | _
  · exact ⟨fun _ hd => hd, fun _ => .refused _ _ _ err⟩
  · cases hx
  · cases hx
    show _ ↔ ¬ exc.isTimeout = false
    rw [Bool.not_eq_false]
    constructor
    · intro hmis
      cases hmis with
      | timeoutError _ _ _ _ htimeout => exact htimeout
    · exact .timeoutError _ _ _ exc
  · cases hx
    constructor
    · intro hmis
      cases hmis
    · intro hnot
      exact absurd rfl hnot

/-- Only the handler's answer may mislead. -/
theorem misleading_opening {w : String} {job : Job} {t : UtcTime}
    {x : Except PyExc (HandlerOutcome JsonObject)} {rest : Talk JsonObject}
    (hrest : ∀ y ∈ rest, ¬ Misleading y) : (∃ y ∈ opening w job t x ++ rest, Misleading y) ↔
      Misleading ⟨.handler job.payload (job.attemptCount + 1) job.timeoutSeconds, x⟩ := by
  constructor
  · rintro ⟨y, hy, hmis⟩
    rcases List.mem_append.1 hy with hy | hy
    · simp only [opening, List.mem_cons, List.not_mem_nil, or_false] at hy
      rcases hy with rfl | rfl | rfl | rfl
      · cases hmis
      · cases hmis
      · cases hmis
      · exact hmis
    · exact absurd hmis (hrest y hy)
  · intro hmis
    exact ⟨_, List.mem_append_left _ (by simp [opening]), hmis⟩

/-- A claim writes no attempt and no dead letter. -/
theorem fair_of_claim (hr : e.Real deps engine) (hcall : e.call = .claimNextJob e.workerId) : e.Fair := by
  obtain ⟨h, hrun, hbefore, -, ⟨-, hsame⟩ | ⟨skipped, now, op, hop, -, hafter⟩⟩ := hr.happened
  · exact fair_of_same hsame
  · rw [hcall] at hop
    cases hop
    obtain ⟨ha, hd⟩ := @claim_quiet deps engine _ (Run.sound hrun).ok skipped now e.workerId
    exact fair_of_quiet (by rw [hbefore, hafter]; exact ha) (by rw [hbefore, hafter]; exact hd)

/-- A success settles the attempt that the handler ran in. -/
theorem fair_of_success {job : Job} {t : UtcTime} {result : JsonObject} (hr : e.Real deps engine)
    (hk : Known e.workerId e.talk job (.ok (.returned result)))
    (hcall : e.call = .markSucceeded job e.workerId (job.attemptCount + 1) t result) : e.Fair := by
  obtain ⟨h, hrun, hbefore, howns, ⟨-, hsame⟩ | ⟨skipped, now, op, hop, -, hafter⟩⟩ := hr.happened
  · exact fair_of_same hsame
  · rw [hcall] at hop
    obtain rfl : Op.markSucceeded now job e.workerId (job.attemptCount + 1) t result = op :=
      Option.some.inj hop
    have hallowed : Allowed h (.markSucceeded now job e.workerId (job.attemptCount + 1) t result) := by
      rintro c w' n ⟨⟩
      exact ⟨rfl, howns _ hk.owns⟩
    have heff := @Sound.effect deps engine _ (Run.sound hrun) _ hallowed _ _ _ rfl
    generalize (atomically _ (present h)).1 = out at heff
    rw [← hbefore, ← hafter] at heff
    generalize hb : e.before = before at heff
    generalize ha : e.after = after at heff
    cases heff with
    | raised | fenced => exact fair_of_same (ha.trans hb.symm)
    | @settled _ a r hl hset hj hw hn hm =>
      have hst : a.status = .succeeded := (Option.some.inj hm).symm
      rw [← hb, ← ha] at hset
      refine (fair_settled hk hset hj hw hn).2 ?_
      rw [hst]
      exact ⟨nofun, nofun, fun _ _ => rfl, fun hne => absurd rfl hne⟩

/-- A call is fair exactly when it is benign. -/
theorem fair_iff_benign (hr : e.Real deps engine) : e.Fair ↔ e.Benign := by
  obtain ⟨w, tr, q, answer, before, after⟩ := e
  have hasked : Asked w tr q := hr.asked
  cases hasked with
  | claim =>
    refine ⟨fun _ => ?_, fun _ => fair_of_claim hr rfl⟩
    rintro ⟨x, hx, -⟩
    exact absurd hx List.not_mem_nil
  | succeeded job t result =>
    have hk := @known_opening w job t (.ok (.returned result)) [] rfl rfl
    rw [List.append_nil] at hk
    refine ⟨fun _ => ?_, fun _ => fair_of_success hr hk rfl⟩
    intro hmis
    have hopen := (@misleading_opening w job t (.ok (.returned result)) [] (by simp)).1
      (by rwa [List.append_nil])
    cases hopen
  | @failed job t x exc error config hx herror =>
    refine fair_iff_of_failure hr (known_opening rfl rfl) rfl ?_
    show (∃ y ∈ opening w job t x ++ _, Misleading y) ↔ _
    rw [misleading_opening, misleading_iff hx]
    intro y hy hmis
    rw [List.mem_singleton.1 hy] at hmis
    cases hmis
  | @lost job t result exc error config herror =>
    refine fair_iff_of_failure hr (known_opening rfl rfl) rfl ?_
    constructor
    · exact fun _ hd => hd
    · intro _
      exact ⟨_, by simp [opening], .lostSuccess job w (job.attemptCount + 1) t result exc⟩

end Performed

/-! ## Pools -/

/-- What holds in every state of a pool. -/
structure Pool.Sound (deps : Deps) (engine : Engine) (σ : Pool) : Prop where
  run : Run deps engine σ.history
  owns : ∀ c ∈ σ.calls, ∀ job, Owns c.workerId c.talk job → Claimed σ.history c.workerId job
  real : ∀ e ∈ σ.performed, e.Real deps engine

/-- A claim stays in the history. -/
theorem Claimed.cons {w : String} {job : Job} (hc : Claimed h w job) (e : Entry Event Store) :
    Claimed (e :: h) w job := by
  obtain ⟨x, hx, hclaimed⟩ := hc
  exact ⟨x, List.mem_cons_of_mem _ hx, hclaimed⟩

/-- A completion belongs to the claim of its own call. -/
theorem Asked.allowed {w : String} {tr : Talk JsonObject} {q : JobCall JsonObject} (hq : Asked w tr q)
    (howns : ∀ job, Owns w tr job → Claimed h w job) {skipped : String → Bool} {now : UtcTime} {op : Op}
    (hop : q.op skipped now = some op) : Allowed h op := by
  have hfailure : ∀ {job t exc error config}, Owns w tr job →
      (failureCall w job t exc error config).op skipped now = some op → Allowed h op := by
    intro job t exc error config ho hop c w' n hc
    rw [(Performed.failureCall_op hop).1] at hc
    cases hc
    exact ⟨rfl, howns _ ho⟩
  cases hq with
  | claim =>
    cases hop
    exact Allowed.of_none rfl
  | succeeded job t result =>
    cases hop
    rintro c w' n ⟨⟩
    exact ⟨rfl, howns _ (by simp [Owns, opening])⟩
  | failed job t config => exact hfailure (by simp [Owns, opening]) hop
  | lost job t result config => exact hfailure (by simp [Owns, opening]) hop

theorem Pool.Sound.empty : Pool.empty.Sound deps engine where
  run := .nil
  owns _ hc := absurd hc List.not_mem_nil
  real _ he := absurd he List.not_mem_nil

theorem owns_snoc {w : String} {tr : Talk JsonObject} {x : Exchange (Command JsonObject) Command.Answer}
    {job : Job} (h : Owns w (tr ++ [x]) job) :
    Owns w tr job ∨ x = ⟨.jobs (.claimNextJob w), .ok (some job)⟩ :=
  (List.mem_append.1 h).imp_right fun hx => (List.mem_singleton.1 hx).symm

/-- Replacing one call keeps what holds of all of them. -/
theorem forall_mem_replace {α : Type} {P : α → Prop} {before after : List α} {c c' : α}
    (h : ∀ x ∈ before ++ c :: after, P x) (hc : P c → P c') : ∀ x ∈ before ++ c' :: after, P x := by
  simp only [List.mem_append, List.mem_cons] at h ⊢
  rintro x (hx | rfl | hx)
  · exact h x (.inl hx)
  · exact hc (h c (.inr (.inl rfl)))
  · exact h x (.inr (.inr hx))

/-- The answer of a claim is in the history. -/
theorem answers_claimed {w : String} {job : Job} {skipped : String → Bool} {now : UtcTime} {op : Op}
    (hop : (JobCall.claimNextJob w).op skipped now = some op)
    (ha : (JobCall.claimNextJob w).Answers (atomically (op.body deps engine) (present h)).1
      (.ok (some job))) : Claimed (afterCall deps engine h op) w job := by
  cases hop
  refine ⟨_, List.mem_cons_self .., ?_⟩
  generalize (atomically _ _).1 = out at ha
  cases ha
  rfl

theorem Pool.Sound.step {σ σ' : Pool} (hs : σ.Sound deps engine) (hst : Pool.Step deps engine σ σ') :
    σ'.Sound deps engine := by
  cases hst with
  | start w =>
    refine ⟨hs.run, fun c hc job ho => ?_, hs.real⟩
    rcases List.mem_append.1 hc with hc | hc
    · exact hs.owns c hc job ho
    · rw [List.mem_singleton.1 hc] at ho
      exact absurd ho List.not_mem_nil
  | inform x hne =>
    refine ⟨hs.run, forall_mem_replace hs.owns fun hc job ho => ?_, hs.real⟩
    rcases owns_snoc ho with ho | hx
    · exact hc job ho
    · exact absurd (congrArg Exchange.command hx) (hne _)
  | @perform h before after ps w tr q k hr skipped now op x hop hans =>
    have hcall := hs.owns ⟨w, tr, _, hr⟩ (List.mem_append_right _ (List.mem_cons_self ..))
    have hasked : Asked w tr q := (processOne_asks w).issued hr
    have hrun := @Run.afterCall deps engine h hs.run op (hasked.allowed hcall hop)
    refine ⟨hrun, ?_, ?_⟩
    · have hkeep : ∀ c ∈ before ++ ⟨w, tr, .call (.jobs q) k, hr⟩ :: after, ∀ job,
          Owns c.workerId c.talk job → Claimed (afterCall deps engine h op) c.workerId job :=
        fun c hc job ho => (hs.owns c hc job ho).cons _
      refine forall_mem_replace hkeep fun hc job ho => ?_
      rcases owns_snoc ho with ho | hx
      · exact hc job ho
      · have hx : (⟨.jobs q, x⟩ : Exchange (Command JsonObject) Command.Answer) =
            ⟨.jobs (.claimNextJob w), .ok (some job)⟩ := hx
        cases hx
        exact answers_claimed hop hans
    · rintro e he
      rcases List.mem_cons.1 he with rfl | he
      · exact ⟨hasked, h, hs.run, rfl, hcall, .inr ⟨skipped, now, op, hop, hans, rfl⟩⟩
      · exact hs.real e he
  | @fault h before after ps w tr q k hr exc =>
    have hcall := hs.owns ⟨w, tr, _, hr⟩ (List.mem_append_right _ (List.mem_cons_self ..))
    refine ⟨hs.run, forall_mem_replace hs.owns fun hc job ho => ?_, ?_⟩
    · rcases owns_snoc ho with ho | hx
      · exact hc job ho
      · have hx : (⟨.jobs q, .error exc⟩ : Exchange (Command JsonObject) Command.Answer) =
            ⟨.jobs (.claimNextJob w), .ok (some job)⟩ := hx
        cases hx
    · rintro e he
      rcases List.mem_cons.1 he with rfl | he
      · exact ⟨(processOne_asks w).issued hr, h, hs.run, rfl, hcall, .inl ⟨⟨exc, rfl⟩, rfl⟩⟩
      · exact hs.real e he
  | other he =>
    exact ⟨Valid.cons hs.run he, fun c hc job ho => (hs.owns c hc job ho).cons _, hs.real⟩

/-- The states that a pool can reach. -/
def Pool.Reachable (deps : Deps) (engine : Engine) (σ : Pool) : Prop :=
  Relation.ReflTransGen (Pool.Step deps engine) Pool.empty σ

theorem Pool.Reachable.sound {σ : Pool} (h : σ.Reachable deps engine) : σ.Sound deps engine := by
  induction h with
  | refl => exact Pool.Sound.empty
  | tail _ hst ih => exact ih.step hst

/-- Workers respect the leases: the store's history is a run. -/
theorem Pool.run {σ : Pool} (h : σ.Reachable deps engine) : Run deps engine σ.history := h.sound.run

/-- All that a pool records of its handlers is fair exactly when every repository call that follows a
misleading answer raises or finds the lease gone. -/
theorem charges_fair_iff {σ : Pool} (h : σ.Reachable deps engine) :
    (∀ e ∈ σ.performed, e.Fair) ↔ ∀ e ∈ σ.performed, e.Benign :=
  forall₂_congr fun e he => Performed.fair_iff_benign (h.sound.real e he)

end

/-! ### A lost success -/

section
variable (deps : Deps) (engine : Engine)

/-- A pool with one call. -/
def Alone (h : History Event Store) (w : String) (tr : Talk JsonObject)
    (p : Code JsonObject (Option Job)) (ps : List Performed) : Prop :=
  ∃ hr : After (processOne w) tr p, Pool.Reachable deps engine ⟨h, [⟨w, tr, p, hr⟩], ps⟩

variable {deps : Deps} {engine : Engine} {h : History Event Store} {w : String} {tr : Talk JsonObject}
  {ps : List Performed}

theorem Alone.inform {c : Command JsonObject} {k : c.Answer → Code JsonObject (Option Job)}
    (ha : Alone deps engine h w tr (.call c k) ps) (x : c.Answer) (hc : ∀ q, c ≠ .jobs q) :
    Alone deps engine h w (tr ++ [⟨c, x⟩]) (k x) ps := by
  obtain ⟨hr, ha⟩ := ha
  exact ⟨_, ha.tail (@Pool.Step.inform _ _ _ [] [] _ _ _ _ _ hr x hc)⟩

theorem Alone.fault {q : JobCall JsonObject}
    {k : Except PyExc (Option Job) → Code JsonObject (Option Job)}
    (ha : Alone deps engine h w tr (.call (.jobs q) k) ps) (exc : PyExc) :
    Alone deps engine h w (tr ++ [⟨.jobs q, .error exc⟩]) (k (.error exc))
      (⟨w, tr, q, .error exc, present h, present h⟩ :: ps) := by
  obtain ⟨hr, ha⟩ := ha
  exact ⟨_, ha.tail (@Pool.Step.fault _ _ _ [] [] _ _ _ _ _ hr exc)⟩

theorem Alone.perform {q : JobCall JsonObject}
    {k : Except PyExc (Option Job) → Code JsonObject (Option Job)}
    (ha : Alone deps engine h w tr (.call (.jobs q) k) ps) {p : String → Bool} {t : UtcTime}
    {op : Op} {x : Except PyExc (Option Job)} (hop : q.op p t = some op)
    (hx : q.Answers (atomically (op.body deps engine) (present h)).1 x) :
    Alone deps engine (afterCall deps engine h op) w (tr ++ [⟨.jobs q, x⟩]) (k x)
      (⟨w, tr, q, x, present h, present (afterCall deps engine h op)⟩ :: ps) := by
  obtain ⟨hr, ha⟩ := ha
  exact ⟨_, ha.tail (@Pool.Step.perform _ _ _ [] [] _ _ _ _ _ hr _ _ _ _ hop hx)⟩

end

/-- A job without retries. -/
def onceSubmit : Op := .createJobsBatch (sampleTime 0) (fun _ => "j") [sampleRequest] 0 300

def onceSubmitted : History Event Store := afterCall sampleDeps .sqlite [] onceSubmit

def onceClaimed : History Event Store := afterCall sampleDeps .sqlite onceSubmitted sampleClaim

def onceRow : JobRow :=
  (Sqlite.batchRow sampleDeps (sampleTime 0) 0 300 "j" sampleRequest).claimed "w"
    (toDbTime (sampleTime 1))

def onceJob : Job := jobFromRow sampleDeps onceRow

def onceFailure : Op :=
  .markFailedAttempt (sampleTime 3) onceJob "w" 1 (sampleTime 1) "database is locked" false 2

def onceFailed : History Event Store := afterCall sampleDeps .sqlite onceClaimed onceFailure

def lockedExc : PyExc := .plain false "database is locked"

theorem onceFailed_ok :
    ∃ r, (atomically (onceFailure.body sampleDeps .sqlite) (present onceClaimed)).1 = .ok r := by
  have hok : (atomically (onceFailure.body sampleDeps .sqlite) (present onceClaimed)).1.isOk = true := by
    decide +kernel
  generalize (atomically (onceFailure.body sampleDeps .sqlite) (present onceClaimed)).1 = out at hok
  cases out with
  | ok r => exact ⟨r, rfl⟩
  | error e => cases hok

theorem onceFailed_attempts : (present onceFailed).jobAttempts =
    [⟨"j", 1, "w", .failed, toDbTime (sampleTime 1), toDbTime (sampleTime 3),
      some "database is locked"⟩] := by
  decide +kernel

theorem once_started : Alone sampleDeps .sqlite onceSubmitted "w" [] (processOne "w") [] :=
  ⟨.nil, Relation.ReflTransGen.tail (Relation.ReflTransGen.tail
    .refl (.other (RunStep.call onceSubmit (Allowed.of_none rfl)))) (.start "w")⟩

/-- What the call asks when `mark_succeeded` has raised. -/
def onceCall : JobCall JsonObject :=
  failureCall "w" onceJob (sampleTime 1) lockedExc "database is locked" sampleConfig

theorem sampleConfig_backoff : backoffOf sampleConfig 1 = .rat 2 := by decide +kernel

theorem onceCall_eq : onceCall =
    .markFailedAttempt onceJob "w" 1 (sampleTime 1) "database is locked" false (.rat 2) := by
  show JobCall.markFailedAttempt _ _ _ _ _ _ (backoffOf sampleConfig 1) = _
  rw [sampleConfig_backoff]
  rfl

/-- That call, performed. -/
def onceEntry : Performed where
  workerId := "w"
  talk := opening "w" onceJob (sampleTime 1) (.ok (.returned [])) ++
    [⟨.jobs (.markSucceeded onceJob "w" 1 (sampleTime 1) []), .error lockedExc⟩,
      ⟨.configView, sampleConfig⟩]
  call := onceCall
  answer := .ok none
  before := present onceClaimed
  after := present onceFailed

theorem onceEntry_performed : ∃ σ, Pool.Reachable sampleDeps .sqlite σ ∧ onceEntry ∈ σ.performed := by
  obtain ⟨r, hr⟩ := onceFailed_ok
  have hclaimed := once_started.perform (q := .claimNextJob "w") (p := fun _ => false)
    (t := sampleTime 1) rfl (.claimed "w" (some onceJob))
  have hreturned := ((hclaimed.inform (sampleTime 1) (by rintro q ⟨⟩)).inform () (by rintro q ⟨⟩)).inform
    (.ok (.returned [])) (by rintro q ⟨⟩)
  have hasked : Alone sampleDeps .sqlite onceClaimed "w" _ (.call (.jobs onceCall) _) _ :=
    (hreturned.fault lockedExc).inform sampleConfig (by rintro q ⟨⟩)
  have hop : onceCall.op (fun _ => false) (sampleTime 3) = some onceFailure := by
    rw [onceCall_eq]
    rfl
  have hans : onceCall.Answers
      (atomically (onceFailure.body sampleDeps .sqlite) (present onceClaimed)).1 (.ok none) := by
    rw [hr, onceCall_eq]
    exact .failed _ _ _ _ _ _ _ r none
  obtain ⟨_, hreach⟩ := hasked.perform hop hans
  exact ⟨_, hreach, List.mem_cons_self ..⟩

/-- The handler returned, `mark_succeeded` found the database locked, and the job without retries is
dead-lettered after a failed attempt. -/
theorem charges_lost_success : ∃ σ, Pool.Reachable sampleDeps .sqlite σ ∧ ∃ e ∈ σ.performed,
    ∃ a, e.Wrote a ∧ e.Handled a (.returned []) ∧ a.status = .failed ∧ e.after.DeadLettered "j" ∧
      ¬ e.Fair := by
  obtain ⟨σ, hreach, hmem⟩ := onceEntry_performed
  have hwrote : onceEntry.Wrote ⟨"j", 1, "w", .failed, toDbTime (sampleTime 1),
      toDbTime (sampleTime 3), some "database is locked"⟩ := by
    refine ⟨?_, List.not_mem_nil⟩
    show _ ∈ (present onceFailed).jobAttempts
    rw [onceFailed_attempts]
    exact List.mem_singleton_self _
  have hhandled : onceEntry.Handled ⟨"j", 1, "w", .failed, toDbTime (sampleTime 1),
      toDbTime (sampleTime 3), some "database is locked"⟩ (.returned []) :=
    ⟨onceJob, List.mem_cons_self .., rfl, rfl, rfl, by simp [onceEntry, opening]⟩
  refine ⟨σ, hreach, onceEntry, hmem, _, hwrote, hhandled, rfl, ?_, fun hf => ?_⟩
  · have hdead : ((present onceFailed).job? "j").map (·.status) = some .deadLettered := by
      decide +kernel
    exact Option.map_eq_some_iff.1 hdead
  · cases hf.returned _ _ hwrote hhandled

theorem charges_fair_iff_lost : ∃ σ : Pool, onceEntry ∈ σ.performed ∧
    ((∀ e ∈ σ.performed, e.Fair) ↔ ∀ e ∈ σ.performed, e.Benign) := by
  obtain ⟨σ, hreach, hmem⟩ := onceEntry_performed
  exact ⟨σ, hmem, charges_fair_iff hreach⟩

end PulseQueue
