import PulseQueue.Model.Api
import PulseQueue.Proof.Attempts

/-!
# The retry loop

Every step of a pool that spares a job is a step of the reference for it, or none (`Pool.Tracks.step`):
claims, handler outcomes and records are those of the calls that have an attempt under way, and whatever
else happens leaves the job alone. So the number and order of the attempts, their verdicts and the times of
their claims are those of `RetryLoop` (`retry_loop`).
-/

namespace PulseQueue

open Txn Trace Interaction Table

/-! ## Steps of the pool -/

section
variable {deps : Deps} {engine : Engine} {id : String} {l : Attempts}

/-- No more than one attempt is under way. -/
theorem Refines.single {s : Store} {under : List Attempt} (h : Refines deps id l s under) {a : Attempt}
    (ha : a ∈ under) : under = [a] := by
  obtain ⟨r, st, -, hshows⟩ := h.exists_row (List.ne_nil_of_mem ha)
  have hphase := hshows.phase
  cases hphase with
  | claimed | invoked => rw [List.mem_singleton.1 ha]
  | waiting | done | dead => cases ha

/-- What holds in every state of a pool that spares the job. -/
structure Pool.Tracks (deps : Deps) (engine : Engine) (id : String) (l : Attempts) (σ : Pool) : Prop where
  sound : σ.Sound deps engine
  noLoss : ∀ c ∈ σ.calls, NothingLost id c.talk
  refines : Refines deps id l (present σ.history) (σ.calls.filterMap (·.attempt id))

theorem Lost.taken {x : Exchange (Command JsonObject) Command.Answer} (h : Lost x) : taken x = none := by
  cases h with
  | refused => rfl
  | @record q job exc hc => cases q <;> rfl

/-- An exchange more, with which the attempt does not get lost. -/
theorem NothingLost.snoc {tr : Talk JsonObject} {x : Exchange (Command JsonObject) Command.Answer}
    (h : NothingLost id tr) (hfirst : tr = [] ∨ PulseQueue.taken x = none)
    (hx : (workingOn tr).any (·.id == id) = true → ¬ Lost x) : NothingLost id (tr ++ [x]) := by
  intro hon y hy
  rcases hfirst with rfl | htaken
  · rw [List.mem_singleton.1 hy]
    intro hlost
    simp [workingOn, hlost.taken] at hon
  · have hon : (workingOn tr).any (·.id == id) = true := by
      rwa [workingOn, List.filterMap_append, List.filterMap_cons_none htaken, List.filterMap_nil,
        List.append_nil] at hon
    rcases List.mem_append.1 hy with hy | hy
    · exact h hon y hy
    · rw [List.mem_singleton.1 hy]
      exact hx hon

/-- What the handler or another command than the repository answers. -/
theorem NothingLost.inform {tr : Talk JsonObject} {c : Command JsonObject} {x : c.Answer}
    (h : NothingLost id tr) (hne : ∀ q, c ≠ .jobs q) {σ σ' : Pool}
    (hspare : (Move.inform tr ⟨c, x⟩).Spares id σ σ') : NothingLost id (tr ++ [⟨c, x⟩]) := by
  have htaken : taken (⟨c, x⟩ : Exchange _ Command.Answer) = none := by
    cases c with
    | jobs q => exact absurd rfl (hne q)
    | _ => rfl
  refine h.snoc (.inr htaken) fun hon hlost => ?_
  cases hlost with
  | refused payload n timeout exc => exact absurd (hspare.symm.trans hon) (by simp)
  | record exc hc => exact hne _ rfl

/-- What a repository call answers, if it records no attempt at the job or gets through. -/
theorem NothingLost.answered {w : String} {tr : Talk JsonObject} {q : JobCall JsonObject}
    {x : Except PyExc (Option Job)} (h : NothingLost id tr) (hasked : Asked w tr q)
    (hx : ∀ job, q.completes = some job → job.id = id → ∃ j, x = .ok j) :
    NothingLost id (tr ++ [⟨.jobs q, x⟩]) := by
  have hlost : ∀ job, q.completes = some job → job.id = id →
      ¬ Lost (⟨.jobs q, x⟩ : Exchange _ Command.Answer) := by
    intro job hc hid hlost
    obtain ⟨j, rfl⟩ := hx job hc hid
    cases hlost
  cases hcompletes : q.completes with
  | none =>
    refine h.snoc (.inl ?_) fun _ hlost => ?_
    · cases hasked with
      | claim => rfl
      | succeeded | failed | lost => cases hcompletes
    · cases hlost with
      | record exc hc => cases hcompletes.symm.trans hc
  | some job =>
    have htaken : taken (⟨.jobs q, x⟩ : Exchange _ Command.Answer) = none := by
      cases q with
      | claimNextJob => cases hcompletes
      | markSucceeded | markFailedAttempt => rfl
    refine h.snoc (.inr htaken) fun hon => hlost job hcompletes ?_
    simpa [hasked.workingOn hcompletes] using hon

/-- The transaction of the record of a failure, with its backoff. -/
theorem failureCall_backoff {w : String} {job : Job} {t now : UtcTime} {exc : PyExc} {error : String}
    {config : RuntimeConfig} {skipped : String → Bool} {op : Op}
    (hop : (failureCall w job t exc error config).op skipped now = some op) :
    ∃ q, op = .markFailedAttempt now job w (job.attemptCount + 1) t error exc.isTimeout q ∧
      (job.attemptCount + 1 ≤ job.maxRetries → backoffOf config (job.attemptCount + 1) = .rat q) := by
  unfold failureCall at hop
  generalize backoffOf config (job.attemptCount + 1) = backoff at hop
  cases backoff with
  | rat q =>
    cases hop
    exact ⟨q, rfl, fun _ => rfl⟩
  | nan =>
    simp only [JobCall.op] at hop
    split at hop
    · cases hop
    · rename_i hle
      cases hop
      exact ⟨0, rfl, fun h => absurd h hle⟩

/-- A record that gets through takes the job to its next phase. -/
theorem Refines.record {h : History Event Store} (hs : Sound deps h) {w : String} {tr : Talk JsonObject}
    {job : Job} {q : JobCall JsonObject} (hrec : Recording job.id w tr job q)
    {under : List Attempt} (hunder : ∀ a, underWay job.id w tr = some a → under = [a])
    (href : Refines deps job.id l (present h) under) {skipped : String → Bool} {now : UtcTime} {op : Op}
    (hop : q.op skipped now = some op) (ha : Allowed h op) {r : Reply}
    (hok : (atomically (op.body deps engine) (present h)).1 = .ok r) {j : Option Job} :
    Refines deps job.id ((Move.perform tr now q (.ok j)).note job.id ++ l)
      (present (afterCall deps engine h op)) [] := by
  cases hrec with
  | succeeded t result hway =>
    rw [hunder _ hway] at href
    cases hop
    obtain ⟨row, log, hrow, -, hrun, hw, hn⟩ := href.held
    obtain ⟨hmem, hid⟩ := Store.job?_some hrow
    have hbody := @Sound.completion_live deps engine h hs _ ha _ _ _ rfl row hrow hrun hw (by omega)
    have hafter : present (afterCall deps engine h _) = _ := congrArg Prod.snd (atomically_ok hbody)
    rw [← hid] at href
    have hnext := href.finish hs.ok.nodup hmem (toDbTime t) now
    rw [hid] at hnext
    simp only [Move.note, if_pos]
    rw [hafter]
    exact hnext
  | @failed t o exc error config hway ho herror hlast =>
    rw [hunder _ hway] at href
    obtain ⟨q, rfl, hbackoff⟩ := failureCall_backoff hop
    obtain ⟨row, log, hrow, -, hrun, hw, hn⟩ := href.held
    obtain ⟨hmem, hid⟩ := Store.job?_some hrow
    have hmax := ((hs.claims _ _ (ha _ _ _ rfl).2).same hs.ok hmem hid).1
    have hbody := @Sound.completion_live deps engine h hs _ ha _ _ _ rfl row hrow hrun hw (by omega)
    simp only [Op.ends] at hbody
    cases hretry : retryAt now job (job.attemptCount + 1) q with
    | none =>
      rw [hretry] at hbody
      have hfailed := congrArg Prod.fst (atomically_error hbody)
      rw [hok] at hfailed
      cases hfailed
    | some runAt =>
      rw [hretry] at hbody
      have hafter : present (afterCall deps engine h _) = _ := congrArg Prod.snd (atomically_ok hbody)
      have hdue : job.attemptCount + 1 ≤ row.maxRetries →
          nextAttempt config (job.attemptCount + 1) now runAt := by
        intro hle
        rw [← hmax] at hle
        refine ⟨q, hbackoff hle, ?_⟩
        simpa [retryAt, hle] using hretry
      rw [← hid] at href
      have hnext := @Refines.fail _ _ _ _ _ _ _ _ _ _ _ config (deps.dumps job.payload) href hs.ok.nodup hmem
        ho herror hdue (toDbTime t)
      rw [hid] at hnext
      simp only [Move.note, failureCall, hlast, if_pos]
      rw [hafter]
      exact hnext

/-- A record of an attempt at another job. -/
theorem Refines.other {h : History Event Store} (hs : Sound deps h) {under : List Attempt}
    (href : Refines deps id l (present h) under) {op : Op} (ha : Allowed h op) {c : Job} {w : String}
    {n : Nat} (hop : op.completes = some (c, w, n)) (hid : c.id ≠ id) :
    Refines deps id l (present (afterCall deps engine h op)) under := by
  have heff := @Sound.effect deps engine h hs op ha c w n hop
  generalize (atomically (op.body deps engine) (present h)).1 = out at heff
  generalize present (afterCall deps engine h op) = s' at heff ⊢
  cases heff with
  | raised | fenced => exact href
  | settled r hl hset hj hw hn hm =>
    refine href.frame (hset.other hs.ok (by rwa [hj])) fun a ha haid => ?_
    rw [hset.attempts, List.mem_append, List.mem_singleton] at ha
    rcases ha with ha | rfl
    · exact ha
    · exact absurd (hj.symm.trans haid) hid

/-- A claim, and what it leaves under way. -/
theorem Refines.take {h : History Event Store} (hok : (present h).Ok deps) {before after : List Call}
    {c c' : Call} (hc : c.attempt id = none) {w : String} {now : UtcTime} {skipped : String → Bool}
    {x : Except PyExc (Option Job)} (hc' : c'.attempt id = underWay id w [⟨.jobs (.claimNextJob w), x⟩])
    (href : Refines deps id l (present h) ((before ++ c :: after).filterMap (·.attempt id)))
    (hans : (JobCall.claimNextJob w).Answers
      (atomically ((Op.claim skipped now w).body deps engine) (present h)).1 x) :
    Refines deps id ((Move.perform [] now (.claimNextJob w) x).note id ++ l)
      (present (afterCall deps engine h (.claim skipped now w)))
      ((before ++ c' :: after).filterMap (·.attempt id)) := by
  have hidle : c'.attempt id = none → (before ++ c' :: after).filterMap (·.attempt id) =
      (before ++ c :: after).filterMap (·.attempt id) := fun hn => filterMap_replace (hn.trans hc.symm)
  have hafter : present (afterCall deps engine h (.claim skipped now w)) =
    (atomically ((Op.claim skipped now w).body deps engine) (present h)).2 := rfl
  rw [hafter]
  rcases atomically_cases ((Op.claim skipped now w).body deps engine) (present h) with
    ⟨r, s', hx, hat⟩ | ⟨e, -, hat⟩
  · obtain ⟨j, rfl, htakes⟩ := claim_takes hok hx
    rw [hat] at hans ⊢
    cases hans
    cases htakes with
    | idle =>
      rw [hidle hc']
      exact href
    | @took row hrow hq hdue =>
      have hjob : (jobFromRow deps (row.claimed w (toDbTime now))).id = row.id := rfl
      by_cases hid : row.id = id
      · have hnone := href.idle (hid ▸ hok.job?_mem hrow) hq
        rw [filterMap_fresh hnone, hc', underWay_claim, hjob, if_pos hid]
        rw [hnone] at href
        simp only [Move.note, hjob, if_pos hid]
        exact @Refines.claim deps id l (present h) row w href hok now hrow hid hq hdue
      · rw [hidle (by rw [hc', underWay_claim, hjob, if_neg hid])]
        simp only [Move.note, hjob, if_neg hid]
        refine href.frame ?_ fun a ha _ => ha
        rw [job?_update (present h) row.id (·.claimed w (toDbTime now)) (fun _ => rfl) id,
          if_neg (Ne.symm hid)]
  · rw [hat] at hans ⊢
    cases hans
    rw [hidle hc']
    exact href

/-! ### What else happens to the store -/

/-- Steps that change no existing job. -/
theorem Steps.mild {s s' : Store} (hok : s.Ok deps) (hst : Steps deps Mild s s') :
    (∀ r, s.job? id = some r → s'.job? id = some r) ∧
      (∀ r, s'.job? id = some r → s.job? id = some r ∨ r.status = .queued ∧ r.attemptCount = 0) ∧
      ∀ a ∈ s'.jobAttempts, a.jobId = id → a ∈ s.jobAttempts := by
  have hrow := Steps.keeps (P := fun v => (∀ r, s.job? id = some r → v.job = some r) ∧
    (∀ r, v.job = some r → s.job? id = some r ∨ r.status = .queued ∧ r.attemptCount = 0) ∧
    ∀ a ∈ v.attempts, a ∈ (s.view id).attempts) ?_ hok hst id
    ⟨fun r hr => hr, fun r hr => .inl hr, fun a ha => ha⟩
  · obtain ⟨hkeep, hnew, hatt⟩ := hrow
    refine ⟨hkeep, hnew, fun a ha hid => ?_⟩
    exact (List.mem_filter.1 (hatt a (List.mem_filter.2 ⟨ha, by simp [hid]⟩))).1
  · rintro k v v' hk ⟨hkeep, hnew, hatt⟩ hstep
    cases hstep with
    | submit hr =>
      refine ⟨fun r hj => ?_, fun r hj => ?_, fun a ha => absurd ha List.not_mem_nil⟩
      · cases hkeep r hj
      · cases hj
        exact .inr ⟨hr.status, hr.attemptCount⟩
    | reorder ha hd => exact ⟨hkeep, hnew, fun a hm => hatt a (ha.mem_iff.2 hm)⟩
    | claim | settle | cancel =>
      rcases hk with hk | hk
      · cases hk
      · cases hk

/-- Events that spare the job change no existing job, or nothing about this one. -/
theorem spared {h : History Event Store} (hs : Sound deps h) {e : Event} {s' : Store}
    (hstep : RunStep deps engine h e s')
    (hspare : e.Spares id (present h) s') :
    Steps deps Mild (present h) s' ∨ s'.view id = (present h).view id := by
  cases e with
  | abort op =>
    cases hstep
    exact .inr rfl
  | reorder =>
    cases hstep with
    | reorder hr => exact .inl (Steps.single mild_reorder (reordered_step hs.ok hr))
  | call op out =>
    obtain ⟨hcompletes, hclaim, htakes⟩ := hspare
    obtain ⟨ha, ⟨r, hx, rfl⟩ | ⟨err, rfl, rfl⟩⟩ := hstep.call_cases
    · have hst := hs.call ha hx
      cases op with
      | claim skipped now w => exact absurd rfl (hclaim skipped now w)
      | markSucceeded | markFailedAttempt => cases hcompletes
      | recoverStaleJobs | cancelJob | drainQueue => exact .inr (htakes trivial)
      | _ => exact .inl hst
    · exact .inr rfl

/-- The attempts of a new job. -/
theorem Sound.no_attempts {h : History Event Store} (hs : Sound deps h) {r : JobRow}
    (hr : (present h).job? id = some r) (hcount : r.attemptCount = 0) :
    ∀ a ∈ (present h).jobAttempts, a.jobId ≠ id := by
  have hledger := hs.ledger id
  simp only [Ledger, Store.view, hr] at hledger
  obtain ⟨τ, -, habs⟩ := hledger
  have hlog : τ.log = [] := List.length_eq_zero_iff.1 (habs.count.symm.trans hcount)
  have hrows := habs.rows
  rw [hlog] at hrows
  have hnil := List.map_eq_nil_iff.1 hrows.eq_nil
  intro a ha hid
  exact List.not_mem_nil (hnil ▸ List.mem_filter.2 ⟨ha, by simp [hid]⟩)

theorem Refines.elsewhere {h : History Event Store} (hs : Sound deps h) {e : Event} {s' : Store}
    (hstep : RunStep deps engine h e s')
    (hspare : e.Spares id (present h) s') {under : List Attempt}
    (href : Refines deps id l (present h) under) : Refines deps id l s' under := by
  rcases spared hs hstep hspare with hmild | hview
  · obtain ⟨hkeep, hnew, hatt⟩ := @Steps.mild deps id _ _ hs.ok hmild
    cases hr : (present h).job? id with
    | some r => exact href.frame ((hkeep r hr).trans hr.symm) hatt
    | none =>
      obtain ⟨rfl, rfl⟩ := href.unborn hr
      refine ⟨fun _ => ⟨rfl, rfl⟩, fun r hr' => ?_⟩
      rcases hnew r hr' with hold | ⟨hq, hcount⟩
      · rw [hr] at hold
        cases hold
      · refine ⟨⟨.waiting none, []⟩, .nil, hcount, .waiting hq (by simp), fun a ha hid => ?_⟩
        exact absurd hid ((hs.step hstep).no_attempts hr' hcount a ha)
  · refine href.frame (congrArg JobView.job hview) fun a ha hid => ?_
    have hmem : a ∈ (s'.view id).attempts := List.mem_filter.2 ⟨ha, by simp [hid]⟩
    rw [hview] at hmem
    exact (List.mem_filter.1 hmem).1

/-! ### The step of the pool -/

/-- An answer that is no outcome of a handler. -/
theorem Refines.inform {s : Store} {before after : List Call} {c c' : Call} {tr : Talk JsonObject}
    {x : Exchange (Command JsonObject) Command.Answer}
    (href : Refines deps id l s ((before ++ c :: after).filterMap (·.attempt id)))
    (ht : taken x = none) (hr : records x = false) (hh : heard x = none)
    (hnote : (Move.inform tr x).note id = []) (hc : c.attempt id = underWay id c.workerId tr)
    (hc' : c'.attempt id = underWay id c.workerId (tr ++ [x])) :
    Refines deps id ((Move.inform tr x).note id ++ l) s
      ((before ++ c' :: after).filterMap (·.attempt id)) := by
  rw [hnote, filterMap_replace (hc'.trans ((underWay_snoc ht hh hr).trans hc.symm))]
  exact href

/-- The outcome of the handler. -/
theorem Refines.handled {s : Store} {before after : List Call} {c c' : Call} {w : String} {job : Job}
    {t : UtcTime} {payload : Json} {timeout : ℚ} (o : HandlerOutcome JsonObject)
    (href : Refines deps id l s ((before ++ c :: after).filterMap (·.attempt id)))
    (hc : c.attempt id = underWay id w (started w job t))
    (hc' : c'.attempt id = underWay id w (opening w job t (.ok o))) :
    Refines deps id ((Move.inform (started w job t)
        ⟨.handler payload (job.attemptCount + 1) timeout, .ok o⟩).note id ++ l) s
      ((before ++ c' :: after).filterMap (·.attempt id)) := by
  have hon : workingOn (started w job t) = some job := rfl
  rw [underWay_started] at hc
  rw [underWay_opening] at hc'
  simp only [Move.note, hon, Option.any_some, beq_iff_eq]
  by_cases hid : job.id = id
  · rw [if_pos hid] at hc hc' ⊢
    have hsingle := href.single (List.mem_filterMap.2
      ⟨c, List.mem_append_right _ (List.mem_cons_self ..), hc⟩)
    rw [(filterMap_single hsingle hc).2 c', hc']
    rw [hsingle] at href
    exact href.invoke o
  · rw [if_neg hid] at hc hc' ⊢
    rw [filterMap_replace (hc'.trans hc.symm)]
    exact href

/-- The refusal of an attempt at another job. -/
theorem Refines.refused {s : Store} {before after : List Call} {c c' : Call} {w : String} {job : Job}
    {t : UtcTime} (exc : PyExc)
    (href : Refines deps id l s ((before ++ c :: after).filterMap (·.attempt id)))
    (hother : (workingOn (started w job t)).any (·.id == id) = false)
    (hc : c.attempt id = underWay id w (started w job t))
    (hc' : c'.attempt id = underWay id w (opening w job t (.error exc))) :
    Refines deps id l s ((before ++ c' :: after).filterMap (·.attempt id)) := by
  have hid : job.id ≠ id := by simpa [workingOn, started, taken] using hother
  rw [underWay_started, if_neg hid] at hc
  rw [underWay_opening, if_neg hid] at hc'
  rw [filterMap_replace (hc'.trans hc.symm)]
  exact href

/-- The transaction of a record completes the same job. -/
theorem JobCall.op_completes {q : JobCall JsonObject} {job : Job} (hc : q.completes = some job)
    {skipped : String → Bool} {now : UtcTime} {op : Op} (hop : q.op skipped now = some op) :
    ∃ w n, op.completes = some (job, w, n) := by
  cases q with
  | claimNextJob w => cases hc
  | markSucceeded job' w n t result =>
    cases hc
    cases hop
    exact ⟨w, n, rfl⟩
  | markFailedAttempt job' w n t error timedOut backoff =>
    cases hc
    cases backoff with
    | rat q =>
      cases hop
      exact ⟨w, n, rfl⟩
    | nan =>
      simp only [JobCall.op] at hop
      split at hop
      · cases hop
      · cases hop
        exact ⟨w, n, rfl⟩

/-- A record of an attempt at another job is no happening here. -/
theorem Move.note_elsewhere {tr : Talk JsonObject} {now : UtcTime} {q : JobCall JsonObject} {job : Job}
    (hc : q.completes = some job) (hid : job.id ≠ id) (x : Except PyExc (Option Job)) :
    (Move.perform tr now q x).note id = [] := by
  cases q with
  | claimNextJob w => cases hc
  | markSucceeded job' w n t result =>
    cases hc
    cases x with
    | error exc => rfl
    | ok j => exact if_neg hid
  | markFailedAttempt job' w n t error timedOut backoff =>
    cases hc
    cases x with
    | error exc => rfl
    | ok j =>
      simp only [Move.note, if_neg hid]
      split <;> rfl

/-- Whatever its answer, a record ends the attempt of its call. -/
theorem underWay_completes {w : String} {tr : Talk JsonObject} {q : JobCall JsonObject} {job : Job}
    (hc : q.completes = some job) (x : Except PyExc (Option Job)) :
    underWay id w (tr ++ [⟨.jobs q, x⟩]) = none := by
  apply underWay_record
  cases q with
  | claimNextJob => cases hc
  | markSucceeded | markFailedAttempt => rfl

theorem JobCall.Answers.ok {q : JobCall JsonObject} {out : Except Err Reply} {j : Option Job}
    (h : q.Answers out (.ok j)) : ∃ r, out = .ok r := by
  cases h with
  | claimed | succeeded | failed => exact ⟨_, rfl⟩

theorem Recording.underWay {id w : String} {tr : Talk JsonObject} {job : Job} {q : JobCall JsonObject}
    (hrec : Recording id w tr job q) : ∃ a, underWay id w tr = some a := by
  cases hrec with
  | succeeded t result hway => exact ⟨_, hway⟩
  | failed t config hway => exact ⟨_, hway⟩

theorem Pool.Tracks.step {σ σ' : Pool} {m : Move} (ht : σ.Tracks deps engine id l)
    (hm : Pool.Moves deps engine σ m σ') (hspare : m.Spares id σ σ') :
    σ'.Tracks deps engine id (m.note id ++ l) := by
  have hsound := ht.sound.step hm.step
  have href := ht.refines
  cases hm with
  | start w =>
    refine ⟨hsound, fun c hc => ?_, ?_⟩
    · rcases List.mem_append.1 hc with hc | hc
      · exact ht.noLoss c hc
      · rw [List.mem_singleton.1 hc]
        exact fun _ x hx => absurd hx List.not_mem_nil
    · rw [List.filterMap_append]
      exact (List.append_nil _).symm ▸ href
  | @inform h before after ps w tr c k hr x hne =>
    refine ⟨hsound, forall_mem_replace ht.noLoss fun hc => hc.inform hne hspare, ?_⟩
    cases c with
    | handler payload n timeout =>
      obtain ⟨job, t, rfl, -, rfl, -⟩ := (processOne_handles w).issued hr
      cases x with
      | error exc => exact href.refused exc hspare rfl rfl
      | ok o => exact href.handled o rfl rfl
    | jobs q => exact absurd rfl (hne q)
    | _ => exact href.inform rfl rfl rfl rfl rfl rfl
  | @perform h before after ps w tr q k hr skipped now op x hop hans =>
    have hasked : Asked w tr q := (processOne_asks w).issued hr
    have howns := ht.sound.owns ⟨w, tr, _, hr⟩ (List.mem_append_right _ (List.mem_cons_self ..))
    have hallowed := hasked.allowed howns hop
    have hs := Run.sound ht.sound.run
    have hok := hs.ok
    refine ⟨hsound, forall_mem_replace ht.noLoss fun hc => hc.answered hasked fun job hcompletes hid =>
      hspare ⟨job, hcompletes, hid⟩, ?_⟩
    · cases hcompletes : q.completes with
      | none =>
        cases hasked with
        | claim =>
          cases hop
          exact href.take hok rfl rfl hans
        | succeeded | failed | lost => cases hcompletes
      | some job =>
        by_cases hid : job.id = id
        · obtain ⟨j, rfl⟩ := hspare ⟨job, hcompletes, hid⟩
          have hmem : (⟨w, tr, _, hr⟩ : Call) ∈ before ++ ⟨w, tr, _, hr⟩ :: after :=
            List.mem_append_right _ (List.mem_cons_self ..)
          obtain ⟨-, hrec⟩ := hasked.recording (ht.noLoss _ hmem) hcompletes hid
          have hunder : ∀ a, underWay id w tr = some a →
              (before ++ ⟨w, tr, _, hr⟩ :: after).filterMap (·.attempt id) = [a] :=
            fun a ha => href.single (List.mem_filterMap.2 ⟨_, hmem, ha⟩)
          obtain ⟨r, hr'⟩ := hans.ok
          obtain ⟨a, ha⟩ := hrec.underWay
          rw [(filterMap_single (hunder a ha) ha).2]
          subst hid
          have hnone : Call.attempt job.id ⟨w, tr ++ [⟨.jobs q, .ok j⟩], k (.ok j), hr.snoc (.ok j)⟩ =
            none := underWay_completes hcompletes _
          rw [hnone]
          exact Refines.record hs hrec hunder href hop hallowed hr'
        · obtain ⟨w', n, hop'⟩ := JobCall.op_completes hcompletes hop
          have hsame : Call.attempt id ⟨w, tr ++ [⟨.jobs q, x⟩], k x, hr.snoc x⟩ =
              Call.attempt id ⟨w, tr, .call (.jobs q) k, hr⟩ :=
            (underWay_completes hcompletes x).trans (hasked.elsewhere hcompletes hid).symm
          rw [Move.note_elsewhere hcompletes hid, filterMap_replace hsame]
          exact href.other hs hallowed hop' hid
  | @fault h before after ps w tr q k hr exc =>
    have hasked : Asked w tr q := (processOne_asks w).issued hr
    refine ⟨hsound, forall_mem_replace ht.noLoss fun hc => hc.answered hasked fun job hcompletes hid =>
      absurd ⟨job, hcompletes, hid⟩ hspare, ?_⟩
    · have hsame : Call.attempt id ⟨w, tr ++ [⟨.jobs q, .error exc⟩], k (.error exc),
          hr.snoc (.error exc)⟩ = Call.attempt id ⟨w, tr, .call (.jobs q) k, hr⟩ := by
        show underWay id w _ = underWay id w tr
        cases hcompletes : q.completes with
        | none =>
          cases hasked with
          | claim => rfl
          | succeeded | failed | lost => cases hcompletes
        | some job =>
          rw [underWay_completes hcompletes,
            hasked.elsewhere hcompletes fun hid => hspare ⟨job, hcompletes, hid⟩]
      rw [filterMap_replace hsame]
      exact href
  | @other h cs ps e s he =>
    exact ⟨hsound, ht.noLoss, href.elsewhere (Run.sound ht.sound.run) he hspare⟩

theorem RetryRun.tracks {σ : Pool} (hr : RetryRun deps engine id l σ) : σ.Tracks deps engine id l := by
  induction hr with
  | empty =>
    exact ⟨Pool.Sound.empty, fun c hc => absurd hc List.not_mem_nil, fun _ => ⟨rfl, rfl⟩, fun r hr => by
      cases hr⟩
  | move _ hm hspare ih => exact ih.step hm hspare

/-! ## The loop as a whole -/

theorem filterMap_sublist {α β : Type} {f g : α → Option β} (h : ∀ c b, g c = some b → f c = some b) :
    ∀ l : List α, (l.filterMap g).Sublist (l.filterMap f)
  | [] => .slnil
  | c :: l => by
    have ih := filterMap_sublist h l
    cases hg : g c with
    | none =>
      rw [List.filterMap_cons_none hg]
      cases hf : f c with
      | none => rwa [List.filterMap_cons_none hf]
      | some b =>
        rw [List.filterMap_cons_some hf]
        exact ih.cons b
    | some b =>
      rw [List.filterMap_cons_some hg, List.filterMap_cons_some (h c b hg)]
      exact ih.cons_cons b

/-- The number of an attempt whose outcome is not known yet. -/
def Attempt.open? : Attempt → Option Nat
  | (_, n, none) => some n
  | (_, _, some _) => none

/-- A call that asks the handler has its attempt under way. -/
theorem Call.invoking_attempt {c : Call} {n : Nat} (hc : c.invoking id = some n) :
    (c.attempt id).bind Attempt.open? = some n := by
  obtain ⟨w, tr, code, hr⟩ := c
  cases code with
  | pure | raise => cases hc
  | call cmd k =>
    cases cmd with
    | handler payload m timeout =>
      obtain ⟨job, t, rfl, -, rfl, -⟩ := (processOne_handles w).issued hr
      have hon : workingOn (started w job t) = some job := rfl
      have hway : Call.attempt id ⟨w, started w job t, _, hr⟩ = _ := underWay_started job t
      simp only [Call.invoking] at hc
      split at hc
      · rename_i hid
        cases hc
        have hid : job.id = id := by simpa using (hon ▸ hid : (some job).any (·.id == id) = true)
        show (Call.attempt id ⟨w, started w job t, _, hr⟩).bind _ = _
        rw [hway, if_pos hid]
        rfl
      · cases hc
    | _ => cases hc

/-- The attempts that the handler works on are among those under way. -/
theorem invoking_sublist (calls : List Call) : (calls.filterMap (·.invoking id)).Sublist
    ((calls.filterMap (·.attempt id)).filterMap Attempt.open?) := by
  rw [List.filterMap_filterMap]
  exact filterMap_sublist (fun c n hc => Call.invoking_attempt hc) calls

section
variable {s : Store} {under : List Attempt} {r : JobRow} {o : Nat → HandlerOutcome JsonObject}
  {st : RetryLoop.State (HandlerOutcome JsonObject) UtcTime}

theorem ShowsLoop.order (h : ShowsLoop deps id l s under r st) (ho : ∀ n x, .invoked n x ∈ l → x = o n)
    {calls : List Call} (hunder : calls.filterMap (·.attempt id) = under) : ∃ k ≤ r.maxRetries + 1,
    (l.filterMap RetryLoop.Happening.invocation).reverse = (List.range' 1 k).map (fun n => (n, o n)) ∧
      (calls.filterMap (·.invoking id) = [] ∨
        calls.filterMap (·.invoking id) = [k + 1] ∧ k ≤ r.maxRetries) := by
  refine ⟨st.outcomes.length, h.run.outcomes_le, ?_, ?_⟩
  · have hzip : (List.range' 1 st.outcomes.length).map (fun n => (n, o n)) = _ :=
      List.map_prod_left_eq_zip
    rw [← h.run.outcomes_eq ho] at hzip
    exact h.run.invocations.trans hzip.symm
  · have hsub := @invoking_sublist id calls
    rw [hunder] at hsub
    have hcount := h.count
    have hlease := h.run.lease
    have hphase := h.phase
    cases hphase with
    | @claimed log w hrun hw =>
      have hle : log.length ≤ r.maxRetries := hlease.open_le trivial
      rcases List.sublist_singleton.1 hsub with hnil | hone
      · exact .inl hnil
      · refine .inr ⟨hone.trans ?_, ?_⟩
        · simp [RetryLoop.State.outcomes, RetryLoop.Phase.pending, hcount]
        · simpa [RetryLoop.State.outcomes, RetryLoop.Phase.pending] using hle
    | waiting | invoked | done | dead => exact .inl (List.sublist_nil.1 hsub)

/-- The outcomes that the log shows. -/
theorem ShowsLoop.log_eq (h : ShowsLoop deps id l s under r st)
    (ho : ∀ n x, .invoked n x ∈ l → x = o n) {n : Nat} {x : HandlerOutcome JsonObject} (h1 : 1 ≤ n)
    (hx : st.log[n - 1]? = some x) : x = o n := by
  obtain ⟨hlt, he⟩ := List.getElem?_eq_some_iff.1 hx
  rw [← he, h.run.log_get ho hlt, Nat.sub_add_cancel h1]

/-- The last outcome of a log that is not empty. -/
theorem ShowsLoop.last_eq {phase : RetryLoop.Phase (HandlerOutcome JsonObject) UtcTime}
    {log : List (HandlerOutcome JsonObject)} {x : HandlerOutcome JsonObject}
    (h : ShowsLoop deps id l s under r ⟨phase, log ++ [x]⟩) (ho : ∀ n x, .invoked n x ∈ l → x = o n) :
    r.attemptCount = log.length + 1 ∧ x = o (log.length + 1) := by
  have hcount : r.attemptCount = (log ++ [x]).length := h.count
  rw [List.length_append] at hcount
  exact ⟨hcount, h.log_eq ho (Nat.le_add_left 1 _) (by simp)⟩

/-- A job that has ended is done or dead. -/
theorem ShowsLoop.ends (h : ShowsLoop deps id l s under r st) (ho : ∀ n x, .invoked n x ∈ l → x = o n)
    (hend : r.status.terminal = true) :
    (r.status = .succeeded ∧ r.attemptCount ≤ r.maxRetries + 1 ∧ 1 ≤ r.attemptCount ∧
        (∃ result, o r.attemptCount = .returned result ∧ r.result = some (deps.dumps (.obj result))) ∧
        ∀ j, 1 ≤ j → j < r.attemptCount → ¬ (o j).Returns) ∨
      (r.status = .deadLettered ∧ r.attemptCount = r.maxRetries + 1 ∧
        r.lastError.map .ok = (o r.attemptCount).exc.map recordedError ∧
        ∀ j, 1 ≤ j → j ≤ r.maxRetries + 1 → ¬ (o j).Returns) := by
  have hphase := h.phase
  cases hphase with
  | waiting hst =>
    rw [hst] at hend
    cases hend
  | claimed w hst | invoked w x hst =>
    rw [hst] at hend
    cases hend
  | @done log result hst hres =>
    obtain ⟨hcount, hx⟩ := h.last_eq ho
    obtain ⟨h1, hle, -, hbad⟩ := h.run.done ho rfl
    rw [List.length_append, List.length_singleton, ← hcount] at h1 hle hbad
    exact .inl ⟨hst, hle, h1, ⟨result, by rw [hcount, ← hx], hres⟩, hbad⟩
  | @dead log x hst herr =>
    obtain ⟨hcount, hx⟩ := h.last_eq ho
    obtain ⟨hlen, hbad⟩ := h.run.dead ho rfl
    rw [List.length_append, List.length_singleton, ← hcount] at hlen
    exact .inr ⟨hst, hlen, by rw [hcount, ← hx, herr], hbad⟩

end

/-- The attempt rows of a job are numbered. -/
theorem Sound.numbers {h : History Event Store} (hs : Sound deps h) {r : JobRow}
    (hr : (present h).job? id = some r) : (((present h).view id).attempts.map (·.attemptNo)).Perm
      (List.range' 1 r.attemptCount) := by
  have hledger := hs.ledger id
  simp only [Ledger, Store.view, hr] at hledger
  obtain ⟨τ, -, habs⟩ := hledger
  have hrows := habs.rows.map Prod.fst
  rw [List.map_map, numbered_fst, ← habs.count] at hrows
  exact hrows

/-- In every run of a pool that spares a job, its attempts are those of the reference, and every call takes
back what it added to `_busy_workers`. -/
theorem retry_loop {σ : Pool} (hr : RetryRun deps engine id l σ) {o : Nat → HandlerOutcome JsonObject}
    (ho : ∀ n x, .invoked n x ∈ l → x = o n) :
    (∀ r, (present σ.history).job? id = some r → LoopsAs deps id o l σ r) ∧
      ∀ c ∈ σ.calls, c.Finished → c.busy = 0 := by
  refine ⟨fun r hrow => ?_, fun c _ hc => hc.busy⟩
  have htracks := hr.tracks
  have hs := Run.sound htracks.sound.run
  obtain ⟨st, hshows⟩ := htracks.refines.born r hrow
  have hnumbers := hs.numbers hrow
  refine ⟨hshows.order ho rfl, fun k result h1 hk hret hleast hend => ?_, fun hbad hend => ?_, hnumbers,
    fun a ha hid hown => ?_, fun j now hc => ?_, fun j t t' config config' hf hf' =>
      hshows.run.failed_unique hf hf'⟩
  · rcases hshows.ends ho hend with ⟨hst, hle, hpos, ⟨result', hret', hres⟩, hbad⟩ | ⟨-, -, -, hbad⟩
    · have hkle : k ≤ r.attemptCount := by
        by_contra hlt
        exact hleast r.attemptCount hpos (Nat.lt_of_not_le hlt) (hret' ▸ trivial)
      have hle : r.attemptCount ≤ k := by
        by_contra hlt
        exact hbad k h1 (Nat.lt_of_not_le hlt) (hret ▸ trivial)
      obtain rfl : k = r.attemptCount := Nat.le_antisymm hkle hle
      cases hret.symm.trans hret'
      exact ⟨hst, rfl, hres⟩
    · exact absurd (hret ▸ trivial) (hbad k h1 hk)
  · rcases hshows.ends ho hend with ⟨-, hle, hpos, ⟨result, hret, -⟩, -⟩ | ⟨hst, hcount, herr, -⟩
    · exact absurd (hret ▸ trivial) (hbad r.attemptCount hpos hle)
    · refine ⟨hst, hcount, fun hown => ?_⟩
      rw [hcount] at herr
      exact HandlerOutcome.error_eq hown herr
  · obtain ⟨x, hx, hst⟩ := hshows.rows a ha hid
    have hmem : a.attemptNo ∈ List.range' 1 r.attemptCount :=
      hnumbers.mem_iff.1 (List.mem_map_of_mem (List.mem_filter.2 ⟨ha, by simp [hid]⟩))
    obtain rfl := hshows.log_eq ho (List.mem_range'_1.1 hmem).1 hx
    rw [hst, HandlerOutcome.verdict_eq hown]
  · rcases hshows.run.due hc with h1 | ⟨t, config, t', hf, hnext, hle⟩
    · exact .inl (by omega)
    · exact .inr ⟨t, config, t', hf, hnext, hle⟩

end

theorem exists_of_isOk {α ε : Type} {x : Except ε α} (h : x.isOk = true) : ∃ r, x = .ok r := by
  cases x with
  | ok r => exact ⟨r, rfl⟩
  | error e => cases h

/-! ### A worker alone -/

/-- Runs of a pool that go on with every step that spares the job `id` and that `P` allows. -/
structure Continues (deps : Deps) (engine : Engine) (id : String) (P : Move → Prop)
    (R : Attempts → Pool → Prop) : Prop where
  empty : R [] Pool.empty
  move : ∀ {l σ σ' m}, R l σ → Pool.Moves deps engine σ m σ' → m.Spares id σ σ' → P m →
    R (m.note id ++ l) σ'

/-- The step is the end of a handler. -/
def Move.Handles : Move → Prop
  | .inform _ ⟨.handler _ _ _, _⟩ => True
  | _ => False

/-- The last call of a pool, after the calls `cs`. -/
def Solo (R : Attempts → Pool → Prop) (cs : List Call) (l : Attempts) (h : History Event Store) (w : String)
    (tr : Talk JsonObject) (p : Code JsonObject (Option Job)) : Prop :=
  ∃ (hr : After (processOne w) tr p) (ps : List Performed), R l ⟨h, cs ++ [⟨w, tr, p, hr⟩], ps⟩

section
variable {deps : Deps} {engine : Engine} {id : String} {P : Move → Prop} {R : Attempts → Pool → Prop}
  {cs : List Call} {l : Attempts} {h : History Event Store} {w : String} {tr : Talk JsonObject}
  {p : Code JsonObject (Option Job)}

theorem retryRun_continues : Continues deps engine id (fun _ => True) (RetryRun deps engine id) where
  empty := .empty
  move := fun hr hm hs _ => hr.move hm hs

/-- The first call, after a submission. -/
theorem Solo.first (hR : Continues deps engine id P R) (hP : ∀ m, ¬ m.Handles → P m) {op : Op}
    (hop : op.completes = none) (hclaim : ∀ skipped now w, op ≠ .claim skipped now w) (htakes : ¬ op.Takes)
    (w : String) : Solo R [] [] (afterCall deps engine [] op) w [] (processOne w) := by
  have hsubmitted := hR.move hR.empty (.other (RunStep.call op (Allowed.of_none hop)))
    ⟨hop, hclaim, fun ht => absurd ht htakes⟩ (hP _ not_false)
  exact ⟨.nil, _, hR.move hsubmitted (.start w) trivial (hP _ not_false)⟩

/-- The next call. -/
theorem Solo.again (hR : Continues deps engine id P R) (hP : ∀ m, ¬ m.Handles → P m)
    (hs : Solo R cs l h w tr p) (w' : String) : ∃ c, Solo R (cs ++ [c]) l h w' [] (processOne w') := by
  obtain ⟨hr, ps, hrun⟩ := hs
  exact ⟨_, .nil, _, hR.move hrun (.start w') trivial (hP _ not_false)⟩

theorem Solo.inform (hR : Continues deps engine id P R) {c : Command JsonObject}
    {k : c.Answer → Code JsonObject (Option Job)} (hs : Solo R cs l h w tr (.call c k)) (x : c.Answer)
    (hc : ∀ q, c ≠ .jobs q) (hx : ∀ σ σ', (Move.inform tr ⟨c, x⟩).Spares id σ σ')
    (hP : P (.inform tr ⟨c, x⟩)) :
    Solo R cs ((Move.inform tr ⟨c, x⟩).note id ++ l) h w (tr ++ [⟨c, x⟩]) (k x) := by
  obtain ⟨hr, ps, hrun⟩ := hs
  exact ⟨_, ps, hR.move hrun (@Pool.Moves.inform _ _ _ cs [] _ _ _ _ _ hr x hc) (hx _ _) hP⟩

/-- A transaction that commits. -/
theorem Solo.perform (hR : Continues deps engine id P R) (hP : ∀ m, ¬ m.Handles → P m)
    {q : JobCall JsonObject} {k : Except PyExc (Option Job) → Code JsonObject (Option Job)}
    (hs : Solo R cs l h w tr (.call (.jobs q) k)) {t : UtcTime} {op : Op} {j : Option Job}
    (hop : q.op (fun _ => false) t = some op)
    (hx : q.Answers (atomically (op.body deps engine) (present h)).1 (.ok j)) :
    Solo R cs ((Move.perform tr t q (.ok j)).note id ++ l) (afterCall deps engine h op) w
      (tr ++ [⟨.jobs q, .ok j⟩]) (k (.ok j)) := by
  obtain ⟨hr, ps, hrun⟩ := hs
  exact ⟨_, _, hR.move hrun (@Pool.Moves.perform _ _ _ cs [] _ _ _ _ _ hr _ _ _ _ hop hx)
    (fun _ => ⟨j, rfl⟩) (hP _ not_false)⟩

variable {job : Job} {t t' startedAt : UtcTime}

theorem claim_answers {out : Except Err Reply} (h : out = .ok (.job (some job))) :
    (JobCall.claimNextJob w).Answers out (.ok (some job)) := by
  rw [h]
  exact .claimed w (some job)

/-- The call claims the job, the handler raises, and the failure is recorded. -/
theorem Solo.fails (hR : Continues deps engine job.id P R) (hP : ∀ m, ¬ m.Handles → P m)
    (hs : Solo R cs l h w [] (processOne w)) {claim failure : Op}
    (hop : (JobCall.claimNextJob w).op (fun _ => false) t = some claim)
    (hclaim : (atomically (claim.body deps engine) (present h)).1 = .ok (.job (some job)))
    {timeout : Bool} {text error : String} {config : RuntimeConfig}
    (hraises : ∀ tr, P (.inform tr ⟨.handler job.payload (job.attemptCount + 1) job.timeoutSeconds,
      .ok (.raised (.plain timeout text))⟩))
    (herror : recordedError (.plain timeout text) = .ok error)
    (hop' : (failureCall w job startedAt (.plain timeout text) error config).op (fun _ => false) t' =
      some failure)
    (hok : (atomically (failure.body deps engine) (present (afterCall deps engine h claim))).1.isOk = true) :
    ∃ tr p, Solo R cs ([.failed t' (job.attemptCount + 1) config,
        .invoked (job.attemptCount + 1) (.raised (.plain timeout text)),
        .claimed t (job.attemptCount + 1)] ++ l)
      (afterCall deps engine (afterCall deps engine h claim) failure) w tr p := by
  have hclaimed := hs.perform hR hP hop (claim_answers hclaim)
  have hbusy := (hclaimed.inform hR startedAt (by rintro q ⟨⟩) (fun _ _ => trivial)
    (hP _ not_false)).inform hR () (by rintro q ⟨⟩) (fun _ _ => trivial) (hP _ not_false)
  have hraised := hbusy.inform hR (.ok (.raised (.plain timeout text))) (by rintro q ⟨⟩) (fun _ _ => trivial)
    (hraises _)
  simp only [Move.note, workingOn, taken, List.nil_append, List.cons_append, if_true, List.filterMap_cons,
    List.head?_cons, Option.any_some, beq_self_eq_true] at hraised
  have hasked : Solo R cs (.invoked (job.attemptCount + 1) (.raised (.plain timeout text)) ::
        .claimed t (job.attemptCount + 1) :: l) (afterCall deps engine h claim) w
      (opening w job startedAt (.ok (.raised (.plain timeout text))) ++ [⟨.configView, config⟩])
      (.call (.jobs (failureCall w job startedAt (.plain timeout text) error config)) fun r =>
        (Prog.ofExcept r).tryFinally (Code.addBusy (-1))) := by
    cases timeout with
    | false =>
      cases herror
      exact hraised.inform hR config (by rintro q ⟨⟩) (fun _ _ => trivial) (hP _ not_false)
    | true =>
      cases herror
      exact hraised.inform hR config (by rintro q ⟨⟩) (fun _ _ => trivial) (hP _ not_false)
  have hanswers : (failureCall w job startedAt (.plain timeout text) error config).Answers
      (atomically (failure.body deps engine) (present (afterCall deps engine h claim))).1 (.ok none) := by
    obtain ⟨r, hr⟩ := exists_of_isOk hok
    rw [hr]
    exact .failed _ _ _ _ _ _ _ r none
  have hfailed := hasked.perform hR hP hop' hanswers
  simp only [Move.note, failureCall, List.getLast?_append, List.getLast?_singleton, Option.some_or, if_true]
    at hfailed
  exact ⟨_, _, hfailed⟩

/-- The call claims the job, the handler returns, and the result is recorded. -/
theorem Solo.succeeds (hR : Continues deps engine job.id P R) (hP : ∀ m, ¬ m.Handles → P m)
    (hs : Solo R cs l h w [] (processOne w)) {claim success : Op}
    (hop : (JobCall.claimNextJob w).op (fun _ => false) t = some claim)
    (hclaim : (atomically (claim.body deps engine) (present h)).1 = .ok (.job (some job)))
    {result : JsonObject}
    (hreturns : ∀ tr, P (.inform tr ⟨.handler job.payload (job.attemptCount + 1) job.timeoutSeconds,
      .ok (.returned result)⟩))
    (hop' : (JobCall.markSucceeded job w (job.attemptCount + 1) startedAt result).op (fun _ => false) t' =
      some success)
    (hok : (atomically (success.body deps engine) (present (afterCall deps engine h claim))).1.isOk = true) :
    ∃ tr p, Solo R cs ([.finished t' (job.attemptCount + 1),
        .invoked (job.attemptCount + 1) (.returned result), .claimed t (job.attemptCount + 1)] ++ l)
      (afterCall deps engine (afterCall deps engine h claim) success) w tr p := by
  have hclaimed := hs.perform hR hP hop (claim_answers hclaim)
  have hbusy := (hclaimed.inform hR startedAt (by rintro q ⟨⟩) (fun _ _ => trivial)
    (hP _ not_false)).inform hR () (by rintro q ⟨⟩) (fun _ _ => trivial) (hP _ not_false)
  have hreturned := hbusy.inform hR (.ok (.returned result)) (by rintro q ⟨⟩) (fun _ _ => trivial)
    (hreturns _)
  simp only [Move.note, workingOn, taken, List.nil_append, List.cons_append, if_true, List.filterMap_cons,
    List.head?_cons, Option.any_some, beq_self_eq_true] at hreturned
  have hanswers : (JobCall.markSucceeded job w (job.attemptCount + 1) startedAt result).Answers
      (atomically (success.body deps engine) (present (afterCall deps engine h claim))).1 (.ok none) := by
    obtain ⟨r, hr⟩ := exists_of_isOk hok
    rw [hr]
    exact .succeeded _ _ _ _ _ r none
  have hfinished := hreturned.perform hR hP hop' hanswers
  simp only [Move.note, if_true] at hfinished
  exact ⟨_, _, hfinished⟩

end

/-! ### A failure and a success -/

def flakyLoad : LoadTestRequest where
  count := 1
  kind := .flaky
  priority := 0
  count_range := by decide
  priority_range := priority_default

def flakyResult : JsonObject := [("recovered", .bool true), ("attempt", .int 2)]

def flakyText : String :=
  "\x7b\"action\": \"fail\", \"failures_before_success\": 1, \"source\": \"load-test\", \"index\": 0\x7d"

def recoveredText : String := "\x7b\"recovered\": true, \"attempt\": 2\x7d"

/-- The payload of a job that fails once, its result, and the empty object. -/
def flakyDeps : Deps :=
  { sampleDeps with
    dumps := fun
      | .obj (("action", _) :: _) => flakyText
      | .obj (("recovered", _) :: _) => recoveredText
      | _ => "{}"
    loads := fun s =>
      if s = flakyText then .obj (loadTestFail 1 0)
      else if s = recoveredText then .obj flakyResult
      else .obj [] }

def flakySubmit : Op := .createJobsBatch (sampleTime 0) (fun _ => "j") (loadTestJobs flakyLoad) 3 300

def flakyRow : JobRow :=
  Sqlite.batchRow flakyDeps (sampleTime 0) 3 300 "j" { sampleRequest with payload := loadTestFail 1 0 }

def flakyClaimedRow : JobRow := flakyRow.claimed "w" (toDbTime (sampleTime 1))

def flakyJob : Job := jobFromRow flakyDeps flakyClaimedRow

def flakyClaimed : History Event Store :=
  afterCall flakyDeps .sqlite (afterCall flakyDeps .sqlite [] flakySubmit) sampleClaim

def flakyError : String := "simulated transient failure on attempt 1"

def flakyFailure : Op :=
  .markFailedAttempt (sampleTime 3) flakyJob "w" 1 (sampleTime 1) flakyError false 2

def flakyFailed : History Event Store := afterCall flakyDeps .sqlite flakyClaimed flakyFailure

/-- The next claim, when the backoff is over. -/
def flakyClaim : Op := .claim (fun _ => false) (sampleTime 5) "w"

def flakyAgainRow : JobRow :=
  { flakyClaimedRow with
    attemptCount := 1
    lastError := some flakyError
    runAt := toDbTime (sampleTime 5)
    lockedAt := some (toDbTime (sampleTime 5))
    updatedAt := toDbTime (sampleTime 5) }

def flakyAgain : Job := jobFromRow flakyDeps flakyAgainRow

def flakyClaimedAgain : History Event Store := afterCall flakyDeps .sqlite flakyFailed flakyClaim

def flakySuccess : Op := .markSucceeded (sampleTime 6) flakyAgain "w" 2 (sampleTime 5) flakyResult

def flakyDone : History Event Store := afterCall flakyDeps .sqlite flakyClaimedAgain flakySuccess

def flakyDoneRow : JobRow :=
  { flakyAgainRow with
    status := .succeeded
    result := some recoveredText
    attemptCount := 2
    lastError := none
    lockedBy := none
    lockedAt := none
    updatedAt := toDbTime (sampleTime 6)
    finishedAt := some (toDbTime (sampleTime 6)) }

theorem flakyFailed_run : Run flakyDeps .sqlite flakyFailed := by
  have hclaimed : Run flakyDeps .sqlite flakyClaimed :=
    Run.afterCall (Run.afterCall .nil (Allowed.of_none rfl)) (Allowed.of_none rfl)
  refine Run.afterCall hclaimed fun c w n hop => ?_
  cases hop
  exact ⟨rfl, _, List.mem_cons_self .., rfl⟩

def Reply.claims? : Except Err Reply → Option (String × Nat)
  | .ok (.job (some j)) => some (j.id, j.attemptCount)
  | _ => none

theorem claims?_eq {out : Except Err Reply} {id : String} {n : Nat} (h : Reply.claims? out = some (id, n)) :
    ∃ j : Job, j.id = id ∧ j.attemptCount = n ∧ out = .ok (.job (some j)) := by
  unfold Reply.claims? at h
  split at h
  · rename_i j
    cases h
    exact ⟨j, rfl, rfl, rfl⟩
  · cases h

theorem flakyClaim_ok : (atomically (flakyClaim.body flakyDeps .sqlite) (present flakyFailed)).1 =
    .ok (.job (some flakyAgain)) := by
  have hclaims : Reply.claims? (atomically (flakyClaim.body flakyDeps .sqlite) (present flakyFailed)).1 =
      some ("j", 1) := by
    decide +kernel
  obtain ⟨j, hid, -, hj⟩ := claims?_eq hclaims
  have hstep : RunStep flakyDeps .sqlite flakyFailed (.call flakyClaim _) (present flakyClaimedAgain) :=
    RunStep.call flakyClaim (Allowed.of_none rfl)
  obtain ⟨r, t, -, -, hclaimed, hrow⟩ :=
    claimed_row (Run.sound flakyFailed_run) hstep (w := "w") (c := j) (by
      show Event.claimed (.call flakyClaim (atomically _ _).1) = _
      rw [hj]
      rfl)
  have hagain : (present flakyClaimedAgain).job? "j" = some flakyAgainRow := by decide +kernel
  rw [hid, hagain, Option.some.injEq] at hrow
  rw [hj, hclaimed, ← hrow]
  rfl

def flakyRaised : PyExc := .plain false flakyError

def flakyAttempts : Attempts :=
  [.finished (sampleTime 6) 2, .invoked 2 (.returned flakyResult), .claimed (sampleTime 5) 2,
    .failed (sampleTime 3) 1 sampleConfig, .invoked 1 (.raised flakyRaised), .claimed (sampleTime 1) 1]

theorem flakyFailure_op : (failureCall "w" flakyJob (sampleTime 1) flakyRaised flakyError sampleConfig).op
    (fun _ => false) (sampleTime 3) = some flakyFailure := by
  have hcall : failureCall "w" flakyJob (sampleTime 1) flakyRaised flakyError sampleConfig =
      .markFailedAttempt flakyJob "w" 1 (sampleTime 1) flakyError false (.rat 2) := by
    show JobCall.markFailedAttempt _ _ _ _ _ _ (backoffOf sampleConfig 1) = _
    rw [sampleConfig_backoff]
    rfl
  rw [hcall]
  rfl

/-- The job fails once, waits for two seconds and recovers. -/
theorem flaky_run {P : Move → Prop} {R : Attempts → Pool → Prop}
    (hR : Continues flakyDeps .sqlite "j" P R) (hP : ∀ m, ¬ m.Handles → P m)
    (hfails : ∀ tr, P (.inform tr
      ⟨.handler flakyJob.payload 1 flakyJob.timeoutSeconds, .ok (.raised flakyRaised)⟩))
    (hrecovers : ∀ tr, P (.inform tr
      ⟨.handler flakyAgain.payload 2 flakyAgain.timeoutSeconds, .ok (.returned flakyResult)⟩)) :
    ∃ σ, R flakyAttempts σ ∧ σ.history = flakyDone := by
  have hfirst : Solo R [] [] (afterCall flakyDeps .sqlite [] flakySubmit) "w" [] (processOne "w") :=
    Solo.first hR hP rfl (by simp [flakySubmit]) (by simp [flakySubmit, Op.Takes]) "w"
  have hclaim : (atomically (sampleClaim.body flakyDeps .sqlite)
      (present (afterCall flakyDeps .sqlite [] flakySubmit))).1 = .ok (.job (some flakyJob)) := rfl
  obtain ⟨tr, p, hfailed⟩ :=
    hfirst.fails hR hP rfl hclaim hfails rfl flakyFailure_op (by decide +kernel)
  obtain ⟨c, hsecond⟩ := hfailed.again hR hP "w"
  have hop : (JobCall.markSucceeded flakyAgain "w" 2 (sampleTime 5) flakyResult).op (fun _ => false)
      (sampleTime 6) = some flakySuccess := rfl
  obtain ⟨tr', p', hr, ps, hrun⟩ :=
    hsecond.succeeds hR hP rfl flakyClaim_ok hrecovers hop (by decide +kernel)
  exact ⟨_, hrun, rfl⟩

theorem retry_loop_sample : ∃ σ, RetryRun flakyDeps .sqlite "j" flakyAttempts σ ∧
    (present σ.history).job? "j" = some flakyDoneRow ∧
      LoopsAs flakyDeps "j" (fun n => if n = 1 then .raised flakyRaised else .returned flakyResult)
        flakyAttempts σ flakyDoneRow := by
  obtain ⟨σ, hrun, hσ⟩ :=
    flaky_run retryRun_continues (fun _ _ => trivial) (fun _ => trivial) fun _ => trivial
  have hrow : (present σ.history).job? "j" = some flakyDoneRow := by
    rw [hσ]
    decide +kernel
  refine ⟨σ, hrun, hrow, (retry_loop hrun fun n x hx => ?_).1 _ hrow⟩
  simp only [flakyAttempts, List.mem_cons, reduceCtorEq, RetryLoop.Happening.invoked.injEq, List.not_mem_nil,
    false_or, or_false] at hx
  rcases hx with ⟨rfl, rfl⟩ | ⟨rfl, rfl⟩ <;> rfl

/-- A backoff of less than half a microsecond. -/
def hastyConfig : RuntimeConfig where
  defaultMaxRetries := 3
  defaultTimeoutSeconds := .rat 300
  maxTimeoutSeconds := .rat 900
  workerConcurrency := 1
  backoffBaseSeconds := .rat (1 / 2500000)
  backoffMaxSeconds := .rat 60
  isValid := by decide +kernel

def ownTimeout : PyExc := .plain true "connection timed out"

def hastyFailure : Op :=
  .markFailedAttempt (sampleTime 3) sampleJob "w" 1 (sampleTime 1) "attempt timed out" true (1 / 2500000)

def hastyFailed : History Event Store := afterCall sampleDeps .sqlite sampleClaimed hastyFailure

theorem hasty_backoff : backoffOf hastyConfig 1 = .rat (1 / 2500000) := by decide +kernel

theorem hastyFailure_op :
    (failureCall "w" sampleJob (sampleTime 1) ownTimeout "attempt timed out" hastyConfig).op
      (fun _ => false) (sampleTime 3) = some hastyFailure := by
  have hcall : failureCall "w" sampleJob (sampleTime 1) ownTimeout "attempt timed out" hastyConfig =
      .markFailedAttempt sampleJob "w" 1 (sampleTime 1) "attempt timed out" true (.rat (1 / 2500000)) := by
    show JobCall.markFailedAttempt _ _ _ _ _ _ (backoffOf hastyConfig 1) = _
    rw [hasty_backoff]
    rfl
  rw [hcall]
  rfl

/-- The second claim, at the instant of the failure. -/
def hastyClaim : Op := .claim (fun _ => false) (sampleTime 3) "v"

theorem hastyClaim_ok : ∃ j : Job, j.id = "j" ∧ j.attemptCount = 1 ∧
    (atomically (hastyClaim.body sampleDeps .sqlite) (present hastyFailed)).1 = .ok (.job (some j)) :=
  claims?_eq (by decide +kernel)

/-- The second attempt is claimed at the instant the first one was recorded, before its backoff of
0.4 microseconds is over, and the first one, whose handler raised a `TimeoutError`, is recorded as timed
out. -/
theorem retry_loop_rounds : ∃ l σ, RetryRun sampleDeps .sqlite "j" l σ ∧
    .invoked 1 (.raised ownTimeout) ∈ l ∧ .failed (sampleTime 3) 1 hastyConfig ∈ l ∧
    .claimed (sampleTime 3) 2 ∈ l ∧ (∃ q, backoffOf hastyConfig 1 = .rat q ∧
      (sampleTime 3).timestamp < (sampleTime 3).timestamp + q) ∧
    ∃ a ∈ (present σ.history).jobAttempts, a.jobId = "j" ∧ a.attemptNo = 1 ∧ a.status = .timedOut := by
  have hcontinues := @retryRun_continues sampleDeps .sqlite "j"
  have hfirst : Solo _ [] [] (afterCall sampleDeps .sqlite [] sampleSubmit) "w" [] (processOne "w") :=
    Solo.first hcontinues (fun _ _ => trivial) rfl (by simp [sampleSubmit])
      (by simp [sampleSubmit, Op.Takes]) "w"
  have hclaim : (atomically (sampleClaim.body sampleDeps .sqlite)
      (present (afterCall sampleDeps .sqlite [] sampleSubmit))).1 = .ok (.job (some sampleJob)) := rfl
  obtain ⟨tr, p, hfailed⟩ := hfirst.fails hcontinues (fun _ _ => trivial) rfl hclaim (fun _ => trivial)
    rfl hastyFailure_op (by decide +kernel)
  obtain ⟨c, hsecond⟩ := hfailed.again hcontinues (fun _ _ => trivial) "v"
  obtain ⟨j, hid, hcount, hj⟩ := hastyClaim_ok
  have hop : (JobCall.claimNextJob "v").op (fun _ => false) (sampleTime 3) = some hastyClaim := rfl
  obtain ⟨hr, ps, hrun⟩ := hsecond.perform hcontinues (fun _ _ => trivial) hop (claim_answers hj)
  have hnote : (Move.perform [] (sampleTime 3) (.claimNextJob "v") (.ok (some j))).note "j" =
      [.claimed (sampleTime 3) 2] := by
    simp [Move.note, hid, hcount]
  rw [hnote] at hrun
  refine ⟨_, _, hrun, ?_, ?_, List.mem_cons_self .., ⟨_, hasty_backoff, by norm_num⟩, ?_⟩
  · exact List.mem_cons_of_mem _ (List.mem_cons_of_mem _ (List.mem_cons_self ..))
  · exact List.mem_cons_of_mem _ (List.mem_cons_self ..)
  · have hrows : (present (afterCall sampleDeps .sqlite hastyFailed hastyClaim)).jobAttempts =
        [⟨"j", 1, "w", .timedOut, toDbTime (sampleTime 1), toDbTime (sampleTime 3),
          some "attempt timed out"⟩] := by
      decide +kernel
    have hmem : (⟨"j", 1, "w", .timedOut, toDbTime (sampleTime 1), toDbTime (sampleTime 3),
        some "attempt timed out"⟩ : AttemptRow) ∈
          (present (afterCall sampleDeps .sqlite hastyFailed hastyClaim)).jobAttempts := by
      rw [hrows]
      exact List.mem_singleton_self _
    exact ⟨_, hmem, rfl, rfl, rfl⟩

end PulseQueue
