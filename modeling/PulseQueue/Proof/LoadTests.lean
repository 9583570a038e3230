import PulseQueue.Proof.Handlers
import PulseQueue.Proof.Submitted

/-!
# Load tests

From the request of a load test to the end of one of its jobs: the route fills in the default retries, the
batch puts the jobs into the table with their payloads, and `execute_job` decides what the attempts come to
(`ExecutedRun.fate`).
-/

namespace PulseQueue

open Txn Trace

section
variable {py : Builtins} {deps : Deps} {engine : Engine} {id : String} {l : Attempts}

/-! ## The payloads -/

theorem loadTest_fails (py : Builtins) {kind : LoadKind} {index : Nat} {f : Int}
    (h : failuresOf kind index = some f) : AsksFailures py (loadTestPayload kind index) f := by
  cases kind with
  | flaky | poison =>
    cases h
    exact ⟨rfl, rfl⟩
  | mixed =>
    simp only [failuresOf] at h
    simp only [loadTestPayload]
    split at h
    · rename_i h25
      cases h
      rw [if_pos h25]
      exact ⟨rfl, rfl⟩
    · rename_i h25
      rw [if_neg h25]
      split at h
      · rename_i h10
        cases h
        rw [if_pos h10]
        exact ⟨rfl, rfl⟩
      · cases h
  | echo | timeout => cases h

theorem executeJob_echo (py : Builtins) (index n : Nat) :
    ∃ result, executeJob py (loadTestEcho index) n = .ok result := ⟨_, rfl⟩

theorem executeJob_sleep {seconds : Int} (hpos : 0 ≤ seconds) (hsleep : py.sleepError seconds = none)
    (index n : Nat) : ∃ result, executeJob py (loadTestSleep seconds index) n = .ok result := by
  have hmax : PyFloat.max (.rat seconds) (.rat 0) = .rat seconds := by
    have hlt : ¬ (seconds : ℚ) < 0 := not_lt.2 (by exact_mod_cast hpos)
    simp [PyFloat.max, PyFloat.lt, hlt]
  refine ⟨[("slept_seconds", .float (.rat seconds)), ("attempt", .int n)], ?_⟩
  show (do
    py.sleep (PyFloat.max (.rat seconds) (.rat 0))
    Except.ok [("slept_seconds", Json.float (.rat seconds)), ("attempt", .int n)] :
      Except PyExc JsonObject) = _
  rw [hmax]
  simp only [Builtins.sleep, hsleep]
  rfl

/-- A payload that asks for no failure is executed. -/
theorem loadTest_steady (hone : py.sleepError 1 = none) (htwo : py.sleepError 2 = none) {kind : LoadKind}
    {index : Nat} (h : failuresOf kind index = none) (n : Nat) :
    ∃ result, executeJob py (loadTestPayload kind index) n = .ok result := by
  cases kind with
  | echo => exact executeJob_echo py index n
  | timeout => exact executeJob_sleep (by decide) htwo index n
  | mixed =>
    simp only [failuresOf] at h
    simp only [loadTestPayload]
    split at h
    · cases h
    · rename_i h25
      rw [if_neg h25]
      split at h
      · cases h
      · rename_i h10
        rw [if_neg h10]
        split
        · exact executeJob_sleep (by decide) (by simpa using hone) index n
        · exact executeJob_echo py index n
  | flaky | poison => cases h

/-! ## The jobs of the batch -/

theorem batchRow_mem (now : UtcTime) (uuids : Nat → String) (m : Nat) (t : ℚ) {request : JobCreate} :
    ∀ (requests : List JobCreate) (i k : Nat), requests[k]? = some request →
      Sqlite.batchRow deps now m t (uuids (i + k)) request ∈ Sqlite.batchRows deps now uuids m t i requests
  | [], _, _, h => by cases h
  | _ :: _, i, 0, h => by
    cases h
    exact List.mem_cons_self ..
  | _ :: requests, i, k + 1, h => by
    have hmem := batchRow_mem now uuids m t requests (i + 1) k h
    rw [Nat.add_right_comm, Nat.add_assoc] at hmem
    exact List.mem_cons_of_mem _ hmem

/-- The job `k` of the request. -/
theorem loadTestJobs_get {request : LoadTestRequest} {k : Nat} (hk : k < request.count) :
    ∃ job : JobCreate, (loadTestJobs request)[k]? = some job ∧
      job.payload = loadTestPayload request.kind k := by
  rw [loadTestJobs, List.getElem?_map, List.getElem?_range hk]
  exact ⟨_, rfl, rfl⟩

/-- A job without failures on purpose. -/
theorem Fate.steady {payload : JsonObject} {r : JobRow} (hfate : Fate py deps payload l r)
    (hends : r.status.terminal = true → r.status = .succeeded ∨ r.status = .deadLettered)
    (h : ∀ n, ∃ result, executeJob py payload n = .ok result) :
    (r.status = .deadLettered → ∀ n, 1 ≤ n → n ≤ r.maxRetries + 1 → .invoked n .late ∈ l) ∧
      (InTime l → r.status.terminal = true → r.status = .succeeded ∧ r.attemptCount = 1) := by
  have hlate : ∀ n, Fails py payload l n → .invoked n .late ∈ l := by
    rintro n (hlate | ⟨exc, hexc⟩)
    · exact hlate
    · obtain ⟨result, hok⟩ := h n
      rw [hok] at hexc
      cases hexc
  constructor
  · intro hst n h1 hn
    exact hlate n ((hfate.dead hst).2.1 n h1 hn)
  · intro hin hend
    rcases hends hend with hst | hst
    · obtain ⟨h1, -, -, hbad⟩ := hfate.succeeded hst
      refine ⟨hst, ?_⟩
      by_contra hne
      exact hin 1 (hlate 1 (hbad 1 (Nat.le_refl 1) (by omega)))
    · exact absurd (hlate 1 ((hfate.dead hst).2.1 1 (Nat.le_refl 1) (by omega))) (hin 1)

/-- A validated default is small. -/
theorem RuntimeConfig.retries_le (config : RuntimeConfig) : config.defaultMaxRetries.toNat ≤ 20 := by
  have hvalid := config.isValid
  simp only [ConfigValues.valid, inIntRange, Bool.and_eq_true, decide_eq_true_eq] at hvalid
  omega

/-- A load test from its request to the end of each of its jobs. -/
theorem load_test_fate {σ : Pool} {request : LoadTestRequest} {config : RuntimeConfig}
    {requests : List JobCreate} {m k : Nat} {t : ℚ} {now : UtcTime} {uuids : Nat → String}
    {pre post : History Event Store} {reply : Reply}
    (hr : ExecutedRun py deps engine (uuids k) l σ)
    (hroute : Api.submit deps config (.loadTest request) = .ok (.createJobsBatch requests m (.rat t)))
    (hbatch : σ.history = post ++ afterCall deps engine pre (.createJobsBatch now uuids requests m t))
    (hok : (atomically ((Op.createJobsBatch now uuids requests m t).body deps engine) (present pre)).1 =
      .ok reply) (hk : k < request.count)
    (hjson : deps.loads (deps.dumps (.obj (loadTestPayload request.kind k))) =
      .obj (loadTestPayload request.kind k)) :
    ∃ r, (present σ.history).job? (uuids k) = some r ∧
      LoadTestFate py deps config request.kind k l r := by
  simp only [Api.submit, Api.createLoadTest, Except.ok.injEq, RepoCall.createJobsBatch.injEq] at hroute
  obtain ⟨rfl, rfl, -⟩ := hroute
  obtain ⟨job, hjob, hpayload⟩ := loadTestJobs_get hk
  have hmem : Sqlite.batchRow deps now config.defaultMaxRetries.toNat t (uuids k) job ∈
      Op.submits deps (.createJobsBatch now uuids (loadTestJobs request)
        config.defaultMaxRetries.toNat t) := by
    have hmem := @batchRow_mem deps now uuids config.defaultMaxRetries.toNat t job _ 0 k hjob
    rwa [Nat.zero_add] at hmem
  have hrun := hr.retry.tracks.sound.run
  rw [hbatch] at hrun
  have hthere : (present (afterCall deps engine pre _)).job? (uuids k) = some _ :=
    (Run.sound hrun.suffix).ok.job?_mem (by
      rw [submits_rows hok hmem]
      exact List.mem_append_right _ hmem)
  obtain ⟨r, hrow, hlater⟩ := Run.later hrun hthere
  rw [← hbatch] at hrow
  have hretries : r.maxRetries = config.defaultMaxRetries.toNat := JobRow.maxRetries_eq hlater.fixed
  have hloads : deps.loads r.payload = .obj (loadTestPayload request.kind k) := by
    rw [JobRow.payload_eq hlater.fixed]
    show deps.loads (deps.dumps (.obj job.payload)) = _
    rw [hpayload, hjson]
  have hfate := hr.fate hrow hloads
  have hends := fun hend => hr.retry.ended hrow hend
  have hfailing : ∀ f, failuresOf request.kind k = some f → FailFate deps f l r :=
    fun f hf => hfate.failures hends (loadTest_fails py hf)
  refine ⟨r, hrow, hfate, hretries, hfailing, fun hf hend => ?_, fun hf hone htwo => ?_⟩
  · have hle := config.retries_le
    have hst := (hfailing 9999 hf).dead (by omega) hend
    exact ⟨hst, by rw [(hfate.dead hst).1, hretries]⟩
  · exact hfate.steady hends (loadTest_steady hone htwo hf)

end

theorem load_test_fate_recovers : ∃ σ r, ExecutedRun sampleBuiltins flakyDeps .sqlite "j" flakyAttempts σ ∧
    (present σ.history).job? "j" = some r ∧ LoadTestFate sampleBuiltins flakyDeps sampleConfig .flaky 0
      flakyAttempts r ∧ r.status = .succeeded ∧ r.attemptCount = 2 := by
  obtain ⟨σ, hrun, hσ⟩ := flaky_executed
  obtain ⟨r, hrow, hfate⟩ := @load_test_fate sampleBuiltins flakyDeps .sqlite flakyAttempts σ flakyLoad
    sampleConfig (loadTestJobs flakyLoad) 3 0 300 (sampleTime 0) (fun _ => "j") [] (flakyDone.take 4) .done
    hrun rfl (by rw [hσ]; rfl) rfl (by decide) flaky_payload
  have hdone : (present σ.history).job? "j" = some flakyDoneRow := by
    rw [hσ]
    decide +kernel
  cases hrow.symm.trans hdone
  exact ⟨σ, _, hrun, hrow, hfate, rfl, rfl⟩

end PulseQueue
