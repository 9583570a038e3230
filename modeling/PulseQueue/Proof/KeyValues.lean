import PulseQueue.Proof.Submissions

/-!
# Key values

`create_job` takes the empty string for no key, and stores it. The unique index does not: the second
row with the empty string is rejected, and the method, which sees no key, raises the database's error
(`Creation.createJob_cases`). So the calls of a sequence are all handled when at most one submission,
stored before or in the sequence, has the empty string as its key (`key_values_iff`).
-/

namespace PulseQueue

open Txn Trace

/-- A call of `create_job` by the route, with the clock reading and the id that it uses. -/
structure Creation where
  now : UtcTime
  jobId : String
  request : JobCreate
  maxRetries : Nat
  timeoutSeconds : ℚ
  idempotencyKey : Option String
  key_length : ∀ k ∈ idempotencyKey, k.length ≤ 200

namespace Creation

variable (deps : Deps) (engine : Engine) (c : Creation)

def createJob : Repo (Option Job) :=
  engine.createJob deps c.now c.jobId c.request c.maxRetries c.timeoutSeconds c.idempotencyKey

def fingerprint : String := jobRequestFingerprint deps c.request c.maxRetries c.timeoutSeconds

/-- The row of a new job: nothing in it comes from other calls. -/
def row : JobRow :=
  submittedRow deps c.now c.jobId c.request c.maxRetries c.timeoutSeconds c.idempotencyKey

/-- A call returns a new job, or, with a key, the stored job or the conflict, as the fingerprints say. -/
inductive Handled (s : Store) : Except Err (Option Job) × Store → Prop
  | created :
      Handled s (.ok (some (jobFromRow deps (c.row deps))), { s with jobs := s.jobs ++ [c.row deps] })
  | stored {k : String} {r : JobRow} : truthy c.idempotencyKey = true → c.idempotencyKey = some k →
      KeyRow s k r → r.requestFingerprint = some (c.fingerprint deps) →
      Handled s (.ok (some (jobFromRow deps r)), s)
  | conflict {k : String} {r : JobRow} : truthy c.idempotencyKey = true → c.idempotencyKey = some k →
      KeyRow s k r → r.requestFingerprint ≠ some (c.fingerprint deps) →
      Handled s (.error (.idempotencyConflict conflictMessage), s)

end Creation

/-- Every call of a sequence is handled. -/
def AllHandled (deps : Deps) (engine : Engine) : List Creation → Store → Prop
  | [], _ => True
  | c :: cs, s => c.Handled deps s (c.createJob deps engine s) ∧
      AllHandled deps engine cs (c.createJob deps engine s).2

/-- `uuid4()` gives every call an id of its own, that no job has. -/
structure FreshCalls (cs : List Creation) (s : Store) : Prop where
  distinct : (cs.map (·.jobId)).Nodup
  new : ∀ c ∈ cs, ∀ r ∈ s.jobs, r.id ≠ c.jobId

/-- The submissions with the empty string as their key, stored or in the sequence. -/
def emptyKeys (cs : List Creation) (s : Store) : Nat :=
  s.jobs.countP (fun r => r.idempotencyKey = some "") + cs.countP (fun c => c.idempotencyKey = some "")

section
variable {deps : Deps} {engine : Engine} {s : Store} {c : Creation} {cs : List Creation}

/-! ## One call -/

theorem FreshCalls.head (h : FreshCalls (c :: cs) s) : ∀ r ∈ s.jobs, r.id ≠ c.jobId :=
  h.new c (List.mem_cons_self ..)

variable (deps c) in
/-- The `INSERT` of a call. -/
theorem Creation.insert_cases (hfresh : ∀ r ∈ s.jobs, r.id ≠ c.jobId) :
    let insert := Conn.run (Sqlite.createJobTxn deps c.now c.jobId c.request c.maxRetries
      c.timeoutSeconds c.idempotencyKey) s
    ((∃ k r, c.idempotencyKey = some k ∧ KeyRow s k r) ∧ insert = (.error .integrity, s)) ∨
      (∀ k r, c.idempotencyKey = some k → ¬ KeyRow s k r) ∧
        insert = (.ok (), { s with jobs := s.jobs ++ [c.row deps] }) :=
  PulseQueue.insert_cases hfresh

/-- The new row is found under its fresh id. -/
theorem getJob_appended (hfresh : ∀ r ∈ s.jobs, r.id ≠ c.jobId) :
    Sqlite.getJob deps c.jobId { s with jobs := s.jobs ++ [c.row deps] } =
      (.ok (some (jobFromRow deps (c.row deps))), { s with jobs := s.jobs ++ [c.row deps] }) := by
  have hnone : s.job? c.jobId = none := Table.lookup_eq_none.2 hfresh
  have hid : (c.row deps).id = c.jobId := rfl
  have hfound : Store.job? { s with jobs := s.jobs ++ [c.row deps] } c.jobId = some (c.row deps) := by
    unfold Store.job? at hnone ⊢
    rw [Table.lookup_append_singleton, hnone, if_pos hid]
    rfl
  simp only [Sqlite.getJob, hfound]
  rfl

variable (deps) in
/-- The part after the first lookup, where no row has the key. -/
theorem insertOrFind_new (hfresh : ∀ r ∈ s.jobs, r.id ≠ c.jobId)
    (hnone : ∀ k r, c.idempotencyKey = some k → ¬ KeyRow s k r) :
    Sqlite.insertOrFind deps c.now c.jobId c.request c.maxRetries c.timeoutSeconds c.idempotencyKey s =
      (.ok (some (jobFromRow deps (c.row deps))), { s with jobs := s.jobs ++ [c.row deps] }) := by
  rcases c.insert_cases deps hfresh with ⟨⟨k, r, hk, hr⟩, -⟩ | ⟨-, hx⟩
  · exact absurd hr (hnone k r hk)
  · simp only [Sqlite.insertOrFind, Conn.bind_run, Conn.attempt_run, hx]
    exact getJob_appended hfresh

variable (deps) in
/-- With a row of the empty key, the error is raised on. -/
theorem insertOrFind_empty (hfresh : ∀ r ∈ s.jobs, r.id ≠ c.jobId) (hkey : c.idempotencyKey = some "")
    {r : JobRow} (hr : KeyRow s "" r) :
    Sqlite.insertOrFind deps c.now c.jobId c.request c.maxRetries c.timeoutSeconds c.idempotencyKey s =
      (.error .integrity, s) := by
  rcases c.insert_cases deps hfresh with ⟨-, hx⟩ | ⟨hnone, -⟩
  · rw [hkey] at hx ⊢
    simp only [Sqlite.insertOrFind, Conn.bind_run, Conn.attempt_run, hx]
    rfl
  · exact absurd hr (hnone "" r hkey)

variable (engine c) in
/-- What a call does: a row of its key decides, and without one the job is new. -/
theorem Creation.createJob_cases (h : s.Ok deps) (hfresh : ∀ r ∈ s.jobs, r.id ≠ c.jobId) :
    (∀ k r, c.idempotencyKey = some k → ¬ KeyRow s k r) ∧ c.createJob deps engine s =
        (.ok (some (jobFromRow deps (c.row deps))), { s with jobs := s.jobs ++ [c.row deps] }) ∨
      (∃ k r, c.idempotencyKey = some k ∧ k ≠ "" ∧ KeyRow s k r ∧
        c.createJob deps engine s = (found deps (c.fingerprint deps) r, s)) ∨
      ∃ r, c.idempotencyKey = some "" ∧ KeyRow s "" r ∧
        c.createJob deps engine s = (.error .integrity, s) := by
  by_cases hnone : ∀ k r, c.idempotencyKey = some k → ¬ KeyRow s k r
  · left
    refine ⟨hnone, ?_⟩
    have hx := insertOrFind_new deps hfresh hnone
    simp only [Creation.createJob, Engine.createJob_eq, Sqlite.createJob]
    cases hkey : c.idempotencyKey with
    | none => rwa [hkey] at hx
    | some k =>
      rw [hkey] at hx
      by_cases hk : k = ""
      · simpa only [hk, ne_eq, not_true_eq_false, if_false] using hk ▸ hx
      · simp only [ne_eq, hk, not_false_eq_true, if_true, Conn.bind_run,
          lookupKey_none fun r => hnone k r hkey]
        exact hx
  · right
    simp only [not_forall, not_not] at hnone
    obtain ⟨k, r, hkey, hr⟩ := hnone
    by_cases hk : k = ""
    · right
      subst hk
      refine ⟨r, hkey, hr, ?_⟩
      have hx := insertOrFind_empty deps hfresh hkey hr
      rw [hkey] at hx
      simp only [Creation.createJob, Engine.createJob_eq, Sqlite.createJob, hkey, ne_eq,
        not_true_eq_false, if_false]
      exact hx
    · left
      refine ⟨k, r, hkey, hk, hr, ?_⟩
      rw [Creation.createJob, hkey]
      exact createJob_found h hk hr ..

theorem Creation.handled_found {k : String} {r : JobRow} (hkey : c.idempotencyKey = some k) (hk : k ≠ "")
    (hr : KeyRow s k r) : c.Handled deps s (found deps (c.fingerprint deps) r, s) := by
  have htruthy : truthy c.idempotencyKey = true := by simp [truthy, hkey, hk]
  by_cases hf : r.requestFingerprint = some (c.fingerprint deps)
  · rw [found, if_pos hf]
    exact .stored htruthy hkey hr hf
  · rw [found, if_neg hf]
    exact .conflict htruthy hkey hr hf

/-- A call is handled unless its key is the empty string and a row has it already. -/
theorem Creation.handled_iff (h : s.Ok deps) (hfresh : ∀ r ∈ s.jobs, r.id ≠ c.jobId) :
    c.Handled deps s (c.createJob deps engine s) ↔
      ¬ (c.idempotencyKey = some "" ∧ ∃ r, KeyRow s "" r) := by
  rcases c.createJob_cases engine h hfresh with
    ⟨hnone, hx⟩ | ⟨k, r, hkey, hk, hr, hx⟩ | ⟨r, hkey, hr, hx⟩
  · rw [hx]
    exact iff_of_true .created fun ⟨hkey, r, hr⟩ => hnone "" r hkey hr
  · rw [hx]
    refine iff_of_true (Creation.handled_found hkey hk hr) fun ⟨hempty, _⟩ => hk ?_
    exact Option.some.inj (hkey.symm.trans hempty)
  · rw [hx]
    exact iff_of_false nofun (not_not.2 ⟨hkey, r, hr⟩)

/-! ## Sequences -/

/-- A handled call moves its empty key into the store. -/
theorem Creation.Handled.emptyKeys {result : Except Err (Option Job) × Store}
    (h : c.Handled deps s result) (cs : List Creation) :
    emptyKeys cs result.2 = PulseQueue.emptyKeys (c :: cs) s := by
  cases h with
  | created =>
    have hkey : (c.row deps).idempotencyKey = c.idempotencyKey := rfl
    simp only [PulseQueue.emptyKeys, List.countP_append, List.countP_cons, List.countP_nil, hkey]
    omega
  | stored htruthy =>
    have hne : c.idempotencyKey ≠ some "" := fun he => by simp [he, truthy] at htruthy
    simp [PulseQueue.emptyKeys, hne]
  | conflict htruthy =>
    have hne : c.idempotencyKey ≠ some "" := fun he => by simp [he, truthy] at htruthy
    simp [PulseQueue.emptyKeys, hne]

variable (engine c) in
/-- The store after a call, for the calls that follow. -/
theorem Creation.createJob_next (h : s.Ok deps) (hf : FreshCalls (c :: cs) s) :
    (c.createJob deps engine s).2.Ok deps ∧ FreshCalls cs (c.createJob deps engine s).2 := by
  have hdistinct := List.nodup_cons.1 hf.distinct
  have hrest : FreshCalls cs s :=
    ⟨hdistinct.2, fun o ho => hf.new o (List.mem_cons_of_mem _ ho)⟩
  rcases c.createJob_cases engine h hf.head with
    ⟨hnone, hx⟩ | ⟨k, r, -, -, -, hx⟩ | ⟨r, -, -, hx⟩
  · rw [hx]
    refine ⟨?_, hrest.distinct, fun o ho r hr => ?_⟩
    · rcases c.insert_cases deps hf.head with ⟨⟨k, r, hk, hr⟩, -⟩ | ⟨-, hi⟩
      · exact absurd hr (hnone k r hk)
      · exact Steps.ok h (Sqlite.createJobTxn_ok (atomically_eq_ok.1 hi))
    · rcases List.mem_append.1 hr with hr | hr
      · exact hrest.new o ho r hr
      · intro he
        have hid : c.jobId = o.jobId := by
          rw [List.mem_singleton.1 hr] at he
          exact he
        exact hdistinct.1 (List.mem_map.2 ⟨o, ho, hid.symm⟩)
  · rw [hx]
    exact ⟨h, hrest⟩
  · rw [hx]
    exact ⟨h, hrest⟩

/-- The unique index: at most one row has the empty key. -/
theorem emptyKeys_nil (h : s.Ok deps) : emptyKeys [] s ≤ 1 := by
  have hkey : ∀ r ∈ s.jobs.filter (fun r => r.idempotencyKey = some ""), r.idempotencyKey = some "" := by
    intro r hr
    simpa using (List.mem_filter.1 hr).2
  have hpair := h.jobs.filter fun r => r.idempotencyKey = some ""
  rw [emptyKeys, List.countP_nil, Nat.add_zero, List.countP_eq_length_filter]
  generalize s.jobs.filter _ = l at hkey hpair ⊢
  match l with
  | [] => simp
  | [_] => simp
  | a :: b :: l =>
    have hclash := (List.pairwise_cons.1 hpair).1 b (List.mem_cons_self ..)
    have ha := hkey a (List.mem_cons_self ..)
    have hb := hkey b (List.mem_cons_of_mem _ (List.mem_cons_self ..))
    simp [JobRow.clash, JobRow.sameKey, ha, hb, sqlEq] at hclash

/-- The ids of the calls are fresh, as `uuid4()` makes them. -/
theorem allHandled_iff (h : s.Ok deps) (hf : FreshCalls cs s) :
    AllHandled deps engine cs s ↔ emptyKeys cs s ≤ 1 := by
  induction cs generalizing s with
  | nil => exact iff_of_true trivial (emptyKeys_nil h)
  | cons c cs ih =>
    obtain ⟨hok, hnext⟩ := c.createJob_next engine h hf
    have hrest := ih hok hnext
    rw [AllHandled, hrest]
    constructor
    · intro hc
      have he := hc.1.emptyKeys cs
      omega
    · intro hle
      have hc : c.Handled deps s (c.createJob deps engine s) := by
        rw [Creation.handled_iff h hf.head]
        rintro ⟨hkey, r, hr⟩
        have hpos : 0 < s.jobs.countP fun r => r.idempotencyKey = some "" :=
          List.countP_pos_iff.2 ⟨r, hr.1, by simpa using hr.2⟩
        simp only [emptyKeys, List.countP_cons, hkey] at hle
        simp at hle
        omega
      have he := hc.emptyKeys cs
      exact ⟨hc, by omega⟩

end

/-! ## The result -/

/-- From any state of a run, with fresh ids. -/
theorem key_values_iff (deps : Deps) (engine : Engine) (h : History Event Store)
    (hrun : Run deps engine h) (cs : List Creation) (hfresh : FreshCalls cs (present h)) :
    AllHandled deps engine cs (present h) ↔ emptyKeys cs (present h) ≤ 1 :=
  allHandled_iff hrun.sound.ok hfresh

/-! ## Concrete sequences -/

def keyCall (id : String) (key : Option String) (hkey : ∀ k ∈ key, k.length ≤ 200) : Creation :=
  ⟨sampleTime 0, id, sampleRequest, 1, 300, key, hkey⟩

/-- No key twice, the empty key once, and `k` twice. -/
def mixedCalls : List Creation :=
  [keyCall "a" none (by simp), keyCall "b" none (by simp), keyCall "c" (some "") (by simp),
    keyCall "d" (some "k") (by decide), keyCall "e" (some "k") (by decide)]

theorem mixedCalls_fresh : FreshCalls mixedCalls (present []) :=
  ⟨by decide, fun _ _ r hr => by cases hr⟩

theorem key_values_mixed : AllHandled sampleDeps .sqlite mixedCalls (present []) :=
  (key_values_iff sampleDeps .sqlite [] .nil mixedCalls mixedCalls_fresh).2 (by decide)

/-- The empty key twice. -/
def emptyCalls : List Creation :=
  [keyCall "a" (some "") (by simp), keyCall "b" (some "") (by simp)]

/-- The second call raises the database's error. -/
theorem key_values_fails : FreshCalls emptyCalls (present []) ∧
    ((keyCall "b" (some "") (by simp)).createJob sampleDeps .sqlite
      ((keyCall "a" (some "") (by simp)).createJob sampleDeps .sqlite (present [])).2).1 =
        .error .integrity ∧
    ¬ AllHandled sampleDeps .sqlite emptyCalls (present []) := by
  have hfresh : FreshCalls emptyCalls (present []) := ⟨by decide, fun _ _ r hr => by cases hr⟩
  have hok : (present []).Ok sampleDeps := Store.Ok.empty sampleDeps
  refine ⟨hfresh, rfl, ?_⟩
  rw [allHandled_iff hok hfresh]
  decide

end PulseQueue
