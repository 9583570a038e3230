import PulseQueue.Proof.Runs
import PulseQueue.Spec.Submissions

/-!
# Idempotent submission

In every state of a system of concurrent `create_job` calls, each call is where the store says it can
be (`Client.Consistent`): after its own insert the row of its key is its own, after a failed insert a
row with the key exists, and a finished call has returned the job of that row or raised the conflict,
as the fingerprints say (`Answer`). Rows with a key are unique and stay (`KeyRow.unique`,
`System.Steps.keyRow`), so the answer remains right.
-/

namespace PulseQueue

open Txn Trace Table

/-- The row with the key `k`. -/
def KeyRow (s : Store) (k : String) (r : JobRow) : Prop := r ∈ s.jobs ∧ r.idempotencyKey = some k

section
variable {deps : Deps} {engine : Engine} {s s' : Store} {k fp : String} {r r' : JobRow}

/-! ## Rows with a key -/

/-- `idx_jobs_idempotency_key`. -/
theorem KeyRow.unique (h : s.Ok deps) (hr : KeyRow s k r) (hr' : KeyRow s k r') : r = r' := by
  by_contra hne
  have : Std.Symm fun a b : JobRow => a.clash b = false := ⟨fun a b hab => by
    rw [JobRow.clash_comm]
    exact hab⟩
  have hc := h.jobs.forall hr.1 hr'.1 hne
  simp [JobRow.clash, JobRow.sameKey, hr.2, hr'.2, sqlEq] at hc

/-- The lookup by key finds the row. -/
theorem keyRow_lookup (h : s.Ok deps) (hr : KeyRow s k r) :
    Sqlite.getJobByIdempotencyKey deps k s = (.ok (some (jobFromRow deps r)), s) := by
  unfold Sqlite.getJobByIdempotencyKey
  cases hf : s.jobs.find? fun r => r.idempotencyKey == some k with
  | none =>
    rw [List.find?_eq_none] at hf
    exact absurd (hf r hr.1) (by simp [hr.2])
  | some o =>
    have ho : KeyRow s k o := ⟨List.mem_of_find?_eq_some hf, by simpa using List.find?_some hf⟩
    rw [ho.unique h hr]
    rfl

theorem noKeyRow_lookup (hn : ∀ r, ¬ KeyRow s k r) :
    Sqlite.getJobByIdempotencyKey deps k s = (.ok none, s) := by
  unfold Sqlite.getJobByIdempotencyKey
  have hf : (s.jobs.find? fun r => r.idempotencyKey == some k) = none := by
    rw [List.find?_eq_none]
    intro r hr hk
    exact hn r ⟨hr, by simpa using hk⟩
  rw [hf]
  rfl

theorem Later.keyRow (hl : Later r r') (hr : r.idempotencyKey = some k) :
    r'.idempotencyKey = some k := by
  rw [← hr]
  exact congrArg FixedColumns.idempotencyKey hl.fixed

theorem Later.fingerprint (hl : Later r r') : r'.requestFingerprint = r.requestFingerprint :=
  congrArg FixedColumns.requestFingerprint hl.fixed

/-- The row of a key stays the row of the key. -/
theorem KeyRow.later (h : s.Ok deps) {L : Kind → Prop} (hst : Steps deps L s s')
    (hr : KeyRow s k r) : ∃ r', KeyRow s' k r' ∧ Later r r' := by
  obtain ⟨r', hr', hl⟩ := hst.later h (h.job?_mem hr.1)
  exact ⟨r', ⟨(Store.job?_some hr').1, hl.keyRow hr.2⟩, hl⟩

/-! ## The transactions of a call -/

/-- What a lookup that finds the row `r` makes of it. -/
def found (deps : Deps) (fp : String) (r : JobRow) : Except Err (Option Job) :=
  if r.requestFingerprint = some fp then .ok (some (jobFromRow deps r))
  else .error (.idempotencyConflict conflictMessage)

theorem lookupKey_found (h : s.Ok deps) (hr : KeyRow s k r) :
    Sqlite.lookupKey deps fp k s = (found deps fp r, s) := by
  unfold Sqlite.lookupKey
  rw [Conn.bind_ok (keyRow_lookup h hr)]
  unfold found
  by_cases hf : r.requestFingerprint = some fp <;> simp [jobFromRow, hf]

theorem relookupKey_found (h : s.Ok deps) (hr : KeyRow s k r) :
    Sqlite.relookupKey deps fp k s = (found deps fp r, s) := by
  unfold Sqlite.relookupKey
  rw [Conn.bind_ok (keyRow_lookup h hr)]
  unfold found
  by_cases hf : r.requestFingerprint = some fp <;> simp [jobFromRow, hf]

theorem lookupKey_none (hn : ∀ r, ¬ KeyRow s k r) :
    Sqlite.lookupKey deps fp k s = (.ok none, s) := by
  unfold Sqlite.lookupKey
  rw [Conn.bind_ok (noKeyRow_lookup hn)]
  rfl

/-- The row of the `INSERT` of `create_job`. -/
def submittedRow (deps : Deps) (now : UtcTime) (jobId : String) (request : JobCreate)
    (maxRetries : Nat) (timeoutSeconds : ℚ) (key : Option String) : JobRow :=
  { Sqlite.batchRow deps now maxRetries timeoutSeconds jobId request with
    idempotencyKey := key
    requestFingerprint := some (jobRequestFingerprint deps request maxRetries timeoutSeconds) }

/-- With a fresh id the insert fails for the key, or appends the row. -/
theorem insert_cases {now : UtcTime} {jobId : String} {request : JobCreate} {maxRetries : Nat}
    {timeoutSeconds : ℚ} {key : Option String} (hfresh : ∀ r ∈ s.jobs, r.id ≠ jobId) :
    let insert := Conn.run
      (Sqlite.createJobTxn deps now jobId request maxRetries timeoutSeconds key) s
    let row := submittedRow deps now jobId request maxRetries timeoutSeconds key
    ((∃ k r, key = some k ∧ KeyRow s k r) ∧ insert = (.error .integrity, s)) ∨
      (∀ k r, key = some k → ¬ KeyRow s k r) ∧
        insert = (.ok (), { s with jobs := s.jobs ++ [row] }) := by
  intro insert row
  have hrow : Sqlite.createJobTxn deps now jobId request maxRetries timeoutSeconds key =
      insertJob row := rfl
  by_cases hc : s.jobs.any row.clash = true
  · left
    obtain ⟨o, ho, hclash⟩ := List.any_eq_true.1 hc
    -- the id is fresh and the row belongs to no schedule, so it is the key that clashes
    have hne : row.id ≠ o.id := fun he => hfresh o ho he.symm
    have hsch : row.scheduleId = none := rfl
    have hsame : row.sameKey o = true := by
      simpa [JobRow.clash, hne, JobRow.sameOccurrence, sqlEq, hsch] using hclash
    refine ⟨?_, ?_⟩
    · cases hk : key with
      | none =>
        have hnone : row.idempotencyKey = none := hk
        simp [JobRow.sameKey, hnone, sqlEq] at hsame
      | some k =>
        have hsome : row.idempotencyKey = some k := hk
        simp only [JobRow.sameKey, hsome, sqlEq_comm (some k), sqlEq_some] at hsame
        exact ⟨k, o, rfl, ho, hsame⟩
    · show atomically _ s = _
      rw [hrow]
      exact atomically_error (by rw [insertJob, if_pos hc])
  · right
    refine ⟨?_, ?_⟩
    · intro k r hk hr
      have hsome : row.idempotencyKey = some k := hk
      refine hc (List.any_eq_true.2 ⟨r, hr.1, ?_⟩)
      simp [JobRow.clash, JobRow.sameKey, hsome, hr.2, sqlEq]
    · show atomically _ s = _
      rw [hrow]
      exact atomically_ok (by rw [insertJob, if_neg hc])

/-- A key that a row has decides the call: the job of the row, or the conflict. -/
theorem createJob_found (h : s.Ok deps) {key : String}
    (hkey : key ≠ "") (hr : KeyRow s key r) (now : UtcTime) (jobId : String)
    (request : JobCreate) (maxRetries : Nat) (timeoutSeconds : ℚ) :
    engine.createJob deps now jobId request maxRetries timeoutSeconds (some key) s =
      (found deps (jobRequestFingerprint deps request maxRetries timeoutSeconds) r, s) := by
  have hl : Sqlite.lookupKey deps (jobRequestFingerprint deps request maxRetries timeoutSeconds) key s =
      (found deps (jobRequestFingerprint deps request maxRetries timeoutSeconds) r, s) :=
    lookupKey_found h hr
  rw [Engine.createJob_eq]
  simp only [Sqlite.createJob, if_pos hkey, Conn.bind_run, hl]
  by_cases hf : r.requestFingerprint = some (jobRequestFingerprint deps request maxRetries timeoutSeconds)
  · simp only [found, if_pos hf]
    rfl
  · simp only [found, if_neg hf]

namespace Submission

variable {c : Submission}

theorem advance_lookup (h : s.Ok deps) :
    ((∀ r, ¬ KeyRow s c.key r) ∧ c.advance deps engine .lookup s = (.insert, s)) ∨
      ∃ r, KeyRow s c.key r ∧
        c.advance deps engine .lookup s = (.done (found deps (c.fingerprint deps) r), s) := by
  simp only [advance, Engine.lookupKey_eq]
  by_cases hn : ∀ r, ¬ KeyRow s c.key r
  · left
    rw [lookupKey_none hn]
    exact ⟨hn, rfl⟩
  · right
    obtain ⟨r, hr⟩ : ∃ r, KeyRow s c.key r := by simpa using hn
    refine ⟨r, hr, ?_⟩
    rw [lookupKey_found h hr]
    by_cases hf : r.requestFingerprint = some (c.fingerprint deps)
    · simp only [found, if_pos hf]
    · simp only [found, if_neg hf]

theorem advance_insert_cases (hfresh : ∀ r ∈ s.jobs, r.id ≠ c.jobId) :
    ((∃ r, KeyRow s c.key r) ∧ c.advance deps engine .insert s = (.relookup, s)) ∨
      ∃ r, c.advance deps engine .insert s = (.read, { s with jobs := s.jobs ++ [r] }) ∧
        r.id = c.jobId ∧ r.idempotencyKey = some c.key ∧
        r.requestFingerprint = some (c.fingerprint deps) := by
  simp only [advance, Engine.createJobTxn_eq]
  rcases insert_cases hfresh with ⟨⟨k, r, hk, hr⟩, hx⟩ | ⟨-, hx⟩
  · left
    rw [hx]
    exact ⟨⟨r, Option.some.inj hk ▸ hr⟩, rfl⟩
  · right
    rw [hx]
    exact ⟨_, rfl, rfl, rfl, rfl⟩

theorem advance_read (h : s.Ok deps) (hr : KeyRow s c.key r) (hid : r.id = c.jobId) :
    c.advance deps engine .read s = (.done (.ok (some (jobFromRow deps r))), s) := by
  simp only [advance, Engine.getJob_eq, Sqlite.getJob]
  rw [← hid, h.job?_mem hr.1]
  rfl

theorem advance_relookup (h : s.Ok deps) (hr : KeyRow s c.key r) :
    c.advance deps engine .relookup s = (.done (found deps (c.fingerprint deps) r), s) := by
  simp only [advance, Engine.relookupKey_eq]
  rw [relookupKey_found h hr]

/-- Every transaction brings the call nearer to its end. -/
theorem advance_remaining (p : Progress) (s : Store) :
    (∃ result, p = .done result) ∨ (c.advance deps engine p s).1.remaining < p.remaining := by
  cases p with
  | done result => exact .inl ⟨result, rfl⟩
  | lookup =>
    right
    simp only [advance]
    split <;> simp [Progress.remaining]
  | insert =>
    right
    simp only [advance]
    split <;> simp [Progress.remaining]
  | read => exact .inr (by simp [advance, Progress.remaining])
  | relookup => exact .inr (by simp [advance, Progress.remaining])

end Submission

/-! ## Calls in a system -/

/-- The result of a call, next to the row of its key: the job of that row, as it was at some time, if
the fingerprints agree, and otherwise the conflict, from a call that has written nothing. -/
inductive Answer (deps : Deps) (s : Store) (c : Client) : Except Err (Option Job) → Prop
  | returned {r r₀ : JobRow} : KeyRow s c.call.key r →
      r.requestFingerprint = some (c.call.fingerprint deps) → Later r₀ r →
      Answer deps s c (.ok (some (jobFromRow deps r₀)))
  | conflict {r : JobRow} : KeyRow s c.call.key r →
      r.requestFingerprint ≠ some (c.call.fingerprint deps) → c.wrote = false →
      Answer deps s c (.error (.idempotencyConflict conflictMessage))

/-- A call is where the store says it can be. -/
def Client.Consistent (deps : Deps) (s : Store) (c : Client) : Prop :=
  match c.progress with
  | .lookup | .insert => c.wrote = false
  | .read => ∃ r, KeyRow s c.call.key r ∧ r.id = c.call.jobId ∧
      r.requestFingerprint = some (c.call.fingerprint deps)
  | .relookup => c.wrote = false ∧ ∃ r, KeyRow s c.call.key r
  | .done result => Answer deps s c result

theorem Answer.found {c : Client} (hr : KeyRow s c.call.key r) (hw : c.wrote = false) :
    Answer deps s c (found deps (c.call.fingerprint deps) r) := by
  unfold PulseQueue.found
  split
  · rename_i hf
    exact .returned hr hf (Later.refl r)
  · rename_i hf
    exact .conflict hr hf hw

/-- What happens to the store keeps a call consistent. -/
theorem Client.Consistent.later {c : Client} (h : s.Ok deps) {L : Kind → Prop}
    (hst : Steps deps L s s') (hc : c.Consistent deps s) : c.Consistent deps s' := by
  obtain ⟨call, progress, wrote⟩ := c
  cases progress with
  | lookup => exact hc
  | insert => exact hc
  | read =>
    obtain ⟨r, hr, hid, hf⟩ := hc
    obtain ⟨r', hr', hl⟩ := hr.later h hst
    exact ⟨r', hr', (JobRow.id_eq hl.fixed).trans hid, hl.fingerprint.trans hf⟩
  | relookup =>
    obtain ⟨hw, r, hr⟩ := hc
    obtain ⟨r', hr', -⟩ := hr.later h hst
    exact ⟨hw, r', hr'⟩
  | done result =>
    cases hc with
    | @returned r r₀ hr hf hl =>
      obtain ⟨r', hr', hl'⟩ := hr.later h hst
      exact .returned hr' (hl'.fingerprint.trans hf) (hl.trans hl')
    | @conflict r hr hf hw =>
      obtain ⟨r', hr', hl'⟩ := hr.later h hst
      exact .conflict hr' (hl'.fingerprint ▸ hf) hw

/-- The next transaction of a call keeps it consistent. -/
theorem Client.Consistent.advance {c : Client} (h : s.Ok deps) (hfresh : c.Fresh s)
    (hc : c.Consistent deps s) :
    (c.advance deps engine s).Consistent deps (c.call.advance deps engine c.progress s).2 := by
  obtain ⟨call, progress, wrote⟩ := c
  cases progress with
  | lookup =>
    have hw : wrote = false := hc
    rcases @Submission.advance_lookup deps engine s call h with ⟨-, hx⟩ | ⟨r, hr, hx⟩
    · simp only [Client.advance, hx]
      show (wrote || decide (s ≠ s)) = false
      simp [hw]
    · simp only [Client.advance, hx]
      exact Answer.found (c := ⟨call, _, _⟩) hr (by simp [hw])
  | insert =>
    have hw : wrote = false := hc
    rcases @Submission.advance_insert_cases deps engine s call (hfresh rfl) with
      ⟨hr, hx⟩ | ⟨r, hx, hid, hkey, hf⟩
    · simp only [Client.advance, hx]
      exact ⟨by simp [hw], hr⟩
    · simp only [Client.advance, hx]
      exact ⟨r, ⟨List.mem_append_right _ (List.mem_singleton_self r), hkey⟩, hid, hf⟩
  | read =>
    obtain ⟨r, hr, hid, hf⟩ := hc
    simp only [Client.advance, Submission.advance_read h hr hid]
    exact .returned hr hf (Later.refl r)
  | relookup =>
    obtain ⟨hw, r, hr⟩ := hc
    simp only [Client.advance, Submission.advance_relookup h hr]
    exact Answer.found (c := ⟨call, _, _⟩) hr (by simpa using hw)
  | done result =>
    cases hc with
    | returned hr hf hl => exact .returned hr hf hl
    | conflict hr hf hw => exact .conflict hr hf (by simpa [Client.advance, Submission.advance] using hw)

/-! ## Systems -/

/-- What holds in every state of a system. -/
structure System.Sound (deps : Deps) (engine : Engine) (σ : System) : Prop where
  run : Run deps engine σ.history
  clients : ∀ c ∈ σ.clients, c.Consistent deps σ.store

/-- The recorded history has the store after the transaction. -/
theorem Client.record_store {c : Client} {h : History Event Store} (hok : (present h).Ok deps)
    (hc : c.Consistent deps (present h)) :
    present (c.record deps engine h) =
      (c.call.advance deps engine c.progress (present h)).2 := by
  obtain ⟨call, progress, wrote⟩ := c
  cases progress with
  | lookup =>
    show present h = _
    rcases @Submission.advance_lookup deps engine _ call hok with ⟨-, hx⟩ | ⟨r, -, hx⟩ <;>
      rw [hx]
  | insert =>
    show (atomically (call.op.body deps engine) (present h)).2 = _
    have hbody : call.op.body deps engine = reply (fun _ => .done)
        (engine.createJobTxn deps call.now call.jobId call.request call.maxRetries
          call.timeoutSeconds (some call.key)) := by cases engine <;> rfl
    rw [hbody, atomically_reply]
    simp only [Submission.advance, Conn.run_run]
    generalize atomically _ (present h) = x
    obtain ⟨(e | u), s'⟩ := x
    · cases e <;> rfl
    · rfl
  | read =>
    obtain ⟨r, hr, hid, -⟩ := hc
    show present h = _
    rw [Submission.advance_read hok hr hid]
  | relookup =>
    obtain ⟨-, r, hr⟩ := hc
    show present h = _
    rw [Submission.advance_relookup hok hr]
  | done result => rfl

/-- The recorded history is a run, and the store has moved on from the one before. -/
theorem Client.record_run {c : Client} {h : History Event Store} (hr : Run deps engine h) :
    Run deps engine (c.record deps engine h) ∧
      ∃ L, Steps deps L (present h) (present (c.record deps engine h)) := by
  unfold Client.record
  cases c.progress with
  | insert =>
    have ha : Allowed h c.call.op := Allowed.of_none rfl
    exact ⟨hr.afterCall ha, (hr.sound.entry (RunStep.call c.call.op ha)).1⟩
  | _ => exact ⟨hr, fun _ => True, Steps.refl _⟩

theorem System.Step.sound {σ σ' : System} (hstep : System.Step deps engine σ σ')
    (hσ : σ.Sound deps engine) :
    σ'.Sound deps engine ∧ ∃ L, Steps deps L σ.store σ'.store := by
  have hok := hσ.run.sound.ok
  cases hstep with
  | @start h cs call =>
    refine ⟨⟨hσ.run, ?_⟩, fun _ => True, Steps.refl _⟩
    intro c hc
    rcases List.mem_append.1 hc with hc | hc
    · exact hσ.clients c hc
    · rw [List.mem_singleton.1 hc]
      rfl
  | @advance h before after c hfresh =>
    have hcons := hσ.clients c (List.mem_append_right _ (List.mem_cons_self ..))
    obtain ⟨hrun, L, hst⟩ := Client.record_run (c := c) hσ.run
    refine ⟨⟨hrun, ?_⟩, L, hst⟩
    have hother : ∀ o ∈ before ++ c :: after,
        o.Consistent deps (present (c.record deps engine h)) :=
      fun o ho => (hσ.clients o ho).later hok hst
    intro o ho
    rcases List.mem_append.1 ho with ho | ho
    · exact hother o (List.mem_append_left _ ho)
    · rcases List.mem_cons.1 ho with rfl | ho
      · show Client.Consistent deps (present (c.record deps engine h)) _
        rw [Client.record_store hok hcons]
        exact hcons.advance hok hfresh
      · exact hother o (List.mem_append_right _ (List.mem_cons_of_mem _ ho))
  | @other h cs e s' hrun =>
    obtain ⟨L, hst⟩ := (hσ.run.sound.entry hrun).1
    exact ⟨⟨hσ.run.cons hrun, fun c hc => (hσ.clients c hc).later hok hst⟩, L, hst⟩

/-- The systems that can come after `σ`. -/
abbrev System.Steps (deps : Deps) (engine : Engine) : System → System → Prop :=
  Relation.ReflTransGen (System.Step deps engine)

theorem System.Steps.sound {σ σ' : System} (h : System.Steps deps engine σ σ')
    (hσ : σ.Sound deps engine) : σ'.Sound deps engine := by
  induction h with
  | refl => exact hσ
  | tail _ hstep ih => exact (hstep.sound ih).1

/-- The row of a key at any earlier time, and now. -/
theorem System.Steps.keyRow {σ σ' : System} (h : System.Steps deps engine σ σ')
    (hσ : σ.Sound deps engine) (hr : KeyRow σ.store k r) :
    ∃ r', KeyRow σ'.store k r' ∧ Later r r' := by
  induction h with
  | refl => exact ⟨r, hr, Later.refl r⟩
  | tail h hstep ih =>
    obtain ⟨r₁, hr₁, hl⟩ := ih
    have hσ₁ := System.Steps.sound h hσ
    obtain ⟨-, L, hst⟩ := hstep.sound hσ₁
    obtain ⟨r₂, hr₂, hl'⟩ := hr₁.later hσ₁.run.sound.ok hst
    exact ⟨r₂, hr₂, hl.trans hl'⟩

theorem System.Sound.empty : System.empty.Sound deps engine :=
  ⟨.nil, fun c hc => by cases hc⟩

/-! ## Concrete systems -/

/-- The system after the next transaction of its call number `i`. -/
def System.advanceNth (deps : Deps) (engine : Engine) (i : Nat) (σ : System) : System :=
  match σ.clients[i]? with
  | none => σ
  | some c => ⟨c.record deps engine σ.history, σ.clients.set i (c.advance deps engine σ.store)⟩

theorem System.Step.nth {σ : System} {i : Nat} {c : Client} (hi : σ.clients[i]? = some c)
    (hfresh : c.Fresh σ.store) : System.Step deps engine σ (σ.advanceNth deps engine i) := by
  obtain ⟨h, cs⟩ := σ
  obtain ⟨hlt, hget⟩ := List.getElem?_eq_some_iff.1 hi
  have hcs : cs = cs.take i ++ c :: cs.drop (i + 1) := by
    rw [← hget, List.cons_getElem_drop_succ, List.take_append_drop]
  have hset : cs.set i (c.advance deps engine (present h)) =
      cs.take i ++ c.advance deps engine (present h) :: cs.drop (i + 1) :=
    List.set_eq_take_append_cons_drop.trans (if_pos hlt)
  have hadv : System.advanceNth deps engine i ⟨h, cs⟩ =
      ⟨c.record deps engine h, cs.set i (c.advance deps engine (present h))⟩ := by
    simp only [System.advanceNth, hi]
    rfl
  rw [hadv, hset]
  have hstep := @System.Step.advance deps engine h (cs.take i) (cs.drop (i + 1)) c hfresh
  rw [← hcs] at hstep
  exact hstep

end

/-! ## The result -/

/-- Submission with idempotency keys, in a state `σ` and a later state `σ'`. -/
structure Idempotent (deps : Deps) (engine : Engine) (σ σ' : System) : Prop where
  /-- At most one row has the key. -/
  unique : ∀ k r r', KeyRow σ.store k r → KeyRow σ.store k r' → r = r'
  /-- It keeps its identity, and no other row gets the key. -/
  same : ∀ k r, KeyRow σ.store k r →
    ∃ r', KeyRow σ'.store k r' ∧ Later r r' ∧ ∀ o, KeyRow σ'.store k o → o = r'
  /-- A finished call has one of the two results. -/
  answer : ∀ c ∈ σ.clients, ∀ result, c.progress = .done result → Answer deps σ.store c result
  /-- A call ends after at most three transactions. -/
  ends : ∀ c ∈ σ.clients, ∀ s, (∃ result, c.progress = .done result) ∨
    (c.advance deps engine s).progress.remaining < c.progress.remaining

theorem submission_idempotent (deps : Deps) (engine : Engine) (σ σ' : System)
    (h : System.Steps deps engine System.empty σ) (h' : System.Steps deps engine σ σ') :
    Idempotent deps engine σ σ' := by
  have hσ := System.Steps.sound h System.Sound.empty
  have hσ' := System.Steps.sound h' hσ
  refine ⟨?_, ?_, ?_, ?_⟩
  · intro k r r' hr hr'
    exact hr.unique hσ.run.sound.ok hr'
  · intro k r hr
    obtain ⟨r', hr', hl⟩ := System.Steps.keyRow h' hσ hr
    exact ⟨r', hr', hl, fun o ho => ho.unique hσ'.run.sound.ok hr'⟩
  · intro c hc result hdone
    have hcons := hσ.clients c hc
    simpa [Client.Consistent, hdone] using hcons
  · intro c _ s
    exact Submission.advance_remaining c.progress s

/-! Two clients send one request with the same key, and both find no job of it. -/

/-- The request's canonical text and its digest; other texts stand for the empty payload. -/
def raceDeps : Deps where
  dumps := fun v =>
    match v with
    | .obj [("request", _), ("max_retries", _), ("timeout_seconds", _)] =>
      "\x7b\"max_retries\":1,\"request\":\x7b\"max_retries\":null,\"payload\":\x7b\x7d," ++
        "\"priority\":0,\"run_at\":null,\"timeout_seconds\":null\x7d,\"timeout_seconds\":300.0\x7d"
    | _ => "\x7b\x7d"
  loads := fun _ => .obj []
  sha256 := fun _ => "3cf42fbdcfdaaf688972b8ee00f6af450a12a413bfbb847a57e427142ebd3ec1"
  jsonDatetime := sampleDeps.jsonDatetime
  croniter := sampleDeps.croniter

def raceCall (id : String) : Submission where
  now := sampleTime 0
  jobId := id
  request := sampleRequest
  maxRetries := 1
  timeoutSeconds := 300
  key := "k"
  key_ne := by decide

def raceStart : System :=
  ⟨[], [⟨raceCall "a", .lookup, false⟩, ⟨raceCall "b", .lookup, false⟩]⟩

/-- Both look up, both insert, and the second one looks up again. -/
def raceEnd : System :=
  [0, 1, 0, 1, 1].foldl (fun σ i => σ.advanceNth raceDeps .postgres i) raceStart

theorem race_steps : System.Steps raceDeps .postgres System.empty raceEnd := by
  have hread : ∀ {s : Store} {c : Client}, c.progress ≠ .insert → c.Fresh s :=
    fun h h' => absurd h' h
  refine .head (.start (raceCall "a")) (.head (.start (raceCall "b")) ?_)
  refine .head (.nth (i := 0) rfl (hread (by simp))) ?_
  refine .head (.nth (i := 1) rfl (hread (by simp))) ?_
  refine .head (.nth (i := 0) rfl (fun _ r hr => ?_)) ?_
  · cases hr
  refine .head (.nth (i := 1) rfl (fun _ r hr => ?_)) ?_
  · rw [List.mem_singleton.1 hr]
    decide
  refine .head (.nth (i := 1) rfl (hread ?_)) .refl
  intro h
  cases h

theorem submission_idempotent_race : Idempotent raceDeps .postgres raceEnd raceEnd :=
  submission_idempotent raceDeps .postgres raceEnd raceEnd race_steps .refl

/-- Only the first row exists, and the second call returned its job. -/
example : raceEnd.store.jobs.map (·.id) = ["a"] ∧
    ∃ j, raceEnd.clients[1]?.map (·.progress) = some (.done (.ok (some j))) ∧ j.id = "a" :=
  ⟨rfl, _, rfl, rfl⟩

end PulseQueue
