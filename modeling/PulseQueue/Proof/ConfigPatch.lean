import PulseQueue.Proof.ConfigFreshness

/-!
# Patches of the configuration

The two implementations of a patch agree, and the result is ordered and a fixed point of the patch
(`patch_agrees`). The row that a patch writes reads back (`patch_readable`): a NaN would be written as null,
which no reader accepts again, but a validated number is none, and the caps only take numbers that are
there.
-/

namespace PulseQueue

open Txn

/-! ## Two implementations -/

/-- `after` is `before`, or the smaller `cap`. -/
def LoweredTo (cap before after : PyFloat) : Prop :=
  after = before ∨ after = cap ∧ cap.lt before = true

/-- What the patch `p` makes of `c`: the set fields are replaced and the others kept, but the two capped
fields may be lowered to their caps. -/
structure Patched (p : RuntimeConfigPatch) (c u : ConfigValues) : Prop where
  defaultMaxRetries : u.defaultMaxRetries = p.defaultMaxRetries.getD c.defaultMaxRetries
  maxTimeoutSeconds : u.maxTimeoutSeconds = p.maxTimeoutSeconds.getD c.maxTimeoutSeconds
  workerConcurrency : u.workerConcurrency = p.workerConcurrency.getD c.workerConcurrency
  backoffMaxSeconds : u.backoffMaxSeconds = p.backoffMaxSeconds.getD c.backoffMaxSeconds
  defaultTimeoutSeconds : LoweredTo u.maxTimeoutSeconds
    (p.defaultTimeoutSeconds.getD c.defaultTimeoutSeconds) u.defaultTimeoutSeconds
  backoffBaseSeconds : LoweredTo u.backoffMaxSeconds
    (p.backoffBaseSeconds.getD c.backoffBaseSeconds) u.backoffBaseSeconds

theorem PyFloat.min_lowered (a b : PyFloat) : LoweredTo b a (a.min b) := by
  rcases PyFloat.min_cases a b with ⟨hlt, he⟩ | he
  · exact .inr ⟨he, hlt⟩
  · exact .inl he

theorem RuntimeConfigPatch.patched (p : RuntimeConfigPatch) (c : ConfigValues) :
    Patched p c (p.update c).capped := by
  rw [ConfigValues.capped_eq]
  exact ⟨rfl, rfl, rfl, rfl, PyFloat.min_lowered _ _, PyFloat.min_lowered _ _⟩

/-- The result of a clamp is not clamped again. -/
theorem PyFloat.min_min (a b : PyFloat) : (a.min b).min b = a.min b := by
  have h := PyFloat.not_lt_min a b
  rw [PyFloat.min, h]
  rfl

theorem PyFloat.getD_min (x : Option PyFloat) (a b : PyFloat) :
    (x.getD ((x.getD a).min b)).min b = (x.getD a).min b := by
  cases x with
  | none => exact PyFloat.min_min a b
  | some x => rfl

theorem getD_getD {α : Type} (x : Option α) (a : α) : x.getD (x.getD a) = x.getD a := by
  cases x <;> rfl

theorem RuntimeConfigPatch.update_idem (p : RuntimeConfigPatch) (c : ConfigValues) :
    (p.update (p.update c).capped).capped = (p.update c).capped := by
  simp only [ConfigValues.capped_eq, RuntimeConfigPatch.update, getD_getD, PyFloat.getD_min]

/-- A store that holds `c` and the row that says `c` are patched alike. -/
theorem patch_agrees (store : RuntimeConfigStore) (c : RuntimeConfig) (p : RuntimeConfigPatch)
    (hstore : store.view = c) :
    ∃ u, mergeRuntimeConfig c p = .ok u ∧ (store.patch p).view = u ∧ u.toConfigValues.Ordered ∧
      Patched p c.toConfigValues u.toConfigValues ∧ mergeRuntimeConfig u p = .ok u ∧
      (store.patch p).patch p = store.patch p := by
  subst hstore
  have hidem : (store.patch p).patch p = store.patch p := by
    have h := p.update_idem store.toConfigValues
    simp only [RuntimeConfigStore.patch, RuntimeConfigStore.mk.injEq]
    exact h
  refine ⟨_, mergeRuntimeConfig_eq store p, rfl, store.patch_ordered p, p.patched store.toConfigValues, ?_,
    hidem⟩
  rw [mergeRuntimeConfig_eq, hidem]

/-- The maximal timeout falls below the default one, which is lowered. -/
def shortPatch : RuntimeConfigPatch :=
  { retriesPatch with
    maxTimeoutSeconds := some (.rat 3)
    maxTimeout_range := by simpa using by decide +kernel }

theorem patch_agrees_sample : ∃ u, mergeRuntimeConfig defaultConfig shortPatch = .ok u ∧
    u.defaultTimeoutSeconds = .rat 3 ∧ mergeRuntimeConfig u shortPatch = .ok u := by
  obtain ⟨u, hm, -, hord, hp, hidem, -⟩ :=
    patch_agrees ⟨defaultConfig.toConfigValues, defaultConfig.isValid⟩ defaultConfig shortPatch rfl
  have hmax : u.maxTimeoutSeconds = .rat 3 := hp.maxTimeoutSeconds
  rcases hp.defaultTimeoutSeconds with h | ⟨h, -⟩
  · -- five seconds are not below the new maximum
    have hle := hord.1
    rw [h, hmax] at hle
    exact absurd hle (by decide +kernel)
  · exact ⟨u, hm, h.trans hmax, hidem⟩

/-! ## Reading the row back -/

/-- The row can be read, and says `c`. -/
def Store.Reads (s : Store) (c : RuntimeConfig) : Prop :=
  ∃ row, s.runtimeConfig = some row ∧ RuntimeConfig.modelValidateJson row.configJson = .ok c

section
variable {engine : Engine} {s s' : Store} {c u : RuntimeConfig} {p : RuntimeConfigPatch} {now : UtcTime}

/-- The row has the JSON of `c`. -/
theorem Store.reads_iff :
    s.Reads c ↔ ∃ row, s.runtimeConfig = some row ∧ row.configJson = c.modelDumpJson := by
  constructor
  · rintro ⟨row, hrow, hv⟩
    exact ⟨row, hrow, validate_eq hv⟩
  · rintro ⟨row, hrow, hj⟩
    refine ⟨row, hrow, ?_⟩
    rw [hj]
    exact c.validate_dump

theorem Store.Reads.unique (h : s.Reads c) (h' : s.Reads u) : u = c := by
  obtain ⟨row, hrow, hv⟩ := h
  obtain ⟨row', hrow', hv'⟩ := h'
  cases hrow.symm.trans hrow'
  cases hv.symm.trans hv'
  rfl

/-- The store after a patch is written. -/
def Store.withConfig (now : UtcTime) (u : RuntimeConfig) (s : Store) : Store :=
  { s with runtimeConfig := some ⟨u.modelDumpJson, toDbTime now⟩ }

theorem Store.withConfig_reads : (s.withConfig now u).Reads u := Store.reads_iff.2 ⟨_, rfl, rfl⟩

/-- A patch of a readable row is written and returned. -/
theorem patch_of_reads (h : s.Reads c) (hm : mergeRuntimeConfig c p = .ok u) :
    engine.patchRuntimeConfig now p s = (.ok u, s.withConfig now u) := by
  obtain ⟨row, hrow, hv⟩ := h
  cases engine with
  | sqlite =>
    refine atomically_ok ?_
    simp only [Sqlite.patchRuntimeConfigTxn, Tx.bind_run, Tx.get_run, hrow, hv, hm, Tx.ofExcept_ok,
      Tx.set_run, Tx.pure_run]
    rfl
  | postgres =>
    refine atomically_ok ?_
    simp only [Postgres.patchRuntimeConfigTxn, Tx.bind_run, Tx.get_run, hrow, hv, hm, Except.bind,
      Tx.ofExcept_ok, Tx.set_run, Tx.pure_run]
    rfl

/-- A patch of a row that cannot be read raises and changes nothing. -/
theorem patch_of_not_reads (h : ∀ c, ¬ s.Reads c) :
    ∃ e, engine.patchRuntimeConfig now p s = (.error e, s) := by
  cases hrow : s.runtimeConfig with
  | none =>
    refine ⟨.runtime notInitializedMessage, ?_⟩
    cases engine <;> refine atomically_error ?_
    · simp [Sqlite.patchRuntimeConfigTxn, Tx.bind_run, hrow]
    · simp [Postgres.patchRuntimeConfigTxn, Tx.bind_run, hrow]
  | some row =>
    cases hv : RuntimeConfig.modelValidateJson row.configJson with
    | ok c => exact absurd ⟨row, hrow, hv⟩ (h c)
    | error e =>
      refine ⟨e, ?_⟩
      cases engine <;> refine atomically_error ?_
      · simp [Sqlite.patchRuntimeConfigTxn, Tx.bind_run, hrow, hv]
      · simp [Postgres.patchRuntimeConfigTxn, Tx.bind_run, hrow, hv, Except.bind]

theorem patch_ok (h : (engine.patchRuntimeConfig now p s).1 = .ok u) :
    (engine.patchRuntimeConfig now p s).2 = s.withConfig now u := by
  by_cases hr : ∃ c, s.Reads c
  · obtain ⟨c, hc⟩ := hr
    have hpatch : engine.patchRuntimeConfig now p s = (.ok _, _) :=
      patch_of_reads hc (mergeRuntimeConfig_eq ⟨c.toConfigValues, c.isValid⟩ p)
    rw [hpatch] at h ⊢
    cases h
    rfl
  · obtain ⟨e, he⟩ : ∃ e, engine.patchRuntimeConfig now p s = (.error e, s) :=
      patch_of_not_reads fun c hc => hr ⟨c, hc⟩
    rw [he] at h
    cases h

theorem patch_error {e : Err} (h : (engine.patchRuntimeConfig now p s).1 = .error e) :
    (engine.patchRuntimeConfig now p s).2 = s := by
  by_cases hr : ∃ c, s.Reads c
  · obtain ⟨c, hc⟩ := hr
    have hpatch : engine.patchRuntimeConfig now p s = (.ok _, _) :=
      patch_of_reads hc (mergeRuntimeConfig_eq ⟨c.toConfigValues, c.isValid⟩ p)
    rw [hpatch] at h
    cases h
  · obtain ⟨e, he⟩ : ∃ e, engine.patchRuntimeConfig now p s = (.error e, s) :=
      patch_of_not_reads fun c hc => hr ⟨c, hc⟩
    rw [he]

theorem exists_merge (c : RuntimeConfig) (p : RuntimeConfigPatch) :
    ∃ u, mergeRuntimeConfig c p = .ok u :=
  ⟨_, mergeRuntimeConfig_eq ⟨c.toConfigValues, c.isValid⟩ p⟩

end

/-! ## Readers -/

/-- Every reader gets `u` from the row: a read, a further patch and the start of a process. -/
structure ReadBy (engine : Engine) (s : Store) (u : RuntimeConfig) : Prop where
  get : engine.getRuntimeConfig s = (.ok u, s)
  patch : ∀ now p, ∃ u', mergeRuntimeConfig u p = .ok u' ∧
    engine.patchRuntimeConfig now p s = (.ok u', s.withConfig now u')
  start : ∀ now default, engine.initializeRuntimeConfig now default s = (.ok u, s)

/-- The patch raises and leaves the row, or returns a configuration that every reader gets afterwards. -/
def KeepsReadable (engine : Engine) (now : UtcTime) (p : RuntimeConfigPatch) (s : Store) : Prop :=
  (∃ e s', engine.patchRuntimeConfig now p s = (.error e, s') ∧ s'.runtimeConfig = s.runtimeConfig) ∨
    ∃ u s', engine.patchRuntimeConfig now p s = (.ok u, s') ∧ ReadBy engine s' u

/-- The store after a sequence of patches. -/
def Engine.patchAll (engine : Engine) : List (UtcTime × RuntimeConfigPatch) → Store → Store
  | [], s => s
  | call :: calls, s => engine.patchAll calls (engine.patchRuntimeConfig call.1 call.2 s).2

section
variable {engine : Engine} {s : Store} {c u : RuntimeConfig}

theorem get_iff_reads : engine.getRuntimeConfig s = (.ok u, s) ↔ s.Reads u := by
  constructor
  · intro h
    cases hrow : s.runtimeConfig with
    | none => cases engine <;> simp [Engine.getRuntimeConfig, Sqlite.getRuntimeConfig,
        Postgres.getRuntimeConfig, hrow] at h
    | some row =>
      refine ⟨row, hrow, ?_⟩
      cases engine <;> simpa [Engine.getRuntimeConfig, Sqlite.getRuntimeConfig,
        Postgres.getRuntimeConfig, hrow] using h
  · rintro ⟨row, hrow, hv⟩
    cases engine <;> simp [Engine.getRuntimeConfig, Sqlite.getRuntimeConfig,
      Postgres.getRuntimeConfig, hrow, hv]

theorem reads_of_get (h : (engine.getRuntimeConfig s).1 = .ok u) : s.Reads u := by
  have hs : (engine.getRuntimeConfig s).2 = s := by
    cases hrow : s.runtimeConfig <;> cases engine <;>
      simp [Engine.getRuntimeConfig, Sqlite.getRuntimeConfig, Postgres.getRuntimeConfig, hrow]
  exact get_iff_reads.1 (Prod.ext h hs)

/-- A start inserts its row where there is none, and reads. -/
theorem initialize_run (now : UtcTime) (default : RuntimeConfig) (s : Store) :
    engine.initializeRuntimeConfig now default s = engine.getRuntimeConfig
      { s with runtimeConfig := s.runtimeConfig.or (some ⟨default.modelDumpJson, toDbTime now⟩) } := by
  obtain ⟨jobs, attempts, dead, schedules, row, instances⟩ := s
  cases engine <;> cases row <;> rfl

theorem start_of_reads (h : s.Reads u) (now : UtcTime) (default : RuntimeConfig) :
    engine.initializeRuntimeConfig now default s = (.ok u, s) := by
  have hget : engine.getRuntimeConfig s = (.ok u, s) := get_iff_reads.2 h
  obtain ⟨row, hrow, -⟩ := h
  rw [initialize_run, hrow, Option.some_or, ← hrow]
  exact hget

theorem readBy_iff : ReadBy engine s u ↔ s.Reads u := by
  constructor
  · intro h
    exact get_iff_reads.1 h.get
  · intro h
    refine ⟨get_iff_reads.2 h, fun now p => ?_, start_of_reads h⟩
    obtain ⟨u', hm⟩ := exists_merge u p
    exact ⟨u', hm, patch_of_reads h hm⟩

/-- A patch of a readable row returns what every reader gets afterwards. -/
theorem Store.Reads.patch (h : s.Reads c) (now : UtcTime) (p : RuntimeConfigPatch) :
    ∃ u, engine.patchRuntimeConfig now p s = (.ok u, s.withConfig now u) := by
  obtain ⟨u, hm⟩ := exists_merge c p
  exact ⟨u, patch_of_reads h hm⟩

theorem Store.Reads.patchAll : ∀ (calls : List (UtcTime × RuntimeConfigPatch)) {s : Store}
    {c : RuntimeConfig}, s.Reads c → ∃ u, (engine.patchAll calls s).Reads u
  | [], s, c, h => ⟨c, h⟩
  | call :: calls, s, c, h => by
    obtain ⟨u, hpatch⟩ : ∃ u, engine.patchRuntimeConfig call.1 call.2 s = (.ok u, s.withConfig call.1 u) :=
      h.patch call.1 call.2
    rw [Engine.patchAll, hpatch]
    exact Store.Reads.patchAll calls Store.withConfig_reads

end

/-- From a readable row, a patch raises and leaves the row, or returns what every reader gets afterwards, and
after any number of patches every reader still gets a configuration. -/
theorem patch_readable (engine : Engine) (s : Store) (c : RuntimeConfig) (h : s.Reads c) :
    (∀ now p, KeepsReadable engine now p s) ∧ ∀ calls, ∃ u, ReadBy engine (engine.patchAll calls s) u := by
  constructor
  · intro now p
    obtain ⟨u, hpatch⟩ := h.patch now p
    exact .inr ⟨u, _, hpatch, readBy_iff.2 Store.withConfig_reads⟩
  · intro calls
    obtain ⟨u, hu⟩ := Store.Reads.patchAll calls h
    exact ⟨u, readBy_iff.2 hu⟩

/-- A database with the default configuration. -/
def configuredStore : Store :=
  { Store.empty with runtimeConfig := some ⟨defaultConfig.modelDumpJson, toDbTime (sampleTime 0)⟩ }

theorem configuredStore_reads : configuredStore.Reads defaultConfig :=
  Store.reads_iff.2 ⟨_, rfl, rfl⟩

/-- Two patches, the second of which lowers the default timeout with the maximum. -/
theorem patch_readable_sample : KeepsReadable .sqlite (sampleTime 1) retriesPatch configuredStore ∧
    ∃ u, ReadBy .sqlite (Engine.sqlite.patchAll
      [(sampleTime 1, retriesPatch), (sampleTime 2, shortPatch)] configuredStore) u := by
  have h := patch_readable .sqlite configuredStore defaultConfig configuredStore_reads
  exact ⟨h.1 _ _, h.2 _⟩

end PulseQueue
