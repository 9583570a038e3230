import PulseQueue.Model.ConfigSql
import PulseQueue.Model.ConfigStore
import PulseQueue.Proof.Runs

/-!
# No configuration update is lost

Any number of connections initialize and patch the runtime configuration of one database, statement by
statement, each with its own settings and each possibly rolled back. The row is the first committed
default with every committed patch merged in the order of the commits (`config_serial`): the lock comes
before the read, so `Locking.Good.commit` makes every commit a run of its whole body.
-/

namespace PulseQueue

open Interaction Locking Trace Txn

/-- The statements of a call; a patch returns the configuration. -/
def ConfigCall.body : Engine → ConfigCall → ConfigBody (Option RuntimeConfig)
  | .sqlite, .initializeRuntimeConfig now default => do
    Sqlite.initializeRuntimeConfigSql now default
    pure none
  | .sqlite, .patchRuntimeConfig now p => do
    let updated ← Sqlite.patchRuntimeConfigSql now p
    pure (some updated)
  | .postgres, .initializeRuntimeConfig now default => do
    Postgres.initializeRuntimeConfigSql now default
    pure none
  | .postgres, .patchRuntimeConfig now p => do
    let updated ← Postgres.patchRuntimeConfigSql now p
    pure (some updated)

/-- The merge of a patch into a row. -/
def mergeRow (now : UtcTime) (p : RuntimeConfigPatch) (row : ConfigRow) :
    Except Err (RuntimeConfig × Option ConfigRow) :=
  match RuntimeConfig.modelValidateJson row.configJson with
  | .error e => .error e
  | .ok current =>
    match mergeRuntimeConfig current p with
    | .error e => .error e
    | .ok updated => .ok (updated, some ⟨updated.modelDumpJson, toDbTime now⟩)

/-- What a call does to the row. -/
def ConfigCall.effect : ConfigCall → Tx (Option ConfigRow) Err (Option RuntimeConfig)
  | .initializeRuntimeConfig now default, row =>
    .ok (none, row.or (some ⟨default.modelDumpJson, toDbTime now⟩))
  | .patchRuntimeConfig _ _, none => .error (.runtime notInitializedMessage)
  | .patchRuntimeConfig now p, some row => (mergeRow now p row).map fun x => (some x.1, x.2)

theorem effect_patch_some (now : UtcTime) (p : RuntimeConfigPatch) (row : ConfigRow) :
    (ConfigCall.patchRuntimeConfig now p).effect (some row) =
      (mergeRow now p row).map fun x => (some x.1, x.2) := rfl

theorem mergeRow_ok {now : UtcTime} {p : RuntimeConfigPatch} {row : ConfigRow} {updated : RuntimeConfig}
    {row' : Option ConfigRow} (h : mergeRow now p row = .ok (updated, row')) :
    ∃ current, RuntimeConfig.modelValidateJson row.configJson = .ok current ∧
      mergeRuntimeConfig current p = .ok updated ∧
      row' = some ⟨updated.modelDumpJson, toDbTime now⟩ := by
  unfold mergeRow at h
  cases hcur : RuntimeConfig.modelValidateJson row.configJson with
  | error e => simp [hcur] at h
  | ok current =>
    cases hmerge : mergeRuntimeConfig current p with
    | error e => simp [hcur, hmerge] at h
    | ok updated' =>
      simp only [hcur, hmerge, Except.ok.injEq, Prod.mk.injEq] at h
      obtain ⟨rfl, rfl⟩ := h
      exact ⟨current, rfl, hmerge, rfl⟩

/-- A patch that succeeds merges into the configuration of the row. -/
theorem effect_patch_ok {now : UtcTime} {p : RuntimeConfigPatch} {row row' : Option ConfigRow}
    {a : Option RuntimeConfig}
    (h : (ConfigCall.patchRuntimeConfig now p).effect row = .ok (a, row')) :
    ∃ r current updated, row = some r ∧ a = some updated ∧
      RuntimeConfig.modelValidateJson r.configJson = .ok current ∧
      mergeRuntimeConfig current p = .ok updated ∧
      row' = some ⟨updated.modelDumpJson, toDbTime now⟩ := by
  cases row with
  | none => cases h
  | some r =>
    rw [effect_patch_some] at h
    cases hm : mergeRow now p r with
    | error e => simp [hm, Except.map] at h
    | ok x =>
      obtain ⟨updated, row''⟩ := x
      simp only [hm, Except.map, Except.ok.injEq, Prod.mk.injEq] at h
      obtain ⟨rfl, rfl⟩ := h
      obtain ⟨current, hcur, hmerge, hrow⟩ := mergeRow_ok hm
      exact ⟨r, current, updated, rfl, rfl, hcur, hmerge, hrow⟩

/-- The operation of a run. -/
def ConfigCall.op : ConfigCall → Op
  | .initializeRuntimeConfig now default => .initializeRuntimeConfig now default
  | .patchRuntimeConfig now p => .patchRuntimeConfig now p

/-! ## One call -/

section
variable {deps : Deps} {engine : Engine}

theorem run_ofExcept {α : Type} (x : Except Err α) (row : Option ConfigRow) :
    run ConfigSql.statements (Prog.ofExcept x) row = x.map (·, row) := by
  cases x <;> rfl

/-- The statements after the read of an existing row. -/
theorem run_merge (now : UtcTime) (p : RuntimeConfigPatch) (row : ConfigRow) :
    run ConfigSql.statements (do
      let current ← Prog.ofExcept (RuntimeConfig.modelValidateJson row.configJson)
      let updated ← Prog.ofExcept (mergeRuntimeConfig current p)
      let _ ← sql (.update ⟨updated.modelDumpJson, toDbTime now⟩)
      pure updated) (some row) = mergeRow now p row := by
  rw [run_bind, run_ofExcept]
  unfold mergeRow
  cases RuntimeConfig.modelValidateJson row.configJson with
  | error e => rfl
  | ok current =>
    refine (run_bind _ _ _ _).trans ?_
    rw [run_ofExcept]
    dsimp only
    cases mergeRuntimeConfig current p with
    | error e => rfl
    | ok updated => rfl

/-- The statements of a call, run alone. -/
theorem run_body (call : ConfigCall) (row : Option ConfigRow) :
    run ConfigSql.statements (call.body engine) row = call.effect row := by
  cases call with
  | initializeRuntimeConfig now default => cases engine <;> rfl
  | patchRuntimeConfig now p =>
    cases row with
    | none => cases engine <;> rfl
    | some row =>
      have hmerge : ∀ x : ConfigBody RuntimeConfig,
          run ConfigSql.statements x (some row) = mergeRow now p row →
          run ConfigSql.statements (x >>= fun updated => pure (some updated)) (some row) =
            (ConfigCall.patchRuntimeConfig now p).effect (some row) := by
        intro x hx
        rw [run_bind, hx, effect_patch_some]
        cases mergeRow now p row <;> rfl
      cases engine with
      | sqlite => exact hmerge (Sqlite.patchRuntimeConfigSql now p) (run_merge now p row)
      | postgres => exact hmerge (Postgres.patchRuntimeConfigSql now p) (run_merge now p row)

theorem patchRuntimeConfigTxn_mergeRow (now : UtcTime) (p : RuntimeConfigPatch) (s : Store)
    {row : ConfigRow} (hrow : s.runtimeConfig = some row) :
    Sqlite.patchRuntimeConfigTxn now p s =
      (mergeRow now p row).map fun x => (x.1, { s with runtimeConfig := x.2 }) := by
  unfold Sqlite.patchRuntimeConfigTxn mergeRow
  rw [Tx.bind_ok (Tx.get_run s), hrow]
  dsimp only
  cases RuntimeConfig.modelValidateJson row.configJson with
  | error e => rfl
  | ok current =>
    refine (Tx.bind_ok (Tx.ofExcept_ok current s)).trans ?_
    dsimp only
    cases mergeRuntimeConfig current p with
    | error e => rfl
    | ok updated => rfl

/-- The transactions of runs do the same to the row, and nothing else. -/
theorem config_txn (call : ConfigCall) (s : Store) :
    call.op.body deps engine s = (call.effect s.runtimeConfig).map fun x =>
      ((match x.1 with | some c => .config c | none => .done), { s with runtimeConfig := x.2 }) := by
  cases call with
  | initializeRuntimeConfig now default =>
    obtain ⟨jobs, attempts, dead, schedules, row, instances⟩ := s
    cases engine <;> cases row <;> rfl
  | patchRuntimeConfig now p =>
    have hsqlite : (Op.patchRuntimeConfig now p).body deps engine s =
        reply .config (Sqlite.patchRuntimeConfigTxn now p) s := by
      cases engine with
      | sqlite => rfl
      | postgres =>
        refine congrArg (fun x => reply Reply.config x s) ?_
        exact congrFun (congrFun Postgres.patchRuntimeConfigTxn_eq now) p
    refine hsqlite.trans ?_
    cases hrow : s.runtimeConfig with
    | none =>
      unfold reply Sqlite.patchRuntimeConfigTxn
      rw [Tx.bind_run, Tx.bind_ok (Tx.get_run s), hrow]
      rfl
    | some row =>
      unfold reply
      rw [Tx.bind_run, patchRuntimeConfigTxn_mergeRow now p s hrow, effect_patch_some]
      cases mergeRow now p row <;> rfl

/-- Both bodies take the lock first. -/
theorem body_lockFirst (call : ConfigCall) : LockFirst ConfigSql.statements (call.body engine) := by
  cases engine with
  | sqlite =>
    cases call with
    | initializeRuntimeConfig now default => exact fun row h => nomatch h
    | patchRuntimeConfig now p => exact fun row h => nomatch h
  | postgres =>
    cases call with
    | initializeRuntimeConfig now default => exact fun row _ => trivial
    | patchRuntimeConfig now p =>
      intro row h
      cases row with
      | none => exact trivial
      | some row => cases h

end

/-! ## Every interleaving -/

section
variable {ι : Type} [DecidableEq ι] {engine : Engine}

/-- The database of the configuration and what happens to it. -/
abbrev ConfigDb (ι : Type) :=
  Db ι ConfigCall ConfigSql ConfigSql.Answer Err (Option RuntimeConfig) (Option ConfigRow)

abbrev ConfigEvent (ι : Type) := Locking.Event ι ConfigCall (Option RuntimeConfig)

/-- The histories of a new database under the calls of any number of connections. -/
def ConfigRun (engine : Engine) (h : History (ConfigEvent ι) (ConfigDb ι)) : Prop :=
  Valid (Db.start none) (fun h e d => Step ConfigSql.statements (ConfigCall.body engine) e
    (now (Db.start none) h) d) h

/-- The row as committed after a history. -/
def committedRow (h : History (ConfigEvent ι) (ConfigDb ι)) : Option ConfigRow :=
  (now (Db.start none) h).committed

/-- The first committed default, with every committed patch merged in the order of the commits. -/
def replay : History (ConfigEvent ι) (ConfigDb ι) → Option RuntimeConfig
  | [] => none
  | ⟨.commit _ (.initializeRuntimeConfig _ default) _, _⟩ :: h => (replay h).or (some default)
  | ⟨.commit _ (.patchRuntimeConfig _ p) _, _⟩ :: h =>
    (replay h).bind fun c => (mergeRuntimeConfig c p).toOption
  | _ :: h => replay h

/-- The row of a configuration. -/
def Shows (row : Option ConfigRow) (c : Option RuntimeConfig) : Prop :=
  row.map (·.configJson) = c.map (·.modelDumpJson)

/-- A row once written is not deleted. -/
def Kept (row row' : Option ConfigRow) : Prop := row.isSome → row'.isSome

theorem effect_kept {call : ConfigCall} {row row' : Option ConfigRow} {a : Option RuntimeConfig}
    (h : call.effect row = .ok (a, row')) : Kept row row' := by
  intro hsome
  obtain ⟨r, rfl⟩ := Option.isSome_iff_exists.1 hsome
  cases call with
  | initializeRuntimeConfig now default =>
    cases h
    rfl
  | patchRuntimeConfig now p =>
    obtain ⟨r', current, updated, -, -, -, -, rfl⟩ := effect_patch_ok h
    rfl

/-- A committed patch merges into the configuration that the row shows, and returns the result. -/
theorem effect_patch {now : UtcTime} {p : RuntimeConfigPatch} {row row' : Option ConfigRow}
    {a c : Option RuntimeConfig} (hc : Shows row c)
    (h : (ConfigCall.patchRuntimeConfig now p).effect row = .ok (a, row')) :
    ∃ updated, a = some updated ∧ row' = some ⟨updated.modelDumpJson, toDbTime now⟩ ∧
      (c.bind fun c => (mergeRuntimeConfig c p).toOption) = some updated := by
  obtain ⟨r, current, updated, rfl, ha, hcur, hmerge, hrow⟩ := effect_patch_ok h
  refine ⟨updated, ha, hrow, ?_⟩
  cases c with
  | none => cases hc
  | some c =>
    have hjson : r.configJson = c.modelDumpJson := Option.some.inj hc
    rw [hjson, c.validate_dump] at hcur
    cases hcur
    simp [hmerge, Except.toOption]

/-- The lock discipline of the bodies keeps the invariant of the library. -/
theorem ConfigRun.good {h : History (ConfigEvent ι) (ConfigDb ι)} (hr : ConfigRun engine h) :
    Locking.Good ConfigSql.statements (ConfigCall.body engine) Kept (now (Db.start none) h) := by
  refine Valid.invariant (Locking.Good.start none) (fun h e d _ hg hstep => ?_) hr
  refine hg.step body_lockFirst (fun _ => id) (fun hab hbc ha => hbc (hab ha)) ?_ hstep
  intro call row a row' hrun
  rw [run_body] at hrun
  exact effect_kept hrun

/-- Only an insert that finds the row commits without the lock. -/
theorem glances_effect {call : ConfigCall} {row row' : Option ConfigRow} {a : Option RuntimeConfig}
    (h : Glances ConfigSql.statements row (call.body engine) (.pure a)) (hk : Kept row row') :
    call.effect row' = .ok (a, row') := by
  obtain ⟨c, k, hbody, hlocks, hrest⟩ := h
  cases engine with
  | sqlite =>
    cases call with
    | initializeRuntimeConfig now default =>
      cases hbody
      cases hlocks
    | patchRuntimeConfig now p =>
      cases hbody
      cases hlocks
  | postgres =>
    cases call with
    | initializeRuntimeConfig now default =>
      cases hbody
      cases hrest
      cases row with
      | none => cases hlocks
      | some r =>
        obtain ⟨r', rfl⟩ := Option.isSome_iff_exists.1 (hk rfl)
        rfl
    | patchRuntimeConfig now p =>
      cases hbody
      cases row with
      | none => cases hrest
      | some r => cases hlocks

/-- Every commit is its whole call on the row committed before it. -/
theorem ConfigRun.commit {h : History (ConfigEvent ι) (ConfigDb ι)} (hr : ConfigRun engine h) {i : ι}
    {call : ConfigCall} {a : Option RuntimeConfig} {d : ConfigDb ι}
    (hstep : Step ConfigSql.statements (ConfigCall.body engine) (.commit i call a)
      (now (Db.start none) h) d) :
    call.effect (committedRow h) = .ok (a, d.committed) := by
  rcases hr.good.commit hstep with hrun | ⟨hsame, row, hk, hglance⟩
  · rw [run_body] at hrun
    exact hrun
  · rw [hsame]
    exact glances_effect hglance hk

/-- The row shows the replay of the commits. -/
theorem ConfigRun.shows {h : History (ConfigEvent ι) (ConfigDb ι)} (hr : ConfigRun engine h) :
    Shows (committedRow h) (replay h) := by
  refine Valid.induct (P := fun h => Shows (committedRow h) (replay h)) rfl ?_ hr
  intro h e d hv hshow hstep
  cases e with
  | commit i call a =>
    have heff := ConfigRun.commit hv hstep
    cases call with
    | initializeRuntimeConfig now default =>
      simp only [ConfigCall.effect, Except.ok.injEq, Prod.mk.injEq] at heff
      show Shows d.committed ((replay h).or (some default))
      rw [← heff.2]
      generalize committedRow h = row at hshow
      generalize replay h = c at hshow
      cases row with
      | none =>
        cases c with
        | none => rfl
        | some c => cases hshow
      | some r =>
        cases c with
        | none => cases hshow
        | some c => exact hshow
    | patchRuntimeConfig now p =>
      obtain ⟨updated, -, hrow, hreplay⟩ := effect_patch hshow heff
      show Shows d.committed ((replay h).bind fun c => (mergeRuntimeConfig c p).toOption)
      rw [hreplay, hrow]
      rfl
  | begin i call =>
    show Shows d.committed (replay h)
    rw [hstep.committed (by simp)]
    exact hshow
  | statement i =>
    show Shows d.committed (replay h)
    rw [hstep.committed (by simp)]
    exact hshow
  | rollback i =>
    show Shows d.committed (replay h)
    rw [hstep.committed (by simp)]
    exact hshow

/-- The connection with the lock can finish its patch, whatever the others wait for. -/
theorem ConfigRun.commitPatch {i : ι} {time : UtcTime} {p : RuntimeConfigPatch}
    {a : Option RuntimeConfig} {row row' : Option ConfigRow} {rest : ConfigBody (Option RuntimeConfig)}
    {h : History (ConfigEvent ι) (ConfigDb ι)} (hr : ConfigRun engine h)
    (hopen : (now (Db.start none) h).open? i = some ⟨.patchRuntimeConfig time p, rest⟩)
    (hholds : (now (Db.start none) h).Holds i row)
    (hrun : run ConfigSql.statements rest row = .ok (a, row')) :
    ∃ h', ConfigRun engine h' ∧
      now (Db.start none) h' = ⟨row', none, (now (Db.start none) h).set i none⟩ ∧
      replay h' = (replay h).bind fun c => (mergeRuntimeConfig c p).toOption := by
  induction rest generalizing h row with
  | pure a =>
    cases hrun
    exact ⟨_, Valid.cons hr (.commit hopen hholds), rfl, rfl⟩
  | raise e => cases hrun
  | call c k ih =>
    have hwrite : ConfigRun engine _ := Valid.cons hr (.write hopen hholds)
    obtain ⟨h', hr', hnow, hreplay⟩ := ih _ hwrite (by simp [Db.set]) rfl hrun
    refine ⟨h', hr', ?_, hreplay⟩
    rw [hnow]
    simp [Db.set]

/-- In every interleaving of the statements of any calls: the row is the first committed default with
every committed patch merged in the order of the commits; a patch returns the configuration in the row
that it committed; an initialization that finds a row leaves it; and nothing but commits changes it. -/
theorem config_serial {h : History (ConfigEvent ι) (ConfigDb ι)} (hr : ConfigRun engine h) :
    (committedRow h).map (·.configJson) = (replay h).map (·.modelDumpJson) ∧
      ∀ post e pre, h = post ++ e :: pre →
        (∀ i now p a, e.event = .commit i (.patchRuntimeConfig now p) a → ∃ c, a = some c ∧
          e.after.committed.map (·.configJson) = some c.modelDumpJson) ∧
        (∀ i now default a, e.event = .commit i (.initializeRuntimeConfig now default) a →
          (committedRow pre).isSome → e.after.committed = committedRow pre) ∧
        ((∀ i call a, e.event ≠ .commit i call a) → e.after.committed = committedRow pre) := by
  refine ⟨hr.shows, ?_⟩
  rintro post ⟨ev, d⟩ pre rfl
  obtain ⟨hpre, hstep⟩ := Valid.split hr
  refine ⟨?_, ?_, fun hno => hstep.committed hno⟩
  · rintro i now p a rfl
    obtain ⟨updated, ha, hrow, -⟩ := effect_patch (ConfigRun.shows hpre) (ConfigRun.commit hpre hstep)
    refine ⟨updated, ha, ?_⟩
    show d.committed.map _ = _
    rw [hrow]
    rfl
  · rintro i now default a rfl hsome
    have heff := ConfigRun.commit hpre hstep
    simp only [ConfigCall.effect, Except.ok.injEq, Prod.mk.injEq] at heff
    show d.committed = _
    rw [← heff.2]
    obtain ⟨r, hr⟩ := Option.isSome_iff_exists.1 hsome
    rw [hr]
    rfl

end

/-- What a patch does to a row that reads. -/
theorem effect_patch_of_merge {now : UtcTime} {p : RuntimeConfigPatch} {row : Option ConfigRow}
    {c updated : RuntimeConfig} (hrow : row.map (·.configJson) = some c.modelDumpJson)
    (hm : mergeRuntimeConfig c p = .ok updated) :
    (ConfigCall.patchRuntimeConfig now p).effect row =
      .ok (some updated, some ⟨updated.modelDumpJson, toDbTime now⟩) := by
  obtain ⟨r, rfl, hjson⟩ := Option.map_eq_some_iff.1 hrow
  rw [effect_patch_some, mergeRow, hjson, c.validate_dump]
  simp only [hm, Except.map]

/-- A patch that waits for the lock can take it when it is free, and commit. -/
theorem ConfigRun.runPatch {ι : Type} [DecidableEq ι] {i : ι} {time : UtcTime} {p : RuntimeConfigPatch}
    {c updated : RuntimeConfig} {h : History (ConfigEvent ι) (ConfigDb ι)} (hr : ConfigRun .sqlite h)
    (hopen : (now (Db.start none) h).open? i = some ⟨.patchRuntimeConfig time p,
      ConfigCall.body .sqlite (.patchRuntimeConfig time p)⟩)
    (hfree : (now (Db.start none) h).holder = none) (hreplay : replay h = some c)
    (hm : mergeRuntimeConfig c p = .ok updated) :
    ∃ h', ConfigRun .sqlite h' ∧ now (Db.start none) h' =
        ⟨some ⟨updated.modelDumpJson, toDbTime time⟩, none, (now (Db.start none) h).set i none⟩ ∧
      replay h' = some updated := by
  have hlocked : ConfigRun .sqlite _ := Valid.cons hr (.lock hopen hfree rfl)
  have hshow : Shows (committedRow h) (some c) := hreplay ▸ hr.shows
  obtain ⟨h', hr', hnow, hreplay'⟩ := hlocked.commitPatch (Function.update_self i _ _) rfl
    ((@run_body .sqlite (.patchRuntimeConfig time p) (committedRow h)).trans
      (effect_patch_of_merge hshow hm))
  refine ⟨h', hr', ?_, ?_⟩
  · rw [hnow]
    simp [Db.set]
  · rw [hreplay']
    show (replay h).bind _ = _
    rw [hreplay]
    simp [hm, Except.toOption]

/-- The defaults of the settings. -/
def defaultConfig : RuntimeConfig :=
  ⟨⟨3, .rat 5, .rat 60, 2, .rat (1 / 4), .rat 30⟩, by decide +kernel⟩

def retriesPatch : RuntimeConfigPatch where
  defaultMaxRetries := some 4
  defaultTimeoutSeconds := none
  maxTimeoutSeconds := none
  workerConcurrency := none
  backoffBaseSeconds := none
  backoffMaxSeconds := none
  defaultMaxRetries_range := by decide
  defaultTimeout_range := by simp
  maxTimeout_range := by simp
  workerConcurrency_range := by simp
  backoffBase_range := by simp
  backoffMax_range := by simp

def threadsPatch : RuntimeConfigPatch :=
  { retriesPatch with
    defaultMaxRetries := none
    workerConcurrency := some 3
    defaultMaxRetries_range := by simp
    workerConcurrency_range := by decide }

def sampleConfigs : RuntimeConfigStore := ⟨defaultConfig.toConfigValues, defaultConfig.isValid⟩

/-- A process starts, another one starts, and then a patch has the lock while a second one, of another
field, waits. Both commit. -/
theorem config_serial_sample : ∃ h : History (ConfigEvent Nat) (ConfigDb Nat),
    replay h = some ((sampleConfigs.patch retriesPatch).patch threadsPatch).view ∧
      (committedRow h).map (·.configJson) = (replay h).map (·.modelDumpJson) := by
  have h₁ : ConfigRun .sqlite _ :=
    Valid.cons Valid.nil (.begin 0 (.initializeRuntimeConfig (sampleTime 0) defaultConfig) rfl)
  have h₂ : ConfigRun .sqlite _ := Valid.cons h₁ (.lock (i := 0) rfl rfl rfl)
  have h₃ : ConfigRun .sqlite _ := Valid.cons h₂ (.commit (i := 0) rfl rfl)
  have h₄ : ConfigRun .sqlite _ :=
    Valid.cons h₃ (.begin 1 (.initializeRuntimeConfig (sampleTime 1) defaultConfig) rfl)
  have h₅ : ConfigRun .sqlite _ := Valid.cons h₄ (.lock (i := 1) rfl rfl rfl)
  have h₆ : ConfigRun .sqlite _ := Valid.cons h₅ (.commit (i := 1) rfl rfl)
  have h₇ : ConfigRun .sqlite _ :=
    Valid.cons h₆ (.begin 2 (.patchRuntimeConfig (sampleTime 2) retriesPatch) rfl)
  have h₈ : ConfigRun .sqlite _ :=
    Valid.cons h₇ (.begin 3 (.patchRuntimeConfig (sampleTime 3) threadsPatch) rfl)
  obtain ⟨h, hr, hnow, hreplay⟩ := h₈.runPatch (i := 2) rfl rfl rfl
    (mergeRuntimeConfig_eq sampleConfigs retriesPatch)
  have hopen : (now (Db.start none) h).open? 3 = some ⟨.patchRuntimeConfig (sampleTime 3) threadsPatch,
      ConfigCall.body .sqlite (.patchRuntimeConfig (sampleTime 3) threadsPatch)⟩ := by
    rw [hnow]
    rfl
  obtain ⟨h', hr', -, hreplay'⟩ := hr.runPatch hopen (by rw [hnow]) hreplay
    (mergeRuntimeConfig_eq (sampleConfigs.patch retriesPatch) threadsPatch)
  exact ⟨h', hreplay', (config_serial hr').1⟩

end PulseQueue
