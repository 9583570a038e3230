import PulseQueue.Model.Api
import PulseQueue.Spec.Runs

/-!
# Deployments

Any number of API and worker processes on one database, each with its own `RuntimeConfigStore`. A
process starts from its settings, initializes the row, and from then on refreshes its store: `PATCH
/config` puts in what it committed, `GET /config`, `GET /metrics`, a start and a synchronization put in
what they read. Between its database step and `replace` a request has its configuration in hand (`Task`);
anything may happen meanwhile. A submission views the store once and then calls the repository.
-/

namespace PulseQueue

open Txn Trace

def Engine.getRuntimeConfig : Engine → Repo RuntimeConfig
  | .sqlite => Sqlite.getRuntimeConfig
  | .postgres => Postgres.getRuntimeConfig

def Engine.patchRuntimeConfig : Engine → UtcTime → RuntimeConfigPatch → Repo RuntimeConfig
  | .sqlite => Sqlite.patchRuntimeConfig
  | .postgres => Postgres.patchRuntimeConfig

def Engine.initializeRuntimeConfig : Engine → UtcTime → RuntimeConfig → Repo RuntimeConfig
  | .sqlite => Sqlite.initializeRuntimeConfig
  | .postgres => Postgres.initializeRuntimeConfig

/-! ## Repository calls of submissions -/

def RepoCall.maxRetries : RepoCall → Nat
  | .createJob _ m _ _ | .createSchedule _ m _ | .createJobsBatch _ m _ => m

def RepoCall.timeoutSeconds : RepoCall → PyFloat
  | .createJob _ _ t _ | .createSchedule _ _ t | .createJobsBatch _ _ t => t

/-- The inserting transaction with its clock reading and ids. A NaN timeout is NULL to SQLite, and
nothing is inserted. -/
def RepoCall.op (now : UtcTime) (uuids : Nat → String) : RepoCall → Option Op
  | .createJob request m (.rat t) key => some (.createJob now (uuids 0) request m t key)
  | .createSchedule request m (.rat t) => some (.createSchedule now (uuids 0) request m t)
  | .createJobsBatch requests m (.rat t) => some (.createJobsBatch now uuids requests m t)
  | .createJob _ _ .nan _ | .createSchedule _ _ .nan | .createJobsBatch _ _ .nan => none

/-- The transactions that come from a request or a start, with the configuration of a process. -/
def Op.routed : Op → Bool
  | .createJob .. | .createJobsBatch .. | .createSchedule .. | .initializeRuntimeConfig ..
  | .patchRuntimeConfig .. => true
  | _ => false

/-! ## States and events -/

/-- What a request has in hand. -/
inductive Task
  /-- a configuration for the store -/
  | refresh (config : RuntimeConfig)
  /-- an accepted submission for the repository -/
  | insert (call : RepoCall)

/-- Processes are named by `ι`, requests by `ν`. A restarted process is a new one. -/
structure Deployment (ι ν : Type) where
  database : History Event Store
  config : ι → Option RuntimeConfigStore
  task : ν → Option (ι × Task)

def Deployment.empty {ι ν : Type} : Deployment ι ν := ⟨[], fun _ => none, fun _ => none⟩

inductive DeployEvent (ι ν : Type)
  /-- `RuntimeConfigStore.from_settings(settings)` of a new process -/
  | fromSettings (i : ι) (settings : Settings)
  /-- the transaction of `initialize_runtime_config(config.view())` -/
  | initializeRow (i : ι) (now : UtcTime)
  /-- `get_runtime_config()` returned -/
  | read (q : ν) (i : ι) (config : RuntimeConfig)
  /-- `patch_runtime_config(patch)` returned -/
  | patchRow (q : ν) (i : ι) (now : UtcTime) (patch : RuntimeConfigPatch) (updated : RuntimeConfig)
  /-- `config.replace(...)` of the request -/
  | replace (q : ν) (i : ι) (config : RuntimeConfig)
  /-- `config.patch(patch)` -/
  | patchStore (i : ι) (patch : RuntimeConfigPatch)
  /-- the route of a submission up to its repository call, with the configuration it viewed -/
  | submit (q : ν) (i : ι) (request : SubmitRequest) (config : RuntimeConfig)
      (out : Except HTTPException RepoCall)
  /-- the inserting transaction -/
  | insert (q : ν) (now : UtcTime) (uuids : Nat → String)
  /-- the request ends here: a repeated submission, or an exception -/
  | leave (q : ν)
  /-- any other transaction of any process -/
  | database (e : Event)

/-- An event of the database that no request of `DeployEvent` stands for. -/
def Event.Other (e : Event) : Prop := ∀ op out, e = .call op out → op.routed = false

section
variable {ι ν : Type} [DecidableEq ι] [DecidableEq ν] (deps : Deps) (engine : Engine)

def Deployment.setConfig (d : Deployment ι ν) (i : ι) (store : RuntimeConfigStore) : Deployment ι ν :=
  { d with config := Function.update d.config i (some store) }

def Deployment.setTask (d : Deployment ι ν) (q : ν) (t : Option (ι × Task)) : Deployment ι ν :=
  { d with task := Function.update d.task q t }

inductive DeployStep (d : Deployment ι ν) : DeployEvent ι ν → Deployment ι ν → Prop
  | fromSettings (i : ι) (settings : Settings) : d.config i = none →
      DeployStep d (.fromSettings i settings) (d.setConfig i (.fromSettings settings))
  | initializeRow {i : ι} {store : RuntimeConfigStore} (now : UtcTime) : d.config i = some store →
      DeployStep d (.initializeRow i now)
        { d with database := afterCall deps engine d.database (.initializeRuntimeConfig now store.view) }
  | read {i : ι} {store : RuntimeConfigStore} {config : RuntimeConfig} (q : ν) :
      d.config i = some store → d.task q = none →
      (engine.getRuntimeConfig (present d.database)).1 = .ok config →
      DeployStep d (.read q i config) (d.setTask q (some (i, .refresh config)))
  | patchRow {i : ι} {store : RuntimeConfigStore} {now : UtcTime} {patch : RuntimeConfigPatch}
      {updated : RuntimeConfig} {s : Store} (q : ν) : d.config i = some store → d.task q = none →
      (Op.patchRuntimeConfig now patch).body deps engine (present d.database) =
        .ok (.config updated, s) →
      DeployStep d (.patchRow q i now patch updated)
        { d.setTask q (some (i, .refresh updated)) with
          database := afterCall deps engine d.database (.patchRuntimeConfig now patch) }
  | replace {q : ν} {i : ι} {store : RuntimeConfigStore} {config : RuntimeConfig} :
      d.config i = some store → d.task q = some (i, .refresh config) →
      DeployStep d (.replace q i config) ((d.setConfig i (store.replace config)).setTask q none)
  | patchStore {i : ι} {store : RuntimeConfigStore} (patch : RuntimeConfigPatch) :
      d.config i = some store →
      DeployStep d (.patchStore i patch) (d.setConfig i (store.patch patch))
  | accept {i : ι} {store : RuntimeConfigStore} {request : SubmitRequest} {call : RepoCall} (q : ν) :
      d.config i = some store → d.task q = none → Api.submit deps store.view request = .ok call →
      DeployStep d (.submit q i request store.view (.ok call))
        (d.setTask q (some (i, .insert call)))
  | reject {i : ι} {store : RuntimeConfigStore} {request : SubmitRequest} {e : HTTPException} (q : ν) :
      d.config i = some store → Api.submit deps store.view request = .error e →
      DeployStep d (.submit q i request store.view (.error e)) d
  | insert {q : ν} {i : ι} {call : RepoCall} {op : Op} {now : UtcTime} {uuids : Nat → String} :
      d.task q = some (i, .insert call) → call.op now uuids = some op →
      DeployStep d (.insert q now uuids)
        { d.setTask q none with database := afterCall deps engine d.database op }
  | leave (q : ν) : DeployStep d (.leave q) (d.setTask q none)
  | database {e : Event} {s : Store} : e.Other → RunStep deps engine d.database e s →
      DeployStep d (.database e) { d with database := ⟨e, s⟩ :: d.database }

/-- The runs of a deployment, from the empty database and no process. -/
abbrev Deploys (h : History (DeployEvent ι ν) (Deployment ι ν)) : Prop :=
  Valid Deployment.empty (fun h => DeployStep deps engine (now Deployment.empty h)) h

end

/-- The present state. -/
abbrev deployed {ι ν : Type} (h : History (DeployEvent ι ν) (Deployment ι ν)) : Deployment ι ν :=
  now Deployment.empty h

section
variable {ι ν : Type} {d : Deployment ι ν}

@[simp] theorem setConfig_database [DecidableEq ι] (i : ι) (store : RuntimeConfigStore) :
    (d.setConfig i store).database = d.database := rfl

@[simp] theorem setConfig_task [DecidableEq ι] (i : ι) (store : RuntimeConfigStore) :
    (d.setConfig i store).task = d.task := rfl

@[simp] theorem setTask_database [DecidableEq ν] (q : ν) (t : Option (ι × Task)) :
    (d.setTask q t).database = d.database := rfl

@[simp] theorem setTask_config [DecidableEq ν] (q : ν) (t : Option (ι × Task)) :
    (d.setTask q t).config = d.config := rfl

theorem setTask_other [DecidableEq ν] {q q' : ν} {t : Option (ι × Task)} (h : q' ≠ q) :
    (d.setTask q t).task q' = d.task q' := Function.update_of_ne h _ _

theorem setTask_self [DecidableEq ν] {q : ν} {t : Option (ι × Task)} : (d.setTask q t).task q = t :=
  Function.update_self ..

theorem setConfig_other [DecidableEq ι] {i j : ι} {store : RuntimeConfigStore} (h : j ≠ i) :
    (d.setConfig i store).config j = d.config j := Function.update_of_ne h _ _

theorem setConfig_self [DecidableEq ι] {i : ι} {store : RuntimeConfigStore} :
    (d.setConfig i store).config i = some store := Function.update_self ..

/-- Dropping or taking a task that is no refresh. -/
theorem setTask_refresh [DecidableEq ν] {q q' : ν} {t : Option (ι × Task)}
    (ht : ∀ i c, t ≠ some (i, .refresh c)) {i : ι} {c : RuntimeConfig}
    (h : (d.setTask q t).task q' = some (i, .refresh c)) :
    d.task q' = some (i, .refresh c) := by
  by_cases hq : q' = q
  · subst hq
    rw [setTask_self] at h
    exact absurd h (ht i c)
  · rwa [setTask_other hq] at h

end

end PulseQueue
