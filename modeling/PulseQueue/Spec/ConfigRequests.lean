import PulseQueue.Spec.Deployment

/-!
# The requests of one process that refresh its configuration (`app/main.py`)

`PATCH /config` commits `patch_runtime_config`, `GET /config` and `GET /metrics` call `get_runtime_config`,
and each of them then passes what it got to `RuntimeConfigStore.replace`. Between the two steps a request
has its configuration in hand (`ConfigRequest`), and the other requests may take any step. Nothing that a
request does before its database step or after `replace` reads or writes a configuration: without a
running pool, `reconcile` does nothing. Other transactions do not touch the row (`ConfigAct.database`).
-/

namespace PulseQueue

open Txn Trace

/-- A request between its database step and `replace`. `since` is no part of the code: it has what the
last patch to commit since the database step returned. -/
structure ConfigRequest where
  config : RuntimeConfig
  since : Option RuntimeConfig

/-- The request, when a patch commits that returns `updated`. -/
def ConfigRequest.overtaken (updated : RuntimeConfig) (r : ConfigRequest) : ConfigRequest :=
  { r with since := some updated }

/-- `app.state` with the database behind `repository`. -/
structure AppState where
  repository : History Event Store
  config : RuntimeConfigStore
  requests : List ConfigRequest

inductive ConfigAct
  /-- `repo.get_runtime_config()` of `GET /config` or `GET /metrics` -/
  | read (out : Except Err RuntimeConfig)
  /-- `repo.patch_runtime_config(patch)` of `PATCH /config` -/
  | patch (now : UtcTime) (patch : RuntimeConfigPatch) (out : Except Err RuntimeConfig)
  /-- `runtime_config.replace(...)` of the request -/
  | replace (r : ConfigRequest)
  /-- a transaction that is not about the configuration -/
  | database (e : Event)

namespace AppState

def store (σ : AppState) : Store := present σ.repository

/-- A request has read `out`. Without a configuration it has raised, and is over. -/
def reads (out : Except Err RuntimeConfig) (σ : AppState) : AppState :=
  match out with
  | .ok c => { σ with requests := ⟨c, none⟩ :: σ.requests }
  | .error _ => σ

section
variable (deps : Deps) (engine : Engine)

/-- A request has patched the row and got `out`. -/
def patches (now : UtcTime) (p : RuntimeConfigPatch) (out : Except Err RuntimeConfig) (σ : AppState) :
    AppState where
  repository := afterCall deps engine σ.repository (.patchRuntimeConfig now p)
  config := σ.config
  requests :=
    match out with
    | .ok u => ⟨u, none⟩ :: σ.requests.map (·.overtaken u)
    | .error _ => σ.requests

inductive Step (σ : AppState) : ConfigAct → AppState → Prop
  | read {out : Except Err RuntimeConfig} : (engine.getRuntimeConfig σ.store).1 = out →
      Step σ (.read out) (σ.reads out)
  | patch {now : UtcTime} {p : RuntimeConfigPatch} {out : Except Err RuntimeConfig} :
      (engine.patchRuntimeConfig now p σ.store).1 = out →
      Step σ (.patch now p out) (σ.patches deps engine now p out)
  | replace {before after : List ConfigRequest} {r : ConfigRequest} :
      σ.requests = before ++ r :: after →
      Step σ (.replace r) { σ with config := σ.config.replace r.config, requests := before ++ after }
  | database {e : Event} {s : Store} : (∀ op out, e = .call op out → op.onConfig = false) →
      RunStep deps engine σ.repository e s →
      Step σ (.database e) { σ with repository := ⟨e, s⟩ :: σ.repository }

/-- `create_app` on any database: `config.replace(repo.initialize_runtime_config(config.view()))`. -/
inductive Created : AppState → Prop
  | mk {h : History Event Store} {now : UtcTime} {settings : Settings} {c : RuntimeConfig} :
      Run deps engine h →
      (engine.initializeRuntimeConfig now (RuntimeConfigStore.fromSettings settings).view
        (present h)).1 = .ok c →
      Created ⟨afterCall deps engine h
          (.initializeRuntimeConfig now (RuntimeConfigStore.fromSettings settings).view),
        (RuntimeConfigStore.fromSettings settings).replace c, []⟩

/-- The runs of the process from `σ`. -/
abbrev Serves (σ : AppState) (h : History ConfigAct AppState) : Prop :=
  Valid σ (fun h => Step deps engine (now σ h)) h

end

end AppState

end PulseQueue
