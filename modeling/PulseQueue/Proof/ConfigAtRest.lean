import PulseQueue.Proof.ConfigPatch
import PulseQueue.Spec.ConfigRequests

/-!
# The store of a process and the row

The row says what the last patch returned, which is what every request has in hand, or has been overtaken
by (`AppState.Current`). The store has what the last `replace` put in, and `replace` calls come in any
order. So the store of a process without requests in progress agrees with the row exactly when, each time
that the only request in progress replaced, no patch that committed since its database step had returned
anything else (`config_at_rest_iff`).
-/

namespace PulseQueue

open Txn Trace

/-- The store has the values of the row. -/
def AppState.Agrees (σ : AppState) : Prop := σ.store.Reads σ.config.view

/-- What the row says, as far as the request knows. -/
def ConfigRequest.latest (r : ConfigRequest) : RuntimeConfig := r.since.getD r.config

/-- No other patch has committed since the database step of the request, unless the last one returned the
same. -/
def ConfigRequest.Settled (r : ConfigRequest) : Prop := ∀ u ∈ r.since, u = r.config

/-- The row says what the last patch that a request knows of has returned. -/
def AppState.Current (σ : AppState) : Prop := ∀ r ∈ σ.requests, σ.store.Reads r.latest

theorem ConfigRequest.settled_iff {r : ConfigRequest} : r.Settled ↔ r.config = r.latest := by
  obtain ⟨config, since⟩ := r
  cases since with
  | none => exact ⟨fun _ => rfl, fun _ u hu => by cases hu⟩
  | some u =>
    constructor
    · intro h
      exact (h u rfl).symm
    · intro h v hv
      cases hv
      exact h.symm

section
variable {deps : Deps} {engine : Engine} {σ σ₀ σ' : AppState} {a : ConfigAct}

theorem patches_store (σ : AppState) (now : UtcTime) (p : RuntimeConfigPatch)
    (out : Except Err RuntimeConfig) :
    (σ.patches deps engine now p out).store = (engine.patchRuntimeConfig now p σ.store).2 := by
  cases engine <;> exact atomically_reply _ _ _

theorem AppState.Created.requests (h : AppState.Created deps engine σ) : σ.requests = [] := by
  cases h with
  | mk => rfl

theorem AppState.Created.run (h : AppState.Created deps engine σ) : Run deps engine σ.repository := by
  cases h with
  | mk hr hc => exact Run.afterCall hr (Allowed.of_none rfl)

/-- A process starts with the values of the row. -/
theorem AppState.Created.agrees (h : AppState.Created deps engine σ) : σ.Agrees := by
  cases h with
  | @mk h now settings c hr hc =>
    rw [initialize_run] at hc
    have hreads := reads_of_get hc
    rw [← @initializeRow_ok deps engine] at hreads
    exact hreads

theorem AppState.Serves.run {h : History ConfigAct AppState} (hc : AppState.Created deps engine σ₀)
    (hv : AppState.Serves deps engine σ₀ h) : Run deps engine (now σ₀ h).repository := by
  induction hv with
  | nil => exact hc.run
  | cons hv hstep ih =>
    cases hstep with
    | @read out hout => cases out <;> exact ih
    | patch hout => exact Run.afterCall ih (Allowed.of_none rfl)
    | replace hr => exact ih
    | database hop hstep => exact Valid.cons ih hstep

/-! ## Steps -/

theorem AppState.Current.step (hrun : Run deps engine σ.repository) (h : σ.Current)
    (hstep : AppState.Step deps engine σ a σ') : σ'.Current := by
  cases hstep with
  | @read out hout =>
    cases out with
    | error e => exact h
    | ok c =>
      refine List.forall_mem_cons.2 ⟨?_, h⟩
      exact reads_of_get hout
  | @patch now p out hout =>
    cases out with
    | error e =>
      intro r hr
      rw [patches_store, patch_error hout]
      exact h r hr
    | ok u =>
      intro r hr
      rw [patches_store, patch_ok hout]
      have hlatest : r.latest = u := by
        rcases List.mem_cons.1 hr with he | hr
        · rw [he]
          rfl
        · obtain ⟨r', -, he⟩ := List.mem_map.1 hr
          rw [← he]
          rfl
      rw [hlatest]
      exact Store.withConfig_reads
  | @replace before after r hr =>
    intro r' hr'
    refine h r' ?_
    rw [hr]
    rcases List.mem_append.1 hr' with hm | hm
    · exact List.mem_append_left _ hm
    · exact List.mem_append_right _ (List.mem_cons_of_mem _ hm)
  | @database e s hop hstep =>
    intro r hr
    obtain ⟨row, hrow, hv⟩ := h r hr
    exact ⟨row, (Sound.row (Run.sound hrun) hstep hop).trans hrow, hv⟩

/-- When the only request in progress replaces, the store and the row agree just if it is settled. -/
theorem replace_agrees {r : ConfigRequest} (h : σ.Current) (hr : σ.requests = [r])
    (hstep : AppState.Step deps engine σ (.replace r) σ') : σ'.Agrees ↔ r.Settled := by
  have hreads : σ.store.Reads r.latest := h r (hr ▸ List.mem_singleton_self r)
  rw [ConfigRequest.settled_iff]
  cases hstep with
  | replace hs =>
    constructor
    · intro hagrees
      exact hreads.unique hagrees
    · intro he
      show σ.store.Reads r.config
      rw [he]
      exact hreads

/-- Agreement ends with a `replace` only, once no request is in progress. -/
theorem AppState.Agrees.step (hrun : Run deps engine σ.repository)
    (hstep : AppState.Step deps engine σ a σ') (hrest : σ'.requests = [])
    (hr : ∀ r, a ≠ .replace r) : σ.requests = [] ∧ (σ'.Agrees ↔ σ.Agrees) := by
  cases hstep with
  | @read out hout =>
    cases out with
    | error e => exact ⟨hrest, Iff.rfl⟩
    | ok c => cases hrest
  | @patch now p out hout =>
    cases out with
    | error e =>
      refine ⟨hrest, ?_⟩
      unfold AppState.Agrees
      rw [patches_store, patch_error hout]
      exact Iff.rfl
    | ok u => cases hrest
  | replace => exact absurd rfl (hr _)
  | @database e s hop hstep =>
    refine ⟨hrest, ?_⟩
    have hrow : s.runtimeConfig = σ.store.runtimeConfig := Sound.row (Run.sound hrun) hstep hop
    show Store.Reads s _ ↔ _
    unfold Store.Reads
    rw [hrow]
    exact Iff.rfl

/-- The only request in progress. -/
theorem AppState.Step.last {r : ConfigRequest} (hstep : AppState.Step deps engine σ (.replace r) σ')
    (hrest : σ'.requests = []) : σ.requests = [r] := by
  cases hstep with
  | replace hr =>
    obtain ⟨hb, ha⟩ := List.append_eq_nil_iff.1 hrest
    rw [hr, hb, ha]
    rfl

/-- After the only request in progress has replaced, none is. -/
theorem AppState.Step.rests {r : ConfigRequest} (hstep : AppState.Step deps engine σ (.replace r) σ')
    (hlast : σ.requests = [r]) : σ'.requests = [] := by
  cases hstep with
  | @replace before after r hr =>
    have hlen := congrArg List.length (hr.symm.trans hlast)
    simp only [List.length_append, List.length_cons, List.length_nil] at hlen
    refine List.length_eq_zero_iff.1 ?_
    simp only [List.length_append]
    omega

/-! ## Runs -/

theorem AppState.Serves.current {h : History ConfigAct AppState} (hc : AppState.Created deps engine σ₀)
    (hv : AppState.Serves deps engine σ₀ h) : (now σ₀ h).Current := by
  refine hv.invariant (P := AppState.Current) ?_ fun h a σ hv hcur hstep => ?_
  · intro r hr
    rw [hc.requests] at hr
    cases hr
  · exact hcur.step (AppState.Serves.run hc hv) hstep

/-- The store agrees in every state of the history without a request in progress. -/
def AtRest (σ₀ : AppState) (h : History ConfigAct AppState) : Prop :=
  ∀ post pre, h = post ++ pre → (now σ₀ pre).requests = [] → (now σ₀ pre).Agrees

/-- Replacing as the only request in progress, it is settled. -/
def SettledLast (σ₀ : AppState) (h : History ConfigAct AppState) (a : ConfigAct) : Prop :=
  ∀ r, a = .replace r → (now σ₀ h).requests = [r] → r.Settled

theorem atRest_cons {e : Entry ConfigAct AppState} {h : History ConfigAct AppState} :
    AtRest σ₀ (e :: h) ↔ AtRest σ₀ h ∧ (e.after.requests = [] → e.after.Agrees) := by
  constructor
  · intro hr
    exact ⟨fun post pre he => hr (e :: post) pre (congrArg (e :: ·) he), hr [] (e :: h) rfl⟩
  · rintro ⟨hr, he⟩ post pre heq
    cases post with
    | nil =>
      rw [show pre = e :: h from heq.symm]
      exact he
    | cons x post =>
      injection heq with hx heq
      exact hr post pre heq

/-- A run of one process: its store agrees with the row whenever no request is in progress, exactly when
every request that replaced as the only one in progress was settled. -/
theorem config_at_rest_iff (h : History ConfigAct AppState) (hc : AppState.Created deps engine σ₀)
    (hv : AppState.Serves deps engine σ₀ h) : AtRest σ₀ h ↔ Each (SettledLast σ₀) h := by
  induction hv with
  | nil =>
    refine ⟨fun _ => trivial, fun _ post pre he _ => ?_⟩
    rw [(List.append_eq_nil_iff.1 he.symm).2]
    exact hc.agrees
  | @cons h a σ hv hstep ih =>
    have hrun := AppState.Serves.run hc hv
    have hcur := AppState.Serves.current hc hv
    rw [atRest_cons, ih]
    constructor
    · rintro ⟨he, hr⟩
      refine ⟨fun r ha hlast => ?_, he⟩
      subst ha
      exact (replace_agrees hcur hlast hstep).1 (hr (hstep.rests hlast))
    · rintro ⟨hs, he⟩
      refine ⟨he, fun hrest => ?_⟩
      by_cases ha : ∃ r, a = .replace r
      · obtain ⟨r, rfl⟩ := ha
        have hlast := hstep.last hrest
        exact (replace_agrees hcur hlast hstep).2 (hs r rfl hlast)
      · obtain ⟨hbefore, hiff⟩ := AppState.Agrees.step hrun hstep hrest fun r hr => ha ⟨r, hr⟩
        exact hiff.2 (ih.2 he [] h rfl hbefore)

end

/-! ## One process -/

def defaultStore : RuntimeConfigStore := .fromSettings defaultSettings

/-- A process that has started on the empty database. -/
def defaultApp : AppState :=
  ⟨afterCall sampleDeps .sqlite [] (.initializeRuntimeConfig (sampleTime 0) defaultStore.view),
    defaultStore.replace defaultStore.view, []⟩

theorem defaultApp_created : AppState.Created sampleDeps .sqlite defaultApp :=
  .mk .nil (RuntimeConfig.validate_dump defaultStore.view)

/-- What `retriesPatch` makes of the defaults. -/
def fourRetries : RuntimeConfig := (defaultStore.patch retriesPatch).view

theorem fourRetries_retries : fourRetries.defaultMaxRetries = 4 := by
  show ((retriesPatch.update defaultStore.toConfigValues).capped).defaultMaxRetries = 4
  rw [ConfigValues.capped_eq]
  rfl

theorem patch_default {s : Store} (hs : s.Reads defaultStore.view) :
    Sqlite.patchRuntimeConfig (sampleTime 1) retriesPatch s =
      (.ok fourRetries, s.withConfig (sampleTime 1) fourRetries) :=
  @patch_of_reads .sqlite _ _ _ _ _ hs (mergeRuntimeConfig_eq defaultStore retriesPatch)

/-- The row after that patch. -/
theorem patched_reads : (defaultApp.patches sampleDeps .sqlite (sampleTime 1) retriesPatch
    (.ok fourRetries)).store.Reads fourRetries := by
  have hpatch := patch_default defaultApp_created.agrees
  rw [patches_store, show Engine.sqlite.patchRuntimeConfig = Sqlite.patchRuntimeConfig from rfl]
  rw [show Sqlite.patchRuntimeConfig _ _ defaultApp.store = (_, _) from hpatch]
  exact Store.withConfig_reads

/-- A patch commits, another request reads, and then both replace. -/
theorem config_at_rest_sample : ∃ h : History ConfigAct AppState,
    AppState.Serves sampleDeps .sqlite defaultApp h ∧ (now defaultApp h).requests = [] ∧
      (now defaultApp h).config.view = fourRetries ∧ (now defaultApp h).Agrees := by
  have hpatch := patch_default defaultApp_created.agrees
  have h₁ : AppState.Serves sampleDeps .sqlite defaultApp _ :=
    Valid.cons .nil (@AppState.Step.patch _ _ _ (sampleTime 1) retriesPatch _ (congrArg Prod.fst hpatch))
  have h₂ := Valid.cons h₁ (.read (congrArg Prod.fst (get_iff_reads.2 patched_reads)))
  have h₃ := Valid.cons h₂ (@AppState.Step.replace _ _ _ [⟨fourRetries, none⟩] [] ⟨fourRetries, none⟩ rfl)
  have h₄ := Valid.cons h₃ (@AppState.Step.replace _ _ _ [] [] ⟨fourRetries, none⟩ rfl)
  have hsettled : ConfigRequest.Settled ⟨fourRetries, none⟩ := by
    intro u hu
    cases hu
  have hrest : AtRest defaultApp _ := (config_at_rest_iff _ defaultApp_created h₄).2 (by
    refine ⟨fun r hr _ => ?_, fun r hr _ => ?_, fun r hr => (by cases hr), fun r hr => (by cases hr),
      trivial⟩
    · cases hr
      exact hsettled
    · cases hr
      exact hsettled)
  exact ⟨_, h₄, rfl, rfl, hrest [] _ rfl rfl⟩

/-- `GET /config` reads, a whole `PATCH /config` comes and goes, and then the `GET` puts in what it read. -/
theorem config_at_rest_fails : AppState.Created sampleDeps .sqlite defaultApp ∧
    ∃ h : History ConfigAct AppState, AppState.Serves sampleDeps .sqlite defaultApp h ∧
      (now defaultApp h).requests = [] ∧ (now defaultApp h).config.view.defaultMaxRetries = 3 ∧
      (∃ c, (now defaultApp h).store.Reads c ∧ c.defaultMaxRetries = 4) ∧
      ¬ (now defaultApp h).Agrees := by
  have hreads : defaultApp.store.Reads defaultStore.view := defaultApp_created.agrees
  have h₁ : AppState.Serves sampleDeps .sqlite defaultApp _ :=
    Valid.cons .nil (.read (congrArg Prod.fst (get_iff_reads.2 hreads)))
  have h₂ := Valid.cons h₁ (@AppState.Step.patch _ _ _ (sampleTime 1) retriesPatch _
    (congrArg Prod.fst (patch_default hreads)))
  have h₃ := Valid.cons h₂ (@AppState.Step.replace _ _ _ [] [⟨defaultStore.view, some fourRetries⟩]
    ⟨fourRetries, none⟩ rfl)
  have h₄ := Valid.cons h₃ (@AppState.Step.replace _ _ _ [] [] ⟨defaultStore.view, some fourRetries⟩ rfl)
  have hrow := patched_reads
  refine ⟨defaultApp_created, _, h₄, rfl, rfl, ⟨fourRetries, hrow, fourRetries_retries⟩,
    fun hagrees => ?_⟩
  have heq : fourRetries = defaultStore.view := Store.Reads.unique hagrees hrow
  have hthree : fourRetries.defaultMaxRetries = 3 := by
    rw [heq]
    rfl
  have hfour := fourRetries_retries
  omega

end PulseQueue
