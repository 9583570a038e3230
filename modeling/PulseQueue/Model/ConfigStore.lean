import PulseQueue.Model.Repository

/-!
# The process-local configuration (`app/config_store.py`, `app/settings.py`)

`RuntimeConfigStore` and the settings it starts from. Every method holds the lock of the store, so each
is one step of a process.
-/

namespace PulseQueue

/-- The field ranges of `Settings`. -/
def ConfigValues.validSettings (c : ConfigValues) : Bool :=
  inIntRange 0 20 c.defaultMaxRetries && inFloatRange 0 300 c.defaultTimeoutSeconds &&
    inFloatRange 0 3600 c.maxTimeoutSeconds && inIntRange 1 64 c.workerConcurrency &&
    inFloatRange 0 60 c.backoffBaseSeconds && inFloatRange 0 600 c.backoffMaxSeconds

/-- The validated settings that the configuration starts from; each field is checked alone. -/
structure Settings extends ConfigValues where
  isValid : toConfigValues.validSettings = true

/-- The attributes. They stay in the ranges of `RuntimeConfig`, so `view` never raises. -/
structure RuntimeConfigStore extends ConfigValues where
  isValid : toConfigValues.valid = true

theorem RuntimeConfigStore.values_inj {a b : RuntimeConfigStore} :
    a.toConfigValues = b.toConfigValues ↔ a = b := by
  cases a
  cases b
  simp

instance : DecidableEq RuntimeConfigStore := fun _ _ => decidable_of_iff _ RuntimeConfigStore.values_inj

/-! ## Ranges -/

theorem inFloatRange_mono {lo hi hi' : ℚ} (h : hi ≤ hi') {x : PyFloat} (hx : inFloatRange lo hi x) :
    inFloatRange lo hi' x := by
  obtain ⟨q, rfl, hlo, hhi⟩ := inFloatRange_iff.1 hx
  exact inFloatRange_iff.2 ⟨q, rfl, hlo, hhi.trans h⟩

/-- A number below one within the bound. -/
theorem inFloatRange_of_lt {lo hi hi' : ℚ} {x y : PyFloat} (hx : inFloatRange lo hi x)
    (hy : inFloatRange lo hi' y) (hlt : y.lt x = true) : inFloatRange lo hi y := by
  obtain ⟨q, rfl, -, hq⟩ := inFloatRange_iff.1 hx
  obtain ⟨r, rfl, hr, -⟩ := inFloatRange_iff.1 hy
  simp only [PyFloat.lt, decide_eq_true_eq] at hlt
  exact inFloatRange_iff.2 ⟨r, rfl, hr, hlt.le.trans hq⟩

/-- A value that is in the range whether the patch sets it or not. -/
theorem getD_of_forall {α : Type} {P : α → Prop} {x : Option α} {a : α} (hx : ∀ b ∈ x, P b) (ha : P a) :
    P (x.getD a) := by
  cases x with
  | none => exact ha
  | some b => exact hx b rfl

theorem ConfigValues.valid_of_settings {c : ConfigValues} (h : c.validSettings = true) :
    c.valid = true := by
  simp only [ConfigValues.validSettings, Bool.and_eq_true, and_assoc] at h
  obtain ⟨h1, h2, h3, h4, h5, h6⟩ := h
  exact ConfigValues.valid_iff.2 ⟨h1, inFloatRange_mono (by norm_num) h2, h3, h4, h5, h6⟩

/-! ## Patches of values -/

/-- `model_dump(exclude_none=True)` over the values: the set fields of the patch. -/
def RuntimeConfigPatch.update (patch : RuntimeConfigPatch) (c : ConfigValues) : ConfigValues where
  defaultMaxRetries := patch.defaultMaxRetries.getD c.defaultMaxRetries
  defaultTimeoutSeconds := patch.defaultTimeoutSeconds.getD c.defaultTimeoutSeconds
  maxTimeoutSeconds := patch.maxTimeoutSeconds.getD c.maxTimeoutSeconds
  workerConcurrency := patch.workerConcurrency.getD c.workerConcurrency
  backoffBaseSeconds := patch.backoffBaseSeconds.getD c.backoffBaseSeconds
  backoffMaxSeconds := patch.backoffMaxSeconds.getD c.backoffMaxSeconds

theorem RuntimeConfigPatch.update_valid (patch : RuntimeConfigPatch) {c : ConfigValues}
    (h : c.valid = true) : (patch.update c).valid = true := by
  obtain ⟨h1, h2, h3, h4, h5, h6⟩ := ConfigValues.valid_iff.1 h
  exact ConfigValues.valid_iff.2
    ⟨getD_of_forall (P := fun x => inIntRange 0 20 x) patch.defaultMaxRetries_range h1,
      getD_of_forall (P := fun x => inFloatRange 0 3600 x) patch.defaultTimeout_range h2,
      getD_of_forall (P := fun x => inFloatRange 0 3600 x) patch.maxTimeout_range h3,
      getD_of_forall (P := fun x => inIntRange 1 64 x) patch.workerConcurrency_range h4,
      getD_of_forall (P := fun x => inFloatRange 0 60 x) patch.backoffBase_range h5,
      getD_of_forall (P := fun x => inFloatRange 0 600 x) patch.backoffMax_range h6⟩

/-- The two caps of `RuntimeConfigStore.patch`. -/
def ConfigValues.capped (c : ConfigValues) : ConfigValues :=
  let c := if c.maxTimeoutSeconds.lt c.defaultTimeoutSeconds then
    { c with defaultTimeoutSeconds := c.maxTimeoutSeconds } else c
  if c.backoffMaxSeconds.lt c.backoffBaseSeconds then
    { c with backoffBaseSeconds := c.backoffMaxSeconds } else c

theorem ConfigValues.capped_eq (c : ConfigValues) : c.capped =
    { c with defaultTimeoutSeconds := c.defaultTimeoutSeconds.min c.maxTimeoutSeconds
             backoffBaseSeconds := c.backoffBaseSeconds.min c.backoffMaxSeconds } := by
  unfold ConfigValues.capped PyFloat.min
  by_cases ht : c.maxTimeoutSeconds.lt c.defaultTimeoutSeconds = true <;>
    by_cases hb : c.backoffMaxSeconds.lt c.backoffBaseSeconds = true <;> simp [ht, hb]

theorem PyFloat.min_cases (a b : PyFloat) : b.lt a = true ∧ a.min b = b ∨ a.min b = a := by
  unfold PyFloat.min
  split
  · exact .inl ⟨‹_›, rfl⟩
  · exact .inr rfl

theorem inFloatRange_min {lo hi hi' : ℚ} {x y : PyFloat} (hx : inFloatRange lo hi x)
    (hy : inFloatRange lo hi' y) : inFloatRange lo hi (x.min y) := by
  rcases PyFloat.min_cases x y with ⟨hlt, he⟩ | he
  · rw [he]
    exact inFloatRange_of_lt hx hy hlt
  · rw [he]
    exact hx

theorem ConfigValues.capped_valid {c : ConfigValues} (h : c.valid = true) : c.capped.valid = true := by
  rw [ConfigValues.capped_eq]
  obtain ⟨h1, h2, h3, h4, h5, h6⟩ := ConfigValues.valid_iff.1 h
  exact ConfigValues.valid_iff.2 ⟨h1, inFloatRange_min h2 h3, h3, h4, inFloatRange_min h5 h6, h6⟩

/-! ## The store -/

namespace RuntimeConfigStore

def fromSettings (settings : Settings) : RuntimeConfigStore :=
  ⟨settings.toConfigValues, ConfigValues.valid_of_settings settings.isValid⟩

def view (store : RuntimeConfigStore) : RuntimeConfig := ⟨store.toConfigValues, store.isValid⟩

/-- `patch`; it returns the view of the new attributes. -/
def patch (store : RuntimeConfigStore) (patch : RuntimeConfigPatch) : RuntimeConfigStore :=
  ⟨(patch.update store.toConfigValues).capped,
    ConfigValues.capped_valid (patch.update_valid store.isValid)⟩

/-- `replace` sets every attribute. -/
def replace (_store : RuntimeConfigStore) (config : RuntimeConfig) : RuntimeConfigStore :=
  ⟨config.toConfigValues, config.isValid⟩

end RuntimeConfigStore

/-- The shared and the process-local patch agree, and neither fails. -/
theorem mergeRuntimeConfig_eq (store : RuntimeConfigStore) (patch : RuntimeConfigPatch) :
    mergeRuntimeConfig store.view patch = .ok (store.patch patch).view := by
  have hvalid := (store.patch patch).isValid
  have heq : (store.patch patch).toConfigValues = (patch.update store.toConfigValues).capped := rfl
  rw [heq, ConfigValues.capped_eq] at hvalid
  refine (dif_pos hvalid).trans (congrArg Except.ok ?_)
  unfold RuntimeConfigStore.view
  congr 1
  exact (ConfigValues.capped_eq _).symm

end PulseQueue
