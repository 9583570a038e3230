import PulseQueue.Lib.Interpolation
import PulseQueue.Model.Metrics

/-!
# Percentiles

`percentile` interpolates the sorted values (`percentile_eq`), so it is monotone in the quantile, between
the rounded extremes, and independent of the order of the list (`percentile_law`).
-/

namespace PulseQueue

open Interpolation Table

/-! ## Rounding and sorting -/

theorem round4_mono : Monotone round4 := by
  intro a b h
  have hm := Rounding.halfEven_mono (mul_le_mul_of_nonneg_right h (by norm_num : (0 : ℚ) ≤ 10000))
  have hc : ((Rounding.halfEven (a * 10000) : Int) : ℚ) ≤ Rounding.halfEven (b * 10000) :=
    Int.cast_le.2 hm
  exact div_le_div_of_nonneg_right hc (by norm_num)

theorem pySorted_perm (values : List ℚ) : (pySorted values).Perm values := orderBy_perm _ values

theorem pySorted_pairwise (values : List ℚ) : (pySorted values).Pairwise (· ≤ ·) :=
  orderBy_asc id values

theorem pySorted_eq_of_perm {values values' : List ℚ} (h : values'.Perm values) :
    pySorted values' = pySorted values :=
  ((pySorted_perm values').trans (h.trans (pySorted_perm values).symm)).eq_of_pairwise
    (fun _ _ _ _ => le_antisymm) (pySorted_pairwise values') (pySorted_pairwise values)

theorem length_pySorted_pos {values : List ℚ} (h : values ≠ []) : 0 < (pySorted values).length := by
  rw [(pySorted_perm values).length_eq]
  exact List.length_pos_iff.2 h

/-! ## Reading the sorted list -/

/-- The list as a sequence. -/
def valueAt (l : List ℚ) (i : Int) : ℚ := l.getD i.toNat 0

theorem pyGet_valueAt {l : List ℚ} {i : Int} (h0 : 0 ≤ i) (h : i < l.length) :
    pyGet l i = .ok (valueAt l i) := by
  have hi : i.toNat < l.length := by omega
  simp [pyGet, valueAt, h0.not_gt, List.getElem?_eq_getElem hi, List.getD_eq_getElem?_getD]

theorem valueAt_mono {l : List ℚ} (h : l.Pairwise (· ≤ ·)) :
    MonotoneOn (valueAt l) (Set.Icc 0 ((l.length : Int) - 1)) := by
  rintro i ⟨hi0, hi⟩ j ⟨hj0, hj⟩ hij
  have hi' : i.toNat < l.length := by omega
  have hj' : j.toNat < l.length := by omega
  rcases hij.lt_or_eq with hlt | rfl
  · have := List.pairwise_iff_getElem.1 h i.toNat j.toNat hi' hj' (by omega)
    simpa [valueAt, List.getD_eq_getElem?_getD, List.getElem?_eq_getElem, hi', hj'] using this
  · exact le_rfl

variable {values : List ℚ} {p q : ℚ}

theorem percentileIndex_range (hne : values ≠ []) (h0 : 0 ≤ p) (h1 : p ≤ 1) :
    0 ≤ percentileIndex (pySorted values) p ∧
      percentileIndex (pySorted values) p ≤ (((pySorted values).length : Int) - 1 : Int) := by
  have hl : (1 : ℚ) ≤ (pySorted values).length := by exact_mod_cast length_pySorted_pos hne
  have hn : (0 : ℚ) ≤ (pySorted values).length - 1 := sub_nonneg.2 hl
  constructor
  · exact mul_nonneg hn h0
  · push_cast
    exact mul_le_of_le_one_right hn h1

/-- Both list accesses are in range, and so is the one at an exact index. -/
theorem accesses_range (hne : values ≠ []) (h0 : 0 ≤ p) (h1 : p ≤ 1) :
    0 ≤ ⌊percentileIndex (pySorted values) p⌋ ∧
      ⌊percentileIndex (pySorted values) p⌋ ≤ ⌈percentileIndex (pySorted values) p⌉ ∧
      ⌈percentileIndex (pySorted values) p⌉ < (pySorted values).length := by
  obtain ⟨hi0, hi1⟩ := percentileIndex_range hne h0 h1
  have hm := floor_ceil_mem (a := 0) (by simpa using hi0) hi1
  have hlow := hm.1.1
  have hup := hm.2.2
  exact ⟨hlow, Int.floor_le_ceil _, by omega⟩

theorem pyInt_eq_floor {x : ℚ} (h : 0 ≤ x) : pyInt x = ⌊x⌋ := by
  simp [pyInt, h.not_gt]

/-- The two branches of `percentile` are one interpolation. -/
theorem percentile_eq (hne : values ≠ []) (h0 : 0 ≤ p) (h1 : p ≤ 1) :
    percentile values p =
      .ok (some (round4 (lerp (valueAt (pySorted values)) (percentileIndex (pySorted values) p)))) := by
  obtain ⟨hlow, hle, hup⟩ := accesses_range hne h0 h1
  have hidx := (percentileIndex_range hne h0 h1).1
  have hemp : values.isEmpty = false := by simpa using hne
  have hget := pyGet_valueAt hlow (hle.trans_lt hup)
  have hget' := pyGet_valueAt (hlow.trans hle) hup
  simp only [percentile, hemp, Bool.false_eq_true, if_false, pyInt_eq_floor hidx, hget, hget']
  split
  · rename_i heq
    have hl : lerp (valueAt (pySorted values)) (percentileIndex (pySorted values) p) =
        valueAt (pySorted values) ⌊percentileIndex (pySorted values) p⌋ := by
      simp only [lerp, ← heq]
      ring
    rw [hl]
    rfl
  · rfl

/-! ## The ends -/

theorem valueAt_mem {l : List ℚ} {i : Int} (h0 : 0 ≤ i) (h : i < l.length) : valueAt l i ∈ l := by
  have hi : i.toNat < l.length := by omega
  simp [valueAt, List.getD_eq_getElem?_getD, List.getElem?_eq_getElem hi]

/-- Every value is at some place of the sorted list. -/
theorem exists_valueAt {x : ℚ} (hx : x ∈ values) :
    ∃ i, 0 ≤ i ∧ i ≤ ((pySorted values).length : Int) - 1 ∧ valueAt (pySorted values) i = x := by
  obtain ⟨n, hn, he⟩ := List.getElem_of_mem ((pySorted_perm values).mem_iff.2 hx)
  refine ⟨n, by omega, by omega, ?_⟩
  simp [valueAt, List.getD_eq_getElem?_getD, List.getElem?_eq_getElem hn, he]

theorem min?_eq_valueAt (hne : values ≠ []) : values.min? = some (valueAt (pySorted values) 0) := by
  have hpos := length_pySorted_pos hne
  rw [List.min?_eq_some_iff]
  constructor
  · exact (pySorted_perm values).mem_iff.1 (valueAt_mem le_rfl (by omega))
  · intro x hx
    obtain ⟨i, hi0, hi, rfl⟩ := exists_valueAt hx
    exact valueAt_mono (pySorted_pairwise values) ⟨le_rfl, by omega⟩ ⟨hi0, hi⟩ hi0

theorem max?_eq_valueAt (hne : values ≠ []) :
    values.max? = some (valueAt (pySorted values) (((pySorted values).length : Int) - 1)) := by
  have hpos := length_pySorted_pos hne
  rw [List.max?_eq_some_iff]
  constructor
  · exact (pySorted_perm values).mem_iff.1 (valueAt_mem (by omega) (by omega))
  · intro x hx
    obtain ⟨i, hi0, hi, rfl⟩ := exists_valueAt hx
    exact valueAt_mono (pySorted_pairwise values) ⟨hi0, hi⟩ ⟨by omega, le_rfl⟩ hi

theorem percentile_zero (hne : values ≠ []) :
    percentile values 0 = .ok (some (round4 (valueAt (pySorted values) 0))) := by
  have hl := lerp_intCast (valueAt (pySorted values)) 0
  rw [percentile_eq hne le_rfl zero_le_one, percentileIndex, mul_zero]
  rw [Int.cast_zero] at hl
  rw [hl]

theorem percentile_one (hne : values ≠ []) :
    percentile values 1 =
      .ok (some (round4 (valueAt (pySorted values) (((pySorted values).length : Int) - 1)))) := by
  have hl := lerp_intCast (valueAt (pySorted values)) (((pySorted values).length : Int) - 1)
  rw [percentile_eq hne zero_le_one le_rfl, percentileIndex, mul_one]
  push_cast at hl
  rw [hl]

/-! ## Monotonicity -/

/-- A larger quantile is not smaller. -/
theorem percentile_mono (hne : values ≠ []) (h0 : 0 ≤ p) (hpq : p ≤ q) (h1 : q ≤ 1) :
    ∃ a b, percentile values p = .ok (some a) ∧ percentile values q = .ok (some b) ∧ a ≤ b := by
  refine ⟨_, _, percentile_eq hne h0 (hpq.trans h1), percentile_eq hne (h0.trans hpq) h1, ?_⟩
  have hl : (1 : ℚ) ≤ (pySorted values).length := by exact_mod_cast length_pySorted_pos hne
  have hidx : percentileIndex (pySorted values) p ≤ percentileIndex (pySorted values) q :=
    mul_le_mul_of_nonneg_left hpq (sub_nonneg.2 hl)
  have hlow := (percentileIndex_range hne h0 (hpq.trans h1)).1
  have hup := (percentileIndex_range hne (h0.trans hpq) h1).2
  exact round4_mono (lerp_mono (valueAt_mono (pySorted_pairwise values)) (by simpa using hlow) hidx hup)

theorem percentile_perm {values' : List ℚ} (h : values'.Perm values) (p : ℚ) :
    percentile values' p = percentile values p := by
  simp only [percentile, h.isEmpty_eq, pySorted_eq_of_perm h]

/-- The view reports both percentiles of a non-empty list, in order. -/
theorem metrics_latencies (hne : values ≠ []) (depth : QueueDepth) (configView : RuntimeConfig)
    (workerStatus : WorkerStatus) (oldestAge : Option ℚ) (busy busy' : Nat) :
    ∃ view p50 p95, Api.metrics depth configView workerStatus values oldestAge busy busy' = .ok view ∧
      view.jobLatencyP50Seconds = some p50 ∧ view.jobLatencyP95Seconds = some p95 ∧ p50 ≤ p95 := by
  obtain ⟨a, b, ha, hb, hab⟩ := percentile_mono hne (p := 50 / 100) (q := 95 / 100) (by norm_num)
    (by norm_num) (by norm_num)
  simp only [Api.metrics, ha, hb]
  exact ⟨_, a, b, rfl, rfl, rfl, hab⟩

theorem percentile_law (values : List ℚ) (hne : values ≠ []) :
    (∀ p, 0 ≤ p → p ≤ 1 →
      let ordered := pySorted values
      let index := percentileIndex ordered p
      0 ≤ ⌊index⌋ ∧ ⌊index⌋ ≤ ⌈index⌉ ∧ ⌈index⌉ < ordered.length ∧ pyInt index = ⌊index⌋) ∧
    (∀ values' : List ℚ, values'.Perm values → ∀ p, percentile values' p = percentile values p) ∧
    ∃ lo hi, values.min? = some lo ∧ values.max? = some hi ∧
      (∀ p q, 0 ≤ p → p ≤ q → q ≤ 1 →
        ∃ a b, percentile values p = .ok (some a) ∧ percentile values q = .ok (some b) ∧
          round4 lo ≤ a ∧ a ≤ b ∧ b ≤ round4 hi) ∧
      percentile values 0 = .ok (some (round4 lo)) ∧ percentile values 1 = .ok (some (round4 hi)) ∧
      ∀ depth configView workerStatus oldestAge busy busy', ∃ view p50 p95,
        Api.metrics depth configView workerStatus values oldestAge busy busy' = .ok view ∧
          view.jobLatencyP50Seconds = some p50 ∧ view.jobLatencyP95Seconds = some p95 ∧
          p50 ≤ p95 := by
  refine ⟨fun p h0 h1 => ?_, fun values' h p => percentile_perm h p, _, _, min?_eq_valueAt hne,
    max?_eq_valueAt hne, fun p q h0 hpq h1 => ?_, percentile_zero hne, percentile_one hne,
    metrics_latencies hne⟩
  · obtain ⟨hlow, hle, hup⟩ := accesses_range hne h0 h1
    exact ⟨hlow, hle, hup, pyInt_eq_floor (percentileIndex_range hne h0 h1).1⟩
  · -- the ends are the percentiles at 0 and 1
    obtain ⟨lo, a, hlo, ha, hle⟩ := percentile_mono hne le_rfl h0 (hpq.trans h1)
    obtain ⟨a', b, ha', hb, hab⟩ := percentile_mono hne h0 hpq h1
    obtain ⟨b', hi, hb', hhi, hle'⟩ := percentile_mono hne (h0.trans hpq) h1 le_rfl
    cases (percentile_zero hne).symm.trans hlo
    cases (percentile_one hne).symm.trans hhi
    cases ha.symm.trans ha'
    cases hb.symm.trans hb'
    exact ⟨a, b, ha, hb, hle, hab, hle'⟩

/-- The values of the tests. -/
theorem percentile_law_four :
    percentile [1, 2, 3, 4] (50 / 100) = .ok (some (5 / 2)) ∧
      percentile [1, 2, 3, 4] (95 / 100) = .ok (some (385 / 100)) ∧
      ∃ a b, percentile [1, 2, 3, 4] (50 / 100) = .ok (some a) ∧
        percentile [1, 2, 3, 4] (95 / 100) = .ok (some b) ∧ a ≤ b := by
  refine ⟨by decide +kernel, by decide +kernel, ?_⟩
  obtain ⟨-, -, _, _, -, -, h, -⟩ := percentile_law [1, 2, 3, 4] (by simp)
  obtain ⟨a, b, ha, hb, -, hab, -⟩ := h (50 / 100) (95 / 100) (by norm_num) (by norm_num) (by norm_num)
  exact ⟨a, b, ha, hb, hab⟩

end PulseQueue
