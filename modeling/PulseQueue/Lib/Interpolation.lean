import Mathlib

/-!
# Linear interpolation

`lerp f x` reads a sequence at a fractional index: the weighted mean of its values at the neighbouring
integers. It lies between the two values (`floor_le_lerp`, `lerp_le_ceil`) and is monotone where the
sequence is (`lerp_mono`).
-/

namespace Interpolation

variable {K : Type*} [Field K] [LinearOrder K] [IsStrictOrderedRing K] [FloorRing K]

/-- `f` at `x`, linear between neighbouring integers. -/
def lerp (f : ℤ → K) (x : K) : K := f ⌊x⌋ * (1 - (x - ⌊x⌋)) + f ⌈x⌉ * (x - ⌊x⌋)

@[simp] theorem lerp_intCast (f : ℤ → K) (n : ℤ) : lerp f n = f n := by
  simp [lerp]

theorem weight_nonneg (x : K) : 0 ≤ x - ⌊x⌋ := sub_nonneg.2 (Int.floor_le x)

theorem weight_le_one (x : K) : x - ⌊x⌋ ≤ 1 := by
  have h := (Int.lt_floor_add_one x).le
  linarith

theorem floor_le_lerp {f : ℤ → K} {x : K} (h : f ⌊x⌋ ≤ f ⌈x⌉) : f ⌊x⌋ ≤ lerp f x := by
  have hw := weight_nonneg x
  have hm := mul_le_mul_of_nonneg_right h hw
  simp only [lerp]
  linarith

theorem lerp_le_ceil {f : ℤ → K} {x : K} (h : f ⌊x⌋ ≤ f ⌈x⌉) : lerp f x ≤ f ⌈x⌉ := by
  have hw := weight_le_one x
  have hm := mul_le_mul_of_nonneg_right h (sub_nonneg.2 hw)
  simp only [lerp]
  linarith

/-- The two neighbours of an index in `[a, b]` are in `[a, b]`. -/
theorem floor_ceil_mem {a b : ℤ} {x : K} (ha : (a : K) ≤ x) (hb : x ≤ b) :
    ⌊x⌋ ∈ Set.Icc a b ∧ ⌈x⌉ ∈ Set.Icc a b := by
  have h1 : a ≤ ⌊x⌋ := Int.le_floor.2 ha
  have h2 : ⌈x⌉ ≤ b := Int.ceil_le.2 hb
  have h3 : ⌊x⌋ ≤ ⌈x⌉ := Int.floor_le_ceil x
  exact ⟨⟨h1, h3.trans h2⟩, ⟨h1.trans h3, h2⟩⟩

theorem floor_le_ceil_of_mono {f : ℤ → K} {a b : ℤ} (hf : MonotoneOn f (Set.Icc a b)) {x : K}
    (ha : (a : K) ≤ x) (hb : x ≤ b) : f ⌊x⌋ ≤ f ⌈x⌉ :=
  hf (floor_ceil_mem ha hb).1 (floor_ceil_mem ha hb).2 (Int.floor_le_ceil x)

/-- Interpolating a monotone sequence is monotone, within an interval and across its ends. -/
theorem lerp_mono {f : ℤ → K} {a b : ℤ} (hf : MonotoneOn f (Set.Icc a b)) {x y : K}
    (ha : (a : K) ≤ x) (hxy : x ≤ y) (hb : y ≤ b) : lerp f x ≤ lerp f y := by
  have hx := floor_ceil_mem ha (hxy.trans hb)
  have hy := floor_ceil_mem (ha.trans hxy) hb
  have hfx := floor_le_ceil_of_mono hf ha (hxy.trans hb)
  have hfy := floor_le_ceil_of_mono hf (ha.trans hxy) hb
  rcases (Int.floor_le_floor hxy).lt_or_eq with hlt | heq
  · -- an integer lies between the two indices
    have hc : ⌈x⌉ ≤ ⌊y⌋ := (Int.ceil_le_floor_add_one x).trans hlt
    calc lerp f x ≤ f ⌈x⌉ := lerp_le_ceil hfx
      _ ≤ f ⌊y⌋ := hf hx.2 hy.1 hc
      _ ≤ lerp f y := floor_le_lerp hfy
  · rcases (Int.ceil_le_ceil hxy).lt_or_eq with hlt | hceil
    · -- only an integer has a smaller ceiling on the same floor
      have hc : ⌈x⌉ ≤ ⌊x⌋ := by
        have := Int.ceil_le_floor_add_one y
        omega
      have he : x = (⌊x⌋ : K) :=
        le_antisymm ((Int.le_ceil x).trans (Int.cast_le.2 hc)) (Int.floor_le x)
      have hl : lerp f x = f ⌊x⌋ := by
        conv_lhs => rw [he]
        exact lerp_intCast f _
      calc lerp f x = f ⌊x⌋ := hl
        _ = f ⌊y⌋ := by rw [heq]
        _ ≤ lerp f y := floor_le_lerp hfy
    · rw [heq, hceil] at hfx
      have hm := mul_le_mul_of_nonneg_left hxy (sub_nonneg.2 hfx)
      simp only [lerp, heq, hceil]
      linarith

end Interpolation
