import Mathlib

/-!
# Rounding to the nearest number

`halfEven x` is the integer nearest to `x`, and `double x` the binary64 number nearest to it: 53 bits,
gradual underflow, and no overflow, which stays out of reach of the sums and quotients it is used for.
Both round a tie to even and are monotone (`halfEven_mono`, `double_mono`). In a binade, and between two
of them, this follows from what lies on the grid of a number: the multiples of its `quantum` that bound it
bound its rounding (`double_le`, `le_double`).
-/

namespace Rounding

/-! ## To an integer -/

/-- The nearest integer, of two the even one. -/
def halfEven (x : ℚ) : ℤ :=
  let n := ⌊x⌋
  if x - n < 1 / 2 then n
  else if 1 / 2 < x - n then n + 1
  else if n % 2 = 0 then n else n + 1

theorem halfEven_bounds (x : ℚ) : ⌊x⌋ ≤ halfEven x ∧ halfEven x ≤ ⌊x⌋ + 1 := by
  simp only [halfEven]
  split_ifs <;> omega

theorem halfEven_mono : Monotone halfEven := by
  intro x y h
  rcases (Int.floor_le_floor h).lt_or_eq with hlt | heq
  · have hx := (halfEven_bounds x).2
    have hy := (halfEven_bounds y).1
    omega
  · have hf : x - ⌊y⌋ ≤ y - ⌊y⌋ := sub_le_sub_right h _
    simp only [halfEven, heq]
    split_ifs <;> first | omega | linarith

@[simp] theorem halfEven_intCast (n : ℤ) : halfEven n = n := by
  simp [halfEven]

/-! ## To binary64 -/

/-- `2 ^ e`, in a form that evaluates. -/
def pow2 : ℤ → ℚ
  | .ofNat n => (2 ^ n : ℕ)
  | .negSucc n => 1 / (2 ^ (n + 1) : ℕ)

theorem pow2_eq (e : ℤ) : pow2 e = 2 ^ e := by
  cases e with
  | ofNat n => simp [pow2]
  | negSucc n => simp [pow2, zpow_negSucc]

theorem pow2_pos (e : ℤ) : 0 < pow2 e := by
  rw [pow2_eq]
  positivity

/-- The exponent of the last bit. -/
def exponent (x : ℚ) : ℤ := max (Int.log 2 |x| - 52) (-1074)

/-- The distance of the binary64 numbers around `x`. -/
def quantum (x : ℚ) : ℚ := pow2 (exponent x)

def double (x : ℚ) : ℚ := halfEven (x / quantum x) * quantum x

section
variable {x y : ℚ}

theorem quantum_pos (x : ℚ) : 0 < quantum x := pow2_pos _

theorem double_le {n : ℤ} (h : x ≤ n * quantum x) : double x ≤ n * quantum x := by
  have hq := quantum_pos x
  have hn : halfEven (x / quantum x) ≤ n := by
    rw [← halfEven_intCast n]
    exact halfEven_mono ((div_le_iff₀ hq).2 h)
  exact mul_le_mul_of_nonneg_right (Int.cast_le.2 hn) hq.le

theorem le_double {n : ℤ} (h : n * quantum x ≤ x) : n * quantum x ≤ double x := by
  have hq := quantum_pos x
  have hn : n ≤ halfEven (x / quantum x) := by
    rw [← halfEven_intCast n]
    exact halfEven_mono ((le_div_iff₀ hq).2 h)
  exact mul_le_mul_of_nonneg_right (Int.cast_le.2 hn) hq.le

/-- A number has no more than 53 bits over its last one. -/
theorem abs_lt_quantum (x : ℚ) : |x| < 2 ^ 53 * quantum x := by
  have hlog : |x| < 2 ^ (Int.log 2 |x| + 1) := by
    simpa using Int.lt_zpow_succ_log_self (b := 2) (by decide) |x|
  have hexp : Int.log 2 |x| + 1 ≤ 53 + exponent x := by
    unfold exponent
    omega
  calc |x| < 2 ^ (Int.log 2 |x| + 1) := hlog
    _ ≤ 2 ^ (53 + exponent x) := zpow_le_zpow_right₀ (by norm_num) hexp
    _ = 2 ^ 53 * quantum x := by
      rw [quantum, pow2_eq, zpow_add₀ (by norm_num)]
      norm_num

/-- A normal number has all of them. -/
theorem quantum_le_abs (h : -1074 < exponent x) (hx : x ≠ 0) : 2 ^ 52 * quantum x ≤ |x| := by
  have hlog : 2 ^ Int.log 2 |x| ≤ |x| := by
    simpa using Int.zpow_log_le_self (b := 2) (by decide) (abs_pos.2 hx)
  have hexp : 52 + exponent x = Int.log 2 |x| := by
    unfold exponent at h ⊢
    omega
  calc 2 ^ 52 * quantum x = 2 ^ (52 + exponent x) := by
        rw [quantum, pow2_eq, zpow_add₀ (by norm_num)]
        norm_num
    _ = 2 ^ Int.log 2 |x| := by rw [hexp]
    _ ≤ |x| := hlog

/-- From one binade to a higher one, the smaller number stays below a power of two and the larger one at
or above it. -/
theorem quantum_gap (h : exponent x < exponent y) : 2 ^ 53 * quantum x ≤ 2 ^ 52 * quantum y := by
  have hpow : quantum x * 2 ≤ quantum y := by
    have hstep : quantum x * 2 = 2 ^ (exponent x + 1) := by
      rw [quantum, pow2_eq, zpow_add_one₀ (by norm_num)]
    rw [hstep, quantum, pow2_eq]
    exact zpow_le_zpow_right₀ (by norm_num) h
  linarith

theorem exponent_ge (x : ℚ) : -1074 ≤ exponent x := le_max_right _ _

theorem double_nonpos (h : x ≤ 0) : double x ≤ 0 := by
  simpa using double_le (n := 0) (x := x) (by simpa using h)

theorem double_nonneg (h : 0 ≤ x) : 0 ≤ double x := by
  simpa using le_double (n := 0) (x := x) (by simpa using h)

/-- Upwards into a higher binade: only a number above zero lies there. -/
theorem double_le_of_lt (h : x ≤ y) (hexp : exponent x < exponent y) : double x ≤ double y := by
  have hgap := quantum_gap hexp
  have hx := abs_lt_quantum x
  have hnormal : -1074 < exponent y := (exponent_ge x).trans_lt hexp
  rcases lt_trichotomy y 0 with hy | rfl | hy
  · have hy' := quantum_le_abs hnormal hy.ne
    rw [abs_of_neg hy] at hy'
    have hxy := neg_le_abs x
    linarith
  · exact (double_nonpos h).trans (double_nonneg le_rfl)
  · have hy' := quantum_le_abs hnormal hy.ne'
    rw [abs_of_pos hy] at hy'
    have hx' := le_abs_self x
    calc double x ≤ (2 ^ 53 : ℤ) * quantum x := double_le (by push_cast; linarith)
      _ ≤ (2 ^ 52 : ℤ) * quantum y := by push_cast; exact hgap
      _ ≤ double y := le_double (by push_cast; exact hy')

/-- Upwards into a lower binade: only a number below zero lies above it. -/
theorem double_le_of_gt (h : x ≤ y) (hexp : exponent y < exponent x) : double x ≤ double y := by
  have hgap := quantum_gap hexp
  have hy := abs_lt_quantum y
  have hnormal : -1074 < exponent x := (exponent_ge y).trans_lt hexp
  rcases lt_trichotomy x 0 with hx | rfl | hx
  · have hx' := quantum_le_abs hnormal hx.ne
    rw [abs_of_neg hx] at hx'
    have hy' := neg_abs_le y
    calc double x ≤ (-2 ^ 52 : ℤ) * quantum x := double_le (by push_cast; linarith)
      _ ≤ (-2 ^ 53 : ℤ) * quantum y := by push_cast; linarith
      _ ≤ double y := le_double (by push_cast; linarith)
  · exact (double_nonpos le_rfl).trans (double_nonneg h)
  · have hx' := quantum_le_abs hnormal hx.ne'
    rw [abs_of_pos hx] at hx'
    have hxy := le_abs_self y
    linarith

theorem double_mono : Monotone double := by
  intro x y h
  rcases lt_trichotomy (exponent x) (exponent y) with hexp | hexp | hexp
  · exact double_le_of_lt h hexp
  · have hq : quantum x = quantum y := congrArg pow2 hexp
    have hpos := quantum_pos y
    have hgrid : halfEven (x / quantum y) ≤ halfEven (y / quantum y) :=
      halfEven_mono (div_le_div_of_nonneg_right h hpos.le)
    unfold double
    rw [hq]
    exact mul_le_mul_of_nonneg_right (Int.cast_le.2 hgrid) hpos.le
  · exact double_le_of_gt h hexp

end

example : double (3 / 10) = 5404319552844595 / 2 ^ 54 := by decide +kernel

end Rounding
