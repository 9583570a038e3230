import Mathlib

/-!
# The proleptic Gregorian calendar

Days are numbered from 1 = 0001-01-01. `ymd2ord` numbers a date, `ord2ymd` is the date of a number
(the algorithm of CPython's `datetime`). `ymd2ord_ord2ymd` is the round trip and `ymd2ord_lt` says
that the numbering follows the order of year, month and day.
-/

namespace Calendar

def isLeap (y : Nat) : Bool := y % 4 == 0 && (y % 100 != 0 || y % 400 == 0)

/-- Days before January 1st of year `y`. -/
def daysBeforeYear (y : Nat) : Nat := (y - 1) * 365 + (y - 1) / 4 - (y - 1) / 100 + (y - 1) / 400

def daysInMonth (leap : Bool) : Nat → Nat
  | 2 => if leap then 29 else 28
  | 4 | 6 | 9 | 11 => 30
  | _ => 31

/-- Days of the year before the first of month `m`. -/
def daysBeforeMonth (leap : Bool) (m : Nat) : Nat :=
  [0, 0, 31, 59, 90, 120, 151, 181, 212, 243, 273, 304, 334].getD m 365 +
    if m > 2 && leap then 1 else 0

structure Date where
  year : Nat
  month : Nat
  day : Nat
deriving DecidableEq

/-- A date the calendar has. -/
structure Date.Valid (d : Date) : Prop where
  year_pos : 1 ≤ d.year
  month_pos : 1 ≤ d.month
  month_le : d.month ≤ 12
  day_pos : 1 ≤ d.day
  day_le : d.day ≤ daysInMonth (isLeap d.year) d.month

/-- The day number of a date. -/
def ymd2ord (d : Date) : Nat :=
  daysBeforeYear d.year + daysBeforeMonth (isLeap d.year) d.month + d.day

/-- Month and day of the day with index `n` in its year: an estimate that is at most one too
large. -/
def monthDay (leap : Bool) (n : Nat) : Nat × Nat :=
  let month := (n + 50) / 32
  if daysBeforeMonth leap month > n then (month - 1, n - daysBeforeMonth leap (month - 1) + 1)
  else (month, n - daysBeforeMonth leap month + 1)

/-- The date of a day number. -/
def ord2ymd (n : Nat) : Date :=
  let n := n - 1
  let n400 := n / 146097
  let n := n % 146097
  let n100 := n / 36524
  let n := n % 36524
  let n4 := n / 1461
  let n := n % 1461
  let n1 := n / 365
  let n := n % 365
  let year := n400 * 400 + 1 + n100 * 100 + n4 * 4 + n1
  if n1 = 4 ∨ n100 = 4 then ⟨year - 1, 12, 31⟩
  else
    let leap := n1 == 3 && (n4 != 24 || n100 == 3)
    ⟨year, (monthDay leap n).1, (monthDay leap n).2⟩

/-! ## Years and months -/

theorem isLeap_iff (y : Nat) : isLeap y = true ↔ 4 ∣ y ∧ (¬ 100 ∣ y ∨ 400 ∣ y) := by
  simp only [isLeap, Bool.and_eq_true, beq_iff_eq, Bool.or_eq_true, bne_iff_ne, ne_eq,
    Nat.dvd_iff_mod_eq_zero]

theorem daysBeforeYear_succ {y : Nat} (h : 1 ≤ y) :
    daysBeforeYear (y + 1) = daysBeforeYear y + 365 + (if isLeap y then 1 else 0) := by
  obtain ⟨k, rfl⟩ : ∃ k, y = k + 1 := ⟨y - 1, by omega⟩
  have h100 : 100 ∣ k + 1 → 4 ∣ k + 1 := (Dvd.dvd.trans (by decide) ·)
  have h400 : 400 ∣ k + 1 → 100 ∣ k + 1 := (Dvd.dvd.trans (by decide) ·)
  have hle : k / 100 ≤ k / 4 := Nat.div_le_div_left (by decide) (by decide)
  simp only [daysBeforeYear, Nat.add_sub_cancel, isLeap_iff, Nat.succ_div]
  generalize k / 4 = a, k / 100 = b, k / 400 = c at hle ⊢
  -- the three divisibility conditions, as the leap rule nests them
  by_cases h4 : 4 ∣ k + 1
  · by_cases h1 : 100 ∣ k + 1
    · by_cases h2 : 400 ∣ k + 1 <;> simp only [h4, h1, h2] <;> simp <;> omega
    · have h2 : ¬ 400 ∣ k + 1 := fun h => h1 (h400 h)
      simp only [h4, h1, h2]
      simp
      omega
  · have h1 : ¬ 100 ∣ k + 1 := fun h => h4 (h100 h)
    have h2 : ¬ 400 ∣ k + 1 := fun h => h1 (h400 h)
    simp only [h4, h1, h2]
    simp
    omega

theorem daysBeforeYear_mono {y y' : Nat} (h1 : 1 ≤ y) (h : y ≤ y') :
    daysBeforeYear y ≤ daysBeforeYear y' := by
  induction h with
  | refl => exact Nat.le_refl _
  | @step m h ih =>
    have hs := daysBeforeYear_succ (Nat.le_trans h1 h)
    rw [Nat.succ_eq_add_one]
    omega

theorem month_table : ∀ leap : Bool, ∀ m < 13, ∀ m' < 13, 1 ≤ m → m < m' →
    daysBeforeMonth leap m + daysInMonth leap m ≤ daysBeforeMonth leap m' := by
  decide

theorem year_table : ∀ leap : Bool, ∀ m < 13, 1 ≤ m →
    daysBeforeMonth leap m + daysInMonth leap m ≤ 365 + (if leap then 1 else 0) := by
  decide

theorem monthDay_table : ∀ leap : Bool, ∀ n < 366, n < 365 + (if leap then 1 else 0) →
    (1 ≤ (monthDay leap n).1 ∧ (monthDay leap n).1 ≤ 12 ∧ 1 ≤ (monthDay leap n).2 ∧
      (monthDay leap n).2 ≤ daysInMonth leap (monthDay leap n).1) ∧
    daysBeforeMonth leap (monthDay leap n).1 + (monthDay leap n).2 = n + 1 := by
  decide +kernel

/-! ## The numbering follows the order of dates -/

/-- Chronological order of dates. -/
def Date.Before (d d' : Date) : Prop :=
  d.year < d'.year ∨ d.year = d'.year ∧
    (d.month < d'.month ∨ d.month = d'.month ∧ d.day < d'.day)

theorem ymd2ord_lt {d d' : Date} (h : d.Valid) (h' : d'.Valid) (hb : d.Before d') :
    ymd2ord d < ymd2ord d' := by
  unfold ymd2ord
  rcases hb with hy | ⟨hy, hm | ⟨hm, hd⟩⟩
  · have h1 := year_table (isLeap d.year) d.month (by have := h.month_le; omega) h.month_pos
    have h2 := daysBeforeYear_succ h.year_pos
    have h3 := daysBeforeYear_mono (by omega) (show d.year + 1 ≤ d'.year from hy)
    have h4 := h.day_le
    have h5 := h'.day_pos
    omega
  · have h1 := month_table (isLeap d.year) d.month (by have := h.month_le; omega) d'.month
      (by have := h'.month_le; omega) h.month_pos hm
    have h4 := h.day_le
    have h5 := h'.day_pos
    rw [← hy]
    omega
  · rw [← hy, ← hm]
    omega

theorem Date.before_or {d d' : Date} (h : d ≠ d') : d.Before d' ∨ d'.Before d := by
  obtain ⟨y, m, n⟩ := d
  obtain ⟨y', m', n'⟩ := d'
  have : y ≠ y' ∨ m ≠ m' ∨ n ≠ n' := by
    by_contra hc
    simp only [not_or, not_not] at hc
    obtain ⟨rfl, rfl, rfl⟩ := hc
    exact h rfl
  simp only [Date.Before]
  omega

/-! ## The round trip -/

/-- Years of a 400-year cycle: `c` centuries, `f` four-year groups and `r` years in. -/
theorem daysBeforeYear_cycle {q c f r : Nat} (hc : c < 4) (hf : f < 25) (hr : r < 4) :
    daysBeforeYear (q * 400 + 1 + c * 100 + f * 4 + r) =
      q * 146097 + c * 36524 + f * 1461 + r * 365 := by
  simp only [daysBeforeYear]
  have e : q * 400 + 1 + c * 100 + f * 4 + r - 1 = q * 400 + c * 100 + f * 4 + r := by omega
  have e4 : (q * 400 + c * 100 + f * 4 + r) / 4 = q * 100 + c * 25 + f := by omega
  have e100 : (q * 400 + c * 100 + f * 4 + r) / 100 = q * 4 + c := by omega
  have e400 : (q * 400 + c * 100 + f * 4 + r) / 400 = q := by omega
  rw [e, e4, e100, e400]
  omega

theorem isLeap_cycle {q c f r : Nat} (hc : c < 4) (hf : f < 25) (hr : r < 4) :
    isLeap (q * 400 + 1 + c * 100 + f * 4 + r) = (r == 3 && (f != 24 || c == 3)) := by
  rw [Bool.eq_iff_iff, isLeap_iff]
  simp only [Bool.and_eq_true, beq_iff_eq, Bool.or_eq_true, bne_iff_ne, ne_eq]
  have h4 : 4 ∣ q * 400 + 1 + c * 100 + f * 4 + r ↔ r = 3 := by omega
  rw [h4]
  refine and_congr_right fun h => ?_
  subst h
  have h100 : 100 ∣ q * 400 + 1 + c * 100 + f * 4 + 3 ↔ f = 24 := by omega
  have h400 : 400 ∣ q * 400 + 1 + c * 100 + f * 4 + 3 ↔ f = 24 ∧ c = 3 := by omega
  rw [h100, h400]
  omega

/-- The last day of a leap year. -/
theorem december31 {y : Nat} (hy : 1 ≤ y) (hl : isLeap y = true) :
    (Date.mk y 12 31).Valid ∧ ymd2ord ⟨y, 12, 31⟩ = daysBeforeYear y + 366 := by
  refine ⟨⟨hy, by simp, by simp, by simp, by simp [daysInMonth]⟩, ?_⟩
  simp [ymd2ord, hl, daysBeforeMonth]

theorem ord2ymd_spec {n : Nat} (hn : 1 ≤ n) :
    (ord2ymd n).Valid ∧ ymd2ord (ord2ymd n) = n := by
  obtain ⟨k, rfl⟩ : ∃ k, n = k + 1 := ⟨n - 1, by omega⟩
  simp only [ord2ymd, Nat.add_sub_cancel]
  generalize hq : k / 146097 = q
  generalize hk1 : k % 146097 = k1
  generalize hc : k1 / 36524 = c
  generalize hk2 : k1 % 36524 = k2
  generalize hf : k2 / 1461 = f
  generalize hk3 : k2 % 1461 = k3
  generalize hr : k3 / 365 = r
  generalize hk4 : k3 % 365 = k4
  have hf25 : f < 25 := by omega
  split
  -- the extra day of a cycle: December 31st of the cycle's last, leap, year
  · rename_i h
    rcases Nat.lt_or_ge c 4 with hc4 | hc4
    · have hr4 : r = 4 := by omega
      have hf24 : f < 24 := by omega
      have hy : q * 400 + 1 + c * 100 + f * 4 + r - 1 = q * 400 + 1 + c * 100 + f * 4 + 3 := by omega
      have hleap : isLeap (q * 400 + 1 + c * 100 + f * 4 + 3) = true := by
        rw [isLeap_cycle hc4 hf25 (by decide)]
        simp only [beq_self_eq_true, Bool.true_and, Bool.or_eq_true, bne_iff_ne]
        exact .inl (by omega)
      obtain ⟨hv, ho⟩ := december31 (by omega) hleap
      rw [hy]
      refine ⟨hv, ?_⟩
      rw [ho, daysBeforeYear_cycle hc4 hf25 (by decide)]
      omega
    · have hc' : c = 4 := by omega
      have hy : q * 400 + 1 + c * 100 + f * 4 + r - 1 = q * 400 + 1 + 3 * 100 + 24 * 4 + 3 := by omega
      have hleap : isLeap (q * 400 + 1 + 3 * 100 + 24 * 4 + 3) = true := by
        rw [isLeap_cycle (by decide) (by decide) (by decide)]
        rfl
      obtain ⟨hv, ho⟩ := december31 (by omega) hleap
      rw [hy]
      refine ⟨hv, ?_⟩
      rw [ho, daysBeforeYear_cycle (by decide) (by decide) (by decide)]
      omega
  -- every other day: month and day come from the table of its year
  · rename_i h
    have hc4 : c < 4 := by omega
    have hr4 : r < 4 := by omega
    rw [← isLeap_cycle (q := q) hc4 hf25 hr4]
    generalize hy : q * 400 + 1 + c * 100 + f * 4 + r = y
    have hk4' : k4 < 365 := by omega
    obtain ⟨⟨hm1, hm12, hd1, hd⟩, ho⟩ := monthDay_table (isLeap y) k4 (by omega) (by omega)
    refine ⟨⟨by simp only; omega, hm1, hm12, hd1, hd⟩, ?_⟩
    have hdb := daysBeforeYear_cycle (q := q) hc4 hf25 hr4
    rw [hy] at hdb
    simp only [ymd2ord]
    omega

theorem ord2ymd_valid {n : Nat} (hn : 1 ≤ n) : (ord2ymd n).Valid := (ord2ymd_spec hn).1

theorem ymd2ord_ord2ymd {n : Nat} (hn : 1 ≤ n) : ymd2ord (ord2ymd n) = n := (ord2ymd_spec hn).2

/-- Dates of later days are later. -/
theorem ord2ymd_before {n n' : Nat} (hn : 1 ≤ n) (h : n < n') :
    (ord2ymd n).Before (ord2ymd n') := by
  have hn' : 1 ≤ n' := by omega
  have hne : ord2ymd n ≠ ord2ymd n' := by
    intro he
    have := congrArg ymd2ord he
    rw [ymd2ord_ord2ymd hn, ymd2ord_ord2ymd hn'] at this
    omega
  rcases Date.before_or hne with hb | hb
  · exact hb
  · have := ymd2ord_lt (ord2ymd_valid hn') (ord2ymd_valid hn) hb
    rw [ymd2ord_ord2ymd hn, ymd2ord_ord2ymd hn'] at this
    omega

/-- The days of years 1 to 9999 have four-digit years. -/
theorem ord2ymd_year_le {n : Nat} (hn : 1 ≤ n) (h : n ≤ 3652059) : (ord2ymd n).year ≤ 9999 := by
  by_contra hc
  have hv := ord2ymd_valid hn
  have ho := ymd2ord_ord2ymd hn
  have hm := daysBeforeYear_mono (y := 10000) (by decide) (show 10000 ≤ (ord2ymd n).year by omega)
  have hd := hv.day_pos
  have h0 : daysBeforeYear 10000 = 3652059 := by decide
  simp only [ymd2ord] at ho
  omega

end Calendar
