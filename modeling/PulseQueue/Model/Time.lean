import PulseQueue.Lib.Calendar
import PulseQueue.Lib.Double
import PulseQueue.Lib.FixedWidth

/-!
# Timestamps

`UtcTime` is an aware UTC `datetime`, as its microseconds since 0001-01-01T00:00:00. Every timestamp
column holds `to_db_time` of one, its ISO text (`DbTime`), and SQL compares the texts. The texts are
ordered like the instants (`toDbTime_le`, `toDbTime_lt`) and `parse_db_time` reads them back
(`parse_toDbTime`, `toDbTime_parse`).
-/

namespace PulseQueue

open Calendar FixedWidth

/-- Microseconds from 0001-01-01 to the end of 9999, the range of `datetime`. -/
def maxMicros : Nat := 3652059 * 24 * 60 * 60 * 1000000

structure UtcTime where
  micros : Nat
  inRange : micros < maxMicros
deriving DecidableEq

namespace UtcTime

theorem micros_injective : Function.Injective UtcTime.micros := by
  rintro ⟨a, ha⟩ ⟨b, hb⟩ h
  cases h
  rfl

instance : LinearOrder UtcTime := LinearOrder.lift' UtcTime.micros micros_injective

theorem le_iff {a b : UtcTime} : a ≤ b ↔ a.micros ≤ b.micros := Iff.rfl
theorem lt_iff {a b : UtcTime} : a < b ↔ a.micros < b.micros := Iff.rfl

variable (t : UtcTime)

/-! ## Fields -/

def microsecond : Nat := t.micros % 1000000
def second : Nat := t.micros / 1000000 % 60
def minute : Nat := t.micros / 1000000 / 60 % 60
def hour : Nat := t.micros / 1000000 / 60 / 60 % 24
/-- The day number, from 1. -/
def ordinal : Nat := t.micros / 1000000 / 60 / 60 / 24 + 1
def date : Date := ord2ymd t.ordinal

theorem ordinal_le : t.ordinal ≤ 3652059 := by
  have h := t.inRange
  simp only [maxMicros] at h
  simp only [ordinal]
  omega

/-- The date's fields fit their widths. -/
theorem date_bounds : t.date.year < 10 ^ 4 ∧ t.date.month < 10 ^ 2 ∧ t.date.day < 10 ^ 2 := by
  have hv : t.date.Valid := ord2ymd_valid (by simp [ordinal])
  have hy : t.date.year ≤ 9999 := ord2ymd_year_le (by simp [ordinal]) t.ordinal_le
  have hm := hv.month_le
  have hd := hv.day_le
  have h31 : daysInMonth (isLeap t.date.year) t.date.month ≤ 31 := by
    unfold daysInMonth
    split <;> (try split) <;> omega
  omega

/-- The `.ffffff` part, absent when zero, and the UTC offset. -/
def fractionText (us : Nat) : List Char :=
  (if us = 0 then [] else '.' :: pad 6 us) ++ ['+', '0', '0', ':', '0', '0']

/-- `isoformat()`. -/
def isoformat : List Char :=
  pad 4 t.date.year ++ '-' :: (pad 2 t.date.month ++ '-' :: (pad 2 t.date.day ++ 'T' ::
    (pad 2 t.hour ++ ':' :: (pad 2 t.minute ++ ':' :: (pad 2 t.second ++
      fractionText t.microsecond)))))

/-! ## The text order -/

theorem fractionText_lt {u u' : Nat} (h : u < u') (hu : u' < 10 ^ 6) :
    fractionText u < fractionText u' := by
  have h0' : u' ≠ 0 := by omega
  unfold fractionText
  by_cases h0 : u = 0
  · simp only [h0, h0', if_true, if_false, List.nil_append, List.cons_append]
    rw [List.cons_lt_cons_iff]
    exact .inl (by decide)
  · simp only [h0, h0', if_false, List.cons_append]
    rw [List.cons_lt_cons_iff]
    exact .inr ⟨rfl, lt_append_of_lt _ _ (by simp) (pad_lt h hu)⟩

theorem pad_append_lt {w n n' : Nat} (s s' : List Char) (h : n < n') (hn : n' < 10 ^ w) :
    pad w n ++ s < pad w n' ++ s' :=
  lt_append_of_lt s s' (by simp) (pad_lt h hn)

theorem append_sep_lt {l s s' : List Char} (c : Char) (h : s < s') : l ++ c :: s < l ++ c :: s' :=
  List.append_left_lt (List.cons_lt_cons_iff.2 (.inr ⟨rfl, h⟩))

theorem div_lt_or {x y : Nat} (k : Nat) (h : x < y) :
    x / k < y / k ∨ x / k = y / k ∧ x % k < y % k := by
  rcases Nat.lt_or_ge (x / k) (y / k) with hlt | hge
  · exact .inl hlt
  · have he : x / k = y / k := Nat.le_antisymm (Nat.div_le_div_right (Nat.le_of_lt h)) hge
    refine .inr ⟨he, ?_⟩
    have hx := Nat.div_add_mod x k
    have hy := Nat.div_add_mod y k
    rw [he] at hx
    omega

/-- A later instant has a later text: the first differing field decides. -/
theorem isoformat_strictMono {a b : UtcTime} (h : a < b) : a.isoformat < b.isoformat := by
  obtain ⟨hy, hm, hd⟩ := date_bounds b
  unfold isoformat
  rcases div_lt_or 1000000 (lt_iff.1 h) with h1 | ⟨e1, h1⟩
  · rcases div_lt_or 60 h1 with h2 | ⟨e2, h2⟩
    · rcases div_lt_or 60 h2 with h3 | ⟨e3, h3⟩
      · rcases div_lt_or 24 h3 with h4 | ⟨e4, h4⟩
        · have hb : a.date.Before b.date := by
            refine ord2ymd_before (by simp [ordinal]) ?_
            simp only [ordinal]
            omega
          rcases hb with h5 | ⟨e5, h5 | ⟨e6, h5⟩⟩
          · exact pad_append_lt _ _ h5 hy
          · rw [e5]
            exact append_sep_lt _ (pad_append_lt _ _ h5 hm)
          · rw [e5, e6]
            exact append_sep_lt _ (append_sep_lt _ (pad_append_lt _ _ h5 hd))
        · have ed : a.date = b.date := by simp only [date, ordinal, e4]
          rw [ed]
          refine append_sep_lt _ (append_sep_lt _ (append_sep_lt _ (pad_append_lt _ _ h4 ?_)))
          simp only [hour]
          omega
      · have ed : a.date = b.date := by simp only [date, ordinal, e3]
        have eh : a.hour = b.hour := by simp only [hour, e3]
        rw [ed, eh]
        refine append_sep_lt _ (append_sep_lt _ (append_sep_lt _ (append_sep_lt _
          (pad_append_lt _ _ h3 ?_))))
        simp only [minute]
        omega
    · have ed : a.date = b.date := by simp only [date, ordinal, e2]
      have eh : a.hour = b.hour := by simp only [hour, e2]
      have em : a.minute = b.minute := by simp only [minute, e2]
      rw [ed, eh, em]
      refine append_sep_lt _ (append_sep_lt _ (append_sep_lt _ (append_sep_lt _ (append_sep_lt _
        (pad_append_lt _ _ h2 ?_)))))
      simp only [second]
      omega
  · have ed : a.date = b.date := by simp only [date, ordinal, e1]
    have eh : a.hour = b.hour := by simp only [hour, e1]
    have em : a.minute = b.minute := by simp only [minute, e1]
    have es : a.second = b.second := by simp only [second, e1]
    rw [ed, eh, em, es]
    refine append_sep_lt _ (append_sep_lt _ (append_sep_lt _ (append_sep_lt _ (append_sep_lt _
      (List.append_left_lt (fractionText_lt h1 ?_))))))
    simp only [microsecond]
    omega

/-! ## Reading the text back -/

/-- The microseconds that an ISO text written by `isoformat` stands for. -/
def fromisoformat (l : List Char) : Nat :=
  let year := value (l.take 4)
  let l := l.drop 5
  let month := value (l.take 2)
  let l := l.drop 3
  let day := value (l.take 2)
  let l := l.drop 3
  let hour := value (l.take 2)
  let l := l.drop 3
  let minute := value (l.take 2)
  let l := l.drop 3
  let second := value (l.take 2)
  let l := l.drop 2
  let micro := if l.head? = some '.' then value ((l.drop 1).take 6) else 0
  (((((ymd2ord ⟨year, month, day⟩ - 1) * 24 + hour) * 60 + minute) * 60 + second) * 1000000) + micro

theorem take_pad (w n : Nat) (s : List Char) : (pad w n ++ s).take w = pad w n :=
  List.take_left' (length_pad w n)

theorem drop_pad (w n : Nat) (s : List Char) : (pad w n ++ s).drop w = s :=
  List.drop_left' (length_pad w n)

theorem drop_pad_sep (w n : Nat) (c : Char) (s : List Char) :
    (pad w n ++ c :: s).drop (w + 1) = s := by
  rw [← List.drop_drop, drop_pad, List.drop_one, List.tail_cons]

theorem fraction_value {u : Nat} (hu : u < 10 ^ 6) :
    (if (fractionText u).head? = some '.' then value (((fractionText u).drop 1).take 6) else 0)
      = u := by
  unfold fractionText
  by_cases h0 : u = 0
  · simp [h0]
  · simp only [h0, if_false, List.cons_append, List.head?_cons, if_true, List.drop_one,
      List.tail_cons]
    rw [take_pad, value_pad hu]

theorem fromisoformat_isoformat : fromisoformat t.isoformat = t.micros := by
  obtain ⟨hy, hm, hd⟩ := date_bounds t
  have hho : t.hour < 10 ^ 2 := by simp only [hour]; omega
  have hmi : t.minute < 10 ^ 2 := by simp only [minute]; omega
  have hse : t.second < 10 ^ 2 := by simp only [second]; omega
  have hus : t.microsecond < 10 ^ 6 := by simp only [microsecond]; omega
  simp only [fromisoformat, isoformat, take_pad, drop_pad_sep, drop_pad, value_pad hy, value_pad hm,
    value_pad hd, value_pad hho, value_pad hmi, value_pad hse, fraction_value hus]
  have ho : ymd2ord t.date = t.ordinal := ymd2ord_ord2ymd (by simp [ordinal])
  rw [show (⟨t.date.year, t.date.month, t.date.day⟩ : Date) = t.date from rfl, ho]
  simp only [ordinal, hour, minute, second, microsecond]
  omega

/-! ## Arithmetic -/

/-- `(a - b).total_seconds()`. -/
def totalSeconds (a b : UtcTime) : ℚ := ((a.micros : ℚ) - b.micros) / 1000000

/-- Microseconds from 0001-01-01 to 1970-01-01. -/
def epochMicros : Nat := 719162 * 24 * 60 * 60 * 1000000

/-- `timestamp()`. -/
def timestamp : ℚ := ((t.micros : ℚ) - epochMicros) / 1000000

/-- `datetime.fromtimestamp(s, tz=timezone.utc)`; `none` when the year leaves the range 1 to 9999. -/
def fromtimestamp (s : ℚ) : Option UtcTime :=
  let m := Rounding.halfEven (s * 1000000) + epochMicros
  if h : 0 ≤ m ∧ m.toNat < maxMicros then some ⟨m.toNat, h.2⟩ else none

theorem fromtimestamp_timestamp : fromtimestamp t.timestamp = some t := by
  have hr : Rounding.halfEven (t.timestamp * 1000000) = (t.micros : Int) - epochMicros := by
    have he : t.timestamp * 1000000 = (((t.micros : Int) - epochMicros : Int) : ℚ) := by
      simp only [timestamp]
      push_cast
      ring
    rw [he, Rounding.halfEven_intCast]
  have hm : (t.micros : Int) - epochMicros + epochMicros = t.micros := by omega
  have hb := t.inRange
  simp only [fromtimestamp, hr, hm]
  rw [dif_pos ⟨by omega, by simpa using hb⟩]
  congr 1

end UtcTime

/-! ## Timestamp columns -/

/-- The text of a timestamp column: every write is `to_db_time` of some instant. -/
structure DbTime where
  text : List Char
  wellFormed : ∃ t : UtcTime, t.isoformat = text
deriving DecidableEq

theorem DbTime.text_injective : Function.Injective DbTime.text := by
  rintro ⟨a, ha⟩ ⟨b, hb⟩ h
  cases h
  rfl

/-- SQL's bytewise order of the texts (they are ASCII). -/
instance : LinearOrder DbTime := LinearOrder.lift' DbTime.text DbTime.text_injective

def toDbTime (t : UtcTime) : DbTime := ⟨t.isoformat, t, rfl⟩

def parseDbTime (d : DbTime) : UtcTime :=
  ⟨UtcTime.fromisoformat d.text, by
    obtain ⟨t, ht⟩ := d.wellFormed
    rw [← ht, t.fromisoformat_isoformat]
    exact t.inRange⟩

@[simp] theorem parse_toDbTime (t : UtcTime) : parseDbTime (toDbTime t) = t :=
  UtcTime.micros_injective t.fromisoformat_isoformat

@[simp] theorem toDbTime_parse (d : DbTime) : toDbTime (parseDbTime d) = d := by
  obtain ⟨l, t, rfl⟩ := d
  have h := parse_toDbTime t
  simp only [toDbTime] at h
  rw [h]
  rfl

theorem toDbTime_strictMono : StrictMono toDbTime := fun _ _ h => UtcTime.isoformat_strictMono h

@[simp] theorem toDbTime_lt {a b : UtcTime} : toDbTime a < toDbTime b ↔ a < b :=
  toDbTime_strictMono.lt_iff_lt

@[simp] theorem toDbTime_le {a b : UtcTime} : toDbTime a ≤ toDbTime b ↔ a ≤ b :=
  toDbTime_strictMono.le_iff_le

@[simp] theorem toDbTime_inj {a b : UtcTime} : toDbTime a = toDbTime b ↔ a = b :=
  toDbTime_strictMono.injective.eq_iff

theorem parseDbTime_le {a b : DbTime} : parseDbTime a ≤ parseDbTime b ↔ a ≤ b := by
  rw [← toDbTime_le, toDbTime_parse, toDbTime_parse]

theorem parseDbTime_lt {a b : DbTime} : parseDbTime a < parseDbTime b ↔ a < b := by
  rw [← toDbTime_lt, toDbTime_parse, toDbTime_parse]

theorem parseDbTime_inj {a b : DbTime} : parseDbTime a = parseDbTime b ↔ a = b := by
  rw [← toDbTime_inj, toDbTime_parse, toDbTime_parse]

theorem parseDbTime_le_now {a : DbTime} {now : UtcTime} :
    parseDbTime a ≤ now ↔ a ≤ toDbTime now := by
  rw [← toDbTime_le, toDbTime_parse]

end PulseQueue
