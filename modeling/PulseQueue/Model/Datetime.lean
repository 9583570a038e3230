import PulseQueue.Model.Time

/-!
# Datetimes (`to_db_time`, `parse_db_time`, `normalize_run_at`)

A `datetime` may be naive or have any UTC offset; `to_db_time` and the validator of `run_at` read a
naive one as UTC and convert the others. The conversion exists when the instant is in the range of
`datetime`.
-/

namespace PulseQueue

/-- `utcoffset()`, strictly between -24 and 24 hours. -/
structure UtcOffset where
  micros : Int
  inRange : -86400000000 < micros ∧ micros < 86400000000
deriving DecidableEq

/-- The offset of `timezone.utc`. -/
def UtcOffset.utc : UtcOffset := ⟨0, by decide⟩

/-- `wall` has the fields, as the UTC time with these fields; a naive value has no offset. -/
structure Datetime where
  wall : UtcTime
  utcoffset : Option UtcOffset
deriving DecidableEq

namespace Datetime

variable (value : Datetime)

/-- The microseconds from 0001-01-01T00:00:00 UTC to the instant; a naive value is read as UTC. -/
def instant : Int := value.wall.micros - (value.utcoffset.getD .utc).micros

/-- `astimezone(timezone.utc)` of an aware value; `none` when it leaves the range (`OverflowError`). -/
def astimezone (wall : UtcTime) (offset : UtcOffset) : Option UtcTime :=
  let m := (wall.micros : Int) - offset.micros
  if h : 0 ≤ m ∧ m.toNat < maxMicros then some ⟨m.toNat, h.2⟩ else none

/-- `replace(tzinfo=timezone.utc)`, then `astimezone(timezone.utc)`; an aware value is only converted. -/
def toUtc : Option UtcTime :=
  match value.utcoffset with
  | none => astimezone value.wall .utc
  | some offset => astimezone value.wall offset

/-- `to_db_time`. -/
def toDbTime : Option DbTime := value.toUtc.map PulseQueue.toDbTime

/-- `normalize_run_at` on a value that is set. -/
def normalizeRunAt : Option UtcTime :=
  match value.utcoffset with
  | none => some value.wall
  | some offset => astimezone value.wall offset

/-! ## Instants -/

theorem toUtc_eq : value.toUtc = astimezone value.wall (value.utcoffset.getD .utc) := by
  unfold toUtc
  cases value.utcoffset <;> rfl

/-- The conversion is the value's instant. -/
theorem toUtc_eq_some {value : Datetime} {t : UtcTime} :
    value.toUtc = some t ↔ (t.micros : Int) = value.instant := by
  simp only [toUtc_eq, astimezone, instant]
  have hb := t.inRange
  constructor
  · intro h
    split at h
    · cases h
      simp only
      omega
    · cases h
  · intro h
    rw [dif_pos ⟨by omega, by omega⟩, Option.some.injEq]
    apply UtcTime.micros_injective
    simp only
    omega

/-- A value that is UTC already is written as it is. -/
theorem toDbTime_utc (t : UtcTime) : Datetime.toDbTime ⟨t, some .utc⟩ = some (PulseQueue.toDbTime t) := by
  have h : Datetime.toUtc ⟨t, some .utc⟩ = some t := toUtc_eq_some.2 (by simp [instant, UtcOffset.utc])
  rw [toDbTime, h, Option.map_some]

/-- The validator and `to_db_time` read the same instant. -/
theorem normalizeRunAt_eq : value.normalizeRunAt = value.toUtc := by
  unfold normalizeRunAt
  cases ho : value.utcoffset with
  | none =>
    have h : value.toUtc = some value.wall :=
      toUtc_eq_some.2 (by simp [instant, ho, UtcOffset.utc])
    exact h.symm
  | some offset => simp only [toUtc, ho]

end Datetime

/-! ## Bytes of a column -/

/-- The bytes that SQL compares. -/
def DbTime.bytes (d : DbTime) : List UInt8 := FixedWidth.utf8 d.text

end PulseQueue
