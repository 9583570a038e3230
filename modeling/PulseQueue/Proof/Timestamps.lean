import PulseQueue.Model.Datetime
import PulseQueue.Model.Metrics
import PulseQueue.Proof.Selection

/-!
# Stored timestamps

The texts that `to_db_time` writes are ordered bytewise as the instants, equal for equal instants, and
read back by `parse_db_time`, so what SQL compares, orders by and tests for equality in the timestamp
columns is time (`timestamps_chronological`).
-/

namespace PulseQueue

open FixedWidth Table UtcTime

/-! ## Bytes -/

theorem ascii_fractionText (us : Nat) : Ascii (UtcTime.fractionText us) := by
  have hz : Ascii ['+', '0', '0', ':', '0', '0'] := by
    intro c hc
    fin_cases hc <;> decide
  unfold UtcTime.fractionText
  split
  · exact hz
  · exact Ascii.sep (by decide) (Ascii.append (ascii_pad 6 us) hz)

theorem ascii_pad_sep {w n : Nat} {c : Char} {l : List Char} (hc : c.val ≤ 127) (h : Ascii l) :
    Ascii (pad w n ++ c :: l) :=
  Ascii.append (ascii_pad w n) (h.sep hc)

theorem ascii_isoformat (t : UtcTime) : Ascii t.isoformat := by
  have hs : Ascii (pad 2 t.second ++ UtcTime.fractionText t.microsecond) :=
    Ascii.append (ascii_pad _ _) (ascii_fractionText _)
  have hm := ascii_pad_sep (w := 2) (n := t.minute) (c := ':') (by decide) hs
  have hh := ascii_pad_sep (w := 2) (n := t.hour) (c := ':') (by decide) hm
  have hd := ascii_pad_sep (w := 2) (n := t.date.day) (c := 'T') (by decide) hh
  have hmo := ascii_pad_sep (w := 2) (n := t.date.month) (c := '-') (by decide) hd
  exact ascii_pad_sep (by decide) hmo

theorem DbTime.ascii (d : DbTime) : Ascii d.text := by
  obtain ⟨t, ht⟩ := d.wellFormed
  rw [← ht]
  exact ascii_isoformat t

theorem DbTime.bytes_lt {d d' : DbTime} : d.bytes < d'.bytes ↔ d < d' := utf8_lt d.ascii d'.ascii

/-! ## Any datetime -/

section
variable {a b : Datetime} {sa sb : DbTime}

theorem toDbTime_eq_some (h : a.toDbTime = some sa) :
    ∃ t : UtcTime, sa = toDbTime t ∧ (t.micros : Int) = a.instant := by
  obtain ⟨t, ht, hsa⟩ := Option.map_eq_some_iff.1 h
  exact ⟨t, hsa.symm, Datetime.toUtc_eq_some.1 ht⟩

theorem parse_datetime (ha : a.toDbTime = some sa) : ((parseDbTime sa).micros : Int) = a.instant := by
  obtain ⟨t, rfl, ht⟩ := toDbTime_eq_some ha
  rw [parse_toDbTime, ht]

theorem datetime_lt (ha : a.toDbTime = some sa) (hb : b.toDbTime = some sb) :
    sa.bytes < sb.bytes ↔ a.instant < b.instant := by
  rw [DbTime.bytes_lt, ← parseDbTime_lt, UtcTime.lt_iff, ← parse_datetime ha, ← parse_datetime hb]
  omega

theorem datetime_eq (ha : a.toDbTime = some sa) (hb : b.toDbTime = some sb) :
    sa.text = sb.text ↔ a.instant = b.instant := by
  rw [DbTime.text_injective.eq_iff, ← parseDbTime_inj, ← UtcTime.micros_injective.eq_iff,
    ← parse_datetime ha, ← parse_datetime hb]
  omega

end

/-! ## The columns -/

/-- What SQL does with the timestamp columns, in terms of the instants. -/
structure SqlChronological : Prop where
  /-- every comparison is bytewise and compares the instants -/
  compare : ∀ d d' : DbTime, (d.bytes < d'.bytes ↔ parseDbTime d < parseDbTime d') ∧
    (d ≤ d' ↔ parseDbTime d ≤ parseDbTime d')
  /-- `status = 'queued' AND run_at <= now` -/
  due_jobs : ∀ (now : UtcTime) (s : Store),
    s.jobs.filter (fun r => r.status = .queued && r.runAt ≤ toDbTime now) = s.dueJobs now
  /-- `ORDER BY priority DESC, run_at ASC, created_at ASC` -/
  claim_order : ∀ rows : List JobRow, (orderBy claimOrder rows).Pairwise fun a b => ¬ b.Before a
  /-- `enabled = 1 AND next_run_at <= now` -/
  due_schedules : ∀ (now : UtcTime) (s : Store),
    s.recurringSchedules.filter (fun r => r.enabled && r.nextRunAt ≤ toDbTime now) =
      s.recurringSchedules.filter fun r => r.enabled && parseDbTime r.nextRunAt ≤ now
  /-- `last_seen_at >= cutoff` -/
  live_instances : ∀ (cutoff : UtcTime) (s : Store),
    s.workerInstances.filter (fun r => toDbTime cutoff ≤ r.lastSeenAt) =
      s.workerInstances.filter fun r => cutoff ≤ parseDbTime r.lastSeenAt
  /-- `ORDER BY` one timestamp, as on `next_run_at` and `created_at` -/
  ascending : ∀ {α : Type} (column : α → DbTime) (rows : List α),
    (orderBy (fun a b => column a ≤ column b) rows).Pairwise fun a b =>
      parseDbTime (column a) ≤ parseDbTime (column b)
  /-- `ORDER BY ... DESC`, as on `finished_at` -/
  descending : ∀ {α : Type} (column : α → DbTime) (rows : List α),
    (orderBy (fun a b => column b ≤ column a) rows).Pairwise fun a b =>
      parseDbTime (column b) ≤ parseDbTime (column a)
  /-- `locked_at = ?` -/
  lease_fence : ∀ r o : JobRow, sqlEq r.lockedAt o.lockedAt =
    sqlEq (r.lockedAt.map parseDbTime) (o.lockedAt.map parseDbTime)
  /-- the unique index on `(schedule_id, scheduled_for)` -/
  occurrence : ∀ r o : JobRow, r.sameOccurrence o = (sqlEq r.scheduleId o.scheduleId &&
    sqlEq (r.scheduledFor.map parseDbTime) (o.scheduledFor.map parseDbTime))

theorem sqlEq_map {α β : Type} [DecidableEq α] [DecidableEq β] {f : α → β}
    (hf : Function.Injective f) (a b : Option α) : sqlEq (a.map f) (b.map f) = sqlEq a b := by
  cases a <;> cases b <;> simp [sqlEq, hf.eq_iff]

theorem parseDbTime_injective : Function.Injective parseDbTime := fun _ _ => parseDbTime_inj.1

theorem sqlChronological : SqlChronological where
  compare d d' := ⟨DbTime.bytes_lt.trans parseDbTime_lt.symm, parseDbTime_le.symm⟩
  due_jobs _ _ := dueJobs_eq
  claim_order rows := (orderBy_pairwise claimOrder_total claimOrder_trans rows).imp fun h => not_before h
  due_schedules now s := by
    simp only [parseDbTime_le_now]
  live_instances cutoff s := by
    have h : ∀ d : DbTime, toDbTime cutoff ≤ d ↔ cutoff ≤ parseDbTime d := fun d => by
      rw [← parseDbTime_le, parse_toDbTime]
    simp only [h]
  ascending column rows := (orderBy_asc column rows).imp parseDbTime_le.2
  descending column rows := (orderBy_desc column rows).imp parseDbTime_le.2
  lease_fence r o := (sqlEq_map parseDbTime_injective _ _).symm
  occurrence r o := by
    rw [sqlEq_map parseDbTime_injective]
    rfl

theorem timestamps_chronological :
    (∀ (a b : Datetime) (sa sb : DbTime), a.toDbTime = some sa → b.toDbTime = some sb →
      (sa.bytes < sb.bytes ↔ a.instant < b.instant) ∧ (sa.text = sb.text ↔ a.instant = b.instant) ∧
        ((parseDbTime sa).micros : Int) = a.instant) ∧
    SqlChronological :=
  ⟨fun _ _ _ _ ha hb => ⟨datetime_lt ha hb, datetime_eq ha hb, parse_datetime ha⟩, sqlChronological⟩

/-- 1970-01-01T00:00:00, naive, and 1970-01-01T01:00:00.500000+02:00. -/
theorem timestamps_chronological_sample :
    let a : Datetime := ⟨⟨epochMicros, by decide⟩, none⟩
    let b : Datetime := ⟨⟨epochMicros + 3600500000, by decide⟩, some ⟨7200000000, by decide⟩⟩
    ∃ sa sb, a.toDbTime = some sa ∧ b.toDbTime = some sb ∧ sb.bytes < sa.bytes ∧ sa.text ≠ sb.text := by
  intro a b
  have ha : a.toDbTime = some (toDbTime ⟨epochMicros, by decide⟩) :=
    Option.map_eq_some_iff.2 ⟨_, Datetime.toUtc_eq_some.2 (by decide), rfl⟩
  have hb : b.toDbTime = some (toDbTime ⟨epochMicros - 3599500000, by decide⟩) :=
    Option.map_eq_some_iff.2 ⟨_, Datetime.toUtc_eq_some.2 (by decide), rfl⟩
  obtain ⟨hlt, heq, -⟩ := timestamps_chronological.1 b a _ _ hb ha
  exact ⟨_, _, ha, hb, hlt.2 (by decide), fun h => absurd (heq.1 h.symm) (by decide)⟩

end PulseQueue
