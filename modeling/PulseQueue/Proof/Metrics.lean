import PulseQueue.Proof.Accounts
import PulseQueue.Proof.ConfigUpdates
import PulseQueue.Proof.Percentile
import PulseQueue.Proof.QueueDepth

/-!
# What the metrics report

`GET /metrics` reads the depth of the queue, the latencies and the oldest age one after the other, and other
transactions commit in between. Jobs that ended stay as they are, so the view never misses what the depth has
counted, and what it reports are latencies and ages of jobs (`metrics_reported`).
-/

namespace PulseQueue

open Txn Trace Table

/-- The jobs that ended, each with the time of its end. -/
def Store.ended (s : Store) : List (JobRow × DbTime) :=
  s.jobs.filterMap fun r => if r.status.terminal = true then r.finishedAt.map (r, ·) else none

/-- From the creation of a job to its end. -/
def latency (x : JobRow × DbTime) : ℚ := elapsedSeconds (parseDbTime x.1.createdAt) (parseDbTime x.2)

/-- From the creation of a job to `now`. -/
def JobRow.age (now : UtcTime) (r : JobRow) : ℚ := elapsedSeconds (parseDbTime r.createdAt) now

/-- What a view says of the depth it read, of a page of jobs that ended, and of the jobs that were due. -/
structure MetricsView.Reports (view : MetricsView) (depth : QueueDepth) (page : List (JobRow × DbTime))
    (due : List JobRow) (now : UtcTime) : Prop where
  noLatencies : page = [] → view.jobLatencyP50Seconds = none ∧ view.jobLatencyP95Seconds = none
  latencies : page ≠ [] → ∃ p50 p95, view.jobLatencyP50Seconds = some p50 ∧
    view.jobLatencyP95Seconds = some p95 ∧ 0 ≤ p50 ∧ p50 ≤ p95 ∧
    (∃ x ∈ page, round4 (latency x) ≤ p50) ∧ ∃ x ∈ page, p95 ≤ round4 (latency x)
  rate : view.deadLetterRate = roundedRate depth.deadLettered (depth.succeeded + depth.deadLettered) ∧
    0 ≤ view.deadLetterRate ∧ view.deadLetterRate ≤ 1
  noAge : view.oldestQueuedAgeSeconds = none ↔ due = []
  age : ∀ a ∈ view.oldestQueuedAgeSeconds, (∃ r ∈ due, a = round4 (r.age now)) ∧
    ∀ r ∈ due, round4 (r.age now) ≤ a

/-! ## Times and rates -/

theorem elapsedSeconds_nonneg (a b : UtcTime) : 0 ≤ elapsedSeconds a b := le_max_right _ _

theorem elapsedSeconds_anti {a a' : UtcTime} (h : a ≤ a') (b : UtcTime) :
    elapsedSeconds a' b ≤ elapsedSeconds a b := by
  have hm : (a.micros : ℚ) ≤ a'.micros := Nat.cast_le.2 (UtcTime.le_iff.1 h)
  refine max_le_max ?_ le_rfl
  simp only [UtcTime.totalSeconds]
  linarith

theorem round4_int (n : Int) : round4 n = n := by
  have hr : ∀ m : Int, Rounding.halfEven m = m := fun m => by simp [Rounding.halfEven]
  have hn := hr (n * 10000)
  push_cast at hn
  rw [round4, hn]
  push_cast
  field_simp

theorem round4_nonneg {x : ℚ} (h : 0 ≤ x) : 0 ≤ round4 x := by
  have hz := round4_int 0
  rw [Int.cast_zero] at hz
  rw [← hz]
  exact round4_mono h

theorem roundedRate_range {a b : Nat} (h : a ≤ b) : 0 ≤ roundedRate a b ∧ roundedRate a b ≤ 1 := by
  unfold roundedRate
  split
  · exact ⟨le_rfl, zero_le_one⟩
  · have hone := round4_int 1
    rw [Int.cast_one] at hone
    refine ⟨round4_nonneg (by positivity), ?_⟩
    rw [← hone]
    refine round4_mono (div_le_one_of_le₀ ?_ (by positivity))
    exact_mod_cast h

/-! ## Latencies -/

theorem mem_ended {s : Store} {x : JobRow × DbTime} :
    x ∈ s.ended ↔ x.1 ∈ s.jobs ∧ x.1.status.terminal = true ∧ x.1.finishedAt = some x.2 := by
  unfold Store.ended
  rw [List.mem_filterMap]
  constructor
  · intro h
    obtain ⟨r, hr, hx⟩ := h
    split at hx
    · rename_i hterminal
      obtain ⟨t, ht, rfl⟩ := Option.map_eq_some_iff.1 hx
      exact ⟨hr, hterminal, ht⟩
    · cases hx
  · intro h
    obtain ⟨hr, hterminal, ht⟩ := h
    exact ⟨x.1, hr, by rw [if_pos hterminal, ht]; rfl⟩

theorem JobStatus.terminal_iff {st : JobStatus} :
    st.terminal = true ↔ st = .succeeded ∨ st = .deadLettered ∨ st = .cancelled := by
  cases st <;> simp [JobStatus.terminal]

/-- The rows that `latency_seconds` reads. -/
theorem latencySeconds_eq (limit : Nat) (s : Store) :
    latencySeconds limit s = ((orderBy (fun a b => b.2 ≤ a.2) s.ended).take limit).map latency := by
  have hrows : (s.jobs.filterMap fun r =>
      if r.status = .succeeded ∨ r.status = .deadLettered ∨ r.status = .cancelled then
        r.finishedAt.map fun finishedAt => (r.createdAt, finishedAt)
      else none) = s.ended.map fun x => (x.1.createdAt, x.2) := by
    unfold Store.ended
    rw [List.map_filterMap]
    refine List.filterMap_congr fun r _ => ?_
    by_cases hst : r.status.terminal = true
    · rw [if_pos hst, if_pos (JobStatus.terminal_iff.1 hst), Option.map_map]
      rfl
    · rw [if_neg hst, if_neg fun h => hst (JobStatus.terminal_iff.2 h)]
      rfl
  have hsorted : (orderBy (fun a b => decide (b.2 ≤ a.2)) s.ended).map (fun x => (x.1.createdAt, x.2)) =
      orderBy (fun a b => decide (b.2 ≤ a.2)) (s.ended.map fun x => (x.1.createdAt, x.2)) :=
    @orderBy_map _ _ (fun x => (x.1.createdAt, x.2)) (fun a b => decide (b.2 ≤ a.2))
      (fun a b => decide (b.2 ≤ a.2)) (fun _ _ => rfl) s.ended
  simp only [latencySeconds, hrows]
  rw [← hsorted, ← List.map_take, List.map_map]
  rfl

/-! ## The view -/

section
variable {deps : Deps} {engine : Engine} {h : History Event Store} {now : UtcTime}

/-- A job that ended is there with its time at every later moment. -/
theorem Run.ended_stays {post pre : History Event Store} (hr : Run deps engine (post ++ pre))
    {x : JobRow × DbTime} (hx : x ∈ (present pre).ended) : x ∈ (present (post ++ pre)).ended := by
  obtain ⟨hm, hterminal, ht⟩ := mem_ended.1 hx
  obtain ⟨r, hj, hlater⟩ := Run.later hr ((Run.sound hr.suffix).ok.job?_mem hm)
  have hsame : r = x.1 := hlater.frozen hterminal
  subst hsame
  exact mem_ended.2 ⟨(Store.job?_some hj).1, hterminal, ht⟩

/-- Jobs that `queue_depth` counts as ended. -/
theorem Run.exists_ended (hr : Run deps engine h) (now : UtcTime) (s₂ : Store)
    (hpos : 0 < (engine.queueDepthOf now (present h) s₂).succeeded +
      (engine.queueDepthOf now (present h) s₂).deadLettered +
      (engine.queueDepthOf now (present h) s₂).cancelled) : (present h).ended ≠ [] := by
  have hs := Run.sound hr
  rw [queueDepthOf_eq] at hpos
  have hsome : ∃ st : JobStatus, st.terminal = true ∧ 0 < Sqlite.statusCount (present h) st := by
    by_contra hnone
    have hzero : ∀ st : JobStatus, st.terminal = true → Sqlite.statusCount (present h) st = 0 :=
      fun st hst => Nat.eq_zero_of_not_pos fun hp => hnone ⟨st, hst, hp⟩
    have hsucceeded := hzero .succeeded rfl
    have hdead := hzero .deadLettered rfl
    have hcancelled := hzero .cancelled rfl
    simp only [Sqlite.queueDepthOf, hsucceeded, hdead, hcancelled] at hpos
    omega
  obtain ⟨st, hst, hcount⟩ := hsome
  obtain ⟨r, hm, hstatus⟩ := List.countP_pos_iff.1 hcount
  have hterminal : r.status.terminal = true := by rwa [of_decide_eq_true hstatus]
  have hfinished := (hs.coherent r.id r (hs.ok.job?_mem hm)).finishedAt.2 hterminal
  obtain ⟨t, ht⟩ := Option.isSome_iff_exists.1 hfinished
  intro hnil
  have hin : (r, t) ∈ (present h).ended := mem_ended.2 ⟨hm, hterminal, ht⟩
  rw [hnil] at hin
  cases hin

/-- The oldest of the jobs that are due. -/
theorem oldest_age (s : Store) (now now' : UtcTime) :
    (oldestQueuedAgeSeconds now now' s = none ↔ s.dueJobs now = []) ∧
    ∀ a ∈ oldestQueuedAgeSeconds now now' s, (∃ r ∈ s.dueJobs now, a = r.age now') ∧
      ∀ r ∈ s.dueJobs now, r.age now' ≤ a := by
  unfold oldestQueuedAgeSeconds
  rw [dueJobs_eq]
  refine ⟨?_, fun a ha => ?_⟩
  · rw [Option.map_eq_none_iff, orderBy_head_none]
  · obtain ⟨r, hr, rfl⟩ := Option.map_eq_some_iff.1 ha
    have hmem : r ∈ s.dueJobs now :=
      (orderBy_perm _ _).mem_iff.1 (List.mem_of_mem_head? hr)
    refine ⟨⟨r, hmem, rfl⟩, fun o ho => ?_⟩
    have hle := orderBy_head_le (fun a b => by simpa using le_total a.createdAt b.createdAt)
      (fun a b c => by simpa using le_trans) hr o ho
    exact elapsedSeconds_anti (parseDbTime_le.2 (of_decide_eq_true hle)) now'

/-- Percentiles lie between two of the values. -/
theorem percentiles_between {values : List ℚ} (hne : values ≠ []) :
    ∃ p50 p95, percentile values (50 / 100) = .ok (some p50) ∧ percentile values (95 / 100) = .ok (some p95) ∧
      p50 ≤ p95 ∧ (∃ v ∈ values, round4 v ≤ p50) ∧ ∃ v ∈ values, p95 ≤ round4 v := by
  obtain ⟨lo, p50, hlo, h50, hle⟩ := percentile_mono hne (p := 0) (q := 50 / 100) le_rfl (by norm_num)
    (by norm_num)
  obtain ⟨a, b, ha, hb, hab⟩ := percentile_mono hne (p := 50 / 100) (q := 95 / 100) (by norm_num)
    (by norm_num) (by norm_num)
  obtain ⟨p95, hi, h95, hhi, hle'⟩ := percentile_mono hne (p := 95 / 100) (q := 1) (by norm_num)
    (by norm_num) le_rfl
  cases h50.symm.trans ha
  cases h95.symm.trans hb
  cases (percentile_zero hne).symm.trans hlo
  cases (percentile_one hne).symm.trans hhi
  have hpos := length_pySorted_pos hne
  have hmem : ∀ i : Int, 0 ≤ i → i < (pySorted values).length → valueAt (pySorted values) i ∈ values :=
    fun i h0 hlt => (pySorted_perm values).mem_iff.1 (valueAt_mem h0 hlt)
  exact ⟨_, _, h50, h95, hab, ⟨_, hmem 0 le_rfl (by omega), hle⟩, _, hmem _ (by omega) (by omega), hle'⟩

theorem latency_nonneg (x : JobRow × DbTime) : 0 ≤ latency x := elapsedSeconds_nonneg _ _

theorem metrics_reports {depth : QueueDepth} {page : List (JobRow × DbTime)} {due : List JobRow}
    {oldestAge : Option ℚ} (hfailed : depth.failed = 0) (hnone : oldestAge = none ↔ due = [])
    (hage : ∀ a ∈ oldestAge, (∃ r ∈ due, a = r.age now) ∧ ∀ r ∈ due, r.age now ≤ a)
    (configView : RuntimeConfig) (workerStatus : WorkerStatus) (busy busy' : Nat) :
    ∃ view, Api.metrics depth configView workerStatus (page.map latency) oldestAge busy busy' = .ok view ∧
      view.Reports depth page due now := by
  have hrate : roundedRate depth.deadLettered
        ((depth.succeeded + depth.failed + depth.deadLettered : Nat) : Int) =
      roundedRate depth.deadLettered (depth.succeeded + depth.deadLettered) := by
    rw [hfailed]
    push_cast
    rw [add_zero]
  have hrange := roundedRate_range (a := depth.deadLettered)
    (b := depth.succeeded + depth.failed + depth.deadLettered) (by omega)
  have hold : oldestAge.map round4 = none ↔ due = [] := by rw [Option.map_eq_none_iff, hnone]
  have hages : ∀ a ∈ oldestAge.map round4, (∃ r ∈ due, a = round4 (r.age now)) ∧
      ∀ r ∈ due, round4 (r.age now) ≤ a := by
    intro a ha
    obtain ⟨b, hb, rfl⟩ := Option.map_eq_some_iff.1 ha
    obtain ⟨⟨r, hr, he⟩, hmax⟩ := hage b hb
    exact ⟨⟨r, hr, congrArg round4 he⟩, fun o ho => round4_mono (hmax o ho)⟩
  by_cases hpage : page = []
  · subst hpage
    refine ⟨_, rfl, ?_⟩
    exact {
      noLatencies := fun _ => ⟨rfl, rfl⟩
      latencies := fun hne => absurd rfl hne
      rate := ⟨hrate, hrange⟩
      noAge := hold
      age := hages }
  · have hne : page.map latency ≠ [] := by simpa using hpage
    obtain ⟨p50, p95, h50, h95, hle, hlo, hhi⟩ := percentiles_between hne
    obtain ⟨v, hv, hlow⟩ := hlo
    obtain ⟨x, hx, rfl⟩ := List.mem_map.1 hv
    obtain ⟨w, hw, hhigh⟩ := hhi
    obtain ⟨y, hy, rfl⟩ := List.mem_map.1 hw
    simp only [Api.metrics, h50, h95]
    refine ⟨_, rfl, ?_⟩
    exact {
      noLatencies := fun hnil => absurd hnil hpage
      latencies := fun _ => ⟨p50, p95, rfl, rfl, (round4_nonneg (latency_nonneg x)).trans hlow, hle,
        ⟨x, hx, hlow⟩, y, hy, hhigh⟩
      rate := ⟨hrate, hrange⟩
      noAge := hold
      age := hages }

/-- In every run `GET /metrics` answers, whatever commits between its readings. The latencies it uses
are those of the jobs that ended last, which stay as they are; if the depth counts a job that ended,
there are percentiles; and the oldest age is that of a job that was due. -/
theorem metrics_reported {later timed pre : History Event Store}
    (hr : Run deps engine (later ++ (timed ++ pre))) {limit : Nat} (hlimit : 0 < limit)
    (now now₁ now₂ : UtcTime) (s₂ : Store) (configView : RuntimeConfig) (workerStatus : WorkerStatus) (busy busy' : Nat) :
    let depth := engine.queueDepthOf now (present pre) s₂
    let last := present (later ++ (timed ++ pre))
    ∃ view page, Api.metrics depth configView workerStatus (latencySeconds limit (present (timed ++ pre)))
        (oldestQueuedAgeSeconds now₁ now₂ last) busy busy' = .ok view ∧
      view.Reports depth page (last.dueJobs now₁) now₂ ∧
      Page Prod.snd limit (present (timed ++ pre)).ended page ∧
      (0 < depth.succeeded + depth.deadLettered + depth.cancelled → page ≠ []) ∧
      ∀ x ∈ page, x ∈ last.ended := by
  intro depth last
  have htimed : Run deps engine (timed ++ pre) := hr.suffix
  have hpre : Run deps engine pre := htimed.suffix
  have hpage := orderBy_page (Prod.snd : JobRow × DbTime → DbTime) limit (present (timed ++ pre)).ended
  have hfailed : depth.failed = 0 := by
    have hzero := (Run.balanced hpre).failed
    simp only [depth, queueDepthOf_eq]
    exact hzero
  obtain ⟨hnone, hage⟩ := oldest_age last now₁ now₂
  rw [latencySeconds_eq]
  obtain ⟨view, hview, hreports⟩ := metrics_reports hfailed hnone hage configView workerStatus busy busy'
  refine ⟨view, _, hview, hreports, hpage, fun hpos hnil => ?_, fun x hx => Run.ended_stays hr (hpage.mem hx)⟩
  obtain ⟨x, hx⟩ := List.exists_mem_of_ne_nil _ (Run.exists_ended hpre now s₂ hpos)
  have hstays := List.length_pos_of_mem (Run.ended_stays htimed hx)
  have hlength := hpage.length
  rw [hnil, List.length_nil] at hlength
  omega

/-- One job ended, two seconds after its submission. -/
theorem metrics_reported_done :
    let depth := Engine.queueDepthOf .sqlite (sampleTime 3) (present sampleDone) (present sampleDone)
    ∃ view page, Api.metrics depth defaultConfig ⟨0, 0, 0⟩ (latencySeconds 500 (present sampleDone))
        (oldestQueuedAgeSeconds (sampleTime 3) (sampleTime 3) (present sampleDone)) 0 0 = .ok view ∧
      view.Reports depth page ((present sampleDone).dueJobs (sampleTime 3)) (sampleTime 3) ∧ page ≠ [] := by
  intro depth
  have hr : Run sampleDeps .sqlite ([] ++ ([] ++ sampleDone)) := sampleDone_run
  obtain ⟨view, page, hview, hreports, -, hpage, -⟩ := @metrics_reported _ _ _ _ _ hr 500
    (by decide) (sampleTime 3) (sampleTime 3) (sampleTime 3) (present sampleDone) defaultConfig ⟨0, 0, 0⟩ 0 0
  exact ⟨view, page, hview, hreports, hpage (by decide +kernel)⟩

end

end PulseQueue
