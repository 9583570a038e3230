import PulseQueue.Proof.Carried
import PulseQueue.Proof.Submitted

/-!
# The worker status is that of the last heartbeats

`worker_instances` is a log of heartbeats with all but the last entry of each process forgotten
(`Run.instances`): only `heartbeat_worker` writes it (`Sound.instances`). So `worker_runtime_status` adds up
the last heartbeats that are young enough.
-/

namespace PulseQueue

open Txn Trace Table

/-- A heartbeat of a process. -/
structure Heartbeat where
  instanceId : String
  activeThreads : Nat
  busyThreads : Nat
  seenAt : UtcTime

/-- The row it leaves. -/
def Heartbeat.row (b : Heartbeat) : InstanceRow :=
  ⟨b.instanceId, b.activeThreads, b.busyThreads, toDbTime b.seenAt⟩

/-- The heartbeat that the event commits. -/
def Event.beat : Event → Option Heartbeat
  | .call (.heartbeatWorker now id active busy) (.ok _) => some ⟨id, active, busy, now⟩
  | _ => none

/-- The last heartbeat of the process `id`. -/
def lastBeat (id : String) (h : History Event Store) : Option Heartbeat :=
  (h.filterMap (·.event.beat)).find? fun b => b.instanceId = id

section
variable {deps : Deps} {engine : Engine} {h : History Event Store} {s s' : Store}

theorem StoreStep.instances {k : Kind} (hk : k ≠ .reorder) (hstep : StoreStep deps k s s') :
    s'.workerInstances = s.workerInstances := by
  cases hstep with
  | submit | claim | settle | cancel => rfl
  | side => exact absurd rfl hk
  | reorder => exact absurd rfl hk

theorem Steps.instances {k : Kind} (hk : k ≠ .reorder) (hst : Steps deps (· = k) s s') :
    s'.workerInstances = s.workerInstances := by
  induction hst with
  | refl => rfl
  | tail _ hstep ih =>
    obtain ⟨k', rfl, hstep⟩ := hstep
    rw [hstep.instances hk, ih]

theorem Materializes.instances {now : UtcTime} {uuids : Nat → String} {i : Nat} {rows : List ScheduleRow}
    (hm : Materializes now uuids i rows s s') : s'.workerInstances = s.workerInstances := by
  induction hm with
  | nil => rfl
  | cons hins hupd _ ih =>
    rw [ih]
    cases hupd
    rcases hins with rfl | ⟨-, rfl⟩
    · rfl
    · rfl

/-- Every other call leaves the heartbeats alone. -/
theorem Sound.instances (hs : PulseQueue.Sound deps h) {op : Op} (ha : Allowed h op)
    (hop : ∀ now id active busy, op ≠ .heartbeatWorker now id active busy) {r : Reply}
    (hx : op.body deps engine (present h) = .ok (r, s')) :
    s'.workerInstances = (present h).workerInstances := by
  have hst := hs.call ha hx
  cases op with
  | heartbeatWorker now id active busy => exact absurd rfl (hop now id active busy)
  | claim | markSucceeded | markFailedAttempt | recoverStaleJobs | cancelJob | drainQueue =>
    exact hst.instances (by simp)
  | createJob now id request m t key =>
    rw [submits_ok (by simp [Op.submits]) hx]
  | createJobsBatch now uuids requests m t =>
    cases engine <;> obtain ⟨u, hx, -⟩ := reply_ok.1 hx
    · rw [insertJobs_append _ hx]
    · rw [Postgres.insertJobs_eq, Postgres.batchRows_eq] at hx
      rw [insertJobs_append _ hx]
  | createSchedule now id request m t =>
    obtain ⟨row, rfl⟩ := createSchedule_call hx
    rfl
  | writeSchedule now id enabled next =>
    cases engine <;> obtain ⟨n, hx, -⟩ := reply_ok.1 hx <;> cases hx <;> rfl
  | deleteSchedule id =>
    cases engine <;> obtain ⟨n, hx, -⟩ := reply_ok.1 hx <;> cases hx <;> rfl
  | materialize skipped now uuids limit =>
    cases engine <;> obtain ⟨n, hx, -⟩ := reply_ok.1 hx <;>
      obtain ⟨begun, s₀, hget, hx⟩ := Tx.bind_eq_ok.1 hx <;> cases hget
    · exact (Sqlite.materializeRows_ok _ hx).instances
    · exact (Postgres.materializeRows_ok _ hx).instances
  | initializeRuntimeConfig | patchRuntimeConfig =>
    obtain ⟨c, rfl⟩ := config_call rfl hx
    rfl

theorem lastBeat_cons {id : String} {e : Entry Event Store} :
    lastBeat id (e :: h) = if e.event.beat.any (·.instanceId = id) then e.event.beat else lastBeat id h := by
  unfold lastBeat
  cases hb : e.event.beat with
  | none => simp [hb]
  | some b => by_cases hid : b.instanceId = id <;> simp [hb, hid]

theorem lastBeat_id {id : String} {b : Heartbeat} (hb : lastBeat id h = some b) : b.instanceId = id := by
  have hid := List.find?_some hb
  simpa using hid

/-- The table has the row of the last heartbeat of each process. -/
theorem Run.instances (hr : Run deps engine h) (id : String) :
    lookup InstanceRow.instanceId id (present h).workerInstances = (lastBeat id h).map Heartbeat.row := by
  induction hr with
  | nil => rfl
  | @cons h e s' hr hstep ih =>
    have hs := Run.sound hr
    rw [lastBeat_cons]
    cases e with
    | abort op =>
      cases hstep
      exact ih
    | reorder =>
      cases hstep with
      | reorder hre =>
        refine Eq.trans ?_ ih
        exact (lookup_perm hs.ok.side.instances hre.workerInstances).symm
    | call op out =>
      obtain ⟨ha, ⟨r, hx, rfl⟩ | ⟨err, rfl, hsame⟩⟩ := hstep.call_cases
      · cases op with
        | heartbeatWorker now' id' active busy =>
          have hs' : s'.workerInstances = upsert (fun r o => r.instanceId = o.instanceId)
              (fun o => { o with activeThreads := active, busyThreads := busy, lastSeenAt := toDbTime now' })
              ⟨id', active, busy, toDbTime now'⟩ (present h).workerInstances := by
            cases engine <;> obtain ⟨u, hx, -⟩ := reply_ok.1 hx <;> cases hx <;> rfl
          show lookup _ id s'.workerInstances = _
          rw [hs', lookup_upsert fun o ho => ?_]
          · by_cases hid : id = id'
            · simp [Event.beat, hid, Heartbeat.row]
            · rw [if_neg hid, ih]
              simp [Event.beat, Ne.symm hid]
          · cases o
            cases ho
            rfl
        | _ =>
          refine Eq.trans ?_ ih
          exact congrArg _ (hs.instances ha (by simp) hx)
      · have hnone : Event.beat (.call op (.error err)) = none := by cases op <;> rfl
        rw [hsame, hnone]
        exact ih

end

/-! ## The status -/

/-- The repository's `worker_runtime_status`. -/
def Engine.workerRuntimeStatus (engine : Engine) (now : UtcTime) (maxAgeSeconds : ℚ) : Repo WorkerStatus :=
  match engine with
  | .sqlite => Sqlite.workerRuntimeStatus now maxAgeSeconds
  | .postgres => Postgres.workerRuntimeStatus now maxAgeSeconds

/-- The status that `beats` add up to. -/
def statusOf (beats : List Heartbeat) : WorkerStatus :=
  ⟨beats.length, (beats.map (·.activeThreads)).sum, (beats.map (·.busyThreads)).sum⟩

section
variable {deps : Deps} {engine : Engine} {h : History Event Store}

/-- The heartbeats that wrote `rows`. -/
def beatsOf (h : History Event Store) (rows : List InstanceRow) : List Heartbeat :=
  rows.filterMap fun r => lastBeat r.instanceId h

theorem Run.written (hr : Run deps engine h) {r : InstanceRow} (hm : r ∈ (present h).workerInstances) :
    ∃ b, lastBeat r.instanceId h = some b ∧ b.row = r := by
  have hfound := lookup_of_mem (Run.sound hr).ok.side.instances hm
  rw [Run.instances hr] at hfound
  exact Option.map_eq_some_iff.1 hfound

theorem Run.beatsOf_row (hr : Run deps engine h) {rows : List InstanceRow}
    (hm : ∀ r ∈ rows, r ∈ (present h).workerInstances) : (beatsOf h rows).map Heartbeat.row = rows := by
  have hself : ∀ r ∈ rows, (lastBeat r.instanceId h).map Heartbeat.row = some r := by
    intro r hrow
    obtain ⟨b, hb, hrb⟩ := Run.written hr (hm r hrow)
    rw [hb, Option.map_some, hrb]
  rw [beatsOf, List.map_filterMap, List.filterMap_congr hself, List.filterMap_some]

theorem statusOf_rows {beats : List Heartbeat} {rows : List InstanceRow}
    (hrows : beats.map Heartbeat.row = rows) : statusOf beats =
      ⟨rows.length, (rows.map (·.activeThreads)).sum, (rows.map (·.busyThreads)).sum⟩ := by
  rw [← hrows]
  simp [statusOf, Heartbeat.row, Function.comp_def]

/-- `worker_runtime_status` adds up one heartbeat of each process that was seen since the cutoff: its
last one, whatever else happened in between. -/
theorem worker_status_beats {now cutoff : UtcTime} {age : ℚ} (hr : Run deps engine h)
    (hcut : UtcTime.fromtimestamp (now.timestamp - age) = some cutoff) :
    ∃ beats : List Heartbeat, (beats.map (·.instanceId)).Nodup ∧
      (∀ b, b ∈ beats ↔ lastBeat b.instanceId h = some b ∧ cutoff ≤ b.seenAt) ∧
      engine.workerRuntimeStatus now age (present h) = (.ok (statusOf beats), present h) := by
  have hnodup := (Run.sound hr).ok.side.instances.sublist
    (List.filter_sublist (p := fun r => toDbTime cutoff ≤ r.lastSeenAt).map InstanceRow.instanceId)
  have hmem : ∀ r, r ∈ (present h).workerInstances.filter (fun r => toDbTime cutoff ≤ r.lastSeenAt) ↔
      r ∈ (present h).workerInstances ∧ toDbTime cutoff ≤ r.lastSeenAt := by
    intro r
    rw [List.mem_filter, decide_eq_true_eq]
  have hread : engine.workerRuntimeStatus now age (present h) = (.ok
      (let rows := (present h).workerInstances.filter fun r => toDbTime cutoff ≤ r.lastSeenAt
      ⟨rows.length, (rows.map (·.activeThreads)).sum, (rows.map (·.busyThreads)).sum⟩), present h) := by
    cases engine with
    | sqlite => simp only [Engine.workerRuntimeStatus, Sqlite.workerRuntimeStatus, hcut]
    | postgres => simp only [Engine.workerRuntimeStatus, Postgres.workerRuntimeStatus, hcut]
  generalize (present h).workerInstances.filter _ = rows at hnodup hmem hread
  have hrows := Run.beatsOf_row hr fun r hrow => ((hmem r).1 hrow).1
  refine ⟨beatsOf h rows, ?_, fun b => ?_, ?_⟩
  · rw [← hrows, List.map_map] at hnodup
    exact hnodup
  · unfold beatsOf
    rw [List.mem_filterMap]
    constructor
    · intro hm
      obtain ⟨r, hrow, hb⟩ := hm
      obtain ⟨b', hb', hr'⟩ := Run.written hr ((hmem r).1 hrow).1
      cases hb.symm.trans hb'
      refine ⟨by rw [lastBeat_id hb, hb], ?_⟩
      have hseen := ((hmem r).1 hrow).2
      rw [← hr'] at hseen
      exact toDbTime_le.1 hseen
    · intro hm
      obtain ⟨hb, hseen⟩ := hm
      have hfound := Run.instances hr b.instanceId
      rw [hb] at hfound
      exact ⟨b.row, (hmem _).2 ⟨(lookup_some hfound).1, toDbTime_le.2 hseen⟩, hb⟩
  · rw [hread, statusOf_rows hrows]

/-- The process "p" beats, and beats again. -/
theorem worker_status_beats_again :
    let first := afterCall sampleDeps .sqlite [] (.heartbeatWorker (sampleTime 1) "p" 4 2)
    let h := afterCall sampleDeps .sqlite first (.heartbeatWorker (sampleTime 3) "p" 8 1)
    ∃ beats : List Heartbeat, (beats.map (·.instanceId)).Nodup ∧
      (∀ b, b ∈ beats ↔ lastBeat b.instanceId h = some b ∧ sampleTime 2 ≤ b.seenAt) ∧
      Engine.workerRuntimeStatus .sqlite (sampleTime 12) 10 (present h) =
        (.ok (statusOf beats), present h) := by
  intro first h
  have hfirst : Run sampleDeps .sqlite first := Run.afterCall .nil (Allowed.of_none rfl)
  have hr : Run sampleDeps .sqlite h := Run.afterCall hfirst (Allowed.of_none rfl)
  exact worker_status_beats hr (by decide +kernel)

end

end PulseQueue
