import PulseQueue.Proof.LiveLease

/-!
# The claims of a job

The claims that returned a job are numbered by the attempts before them, and the attempt rows of the job are
those of its claims, but for the claim that still holds it. Every step of a run other than a claim keeps
this (`ClaimLog.step`); a claim adds the next number (`ClaimLog.claim`).
-/

namespace PulseQueue

open Txn Trace Table

/-- The claim of the job `id` that the event is: its worker, and the attempts before it. -/
def Event.takes (id : String) (e : Event) : Option (String × Nat) :=
  match e.claimed with
  | some (w, c) => if c.id = id then some (w, c.attemptCount) else none
  | none => none

/-- The claims that returned the job `id`, in their order. -/
def claimsOf (id : String) (h : History Event Store) : List (String × Nat) :=
  (h.filterMap fun e => e.event.takes id).reverse

/-- The claim that holds the job. -/
def JobRow.heldBy (r : JobRow) : List (String × Nat) :=
  if r.status = .running then r.lockedBy.toList.map (·, r.attemptCount) else []

/-- The claims `ended` are over and have left the attempt rows. -/
structure ClaimLog (claims ended : List (String × Nat)) (attempts : List AttemptRow) (r : JobRow) :
    Prop where
  claims_eq : claims = ended ++ r.heldBy
  numbers : ended.map Prod.snd = List.range r.attemptCount
  rows : (attempts.map fun a => (a.workerId, a.attemptNo)).Perm (ended.map fun c => (c.1, c.2 + 1))

/-- What the tables show of the claims of a job. -/
def Logged (claims : List (String × Nat)) (v : JobView) : Prop :=
  match v.job with
  | none => claims = [] ∧ v.attempts = []
  | some r => ∃ ended, ClaimLog claims ended v.attempts r

section
variable {deps : Deps} {engine : Engine} {h : History Event Store} {id : String}
  {claims : List (String × Nat)}

theorem heldBy_idle {r : JobRow} (hr : r.status ≠ .running) : r.heldBy = [] := if_neg hr

theorem heldBy_running {r : JobRow} {w : String} (hr : r.status = .running) (hw : r.lockedBy = some w) :
    r.heldBy = [(w, r.attemptCount)] := by
  simp [JobRow.heldBy, hr, hw]

theorem settled_idle (o : Outcome) (t : DbTime) (r : JobRow) : (r.settled o t).status ≠ .running := by
  cases o with
  | success result => simp [JobRow.settled]
  | failure m e at' p =>
    simp only [JobRow.settled]
    split <;> simp

/-- A step that is no claim. -/
theorem ClaimLog.step {k : Kind} {v v' : JobView} (hlog : Logged claims v) (hk : Quiet k)
    (hs : JobStep deps k v v') : Logged claims v' := by
  cases hs with
  | submit hr =>
    obtain ⟨rfl, -⟩ := hlog
    have hidle : JobRow.heldBy _ = [] := heldBy_idle (by rw [hr.status]; simp)
    exact ⟨[], by rw [hidle, List.append_nil], by simp [hr.attemptCount], .refl _⟩
  | claim w => exact absurd rfl (hk w)
  | @settle r as ds w startedAt o t hrun hw ho =>
    obtain ⟨ended, hclaims, hnumbers, hrows⟩ := hlog
    rw [heldBy_running hrun hw] at hclaims
    refine ⟨ended ++ [(w, r.attemptCount)], ?_, ?_, ?_⟩
    · rw [heldBy_idle (settled_idle o t r), List.append_nil, hclaims]
    · rw [List.map_append, hnumbers, settled_count, List.range_succ]
      rfl
    · rw [List.map_append, List.map_append]
      exact hrows.append (.refl _)
  | cancel t hq =>
    obtain ⟨ended, hclaims, hnumbers, hrows⟩ := hlog
    rw [heldBy_idle (by rw [hq]; simp)] at hclaims
    exact ⟨ended, by rw [heldBy_idle (by simp [JobRow.cancelled]), hclaims], hnumbers, hrows⟩
  | @reorder j as as' ds ds' ha hd =>
    cases j with
    | none =>
      obtain ⟨hclaims, hnil⟩ := hlog
      have hnil : as = [] := hnil
      subst hnil
      exact ⟨hclaims, List.nil_perm.1 ha⟩
    | some r =>
      obtain ⟨ended, hclaims, hnumbers, hrows⟩ := hlog
      exact ⟨ended, hclaims, hnumbers, (ha.map _).symm.trans hrows⟩

/-- A claim of the job. -/
theorem ClaimLog.claim {r : JobRow} {attempts : List AttemptRow} {ended : List (String × Nat)}
    (hlog : ClaimLog claims ended attempts r) (hq : r.status = .queued) (w : String) (t : DbTime) :
    ClaimLog (claims ++ [(w, r.attemptCount)]) ended attempts (r.claimed w t) where
  claims_eq := by
    have hclaims := hlog.claims_eq
    rw [heldBy_idle (by rw [hq]; simp), List.append_nil] at hclaims
    rw [hclaims]
    rfl
  numbers := hlog.numbers
  rows := hlog.rows

theorem claimsOf_cons (e : Event) (s : Store) (h : History Event Store) :
    claimsOf id (⟨e, s⟩ :: h) = claimsOf id h ++ (e.takes id).toList := by
  unfold claimsOf
  rw [List.filterMap_cons]
  cases e.takes id with
  | none => simp
  | some x => simp

/-- The tables of a job after a claim. -/
theorem view_claim {s : Store} (hok : s.Ok deps) {r : JobRow} (hr : r ∈ s.jobs) (w : String) (t : DbTime)
    (id : String) :
    Store.view { s with jobs := updateWhere (·.id == r.id) (·.claimed w t) s.jobs } id =
      if id = r.id then ⟨some (r.claimed w t), (s.view id).attempts, (s.view id).deadLetters⟩
      else s.view id := by
  have hjob := job?_update s r.id (·.claimed w t) (fun _ => rfl) id
  split
  · rename_i hid
    rw [if_pos hid, hid, hok.job?_mem hr, Option.map_some] at hjob
    rw [hid]
    simp only [Store.view, hjob]
  · rename_i hid
    rw [if_neg hid] at hjob
    simp only [Store.view, hjob]

theorem Run.logged (hr : Run deps engine h) (id : String) :
    Logged (claimsOf id h) ((present h).view id) := by
  refine Valid.induct (P := fun h => Logged (claimsOf id h) ((present h).view id)) ⟨rfl, rfl⟩ ?_ hr
  intro h e s hrun ih hstep
  have hs := Run.sound hrun
  rw [claimsOf_cons]
  rcases (hs.entry hstep).2 with ⟨hquiet, hnone⟩ | ⟨w, j, hclaims, hclaimed⟩
  · have htakes : e.takes id = none := by simp [Event.takes, hnone]
    rw [htakes, Option.toList_none, List.append_nil]
    exact hquiet.keeps (fun k v v' hk hv hj => ClaimLog.step hv hk hj) hs.ok id ih
  · cases hclaims with
    | idle =>
      have htakes : e.takes id = none := by simp [Event.takes, hclaimed]
      rw [htakes, Option.toList_none, List.append_nil]
      exact ih
    | @took r t hmem hq =>
      have hview : Store.view (present (⟨e, _⟩ :: h)) id = _ := view_claim hs.ok hmem w t id
      by_cases hid : id = r.id
      · subst hid
        rw [if_pos rfl] at hview
        have htakes : e.takes r.id = some (w, r.attemptCount) := by
          simp [Event.takes, hclaimed, jobFromRow, JobRow.claimed]
        simp only [Logged, Store.view, hs.ok.job?_mem hmem] at ih
        obtain ⟨ended, hlog⟩ := ih
        rw [htakes, hview]
        exact ⟨ended, hlog.claim hq w t⟩
      · rw [if_neg hid] at hview
        have htakes : e.takes id = none := by
          simp [Event.takes, hclaimed, jobFromRow, JobRow.claimed, Ne.symm hid]
        rw [htakes, Option.toList_none, List.append_nil, hview]
        exact ih

/-- The budget of claims. -/
theorem Sound.claims_le (hs : PulseQueue.Sound deps h) {r : JobRow} (hr : (present h).job? id = some r) :
    r.attemptCount + r.heldBy.length ≤ r.maxRetries + 1 := by
  have hledger := hs.ledger id
  simp only [Ledger, Store.view, hr] at hledger
  obtain ⟨σ, hreach, habs⟩ := hledger
  have hinv := RetryLease.Inv.reachable hreach
  have hcount := habs.count
  have hphase := habs.phase
  by_cases hrun : r.status = .running
  · have hopen : σ.log.length ≤ r.maxRetries := hinv.open_le (by
      rw [hphase]
      simp [JobRow.phase, hrun, RetryLease.Phase.open])
    have hheld : r.heldBy.length ≤ 1 := by
      unfold JobRow.heldBy
      rw [if_pos hrun]
      cases r.lockedBy <;> simp
    omega
  · have hle : σ.log.length ≤ r.maxRetries + 1 := hinv.length_le
    rw [heldBy_idle hrun, List.length_nil]
    omega

theorem Run.claims_length (hr : Run deps engine h) {r : JobRow} (hrow : (present h).job? id = some r) :
    (claimsOf id h).length = r.attemptCount + r.heldBy.length := by
  have hlogged := Run.logged hr id
  simp only [Logged, Store.view, hrow] at hlogged
  obtain ⟨ended, hlog⟩ := hlogged
  rw [hlog.claims_eq, List.length_append, ← List.length_map (f := Prod.snd), hlog.numbers, List.length_range]

/-- In every run the claims that returned a job are numbered 0, 1, 2, …, at most one more than it has
retries, and its attempt rows are one for each claim that is over, with its worker and its number. -/
theorem claims_numbered (hr : Run deps engine h) {r : JobRow} (hrow : (present h).job? id = some r) :
    (∃ ended, ClaimLog (claimsOf id h) ended ((present h).view id).attempts r) ∧
      (claimsOf id h).map Prod.snd = List.range (claimsOf id h).length ∧
      (claimsOf id h).length ≤ r.maxRetries + 1 := by
  have hs := Run.sound hr
  have hlogged := Run.logged hr id
  simp only [Logged, Store.view, hrow] at hlogged
  obtain ⟨ended, hlog⟩ := hlogged
  have hlen : ended.length = r.attemptCount := by
    rw [← List.length_map (f := Prod.snd), hlog.numbers, List.length_range]
  refine ⟨⟨ended, hlog⟩, ?_, ?_⟩
  · rw [hlog.claims_eq, List.map_append, hlog.numbers, List.length_append, hlen]
    unfold JobRow.heldBy
    split
    · cases hw : r.lockedBy with
      | none => simp
      | some w => simp [List.range_succ]
    · simp
  · rw [Run.claims_length hr hrow]
    exact hs.claims_le hrow

end

/-- The lease of the first claim expires, and another worker claims the job. -/
def sampleReclaimed : History Event Store :=
  afterCall sampleDeps .sqlite
    (afterCall sampleDeps .sqlite sampleClaimed (.recoverStaleJobs (fun _ => false) (sampleTime 400) 0))
    (.claim (fun _ => false) (sampleTime 500) "v")

theorem sampleReclaimed_run : Run sampleDeps .sqlite sampleReclaimed :=
  Run.afterCall (Run.afterCall sampleClaimed_run (Allowed.of_none rfl)) (Allowed.of_none rfl)

theorem claims_numbered_reclaimed : claimsOf "j" sampleReclaimed = [("w", 0), ("v", 1)] ∧
    ∃ r, (present sampleReclaimed).job? "j" = some r ∧ ∃ ended,
      ClaimLog (claimsOf "j" sampleReclaimed) ended ((present sampleReclaimed).view "j").attempts r := by
  have hrow : ((present sampleReclaimed).job? "j").isSome = true := by decide +kernel
  obtain ⟨r, hr⟩ := Option.isSome_iff_exists.1 hrow
  exact ⟨by decide +kernel, r, hr, (claims_numbered sampleReclaimed_run hr).1⟩

end PulseQueue
