import PulseQueue.Proof.Slots

/-!
# Changes of the size by other processes

The synchronization reconciles when the row differs from the store. `GET /config` and `GET /metrics` also
put the row into the store, and no reconcile follows. As long as a synchronization that finds no
difference finds the size that the last reconcile read (`Undisturbed`), and a reconcile of the
synchronization reads the size that it put into the store, a reconcile has read the size of every row that
a synchronization has read (`resize_heeded`). Otherwise a change may never be acted upon:
`resize_heeded_fails`.
-/

namespace PulseQueue

open Trace

/-- Nothing else than requests and synchronizations of a pool that is not stopped, and changes by other
processes; no exception. -/
def ProcessEvent.Remote : ProcessEvent → Prop
  | .patch _ | .replacePatched _ | .resize _ | .stop | .stopped => False
  | .fetchFails | .createFails | .syncFails => False
  | _ => True

/-- Since a reconcile read the size, no `GET` has changed that of the store. -/
def Undisturbed (row : RuntimeConfig) : History ProcessEvent Process → Prop
  | [] => True
  | ⟨.desired _, _⟩ :: _ => True
  | ⟨.replaceRead c, _⟩ :: h => c.size = (now (Process.new row) h).desired ∧ Undisturbed row h
  | _ :: h => Undisturbed row h

/-- A reconcile read this size, and it has been in force since. -/
def InForce (size : Nat) : History ProcessEvent Process → Prop
  | [] => False
  | e :: h => e.event = .desired size ∨ e.after.desired = size ∧ InForce size h

/-- The row that the last synchronization read. -/
def lastRead : History ProcessEvent Process → Option RuntimeConfig
  | [] => none
  | ⟨.syncRead, p⟩ :: _ => some p.row
  | _ :: h => lastRead h

/-- At some moment since the last synchronization read the row, this size was in force. -/
def Heeded (size : Nat) : History ProcessEvent Process → Prop
  | [] => False
  | e :: h => InForce size (e :: h) ∨ e.event ≠ .syncRead ∧ Heeded size h

/-- A synchronization that finds no difference finds no size that only a `GET` put into the store, and its
reconcile reads the size of the row. -/
def Heeds (row : RuntimeConfig) (h : History ProcessEvent Process) : ProcessEvent → Prop
  | .syncCompare => (now (Process.new row) h).sync = .read (now (Process.new row) h).config.view →
      Undisturbed row h
  | .desired size => ∀ c, (now (Process.new row) h).sync = .reconciling c → size = c.size
  | _ => True

/-! ## The lock and the synchronization -/

/-- A pool whose start has read the desired size. -/
def Process.Running (p : Process) : Prop :=
  p.started = true ∧ ∀ c, p.lock = some (.request, c) → ∃ next last, c = .create next last

/-- Within `_ensure_threads_locked`. -/
def Critical.Ensures : Critical → Prop
  | .count | .desired _ | .create _ _ => True
  | _ => False

/-- Who may have the lock. -/
structure Process.Owned (p : Process) : Prop where
  waiting : p.waiting = 0
  running : p.threads ≠ [] ∨ p.sync ≠ .idle → p.Running
  ensures : ∀ caller c, p.lock = some (caller, c) → c.Ensures → p.started = true
  own : ∀ c, p.lock = some (.sync, c) → c.Ensures ∧ ∃ shared, p.sync = .reconciling shared
  held : ∀ shared, p.sync = .reconciling shared → ∃ c, p.lock = some (.sync, c)

section
variable {p p' : Process} {e : ProcessEvent}

theorem Process.Owned.mem_running (ho : p.Owned) {t : Thread} (ht : t ∈ p.threads) : p.Running :=
  ho.running (.inl (List.ne_nil_of_mem ht))

theorem Process.Owned.sync_running (ho : p.Owned) {s : Sync} (hs : p.sync = s) (hne : s ≠ .idle) :
    p.Running :=
  ho.running (.inr (hs ▸ hne))

theorem Process.Running.not_request (hr : p.Running) {c : Critical} (hlock : p.lock = some (.request, c))
    (hc : ∀ next last, c ≠ .create next last) : False := by
  obtain ⟨next, last, he⟩ := hr.2 c hlock
  exact hc next last he

/-- The holder of the lock goes on before the size is read. -/
theorem Process.Owned.next (ho : p.Owned) {caller : Caller} {c c' : Critical}
    (hlock : p.lock = some (caller, c)) (hc : ∀ next last, c ≠ .create next last)
    (h₁ : p'.lock = some (caller, c')) (h₂ : p'.waiting = p.waiting) (h₃ : p'.threads = p.threads)
    (h₄ : p'.sync = p.sync) (hens : c'.Ensures → p'.started = true)
    (hback : caller = .sync → c'.Ensures ∧ p'.started = p.started) : p'.Owned where
  waiting := h₂.trans ho.waiting
  running := by
    intro hsome
    rw [h₃, h₄] at hsome
    have hr := ho.running hsome
    cases caller with
    | request => exact (hr.not_request hlock hc).elim
    | sync =>
      refine ⟨(hback rfl).2.trans hr.1, fun k hk => ?_⟩
      rw [h₁] at hk
      cases hk
  ensures := by
    intro caller' k hk hens'
    rw [h₁] at hk
    cases hk
    exact hens hens'
  own := by
    intro k hk
    rw [h₁] at hk
    cases hk
    exact ⟨(hback rfl).1, h₄ ▸ (ho.own c hlock).2⟩
  held := by
    intro shared hs
    rw [h₄] at hs
    obtain ⟨k, hk⟩ := ho.held shared hs
    rw [hlock] at hk
    cases hk
    exact ⟨c', h₁⟩

/-- The holder of the lock reads the size or starts a thread. -/
theorem Process.Owned.handed (ho : p.Owned) {caller : Caller} {c : Critical}
    (hlock : p.lock = some (caller, c)) (hens : c.Ensures) {threads : List Thread}
    {lock : Option (Caller × Critical)} {sync : Sync} (h : p.Handed caller lock sync) :
    ({ p with threads := threads, lock := lock, sync := sync } : Process).Owned := by
  have hstarted := ho.ensures caller c hlock hens
  rcases h with ⟨⟨next, last, rfl⟩, rfl⟩ | ⟨rfl, rfl⟩
  · refine ⟨ho.waiting, fun _ => ⟨hstarted, fun k hk => ?_⟩, fun _ _ _ _ => hstarted, fun k hk => ?_,
      fun shared hs => ?_⟩
    · cases hk
      exact ⟨next, last, rfl⟩
    · cases hk
      exact ⟨trivial, (ho.own c hlock).2⟩
    · obtain ⟨k, hk⟩ := ho.held shared hs
      rw [hlock] at hk
      cases hk
      exact ⟨_, rfl⟩
  · refine ⟨ho.waiting, fun _ => ⟨hstarted, by simp⟩, fun _ _ _ _ => hstarted, by simp, fun shared hs => ?_⟩
    cases caller with
    | sync =>
      obtain ⟨old, hold⟩ := (ho.own c hlock).2
      simp only [hold, if_true, Sync.reconciled] at hs
      cases hs
    | request =>
      obtain ⟨k, hk⟩ := ho.held shared hs
      rw [hlock] at hk
      cases hk

/-- The synchronization goes on without the lock. -/
theorem Process.Owned.synced (ho : p.Owned) (hr : p.Running) {sync : Sync} {config : RuntimeConfigStore}
    (h₁ : ∀ shared, p.sync ≠ .reconciling shared) (h₂ : ∀ shared, sync ≠ .reconciling shared) :
    ({ p with config := config, sync := sync } : Process).Owned where
  waiting := ho.waiting
  running _ := hr
  ensures := ho.ensures
  own c hc := by
    obtain ⟨-, shared, hs⟩ := ho.own c hc
    exact absurd hs (h₁ shared)
  held shared hs := absurd hs (h₂ shared)

theorem Process.Owned.step (ho : p.Owned) (hstep : ProcessStep p e p') (he : e.Remote) : p'.Owned := by
  cases hstep with
  | remote | read | replaceRead => exact ⟨ho.waiting, ho.running, ho.ensures, ho.own, ho.held⟩
  | start hlock hno =>
    refine ⟨ho.waiting, fun hsome => ?_, fun caller c hc hens => ?_, fun c hc => ?_, fun shared hs => ?_⟩
    · rw [(ho.running hsome).1] at hno
      cases hno
    · cases hc
      cases hens
    · cases hc
    · obtain ⟨c, hc⟩ := ho.held shared hs
      rw [hlock] at hc
      cases hc
  | @fetch caller hlock | @replaceFetched caller c hlock =>
    refine ho.next hlock (by simp) rfl rfl rfl rfl False.elim fun hsync => ?_
    subst hsync
    exact (ho.own _ hlock).1.elim
  | @setStarted caller hlock =>
    refine ho.next hlock (by simp) rfl rfl rfl rfl (fun _ => rfl) fun hsync => ?_
    subst hsync
    exact (ho.own _ hlock).1.elim
  | count hlock =>
    exact ho.next hlock (by simp) rfl rfl rfl rfl (fun _ => ho.ensures _ _ hlock trivial)
      fun _ => ⟨trivial, rfl⟩
  | acquire _ hwaiting | skip _ hwaiting =>
    rw [ho.waiting] at hwaiting
    cases hwaiting
  | syncAcquire hlock hsync hstarted =>
    refine ⟨ho.waiting, fun _ => ⟨hstarted, by simp⟩, fun _ _ _ _ => hstarted, fun c hc => ?_,
      fun _ _ => ⟨_, rfl⟩⟩
    cases hc
    exact ⟨trivial, _, rfl⟩
  | syncSkip hlock hsync hno =>
    rw [(ho.sync_running hsync (by simp)).1] at hno
    cases hno
  | desired hlock =>
    obtain ⟨lock, sync, he, hh⟩ := range_handed p _ _ _
    rw [he]
    exact ho.handed hlock trivial hh
  | create hlock =>
    obtain ⟨lock, sync, he, hh⟩ := created_handed p _ _ _
    rw [he]
    exact ho.handed hlock trivial hh
  | syncRead hmem hsync =>
    exact ho.synced (ho.mem_running hmem) (by simp [hsync]) (by simp)
  | syncCompare hsync | syncEnd hsync =>
    exact ho.synced (ho.sync_running hsync (by simp)) (by simp [hsync]) (by simp)
  | @syncReplace c changed hsync =>
    refine ho.synced (ho.sync_running hsync (by simp)) (by simp [hsync]) ?_
    cases changed <;> simp
  | leave hmem => exact ⟨ho.waiting, fun _ => ho.mem_running hmem, ho.ensures, ho.own, ho.held⟩
  | exit hmem | die hmem => exact ⟨ho.waiting, fun _ => ho.mem_running hmem, ho.ensures, ho.own, ho.held⟩
  | _ => exact he.elim

end

/-! ## The size in force -/

/-- No reconcile of a synchronization is about to read the size. -/
def Process.Settled (p : Process) : Prop :=
  (∀ c, p.sync ≠ .changed c) ∧ ∀ c, p.lock = some (.sync, c) → ∃ next last, c = .create next last

section
variable {row : RuntimeConfig} {h : History ProcessEvent Process} {p p' : Process} {e : ProcessEvent}

/-- The size of the store, as long as no `GET` has changed it. -/
structure Tracked (row : RuntimeConfig) (h : History ProcessEvent Process) (p : Process) : Prop where
  force : p.Running → p.Settled → InForce p.desired h
  equal : ∀ c, p.sync = .compared c false → p.desired = c.size
  creating : ∀ next last, p.lock = some (.request, .create next last) → (∀ c, p.sync ≠ .changed c) →
    p.desired = last

/-- The same size, lock and present reconcile. -/
theorem Tracked.frame (ht : Tracked row h p) (hsize : p'.desired = p.desired)
    (hstarted : p'.started = p.started) (hlock : p'.lock = p.lock)
    (hchanged : ∀ c, p.sync = .changed c → p'.sync = .changed c)
    (hcompared : ∀ c, p'.sync = .compared c false → p.sync = .compared c false) :
    Tracked row (⟨e, p'⟩ :: h) p' where
  force hr hs := by
    refine .inr ⟨rfl, ?_⟩
    rw [hsize]
    refine ht.force ?_ ⟨fun c hc => hs.1 c (hchanged c hc), hlock ▸ hs.2⟩
    unfold Process.Running at hr ⊢
    rwa [hstarted, hlock] at hr
  equal c hc := hsize.trans (ht.equal c (hcompared c hc))
  creating next last hl hs :=
    hsize.trans (ht.creating next last (hlock ▸ hl) fun c hc => hs c (hchanged c hc))

/-- The pool is being started and has not read the size. -/
theorem Tracked.starting {c : Critical} (ho : p.Owned) (hno : ¬ p.Running)
    (hlock : p'.lock = some (.request, c)) (hc : ∀ next last, c ≠ .create next last)
    (hsync : p'.sync = p.sync) : Tracked row (⟨e, p'⟩ :: h) p' where
  force hr _ := (hr.not_request hlock hc).elim
  equal c hs := (hno (ho.sync_running (hsync.symm.trans hs) (by simp))).elim
  creating next last hl _ := by
    rw [hlock] at hl
    cases hl
    exact absurd rfl (hc next last)

/-- A synchronization reconciles and has not read the size. -/
theorem Tracked.reconciling {c : Critical} {shared : RuntimeConfig}
    (hlock : p'.lock = some (.sync, c)) (hc : ∀ next last, c ≠ .create next last)
    (hsync : p'.sync = .reconciling shared) : Tracked row (⟨e, p'⟩ :: h) p' where
  force _ hs := by
    obtain ⟨next, last, he⟩ := hs.2 c hlock
    exact absurd he (hc next last)
  equal c hs := by
    rw [hsync] at hs
    cases hs
  creating next last hl _ := by
    rw [hlock] at hl
    cases hl

/-- A synchronization that has the lock does not compare. -/
theorem Process.Handed.compared (ho : p.Owned) {caller : Caller} {k : Critical}
    (hlock : p.lock = some (caller, k)) {lock : Option (Caller × Critical)} {sync : Sync}
    (hh : p.Handed caller lock sync) {c : RuntimeConfig} {changed : Bool}
    (hs : sync = .compared c changed) : caller = .request ∧ p.sync = .compared c changed := by
  cases caller with
  | request => exact ⟨rfl, hh.request ▸ hs⟩
  | sync =>
    obtain ⟨-, shared, hr⟩ := ho.own k hlock
    rcases hh with ⟨-, rfl⟩ | ⟨-, rfl⟩
    · rw [hr] at hs
      cases hs
    · simp only [hr, if_true, Sync.reconciled] at hs
      cases hs

/-- A synchronization that has the lock has no reconcile to make. -/
theorem Process.Handed.changed (ho : p.Owned) {caller : Caller} {k : Critical}
    (hlock : p.lock = some (caller, k)) {lock : Option (Caller × Critical)} {sync : Sync}
    (hh : p.Handed caller lock sync) {c : RuntimeConfig} (hs : p.sync = .changed c) :
    sync = .changed c := by
  cases caller with
  | request => exact hh.request.trans hs
  | sync =>
    obtain ⟨-, shared, hr⟩ := ho.own k hlock
    rw [hr] at hs
    cases hs

theorem Tracked.step (ht : Undisturbed row h → Tracked row h p) (ho : p.Owned)
    (hp : now (Process.new row) h = p) (hstep : ProcessStep p e p') (he : e.Remote)
    (hu : Undisturbed row (⟨e, p'⟩ :: h)) : Tracked row (⟨e, p'⟩ :: h) p' := by
  cases hstep with
  | remote | read | leave | exit | die =>
    exact (ht hu).frame rfl rfl rfl (fun _ => id) fun _ => id
  | replaceRead hmem => exact (ht hu.2).frame (hp ▸ hu.1) rfl rfl (fun _ => id) fun _ => id
  | start hlock hno =>
    refine Tracked.starting ho (fun hr => ?_) rfl (by simp) rfl
    rw [hr.1] at hno
    cases hno
  | @fetch caller hlock | @replaceFetched caller c hlock | @setStarted caller hlock =>
    cases caller with
    | request => exact Tracked.starting ho (fun hr => hr.not_request hlock (by simp)) rfl (by simp) rfl
    | sync => exact (ho.own _ hlock).1.elim
  | @count caller hlock =>
    cases caller with
    | request => exact Tracked.starting ho (fun hr => hr.not_request hlock (by simp)) rfl (by simp) rfl
    | sync =>
      obtain ⟨-, shared, hs⟩ := ho.own _ hlock
      exact Tracked.reconciling rfl (by simp) hs
  | acquire _ hwaiting | skip _ hwaiting =>
    rw [ho.waiting] at hwaiting
    cases hwaiting
  | syncAcquire => exact Tracked.reconciling rfl (by simp) rfl
  | syncSkip hlock hsync hno =>
    rw [(ho.sync_running hsync (by simp)).1] at hno
    cases hno
  | @desired caller current hlock =>
    have hl := @range_lock p caller .request current
      p.desired
    obtain ⟨lock, sync, he, hh⟩ := range_handed p caller current
      p.desired
    rw [he] at hl ⊢
    refine ⟨fun _ _ => .inl rfl, fun c hs => ?_, fun next last hlock' _ => ?_⟩
    · obtain ⟨rfl, hc⟩ := Process.Handed.compared ho hlock hh hs
      exact ((ho.sync_running hc (by simp)).not_request hlock (by simp)).elim
    · obtain ⟨-, -, rfl, -⟩ := hl hlock'
      rfl
  | @create caller next last hlock =>
    have hl := @created_lock p caller .request next last
    obtain ⟨lock, sync, he, hh⟩ := created_handed p caller next last
    have ht := ht hu
    have hchanged : (∀ c, sync ≠ .changed c) → ∀ c, p.sync ≠ .changed c :=
      fun hs c hc => hs c (Process.Handed.changed ho hlock hh hc)
    rw [he] at hl ⊢
    refine ⟨fun _ hs => .inr ⟨rfl, ht.force ⟨ho.ensures _ _ hlock trivial, fun c hc => ?_⟩
      ⟨hchanged hs.1, fun c hc => ?_⟩⟩, fun c hs => ?_, fun n l hlock' hs => ?_⟩
    · rw [hlock] at hc
      cases hc
      exact ⟨next, last, rfl⟩
    · rw [hlock] at hc
      cases hc
      exact ⟨next, last, rfl⟩
    · exact ht.equal c (Process.Handed.compared ho hlock hh hs).2
    · obtain ⟨rfl, -, rfl, -⟩ := hl hlock'
      exact ht.creating next _ hlock (hchanged hs)
  | syncRead hmem hsync | syncEnd hsync =>
    exact (ht hu).frame rfl rfl rfl (fun c hc => by rw [hsync] at hc; cases hc) (by simp)
  | @syncCompare c hsync =>
    have ht := ht hu
    have hread : ∀ c, p.sync ≠ .changed c := by
      simp [hsync]
    refine ⟨fun hr hs => .inr ⟨rfl, ht.force hr ⟨hread, hs.2⟩⟩, fun c' hc => ?_,
      fun next last hl _ => ht.creating next last hl hread⟩
    injection hc with hc hsame
    rw [← hc, not_not.1 (of_decide_eq_false hsame)]
    rfl
  | @syncReplace c changed hsync =>
    have ht := ht hu
    cases changed with
    | true => exact ⟨fun _ hs => absurd rfl (hs.1 c), (by simp), fun _ _ _ hs => absurd rfl (hs c)⟩
    | false =>
      exact ht.frame (ht.equal c hsync).symm rfl rfl (fun c hc => by rw [hsync] at hc; cases hc) (by simp)
  | _ => exact he.elim

/-! ## The synchronizations -/

/-- The row that the present synchronization has read. -/
def Sync.shared : Sync → Option RuntimeConfig
  | .idle => none
  | .read c | .compared c _ | .changed c | .reconciling c | .finishing c => some c

theorem InForce.heeded {size : Nat} (hf : InForce size h) : Heeded size h := by
  cases h with
  | nil => exact hf.elim
  | cons e h => exact .inl hf

/-- A synchronization that needs no reconcile, or has made it, has had the size of its row in force. -/
structure Follows (h : History ProcessEvent Process) (p : Process) : Prop where
  read : ∀ c, p.sync.shared = some c → lastRead h = some c
  heeded : ∀ c, p.sync = .compared c false ∨ p.sync = .finishing c → Heeded c.size h ∧
    ∀ next last, p.lock = some (.request, .create next last) → last = c.size
  reconciled : ∀ c next last, p.sync = .reconciling c → p.lock = some (.sync, .create next last) →
    Heeded c.size h

theorem Follows.idle (hs : p.sync = .idle) : Follows h p where
  read c hc := by simp [hs, Sync.shared] at hc
  heeded c hc := by simp [hs] at hc
  reconciled c _ _ hc := by simp [hs] at hc

/-- The same synchronization, and no creation begins. -/
theorem Follows.frame (hf : Follows h p) (hsync : p'.sync = p.sync)
    (hlock : ∀ caller next last, p'.lock = some (caller, .create next last) →
      ∃ n, p.lock = some (caller, .create n last))
    (hread : lastRead (⟨e, p'⟩ :: h) = lastRead h) (he : e ≠ .syncRead) :
    Follows (⟨e, p'⟩ :: h) p' where
  read c hc := hread.trans (hf.read c (hsync ▸ hc))
  heeded c hc := by
    rw [hsync] at hc
    obtain ⟨hh, hl⟩ := hf.heeded c hc
    refine ⟨.inr ⟨he, hh⟩, fun next last hlast => ?_⟩
    obtain ⟨n, hn⟩ := hlock _ next last hlast
    exact hl n last hn
  reconciled c next last hc hlast := by
    rw [hsync] at hc
    obtain ⟨n, hn⟩ := hlock _ next last hlast
    exact .inr ⟨he, hf.reconciled c n last hc hn⟩

/-- A reconcile has read the size of the row: its synchronization starts the threads or goes on. -/
theorem Follows.handed (hf : Follows h p) {shared : RuntimeConfig} (hs : p.sync = .reconciling shared)
    {threads : List Thread} {lock : Option (Caller × Critical)} {sync : Sync}
    (hh : p.Handed .sync lock sync)
    (hread : lastRead (⟨e, { p with threads := threads, lock := lock, sync := sync }⟩ :: h) = lastRead h)
    (hheeded : Heeded shared.size
      (⟨e, { p with threads := threads, lock := lock, sync := sync }⟩ :: h)) :
    Follows (⟨e, { p with threads := threads, lock := lock, sync := sync }⟩ :: h)
      { p with threads := threads, lock := lock, sync := sync } := by
  have hlast := hf.read shared (by rw [hs]; rfl)
  rcases hh with ⟨⟨next, last, rfl⟩, rfl⟩ | ⟨rfl, rfl⟩
  · refine ⟨fun c hc => ?_, fun c hc => ?_, fun c n l hc _ => ?_⟩
    · rw [hs] at hc
      exact hread.trans (hlast.trans hc)
    · simp [hs] at hc
    · rw [hs] at hc
      cases hc
      exact hheeded
  · simp only [hs, if_true, Sync.reconciled] at hheeded hread ⊢
    refine ⟨fun c hc => hread.trans (hlast.trans hc), fun c hc => ⟨?_, by simp⟩, by simp⟩
    obtain rfl : shared = c := by
      rcases hc with hc | hc
      · cases hc
      · injection hc
    exact hheeded

/-- A synchronization has compared the row with the store. -/
theorem Follows.compare (hf : Follows h p) (ht : Undisturbed row h → Tracked row h p) (ho : p.Owned)
    {c : RuntimeConfig} (hsync : p.sync = .read c) (hheeds : c = p.config.view → Undisturbed row h) :
    Follows (⟨.syncCompare, { p with sync := .compared c (decide (c ≠ p.config.view)) }⟩ :: h)
      { p with sync := .compared c (decide (c ≠ p.config.view)) } := by
  refine ⟨fun c' hc => hf.read c' (by rw [hsync]; exact hc), fun c' hc => ?_, by simp⟩
  obtain ⟨rfl, hsame⟩ : c = c' ∧ c = p.config.view := by
    rcases hc with hc | hc
    · injection hc with hc hsame
      exact ⟨hc, not_not.1 (of_decide_eq_false hsame)⟩
    · cases hc
  have ht := ht (hheeds hsame)
  have hsize : p.desired = c.size := congrArg RuntimeConfig.size hsame.symm
  have hread : ∀ c, p.sync ≠ .changed c := by
    simp [hsync]
  have hown : ∀ k, p.lock ≠ some (.sync, k) := by
    intro k hk
    obtain ⟨-, shared, hs⟩ := ho.own k hk
    rw [hsync] at hs
    cases hs
  have hforce := ht.force (ho.sync_running hsync (by simp)) ⟨hread, fun k hk => absurd hk (hown k)⟩
  rw [hsize] at hforce
  exact ⟨.inr ⟨by simp, hforce.heeded⟩, fun next last hl => (ht.creating next last hl hread).symm.trans hsize⟩

/-- A synchronization puts the row into the store. -/
theorem Follows.replace (hf : Follows h p) {c : RuntimeConfig} {changed : Bool}
    (hsync : p.sync = .compared c changed) {config : RuntimeConfigStore} :
    Follows (⟨.syncReplace, { p with config := config
                                     sync := if changed then .changed c else .finishing c }⟩ :: h)
      { p with config := config, sync := if changed then .changed c else .finishing c } := by
  have hread : lastRead h = some c := hf.read c (by rw [hsync]; rfl)
  cases changed with
  | true => exact ⟨fun c' hc => hread.trans hc, by simp, by simp⟩
  | false =>
    obtain ⟨hh, hl⟩ := hf.heeded c (.inl hsync)
    refine ⟨fun c' hc => hread.trans hc, fun c' hc => ?_, by simp⟩
    obtain rfl : c = c' := by
      rcases hc with hc | hc
      · cases hc
      · injection hc
    exact ⟨.inr ⟨by simp, hh⟩, hl⟩

theorem Follows.step (hf : Follows h p) (ht : Undisturbed row h → Tracked row h p) (ho : p.Owned)
    (hp : now (Process.new row) h = p) (hstep : ProcessStep p e p') (he : e.Remote)
    (hheeds : Heeds row h e) : Follows (⟨e, p'⟩ :: h) p' := by
  cases hstep with
  | remote | read | replaceRead | leave | exit | die =>
    exact hf.frame rfl (fun _ next _ hl => ⟨next, hl⟩) rfl (by simp)
  | start | fetch | replaceFetched | setStarted | count => exact hf.frame rfl (by simp) rfl (by simp)
  | acquire _ hwaiting | skip _ hwaiting =>
    rw [ho.waiting] at hwaiting
    cases hwaiting
  | @syncAcquire c hlock hsync =>
    refine ⟨fun c' hc => hf.read c' ?_, by simp, by simp⟩
    rw [hsync]
    exact hc
  | syncSkip hlock hsync hno =>
    rw [(ho.sync_running hsync (by simp)).1] at hno
    cases hno
  | @desired caller current hlock =>
    obtain ⟨lock, sync, he, hh⟩ := range_handed p caller current p.desired
    rw [he]
    cases caller with
    | request =>
      have hidle : sync = .idle := by
        rw [hh.request]
        by_contra hne
        exact (ho.sync_running rfl hne).not_request hlock (by simp)
      exact Follows.idle hidle
    | sync =>
      obtain ⟨-, shared, hs⟩ := ho.own _ hlock
      refine hf.handed hs hh rfl (.inl (.inl ?_))
      rw [hheeds shared (hp ▸ hs)]
  | @create caller next last hlock =>
    obtain ⟨lock, sync, he, hh⟩ := created_handed p caller next last
    rw [he]
    cases caller with
    | request =>
      refine hf.frame hh.request (fun c n l hk => ?_) rfl (by simp)
      obtain ⟨rfl, -, rfl, -⟩ := @created_lock p .request c next last n l (by rw [he]; exact hk)
      exact ⟨next, hlock⟩
    | sync =>
      obtain ⟨-, shared, hs⟩ := ho.own _ hlock
      exact hf.handed hs hh rfl (.inr ⟨by simp, hf.reconciled shared next last hs hlock⟩)
  | @syncRead slot hmem hsync => exact ⟨fun c hc => hc, by simp, by simp⟩
  | syncCompare hsync =>
    refine hf.compare ht ho hsync fun hsame => hheeds ?_
    rw [hp, hsync, hsame]
  | syncReplace hsync => exact hf.replace hsync
  | syncEnd => exact Follows.idle rfl
  | _ => exact he.elim

theorem Process.Owned.new (row : RuntimeConfig) : (Process.new row).Owned where
  waiting := rfl
  running hsome := by
    rcases hsome with hsome | hsome
    · exact absurd rfl hsome
    · exact absurd rfl hsome
  ensures := by simp [Process.new]
  own := by simp [Process.new]
  held := by simp [Process.new]

/-- The three invariants of a run. -/
theorem ProcessRun.follows (hr : ProcessRun row h) (hremote : ∀ e ∈ h, e.event.Remote)
    (hheeds : Each (Heeds row) h) : (now (Process.new row) h).Owned ∧
      (Undisturbed row h → Tracked row h (now (Process.new row) h)) ∧
      Follows h (now (Process.new row) h) := by
  induction hr with
  | nil =>
    have ht : Tracked row [] (Process.new row) := by
      refine ⟨fun hr => ?_, by simp [Process.new], by simp [Process.new]⟩
      cases hr.1
    exact ⟨Process.Owned.new row, fun _ => ht, Follows.idle rfl⟩
  | cons hr hstep ih =>
    obtain ⟨ho, ht, hf⟩ := ih (fun e he => hremote e (List.mem_cons_of_mem _ he)) hheeds.2
    have he := hremote _ (List.mem_cons_self ..)
    exact ⟨ho.step hstep he, Tracked.step ht ho rfl hstep he, hf.step ht ho rfl hstep he hheeds.1⟩

/-- While a synchronization that finds no difference finds no size that only a `GET` put into the store, and
its reconcile reads the size of its row: when a synchronization ends, the size of the row that it read has
been in force since a reconcile read it, whose threads are all started, or since the start read it, which
may still be starting them. -/
theorem resize_heeded {c : RuntimeConfig} (hr : ProcessRun row (⟨.syncEnd c, p⟩ :: h))
    (hremote : ∀ e ∈ h, e.event.Remote) (hheeds : Each (Heeds row) h) :
    lastRead h = some c ∧ Heeded c.size h ∧
      (p.lock = none ∨ ∃ next, p.lock = some (.request, .create next c.size)) := by
  obtain ⟨ho, -, hf⟩ := ProcessRun.follows hr.tail hremote hheeds
  have hstep := hr.head
  generalize now (Process.new row) h = q at ho hf hstep
  cases hstep with
  | syncEnd hsync =>
    obtain ⟨hh, hcreate⟩ := hf.heeded c (.inr hsync)
    refine ⟨hf.read c (by rw [hsync]; rfl), hh, ?_⟩
    show q.lock = none ∨ ∃ next, q.lock = some (.request, .create next c.size)
    rcases hlock : q.lock with _ | ⟨caller, k⟩
    · exact .inl rfl
    · right
      cases caller with
      | request =>
        obtain ⟨next, last, rfl⟩ := (ho.sync_running hsync (by simp)).2 k hlock
        exact ⟨next, by rw [hcreate next last hlock]⟩
      | sync =>
        obtain ⟨-, shared, hs⟩ := ho.own k hlock
        rw [hsync] at hs
        cases hs

end

/-- Another process changes the size from three to four, and the thread 1 synchronizes. -/
theorem resize_heeded_sample : ∃ (h : History ProcessEvent Process) (p : Process),
    ProcessRun (sizedConfig 3 rfl) (⟨.syncEnd (sizedConfig 4 rfl), p⟩ :: h) ∧
      Heeded (sizedConfig 4 rfl).size h ∧ p.threads.length = 4 := by
  have h₁ := Valid.cons startRun_valid (.remote (sizedConfig 4 rfl))
  have h₂ := Valid.cons h₁ (@ProcessStep.syncRead _ 1 (.tail _ (.tail _ (.head _))) rfl)
  have h₃ := Valid.cons h₂ (.syncCompare rfl)
  have h₄ := Valid.cons h₃ (@ProcessStep.syncReplace _ (sizedConfig 4 rfl) true (by decide +kernel))
  have h₅ := Valid.cons h₄ (.syncAcquire rfl rfl rfl)
  have h₆ := Valid.cons h₅ (.count rfl)
  have h₇ := Valid.cons h₆ (.desired rfl)
  have h₈ := Valid.cons h₇ (.create rfl)
  have h₉ := Valid.cons h₈ (.syncEnd (c := sizedConfig 4 rfl) rfl)
  refine ⟨_, _, h₉, (resize_heeded h₉ ?_ ?_).2.1, rfl⟩
  · simp [startRun, ProcessEvent.Remote]
  · refine ⟨trivial, fun c hc => ?_, trivial, trivial, trivial, fun _ => trivial, trivial, trivial, trivial,
      trivial, trivial, fun c hc => ?_, trivial, trivial, trivial, trivial, trivial, trivial⟩
    · cases hc
      rfl
    · cases hc

/-- Another process changes the size from three to four, a `GET /config` puts it into the store, and the
thread 1 synchronizes: no reconcile has read the new size, and there is no fourth thread. -/
theorem resize_heeded_fails : ∃ (h : History ProcessEvent Process) (p : Process),
    ProcessRun (sizedConfig 3 rfl) (⟨.syncEnd (sizedConfig 4 rfl), p⟩ :: h) ∧
      (∀ e ∈ h, e.event.Remote) ∧ p.row = sizedConfig 4 rfl ∧ p.lock = none ∧ p.sync = .idle ∧
      (∀ e ∈ h, e.event ≠ .desired (sizedConfig 4 rfl).size) ∧ p.threads.length = 3 := by
  have h₁ := Valid.cons startRun_valid (.remote (sizedConfig 4 rfl))
  have h₂ := Valid.cons h₁ .read
  have h₃ := Valid.cons h₂ (.replaceRead (List.mem_cons_self ..))
  have h₄ := Valid.cons h₃ (@ProcessStep.syncRead _ 1 (.tail _ (.tail _ (.head _))) rfl)
  have h₅ := Valid.cons h₄ (.syncCompare rfl)
  have h₆ := Valid.cons h₅ (@ProcessStep.syncReplace _ (sizedConfig 4 rfl) false (by decide +kernel))
  have h₇ := Valid.cons h₆ (.syncEnd (c := sizedConfig 4 rfl) (by decide +kernel))
  refine ⟨_, _, h₇, ?_, rfl, rfl, rfl, ?_, rfl⟩
  · simp [startRun, ProcessEvent.Remote]
  · simp [startRun, RuntimeConfig.size, sizedConfig]

end PulseQueue
