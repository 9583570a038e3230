import PulseQueue.Spec.Initializers

/-!
# The schema is created once and for all

What a process was told of the catalog stays true (`told_mono`), and it issues a statement only when
what it was told places it (`Known`, `supported`). So a process that finishes has left the whole schema,
whatever the others do (`schema_complete`), and it fails only when the database does not answer, when
rows are not unique, or when another one has added a column or created an object since it looked
(`initializer_errors`). Alone it finishes, and once more it changes nothing (`initializer_alone`).
-/

namespace PulseQueue

open Interaction Ddl Shared Trace

/-! ## Statements -/

/-- A statement of the schema. -/
def inSchema : Statement → Bool
  | .createTable t columns => decide ((t, columns) ∈ schemaTables)
  | .createIndex i => decide (i ∈ schemaIndexes)
  | .addColumn t column => t = "jobs" && decide (column ∈ addedColumns)
  | .addColumnIfNotExists t column => t = "jobs" && decide (column ∈ addedColumns)

/-- What is done by the statements `done` places the statement. -/
def supported (done : List Statement) : Statement → Bool
  | .createTable _ _ => true
  | .createIndex i => (done.any fun s => match s with
      | .createTable t _ => t = i.table
      | _ => false) &&
    i.uses.all fun column => decide (column ∈ baseColumns i.table) ||
      decide (.addColumn i.table column ∈ done) || decide (.addColumnIfNotExists i.table column ∈ done)
  | .addColumn t _ | .addColumnIfNotExists t _ => done.any fun s => match s with
      | .createTable t' _ => t' = t
      | _ => false

/-- Each statement is placed by those before it. -/
def supportedAll : List Statement → List Statement → Bool
  | _, [] => true
  | done, s :: ss => supported done s && supportedAll (done ++ [s]) ss

theorem baseColumns_subset : ∀ x ∈ schemaTables, baseColumns x.1 ⊆ x.2 := by decide

theorem schemaIndexes_name : ∀ i ∈ schemaIndexes, ∀ j ∈ schemaIndexes, i.name = j.name → i = j := by
  decide

section
variable {V : Type} {c c' : Catalog V} {engine : Engine}

theorem supported_placed {done : List Statement} {s : Statement} (hu : Upgradable c)
    (hd : ∀ b ∈ done, b.Done c) (hs : supported done s = true) : s.Placed c := by
  have htable : ∀ t, (done.any fun s => match s with
      | .createTable t' _ => t' = t
      | _ => false) = true → ∃ d, c.tables t = some d := by
    intro t ht
    obtain ⟨b, hb, hbt⟩ := List.any_eq_true.1 ht
    cases b with
    | createTable t' columns =>
      cases of_decide_eq_true hbt
      exact hd _ hb
    | _ => cases hbt
  cases s with
  | createTable t columns => trivial
  | addColumn t column | addColumnIfNotExists t column => exact htable t hs
  | createIndex i =>
    obtain ⟨ht, huses⟩ := Bool.and_eq_true_iff.1 hs
    obtain ⟨d, hdt⟩ := htable _ ht
    refine ⟨d, hdt, fun column hc => ?_⟩
    have hcolumn := List.all_eq_true.1 huses column hc
    simp only [Bool.or_eq_true, decide_eq_true_eq] at hcolumn
    rcases hcolumn with (hbase | hadd) | hadd
    · exact hu.columns _ d hdt hbase
    · obtain ⟨d', hd', hm⟩ := hd _ hadd
      cases hdt.symm.trans hd'
      exact hm
    · obtain ⟨d', hd', hm⟩ := hd _ hadd
      cases hdt.symm.trans hd'
      exact hm

/-- All statements of the schema are among these. -/
def covers (done : List Statement) : Bool :=
  (schemaTables.all fun x => decide (.createTable x.1 x.2 ∈ done)) &&
    (schemaIndexes.all fun i => decide (.createIndex i ∈ done)) &&
    addedColumns.all fun column =>
      decide (.addColumn "jobs" column ∈ done) || decide (.addColumnIfNotExists "jobs" column ∈ done)

theorem columns_split : ∀ x ∈ schemaTables, ∀ column ∈ x.2,
    column ∈ baseColumns x.1 ∨ x.1 = "jobs" ∧ column ∈ addedColumns := by
  decide

theorem complete_of_done {done : List Statement} (hcovers : covers done = true) (hu : Upgradable c)
    (hdone : ∀ s ∈ done, s.Done c) : Complete c := by
  obtain ⟨h, hcolumns⟩ := Bool.and_eq_true_iff.1 hcovers
  obtain ⟨htables, hindexes⟩ := Bool.and_eq_true_iff.1 h
  refine ⟨fun x hx => ?_, fun i hi => ?_⟩
  · obtain ⟨d, hd⟩ := hdone _ (of_decide_eq_true (List.all_eq_true.1 htables x hx))
    refine ⟨d, hd, fun column hc => ?_⟩
    rcases columns_split x hx column hc with hbase | ⟨hjobs, hadded⟩
    · exact hu.columns _ d hd hbase
    · have hcolumn := List.all_eq_true.1 hcolumns column hadded
      simp only [Bool.or_eq_true, decide_eq_true_eq] at hcolumn
      rw [hjobs] at hd
      rcases hcolumn with hm | hm
      · obtain ⟨d', hd', hc'⟩ := hdone _ hm
        cases hd.symm.trans hd'
        exact hc'
      · obtain ⟨d', hd', hc'⟩ := hdone _ hm
        cases hd.symm.trans hd'
        exact hc'
  · obtain ⟨j, hj, hname⟩ := hdone _ (of_decide_eq_true (List.all_eq_true.1 hindexes i hi))
    rw [← hu.indexes j hj i hi hname]
    exact hj

theorem empty_upgradable : Upgradable (.empty : Catalog V) := by
  refine ⟨fun t d hd => ?_, fun i hi => ?_⟩
  · cases hd
  · exact absurd hi List.not_mem_nil

/-! ## What a process knows -/

abbrev SchemaExchange : Type := Exchange SchemaSql SchemaSql.Answer
abbrev SchemaTalk : Type := Conversation SchemaSql SchemaSql.Answer

/-- What an answer says about the catalog, then and later. -/
def Told (x : SchemaExchange) (c : Catalog V) : Prop :=
  match x with
  | ⟨.run s, .ok _⟩ => s.Done c
  | ⟨.run s, .error (.duplicateColumn _)⟩ => s.Done c
  | ⟨.tableInfo t, .ok columns⟩ => ∀ column ∈ columns, (Statement.addColumn t column).Done c
  | ⟨.transaction ss, .ok _⟩ => ∀ s ∈ ss, s.Done c
  | ⟨.transaction ss, .error (.duplicateObject name)⟩ => ∃ s ∈ ss, s.creates = some name ∧ s.Done c
  | _ => True

theorem Told.mono {x : SchemaExchange} (h : Told x c) (hg : c.Grows c') : Told x c' := by
  obtain ⟨q, a⟩ := x
  cases q with
  | run s =>
    cases a with
    | ok u => exact Statement.Done.mono h hg
    | error e =>
      cases e with
      | duplicateColumn column => exact Statement.Done.mono h hg
      | _ => trivial
  | tableInfo t =>
    cases a with
    | ok columns => exact fun column hc => (h column hc).mono hg
    | error e => trivial
  | transaction ss =>
    cases a with
    | ok u => exact fun s hs => (h s hs).mono hg
    | error e =>
      cases e with
      | duplicateObject name =>
        obtain ⟨s, hs, hname, hdone⟩ := h
        exact ⟨s, hs, hname, hdone.mono hg⟩
      | _ => trivial

/-- Where all was told, the statements are done. -/
def KnownDone (V : Type) (past : SchemaTalk) (done : List Statement) : Prop :=
  ∀ c : Catalog V, (∀ x ∈ past, Told x c) → ∀ s ∈ done, s.Done c

theorem KnownDone.mono {past past' : SchemaTalk} {done : List Statement} (h : KnownDone V past done)
    (hsub : past ⊆ past') : KnownDone V past' done :=
  fun c htold => h c fun x hx => htold x (hsub hx)

theorem KnownDone.append {past : SchemaTalk} {done ss : List Statement} (h : KnownDone V past done)
    (hss : KnownDone V past ss) : KnownDone V past (done ++ ss) := by
  intro c htold s hs
  rcases List.mem_append.1 hs with hs | hs
  · exact h c htold s hs
  · exact hss c htold s hs

/-- The new columns of `jobs`, for a process that was told the columns. -/
def missing (columns : List String) : List String := addedColumns.filter fun column => column ∉ columns

theorem mem_missing {columns : List String} {column : String} :
    column ∈ missing columns ↔ column ∈ addedColumns ∧ column ∉ columns := by
  simp [missing]

/-- What the process was told and has added makes up the new columns. -/
theorem knownDone_columns {past : SchemaTalk} {columns : List String}
    (htold : (⟨.tableInfo "jobs", .ok columns⟩ : SchemaExchange) ∈ past)
    (hadded : KnownDone V past ((missing columns).map (.addColumn "jobs"))) :
    KnownDone V past (addedColumns.map (.addColumn "jobs")) := by
  intro c hc s hs
  obtain ⟨column, hcolumn, rfl⟩ := List.mem_map.1 hs
  by_cases hm : column ∈ columns
  · exact hc _ htold column hm
  · exact hadded c hc _ (List.mem_map_of_mem (mem_missing.2 ⟨hcolumn, hm⟩))

theorem Complete.missing {d : TableData V} (hc : Complete c) (hd : c.tables "jobs" = some d) :
    missing d.columns = [] := by
  obtain ⟨d', hd', hcolumns⟩ := hc.tables ("jobs", jobsColumns) (by simp [schemaTables])
  cases hd.symm.trans hd'
  have hadded : addedColumns ⊆ jobsColumns := by decide
  refine List.filter_eq_nil_iff.2 fun column hm => ?_
  simp [hcolumns (hadded hm)]

theorem Complete.done (hc : Complete c) {s : Statement} (hin : inSchema s = true) : s.Done c := by
  obtain ⟨d, hd, hcolumns⟩ := hc.tables ("jobs", jobsColumns) (by simp [schemaTables])
  have hadded : addedColumns ⊆ jobsColumns := by decide
  cases s with
  | createTable t columns =>
    obtain ⟨d, hd, -⟩ := hc.tables (t, columns) (of_decide_eq_true hin)
    exact ⟨d, hd⟩
  | createIndex i => exact ⟨i, hc.indexes i (of_decide_eq_true hin), rfl⟩
  | addColumn t column | addColumnIfNotExists t column =>
    obtain ⟨ht, hm⟩ := Bool.and_eq_true_iff.1 hin
    rw [of_decide_eq_true ht]
    exact ⟨d, hd, hcolumns (hadded (of_decide_eq_true hm))⟩

variable [DecidableEq V]

theorem exec_upgradable {s : Statement} (hu : Upgradable c) (hs : inSchema s = true)
    (hx : Ddl.exec s c = .ok c') : Upgradable c' := by
  obtain ⟨hchange, -⟩ := exec_change hx
  cases hchange with
  | same => exact hu
  | @table t columns hnone =>
    refine ⟨fun t' d hd => ?_, hu.indexes⟩
    rw [setTable_tables] at hd
    split at hd
    · rename_i he
      cases hd
      rw [he]
      exact baseColumns_subset (t, columns) (of_decide_eq_true hs)
    · exact hu.columns t' d hd
  | @index i d hd huses hfits hname =>
    refine ⟨hu.columns, fun j hj k hk hjk => ?_⟩
    rcases List.mem_append.1 hj with hj | hj
    · exact hu.indexes j hj k hk hjk
    · rw [List.mem_singleton.1 hj] at hjk ⊢
      exact schemaIndexes_name i (of_decide_eq_true hs) k hk hjk
  | @column _ t column d hd hnew =>
    refine ⟨fun t' d' hd' => ?_, hu.indexes⟩
    rw [setTable_tables] at hd'
    split at hd'
    · rename_i he
      cases hd'
      rw [he]
      exact List.Subset.trans (hu.columns t d hd) (List.subset_append_left _ _)
    · exact hu.columns t' d' hd'

theorem exec_told {q : SchemaSql} {a : q.Answer} (hx : (a, c') = q.exec c) :
    c.Keeps c' ∧ c.Grows c' ∧ (c.Ok → c'.Ok) ∧ Told ⟨q, a⟩ c' := by
  cases q with
  | run s =>
    change (a, c') = SchemaSql.outcome c (Ddl.exec s c) at hx
    cases hs : Ddl.exec s c with
    | ok c₁ =>
      rw [hs] at hx
      cases hx
      obtain ⟨hchange, hdone⟩ := exec_change hs
      exact ⟨hchange.keeps.1, hchange.grows, hchange.ok, hdone⟩
    | error e =>
      rw [hs] at hx
      cases hx
      refine ⟨.refl c, .refl c, id, ?_⟩
      cases e with
      | duplicateColumn column => exact exec_duplicate hs
      | _ => trivial
  | tableInfo t =>
    cases hx
    refine ⟨.refl c, .refl c, id, ?_⟩
    intro column hc
    cases ht : c.tables t with
    | none =>
      rw [ht] at hc
      cases hc
    | some d =>
      rw [ht] at hc
      exact ⟨d, ht, hc⟩
  | transaction ss =>
    change (a, c') = SchemaSql.outcome c (execAll ss c) at hx
    cases hs : execAll ss c with
    | ok c₁ =>
      rw [hs] at hx
      cases hx
      exact execAll_keeps hs
    | error e =>
      rw [hs] at hx
      cases hx
      refine ⟨.refl c, .refl c, id, ?_⟩
      cases e with
      | duplicateObject name => exact absurd hs (execAll_ne_duplicate ss c name)
      | _ => trivial

theorem Serves.grows (h : Serves c c') : c.Grows c' := by
  refine ⟨fun t d hd => ?_, by rw [h.indexes]; exact List.Subset.refl _⟩
  have hc := h.columns t
  rw [hd, Option.map_some] at hc
  obtain ⟨d', hd', hcolumns⟩ := Option.map_eq_some_iff.1 hc
  exact ⟨d', hd', by rw [hcolumns]; exact List.Subset.refl _⟩

theorem Serves.upgradable (h : Serves c c') (hu : Upgradable c) : Upgradable c' := by
  refine ⟨fun t d' hd' => ?_, by rw [h.indexes]; exact hu.indexes⟩
  have hc := (h.columns t).symm
  rw [hd', Option.map_some] at hc
  obtain ⟨d, hd, hcolumns⟩ := Option.map_eq_some_iff.1 hc
  rw [← hcolumns]
  exact hu.columns t d hd

/-- What the machine answers. -/
theorem answers_told {q : SchemaSql} {a : q.Answer} (hx : (initializers V engine).answers q c a c') :
    c.Keeps c' ∧ c.Grows c' ∧ (c.Ok → c'.Ok) ∧ Told ⟨q, a⟩ c' := by
  rcases hx with hx | ⟨rfl | hcollides, rfl⟩
  · exact exec_told hx
  · exact ⟨.refl c', .refl c', id, by cases q <;> trivial⟩
  · cases q with
    | transaction ss =>
      obtain ⟨s, hs, name, hname, hdone, rfl⟩ := hcollides
      exact ⟨.refl c', .refl c', id, s, hs, hname, hdone⟩
    | run s => exact hcollides.elim
    | tableInfo t => exact hcollides.elim

/-- A process may go on believing what it was told. -/
theorem initializers_told {m : Catalog V} {h : Past (initializers V engine)}
    (hr : Shared.Run (initializers V engine) m h) : ∀ t ∈ (now (State.mk m []) h).threads, ∀ x ∈ t.past,
      Told x (now (State.mk m []) h).memory := by
  refine Run.knows (R := fun x c => Told x c) ?_ ?_ hr
  · intro q c a c' ha
    obtain ⟨-, hgrows, -, htold⟩ := answers_told ha
    exact ⟨htold, fun y hy => hy.mono hgrows⟩
  · exact fun c c' hs y hy => hy.mono hs.grows

theorem execAll_upgradable : ∀ {ss : List Statement} {c c' : Catalog V}, Upgradable c →
    (∀ s ∈ ss, inSchema s = true) → execAll ss c = .ok c' → Upgradable c'
  | [], c, c', hu, _, hx => by
    cases hx
    exact hu
  | s :: ss, c, c', hu, hin, hx => by
    obtain ⟨hs, hss⟩ := List.forall_mem_cons.1 hin
    unfold execAll at hx
    cases hx₁ : Ddl.exec s c with
    | error e =>
      rw [hx₁] at hx
      cases hx
    | ok c₁ =>
      rw [hx₁] at hx
      exact execAll_upgradable (exec_upgradable hu hs hx₁) hss hx

/-! ## What a process issues -/

/-- What a process may issue: a statement of the schema in its place, and a new column only if it was
not there. -/
def Proper (V : Type) [DecidableEq V] (engine : Engine) (past : SchemaTalk) : SchemaSql → Prop
  | .run s => inSchema s = true ∧
    (∀ c : Catalog V, Upgradable c → (∀ x ∈ past, Told x c) → s.Placed c) ∧
    ∀ t column, s = .addColumn t column → engine = .sqlite ∧
      ∃ columns, (⟨.tableInfo t, .ok columns⟩ : SchemaExchange) ∈ past ∧ column ∉ columns
  | .tableInfo _ => True
  | .transaction ss => engine = .postgres ∧ ss = Postgres.schemaScript

/-- The error of an answer. -/
def failure : SchemaExchange → Option DbError
  | ⟨.run _, .error e⟩ => some e
  | ⟨.tableInfo _, .error e⟩ => some e
  | ⟨.transaction _, .error e⟩ => some e
  | _ => none

/-- At the end: the statements are known to be done, or one of the answers was the error. -/
def Finishes (V : Type) (before : SchemaTalk) (done : List Statement) (past : SchemaTalk) :
    Except DbError Unit → Prop
  | .ok _ => before ⊆ past ∧ KnownDone V past done
  | .error e => ∃ x ∈ past, failure x = some e

/-- Statements that are each placed by those before them. -/
theorem meets_script : ∀ {ss done : List Statement} {past : SchemaTalk}, KnownDone V past done →
    supportedAll done ss = true → (∀ s ∈ ss, inSchema s = true) →
    (∀ t column, .addColumn t column ∈ ss → engine = .sqlite ∧
      ∃ columns, (⟨.tableInfo t, .ok columns⟩ : SchemaExchange) ∈ past ∧ column ∉ columns) →
    Meets (Proper V engine) (Finishes V past (done ++ ss)) past (executescript ss)
  | [], done, past, hdone, _, _, _ => by
    rw [List.append_nil]
    exact ⟨List.Subset.refl _, hdone⟩
  | s :: ss, done, past, hdone, hsup, hin, hnew => by
    obtain ⟨hs, hss⟩ := List.forall_mem_cons.1 hin
    obtain ⟨hplace, hrest⟩ := Bool.and_eq_true_iff.1 hsup
    have hproper : Proper V engine past (.run s) := by
      refine ⟨hs, fun c hu htold => supported_placed hu (hdone c htold) hplace, ?_⟩
      intro t column he
      exact hnew t column (he ▸ List.mem_cons_self ..)
    refine Meets.call hproper fun x => ?_
    cases x with
    | error e => exact ⟨⟨.run s, .error e⟩, by simp, rfl⟩
    | ok u =>
      have hsub : past ⊆ past ++ [⟨.run s, .ok u⟩] := List.subset_append_left _ _
      have hknown : KnownDone V (past ++ [⟨.run s, .ok u⟩]) (done ++ [s]) := by
        refine (hdone.mono hsub).append fun c htold b hb => ?_
        rw [List.mem_singleton.1 hb]
        exact htold ⟨.run s, .ok u⟩ (by simp)
      have ih := meets_script hknown hrest hss fun t column hm => by
        obtain ⟨hengine, columns, hcolumns, hc⟩ := hnew t column (List.mem_cons_of_mem _ hm)
        exact ⟨hengine, columns, hsub hcolumns, hc⟩
      rw [List.append_assoc] at ih
      refine ih.mono fun tr r hr => ?_
      cases r with
      | ok v => exact ⟨List.Subset.trans hsub hr.1, hr.2⟩
      | error e => exact hr

/-! ## The two classes -/

/-- The last statements of the SQLite class. -/
def Sqlite.indexScript : List Statement :=
  [.createIndex idxJobsIdempotencyKey, .createIndex idxJobAttemptUnique,
    .createIndex idxJobsScheduleOccurrence]

theorem executescript_append (ss ss' : List Statement) :
    executescript (ss ++ ss') = executescript ss >>= fun _ => executescript ss' := by
  induction ss with
  | nil => rfl
  | cons s ss ih =>
    show (execute s >>= fun _ => executescript (ss ++ ss')) = (execute s >>= fun _ => executescript ss) >>= _
    rw [ih]
    show Prog.call _ _ = Prog.call _ _
    congr 1
    funext x
    cases x <;> rfl

theorem addMissing_bind (columns : List String) (column : String) (ss : List Statement) :
    (Sqlite.addMissing columns column >>= fun _ => executescript ss) =
      executescript ((if column ∉ columns then [.addColumn "jobs" column] else []) ++ ss) := by
  unfold Sqlite.addMissing
  by_cases h : column ∈ columns
  · simp [h]
    rfl
  · simp [h]
    rfl

/-- `PRAGMA table_info(jobs)`. -/
def tableInfo : SchemaBody (List String) := .call (.tableInfo "jobs") Prog.ofExcept

theorem executescript_single (s : Statement) : executescript [s] = execute s := by
  show Prog.call _ _ = Prog.call _ _
  congr 1
  funext x
  cases x <;> rfl

theorem addMissing_all (columns : List String) : (do
      Sqlite.addMissing columns "idempotency_key"
      Sqlite.addMissing columns "request_fingerprint"
      Sqlite.addMissing columns "schedule_id"
      Sqlite.addMissing columns "scheduled_for"
      executescript Sqlite.indexScript) =
    executescript ((missing columns).map (.addColumn "jobs")) >>=
      fun _ => executescript Sqlite.indexScript := by
  simp only [addMissing_bind, ← executescript_append]
  congr 1
  simp only [missing, addedColumns, List.filter_cons, List.filter_nil]
  split_ifs <;> simp_all

/-- The parts of `init_schema`. -/
theorem initSchema_eq : Sqlite.initSchema = (do
    executescript Sqlite.schemaScript
    let columns ← tableInfo
    executescript ((missing columns).map (.addColumn "jobs"))
    executescript Sqlite.indexScript) := by
  simp only [← addMissing_all]
  unfold Sqlite.initSchema Sqlite.indexScript
  rw [← executescript_single (.createIndex idxJobsScheduleOccurrence)]
  rfl

/-- Everything that the SQLite class leaves done. -/
def Sqlite.allStatements : List Statement :=
  Sqlite.schemaScript ++ addedColumns.map (.addColumn "jobs") ++ Sqlite.indexScript

theorem supportedAll_columns {done : List Statement} (hjobs : .createTable "jobs" jobsColumns ∈ done) :
    ∀ columns before : List String,
      supportedAll (done ++ before.map (.addColumn "jobs")) (columns.map (.addColumn "jobs")) = true
  | [], _ => rfl
  | column :: columns, before => by
    refine Bool.and_eq_true_iff.2 ⟨?_, ?_⟩
    · exact List.any_eq_true.2 ⟨_, List.mem_append_left _ hjobs, by simp⟩
    · have ih := supportedAll_columns hjobs columns (before ++ [column])
      rw [List.map_append, ← List.append_assoc] at ih
      exact ih

/-- No `ALTER TABLE ... ADD COLUMN` without `IF NOT EXISTS`. -/
def repeatable (ss : List Statement) : Bool :=
  ss.all fun s => match s with
    | .addColumn _ _ => false
    | _ => true

theorem repeatable_ne {ss : List Statement} (h : repeatable ss = true) {s : Statement} (hs : s ∈ ss)
    (t column : String) : s ≠ .addColumn t column := by
  intro he
  have hfalse := List.all_eq_true.1 h s hs
  rw [he] at hfalse
  cases hfalse

theorem meets_repeatable {ss done : List Statement} {past : SchemaTalk} (hdone : KnownDone V past done)
    (hsup : supportedAll done ss = true) (hin : ∀ s ∈ ss, inSchema s = true) (hss : repeatable ss = true) :
    Meets (Proper V engine) (Finishes V past (done ++ ss)) past (executescript ss) :=
  meets_script hdone hsup hin fun t column hm => absurd rfl (repeatable_ne hss hm t column)

/-- The columns that the process was not told of. -/
theorem meets_columns {past : SchemaTalk} {columns : List String}
    (hknown : KnownDone V past Sqlite.schemaScript)
    (htold : (⟨.tableInfo "jobs", .ok columns⟩ : SchemaExchange) ∈ past) :
    Meets (Proper V .sqlite)
      (Finishes V past (Sqlite.schemaScript ++ (missing columns).map (.addColumn "jobs"))) past
      (executescript ((missing columns).map (.addColumn "jobs"))) := by
  have hjobs : .createTable "jobs" jobsColumns ∈ Sqlite.schemaScript := by decide
  have hplace := supportedAll_columns hjobs (missing columns) []
  rw [List.map_nil, List.append_nil] at hplace
  refine meets_script hknown hplace (fun s hs => ?_) fun t column hm => ?_
  · obtain ⟨column, hc, rfl⟩ := List.mem_map.1 hs
    simp [inSchema, (mem_missing.1 hc).1]
  · obtain ⟨column', hc, he⟩ := List.mem_map.1 hm
    cases he
    exact ⟨rfl, columns, htold, (mem_missing.1 hc).2⟩

theorem Sqlite.meets_initSchema (past : SchemaTalk) :
    Meets (Proper V .sqlite) (Finishes V [] Sqlite.allStatements) past Sqlite.initSchema := by
  have hnone : KnownDone V past [] := fun c _ s hs => absurd hs List.not_mem_nil
  rw [initSchema_eq]
  refine (meets_repeatable hnone (by decide) (by decide) (by decide)).bind (fun tr _ hscript => ?_)
    fun _ _ he => he
  refine Meets.call trivial fun x => ?_
  cases x with
  | error e => exact ⟨⟨.tableInfo "jobs", .error e⟩, by simp, rfl⟩
  | ok columns =>
    have htable : KnownDone V (tr ++ [⟨.tableInfo "jobs", .ok columns⟩]) Sqlite.schemaScript :=
      hscript.2.mono (List.subset_append_left _ _)
    have htold : (⟨.tableInfo "jobs", .ok columns⟩ : SchemaExchange) ∈
        tr ++ [⟨.tableInfo "jobs", .ok columns⟩] :=
      List.mem_append_right _ (List.mem_singleton_self _)
    have hmissing := meets_columns htable htold
    refine hmissing.bind (fun tr' _ hadded => ?_) fun _ _ he => he
    have hcolumns : KnownDone V tr' (addedColumns.map (.addColumn "jobs")) :=
      knownDone_columns (hadded.1 htold) fun c hc s hs => hadded.2 c hc s (List.mem_append_right _ hs)
    have hknown := (htable.mono hadded.1).append hcolumns
    refine (meets_repeatable hknown (by decide) (by decide) (by decide)).mono fun tr'' r hr => ?_
    cases r with
    | ok u => exact ⟨List.nil_subset _, hr.2⟩
    | error e => exact hr

theorem Postgres.meets_initSchema (past : SchemaTalk) :
    Meets (Proper V .postgres) (Finishes V [] Postgres.schemaScript) past Postgres.initSchema := by
  refine Meets.call ⟨rfl, rfl⟩ fun x => ?_
  cases x with
  | error e => exact ⟨⟨.transaction Postgres.schemaScript, .error e⟩, by simp, rfl⟩
  | ok u =>
    refine ⟨List.nil_subset _, fun c hc => ?_⟩
    exact hc ⟨.transaction Postgres.schemaScript, .ok u⟩ (by simp)

/-- Everything that `init_schema` leaves done. -/
def Engine.allStatements : Engine → List Statement
  | .sqlite => Sqlite.allStatements
  | .postgres => Postgres.schemaScript

theorem Engine.covers_all (engine : Engine) : covers engine.allStatements = true := by
  cases engine <;> decide

theorem initializers_disciplined (engine : Engine) :
    Discipline (initializers V engine) (Proper V engine) (Finishes V [] engine.allStatements)
      fun _ => True where
  start := trivial
  body i past _ := by
    cases engine with
    | sqlite => exact Sqlite.meets_initSchema past
    | postgres => exact Postgres.meets_initSchema past
  again _ _ _ h := h.elim

/-- The catalog in a run. -/
theorem initializers_catalog {m : Catalog V} {h : Past (initializers V engine)} (hu : Upgradable m)
    (hok : m.Ok) (hr : Shared.Run (initializers V engine) m h) :
    Upgradable (now (State.mk m []) h).memory ∧ (now (State.mk m []) h).memory.Ok := by
  refine Run.keeps (I := fun c => Upgradable c ∧ c.Ok) (initializers_disciplined engine) ⟨hu, hok⟩ ?_ ?_ hr
  · intro past q c a c' hproper hc ha
    refine ⟨?_, (answers_told ha).2.2.1 hc.2⟩
    rcases ha with hx | ⟨-, rfl⟩
    · cases q with
      | run s =>
        change (a, c') = SchemaSql.outcome c (Ddl.exec s c) at hx
        cases hs : Ddl.exec s c with
        | ok c₁ =>
          rw [hs] at hx
          cases hx
          exact exec_upgradable hc.1 hproper.1 hs
        | error e =>
          rw [hs] at hx
          cases hx
          exact hc.1
      | tableInfo t =>
        cases hx
        exact hc.1
      | transaction ss =>
        obtain ⟨-, rfl⟩ := hproper
        change (a, c') = SchemaSql.outcome c (execAll _ c) at hx
        cases hs : execAll Postgres.schemaScript c with
        | ok c₁ =>
          rw [hs] at hx
          cases hx
          exact execAll_upgradable hc.1 (by decide) hs
        | error e =>
          rw [hs] at hx
          cases hx
          exact hc.1
    · exact hc.1
  · exact fun c c' hs hc => ⟨hs.upgradable hc.1, hs.ok⟩

/-! ## Processes next to each other -/

theorem initializers_grows {s s' : Shared.State Nat SchemaSql SchemaSql.Answer DbError Unit (Catalog V)}
    {e : Shared.Event Nat SchemaSql SchemaSql.Answer} (hs : Step (initializers V engine) s e s') :
    s.memory.Grows s'.memory := by
  cases hs with
  | act ha => exact (answers_told ha).2.1
  | change hc => exact hc.grows
  | spawn | again => exact .refl _

/-- Without the other programs. -/
theorem initializers_keeps {s s' : Shared.State Nat SchemaSql SchemaSql.Answer DbError Unit (Catalog V)}
    {e : Shared.Event Nat SchemaSql SchemaSql.Answer} (hs : Step (initializers V engine) s e s')
    (he : e ≠ .change) : s.memory.Keeps s'.memory := by
  cases hs with
  | act ha => exact (answers_told ha).1
  | change hc => exact absurd rfl he
  | spawn | again => exact .refl _

theorem schema_complete {m : Catalog V} {h : Past (initializers V engine)} (hu : Upgradable m) (hok : m.Ok)
    (hr : Shared.Run (initializers V engine) m h) :
    (∀ t ∈ (now (State.mk m []) h).threads, t.rest = .pure () →
      Complete (now (State.mk m []) h).memory ∧ (now (State.mk m []) h).memory.Ok) ∧
    ∀ post pre, h = post ++ pre →
      (now (State.mk m []) pre).memory.Grows (now (State.mk m []) h).memory ∧
      ((∀ x ∈ post, x.event ≠ .change) →
        (now (State.mk m []) pre).memory.Keeps (now (State.mk m []) h).memory) := by
  refine ⟨fun t ht hend => ?_, ?_⟩
  · obtain ⟨hup, hindexes⟩ := initializers_catalog hu hok hr
    have hfinish := Run.meets (initializers_disciplined engine) hr t ht
    rw [hend] at hfinish
    have hdone := hfinish.2 _ (initializers_told hr t ht)
    exact ⟨complete_of_done engine.covers_all hup hdone, hindexes⟩
  · rintro post pre rfl
    refine ⟨?_, ?_⟩
    · exact hr.related (R := fun s s' => s.memory.Grows s'.memory) (fun s => .refl s.memory)
        (fun hab hbc => hab.trans hbc) fun _ _ _ _ hs => initializers_grows hs
    · intro hpost
      induction post with
      | nil => exact .refl _
      | cons x post ih =>
        obtain ⟨hx, hpost⟩ := List.forall_mem_cons.1 hpost
        exact (ih hr.tail hpost).trans (initializers_keeps hr.head hx)

/-- Two processes start on an empty database. The first one commits, and the second one, which looked before,
comes too late to create the first table. -/
theorem two_processes : ∃ (c : Catalog String) (h : Past (initializers String .postgres)),
    Shared.Run (initializers String .postgres) .empty h ∧ now (State.mk .empty []) h = ⟨c,
      [⟨0, [⟨.transaction Postgres.schemaScript, .ok ()⟩], .pure ()⟩,
        ⟨1, [⟨.transaction Postgres.schemaScript, .error (.duplicateObject "jobs")⟩],
          .raise (.duplicateObject "jobs")⟩]⟩ := by
  obtain ⟨c, hx⟩ : ∃ c : Catalog String, execAll Postgres.schemaScript .empty = .ok c := ⟨_, rfl⟩
  have hfirst : (initializers String .postgres).answers (.transaction Postgres.schemaScript) .empty
      (.ok ()) c := by
    left
    show _ = SchemaSql.outcome .empty (execAll Postgres.schemaScript (.empty : Catalog String))
    rw [hx]
    rfl
  have hjobs : (Statement.createTable "jobs" jobsColumns).Done c :=
    (execAll_keeps hx).2.2.2 _ (List.mem_cons_self ..)
  have hsecond : (initializers String .postgres).answers (.transaction Postgres.schemaScript) c
      (.error (.duplicateObject "jobs")) c :=
    .inr ⟨.inr ⟨_, List.mem_cons_self .., "jobs", rfl, hjobs, rfl⟩, rfl⟩
  have hstarted : Shared.Run (initializers String .postgres) .empty
      [⟨.spawn 1, ⟨.empty, [⟨0, [], Postgres.initSchema⟩, ⟨1, [], Postgres.initSchema⟩]⟩⟩,
        ⟨.spawn 0, ⟨.empty, [⟨0, [], Postgres.initSchema⟩]⟩⟩] :=
    .cons (.cons .nil (.spawn 0)) (.spawn 1)
  have hcommitted := Valid.cons hstarted (.act (l := []) (r := [⟨1, [], Postgres.initSchema⟩]) hfirst)
  exact ⟨c, _, .cons hcommitted (.act (l := [_]) (r := []) hsecond), rfl⟩

theorem schema_complete_postgres : ∃ h : Past (initializers String .postgres),
    Shared.Run (initializers String .postgres) .empty h ∧
      (now (State.mk .empty []) h).threads.map (·.id) = [0, 1] ∧
      (∃ t ∈ (now (State.mk .empty []) h).threads, t.rest = .pure ()) ∧
      Complete (now (State.mk .empty []) h).memory := by
  obtain ⟨c, h, hrun, hend⟩ := two_processes
  have hok : (.empty : Catalog String).Ok := fun i hi => absurd hi List.not_mem_nil
  have hcomplete := (schema_complete empty_upgradable hok hrun).1
  rw [hend] at hcomplete
  refine ⟨h, hrun, ?_⟩
  rw [hend]
  exact ⟨rfl, ⟨_, List.mem_cons_self .., rfl⟩, (hcomplete _ (List.mem_cons_self ..) rfl).1⟩

/-- What a process may be told. -/
def Reported (engine : Engine) (before : SchemaTalk) (e : DbError) : Prop :=
  e = .operational ∨ (∃ i ∈ schemaIndexes, i.unique = true ∧ e = .notUnique i.name) ∨
    (engine = .sqlite ∧ ∃ column ∈ addedColumns, e = .duplicateColumn column ∧
      ∃ columns, (⟨.tableInfo "jobs", .ok columns⟩ : SchemaExchange) ∈ before ∧ column ∉ columns) ∨
    engine = .postgres ∧
      ∃ s ∈ Postgres.schemaScript, ∃ name, s.creates = some name ∧ e = .duplicateObject name

theorem supportedAll_at : ∀ {pre done : List Statement} {s : Statement} {post : List Statement},
    supportedAll done (pre ++ s :: post) = true → supported (done ++ pre) s = true
  | [], done, s, post, h => by
    rw [List.append_nil]
    exact (Bool.and_eq_true_iff.1 h).1
  | b :: pre, done, s, post, h => by
    have hrest := supportedAll_at (Bool.and_eq_true_iff.1 h).2
    rwa [List.append_assoc] at hrest

/-- The rows are not unique. -/
theorem exec_reported {s : Statement} {e : DbError} (hp : s.Placed c) (hin : inSchema s = true)
    (hx : Ddl.exec s c = .error e) : (∃ i ∈ schemaIndexes, i.unique = true ∧ e = .notUnique i.name) ∨
      ∃ column ∈ addedColumns, s = .addColumn "jobs" column ∧ e = .duplicateColumn column := by
  rcases exec_error hp hx with ⟨t, column, rfl, rfl, -⟩ | ⟨i, d, rfl, rfl, -, -, hfits⟩
  · obtain ⟨ht, hc⟩ := Bool.and_eq_true_iff.1 hin
    rw [of_decide_eq_true ht]
    exact .inr ⟨column, of_decide_eq_true hc, rfl, rfl⟩
  · refine .inl ⟨i, of_decide_eq_true hin, ?_, rfl⟩
    by_contra hu
    exact hfits fun h => absurd h hu

/-- Every statement of the script finds what it names, as an earlier one made it. -/
theorem script_reported {e : DbError} (hu : Upgradable c) (hx : execAll Postgres.schemaScript c = .error e) :
    ∃ i ∈ schemaIndexes, i.unique = true ∧ e = .notUnique i.name := by
  obtain ⟨pre, s, post, c₁, hss, hpre, hx₁⟩ := execAll_error hx
  have hall : supportedAll [] (pre ++ s :: post) = true := by
    rw [← hss]
    decide
  have hsup := supportedAll_at hall
  have hin : ∀ b ∈ Postgres.schemaScript, inSchema b = true := by decide
  have hs : s ∈ Postgres.schemaScript := by rw [hss]; simp
  have hu₁ := execAll_upgradable hu (fun b hb => hin b (hss ▸ List.mem_append_left _ hb)) hpre
  have hplaced := supported_placed hu₁ (execAll_keeps hpre).2.2.2 hsup
  rcases exec_reported hplaced (hin s hs) hx₁ with hunique | ⟨column, -, rfl, -⟩
  · exact hunique
  · exact absurd rfl (repeatable_ne (by decide) hs "jobs" column)

theorem answers_reported {past : SchemaTalk} {q : SchemaSql} {a : q.Answer} (hp : Proper V engine past q)
    (hu : Upgradable c) (htold : ∀ y ∈ past, Told y c) (ha : (initializers V engine).answers q c a c') :
    ∀ e, failure ⟨q, a⟩ = some e → Reported engine past e := by
  intro e he
  rcases ha with hx | ⟨rfl | hcollides, rfl⟩
  · cases q with
    | tableInfo t =>
      cases hx
      cases he
    | run s =>
      obtain ⟨hin, hplaced, hnew⟩ := hp
      change (a, c') = SchemaSql.outcome c (Ddl.exec s c) at hx
      cases hs : Ddl.exec s c with
      | ok c₁ =>
        rw [hs] at hx
        cases hx
        cases he
      | error e' =>
        rw [hs] at hx
        cases hx
        cases he
        rcases exec_reported (hplaced c hu htold) hin hs with hunique | ⟨column, hc, rfl, rfl⟩
        · exact .inr (.inl hunique)
        · obtain ⟨hengine, hcolumns⟩ := hnew "jobs" column rfl
          exact .inr (.inr (.inl ⟨hengine, column, hc, rfl, hcolumns⟩))
    | transaction ss =>
      obtain ⟨-, rfl⟩ := hp
      change (a, c') = SchemaSql.outcome c (execAll _ c) at hx
      cases hs : execAll Postgres.schemaScript c with
      | ok c₁ =>
        rw [hs] at hx
        cases hx
        cases he
      | error e' =>
        rw [hs] at hx
        cases hx
        cases he
        exact .inr (.inl (script_reported hu hs))
  · left
    cases q <;> cases he <;> rfl
  · cases q with
    | transaction ss =>
      obtain ⟨s, hs, name, hname, -, rfl⟩ := hcollides
      cases he
      obtain ⟨hengine, rfl⟩ := hp
      exact .inr (.inr (.inr ⟨hengine, s, hs, name, hname, rfl⟩))
    | run s => exact hcollides.elim
    | tableInfo t => exact hcollides.elim

theorem initializer_errors {m : Catalog V} {h : Past (initializers V engine)} (hu : Upgradable m)
    (hok : m.Ok) (hr : Shared.Run (initializers V engine) m h) :
    ∀ t ∈ (now (State.mk m []) h).threads, ∀ e,
      t.rest = .raise e → ∃ pre x post, t.past = pre ++ x :: post ∧ failure x = some e ∧
        Reported engine pre e ∧ Told x (now (State.mk m []) h).memory := by
  intro t ht e hend
  have hanswered := Run.answered (R := fun x c => Told x c)
    (S := fun pre x => ∀ e, failure x = some e → Reported engine pre e) (I := fun c => Upgradable c)
    (initializers_disciplined engine) (fun h hr => (initializers_catalog hu hok hr).1)
    (fun h hr => initializers_told hr)
    (fun past q c a c' hp hup htold ha => answers_reported hp hup htold ha) hr t ht
  have hfinish := Run.meets (initializers_disciplined engine) hr t ht
  rw [hend] at hfinish
  obtain ⟨x, hx, hfail⟩ := hfinish
  obtain ⟨pre, post, hpast⟩ := List.append_of_mem hx
  exact ⟨pre, x, post, hpast, hfail, hanswered pre x post hpast e hfail, initializers_told hr t ht x hx⟩

/-- The process that came second. -/
theorem initializer_errors_postgres : ∃ h : Past (initializers String .postgres),
    Shared.Run (initializers String .postgres) .empty h ∧ ∃ t ∈ (now (State.mk .empty []) h).threads,
      t.rest = .raise (.duplicateObject "jobs") ∧ ∃ pre x post, t.past = pre ++ x :: post ∧
        failure x = some (.duplicateObject "jobs") ∧ Reported .postgres pre (.duplicateObject "jobs") ∧
          Told x (now (State.mk .empty []) h).memory := by
  obtain ⟨c, h, hrun, hend⟩ := two_processes
  have hok : (.empty : Catalog String).Ok := fun i hi => absurd hi List.not_mem_nil
  have herrors := initializer_errors empty_upgradable hok hrun
  rw [hend] at herrors
  refine ⟨h, hrun, ?_⟩
  rw [hend]
  exact ⟨_, List.mem_cons_of_mem _ (List.mem_cons_self ..), rfl,
    herrors _ (List.mem_cons_of_mem _ (List.mem_cons_self ..)) _ rfl⟩

/-! ## A process alone -/

theorem exec_fits {s : Statement} (hu : Upgradable c) (hfit : c.Fitting schemaIndexes) (hp : s.Placed c)
    (hin : inSchema s = true) (hnew : ∀ t column, s = .addColumn t column → ¬ s.Done c) :
    ∃ c', Ddl.exec s c = .ok c' ∧ Upgradable c' ∧ c'.Fitting schemaIndexes := by
  cases hx : Ddl.exec s c with
  | ok c' => exact ⟨c', rfl, exec_upgradable hu hin hx, (exec_change hx).1.fitting hfit⟩
  | error e =>
    rcases exec_error hp hx with ⟨t, column, hs, -, hdone⟩ | ⟨i, d, rfl, -, hd, huses, hfits⟩
    · exact absurd hdone (hnew t column hs)
    · exact absurd (hfit i (of_decide_eq_true hin) d hd huses) hfits

theorem execAll_fits : ∀ (ss : List Statement) {done : List Statement} {c : Catalog V},
    Upgradable c → c.Fitting schemaIndexes → (∀ b ∈ done, b.Done c) → supportedAll done ss = true →
    (∀ s ∈ ss, inSchema s = true) → repeatable ss = true → ∃ c', execAll ss c = .ok c' ∧ Upgradable c' ∧ c'.Fitting schemaIndexes
  | [], _, c, hu, hfit, _, _, _, _ => ⟨c, rfl, hu, hfit⟩
  | s :: ss, done, c, hu, hfit, hdone, hsup, hin, hrep => by
    obtain ⟨hs, hss⟩ := List.forall_mem_cons.1 hin
    obtain ⟨hplace, hrest⟩ := Bool.and_eq_true_iff.1 hsup
    obtain ⟨c₁, hx, hu₁, hfit₁⟩ := exec_fits hu hfit (supported_placed hu hdone hplace) hs
      fun t column he => absurd he (repeatable_ne hrep (List.mem_cons_self ..) t column)
    obtain ⟨hchange, hdone₁⟩ := exec_change hx
    have hall : ∀ b ∈ done ++ [s], b.Done c₁ := by
      intro b hb
      rcases List.mem_append.1 hb with hb | hb
      · exact (hdone b hb).mono hchange.grows
      · rw [List.mem_singleton.1 hb]
        exact hdone₁
    obtain ⟨c', hx', hu', hfit'⟩ := execAll_fits ss hu₁ hfit₁ hall hrest hss (Bool.and_eq_true_iff.1 hrep).2
    refine ⟨c', ?_, hu', hfit'⟩
    unfold execAll
    rw [hx]
    exact hx'

/-- Different columns that are not there can be added. -/
theorem execAll_columns : ∀ (columns : List String) {c : Catalog V} {d : TableData V}, Upgradable c →
    c.Fitting schemaIndexes → c.tables "jobs" = some d → columns.Nodup →
    (∀ column ∈ columns, column ∈ addedColumns ∧ column ∉ d.columns) →
    ∃ c', execAll (columns.map (.addColumn "jobs")) c = .ok c' ∧ Upgradable c' ∧ c'.Fitting schemaIndexes
  | [], c, d, hu, hfit, _, _, _ => ⟨c, rfl, hu, hfit⟩
  | column :: columns, c, d, hu, hfit, hd, hnodup, hnew => by
    obtain ⟨hhead, htail⟩ := List.nodup_cons.1 hnodup
    obtain ⟨⟨hadded, hnot⟩, hrest⟩ := List.forall_mem_cons.1 hnew
    have hx : Ddl.exec (.addColumn "jobs" column) c = .ok (c.setTable "jobs" (d.addColumn column)) := by
      show addColumn "jobs" column c = _
      simp only [addColumn, hd, if_neg hnot]
    have hin : inSchema (.addColumn "jobs" column) = true := by simp [inSchema, hadded]
    obtain ⟨c', hx', hu', hfit'⟩ := execAll_columns columns (exec_upgradable hu hin hx)
      ((exec_change hx).1.fitting hfit) (d := d.addColumn column) (by simp [setTable_tables]) htail
      fun column' hc => by
        refine ⟨(hrest column' hc).1, fun hm => ?_⟩
        rcases List.mem_append.1 hm with hm | hm
        · exact (hrest column' hc).2 hm
        · rw [List.mem_singleton.1 hm] at hc
          exact hhead hc
    refine ⟨c', ?_, hu', hfit'⟩
    show execAll (_ :: _) c = _
    unfold execAll
    rw [hx]
    exact hx'

theorem run_execute (s : Statement) (c : Catalog V) :
    Locking.run schemaStatements (execute s) c = (Ddl.exec s c).map fun c' => ((), c') := by
  show Locking.run schemaStatements (Prog.ofExcept (SchemaSql.outcome c (Ddl.exec s c)).1)
    (SchemaSql.outcome c (Ddl.exec s c)).2 = _
  cases Ddl.exec s c <;> rfl

theorem run_executescript (ss : List Statement) (c : Catalog V) :
    Locking.run schemaStatements (executescript ss) c = (execAll ss c).map fun c' => ((), c') := by
  induction ss generalizing c with
  | nil => rfl
  | cons s ss ih =>
    show Locking.run schemaStatements (execute s >>= fun _ => executescript ss) c = _
    rw [Locking.run_bind, run_execute]
    unfold execAll
    cases Ddl.exec s c with
    | ok c₁ => exact ih c₁
    | error e => rfl

/-- The SQLite class alone. -/
theorem Sqlite.alone {c₁ c₂ : Catalog V} {d : TableData V} (hscript : execAll Sqlite.schemaScript c = .ok c₁)
    (hd : c₁.tables "jobs" = some d)
    (hcolumns : execAll ((missing d.columns).map (.addColumn "jobs")) c₁ = .ok c₂)
    (hindexes : execAll Sqlite.indexScript c₂ = .ok c') :
    Engine.sqlite.initSchemaAlone c = .ok ((), c') := by
  show Locking.run schemaStatements Sqlite.initSchema c = _
  rw [initSchema_eq, Locking.run_bind, run_executescript, hscript]
  show Locking.run schemaStatements (tableInfo >>= _) c₁ = _
  rw [Locking.run_bind]
  have hinfo : Locking.run schemaStatements tableInfo c₁ = .ok (d.columns, c₁) := by
    show Locking.run schemaStatements (Prog.ofExcept (.ok ((c₁.tables "jobs").elim [] (·.columns)))) c₁ = _
    rw [hd]
    rfl
  rw [hinfo]
  show Locking.run schemaStatements
    (executescript ((missing d.columns).map (.addColumn "jobs")) >>= _) c₁ = _
  rw [Locking.run_bind, run_executescript, hcolumns]
  show Locking.run schemaStatements (executescript Sqlite.indexScript) c₂ = _
  rw [run_executescript, hindexes]
  rfl

theorem Postgres.alone (hx : execAll Postgres.schemaScript c = .ok c') :
    Engine.postgres.initSchemaAlone c = .ok ((), c') := by
  show Locking.run schemaStatements (Prog.ofExcept (SchemaSql.outcome c (execAll Postgres.schemaScript c)).1)
    (SchemaSql.outcome c (execAll Postgres.schemaScript c)).2 = _
  rw [hx]
  rfl

/-- Once more on a complete database. -/
theorem Complete.execAll (hc : Complete c) {ss : List Statement} (hin : ∀ s ∈ ss, inSchema s = true)
    (hss : repeatable ss = true) : Ddl.execAll ss c = .ok c :=
  execAll_done fun s hs => ⟨hc.done (hin s hs), repeatable_ne hss hs⟩

theorem Engine.alone_again (engine : Engine) (hc : Complete c) : engine.initSchemaAlone c = .ok ((), c) := by
  cases engine with
  | sqlite =>
    obtain ⟨d, hd, hcolumns⟩ := hc.tables ("jobs", jobsColumns) (by simp [schemaTables])
    refine Sqlite.alone (hc.execAll (by decide) (by decide)) hd ?_ (hc.execAll (by decide) (by decide))
    rw [hc.missing hd]
    rfl
  | postgres => exact Postgres.alone (hc.execAll (by decide) (by decide))

/-- Alone it gets through. -/
theorem Engine.alone_fits (engine : Engine) (hu : Upgradable c) (hfit : c.Fitting schemaIndexes) :
    ∃ c', engine.initSchemaAlone c = .ok ((), c') ∧ Upgradable c' ∧ c.Keeps c' ∧ (c.Ok → c'.Ok) ∧
      ∀ s ∈ engine.allStatements, s.Done c' := by
  have hnone : ∀ s ∈ ([] : List Statement), s.Done c := fun s hs => absurd hs List.not_mem_nil
  cases engine with
  | postgres =>
    obtain ⟨c', hx, hu', -⟩ := execAll_fits Postgres.schemaScript hu hfit hnone (by decide) (by decide)
      (by decide)
    obtain ⟨hkeeps, -, hok, hdone⟩ := execAll_keeps hx
    exact ⟨c', Postgres.alone hx, hu', hkeeps, hok, hdone⟩
  | sqlite =>
    obtain ⟨c₁, hx₁, hu₁, hfit₁⟩ := execAll_fits Sqlite.schemaScript hu hfit hnone (by decide)
      (by decide) (by decide)
    obtain ⟨hkeeps₁, -, hok₁, hdone₁⟩ := execAll_keeps hx₁
    obtain ⟨d, hd⟩ : ∃ d, c₁.tables "jobs" = some d := hdone₁ (.createTable "jobs" jobsColumns) (by decide)
    obtain ⟨c₂, hx₂, hu₂, hfit₂⟩ := execAll_columns (missing d.columns) hu₁ hfit₁ hd
      (List.Nodup.filter _ (by decide)) fun column hc => mem_missing.1 hc
    obtain ⟨hkeeps₂, hgrows₂, hok₂, hdone₂⟩ := execAll_keeps hx₂
    have hdone : ∀ s ∈ Sqlite.schemaScript ++ addedColumns.map (.addColumn "jobs"), s.Done c₂ := by
      intro s hs
      rcases List.mem_append.1 hs with hs | hs
      · exact (hdone₁ s hs).mono hgrows₂
      · obtain ⟨column, hc, rfl⟩ := List.mem_map.1 hs
        by_cases hm : column ∈ d.columns
        · exact Statement.Done.mono ⟨d, hd, hm⟩ hgrows₂
        · exact hdone₂ _ (List.mem_map_of_mem (mem_missing.2 ⟨hc, hm⟩))
    obtain ⟨c', hx, hu', -⟩ := execAll_fits Sqlite.indexScript hu₂ hfit₂ hdone (by decide) (by decide)
      (by decide)
    obtain ⟨hkeeps, hgrows, hok, hdone'⟩ := execAll_keeps hx
    refine ⟨c', Sqlite.alone hx₁ hd hx₂ hx, hu', (hkeeps₁.trans hkeeps₂).trans hkeeps,
      fun h => hok (hok₂ (hok₁ h)), fun s hs => ?_⟩
    rcases List.mem_append.1 hs with hs | hs
    · exact (hdone s hs).mono hgrows
    · exact hdone' s hs

theorem initializer_alone (engine : Engine) (hu : Upgradable c) (hok : c.Ok)
    (hfit : c.Fitting schemaIndexes) :
    ∃ c', engine.initSchemaAlone c = .ok ((), c') ∧ Complete c' ∧ c'.Ok ∧ c.Keeps c' ∧
      engine.initSchemaAlone c' = .ok ((), c') := by
  obtain ⟨c', hx, hu', hkeeps, hok', hdone⟩ := engine.alone_fits hu hfit
  have hc := complete_of_done engine.covers_all hu' hdone
  exact ⟨c', hx, hc, hok' hok, hkeeps, engine.alone_again hc⟩

/-- A database from before the idempotency keys, with one job. -/
def earlierVersion : Catalog String :=
  Catalog.empty.setTable "jobs" ⟨baseColumns "jobs", [fun column => if column = "id" then some "1" else none]⟩

theorem initializer_alone_earlier : ∃ c', Engine.sqlite.initSchemaAlone earlierVersion = .ok ((), c') ∧
    Complete c' ∧ c'.Ok ∧ earlierVersion.Keeps c' ∧ Engine.sqlite.initSchemaAlone c' = .ok ((), c') := by
  refine initializer_alone .sqlite ⟨fun t d hd => ?_, fun i hi => absurd hi List.not_mem_nil⟩
    (fun i hi => absurd hi List.not_mem_nil) fun i _ d hd _ => ?_
  · rw [earlierVersion, setTable_tables] at hd
    split at hd
    · rename_i he
      cases hd
      rw [he]
      exact List.Subset.refl _
    · cases hd
  · rw [earlierVersion, setTable_tables] at hd
    split at hd
    · cases hd
      exact fun _ => List.pairwise_singleton _ _
    · cases hd

end

end PulseQueue
