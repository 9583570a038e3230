import Mathlib

/-!
# Data definition

The tables and indexes of a database and the statements that create and extend them. No statement drops
anything: tables, columns and indexes only grow (`Grows`), the rows keep their values (`Keeps`), and the
indexes hold (`Catalog.Ok`). What a statement was for (`Statement.Done`) it leaves done, and so do all
later ones. A statement whose table and columns are there (`Statement.Placed`) fails only on a column
that exists or on rows that are not unique.
-/

namespace Ddl

/-- The values of a row by column; NULL is none. -/
abbrev Row (V : Type) := String → Option V

structure TableData (V : Type) where
  columns : List String
  rows : List (Row V)

structure Index where
  name : String
  table : String
  columns : List String
  unique : Bool
  /-- `WHERE column IS NOT NULL` -/
  filled : Option String
deriving DecidableEq

structure Catalog (V : Type) where
  tables : String → Option (TableData V)
  indexes : List Index

def Catalog.empty {V : Type} : Catalog V := ⟨fun _ => none, []⟩

inductive Statement
  /-- `CREATE TABLE IF NOT EXISTS` -/
  | createTable (table : String) (columns : List String)
  /-- `CREATE INDEX IF NOT EXISTS` -/
  | createIndex (i : Index)
  | addColumn (table column : String)
  | addColumnIfNotExists (table column : String)
deriving DecidableEq

inductive DbError
  | noSuchTable (table : String)
  | noSuchColumn (index : String)
  | duplicateColumn (column : String)
  | notUnique (index : String)
  /-- somebody else creates the table or the index at the same time -/
  | duplicateObject (name : String)
  /-- the database is busy, ends a deadlock, or the connection is lost -/
  | operational
deriving DecidableEq

section
variable {V : Type}

/-- The new column is NULL. -/
def TableData.addColumn (column : String) (d : TableData V) : TableData V :=
  ⟨d.columns ++ [column], d.rows.map fun r => Function.update r column none⟩

def Catalog.setTable (t : String) (d : TableData V) (c : Catalog V) : Catalog V :=
  { c with tables := Function.update c.tables t (some d) }

theorem setTable_tables (t t' : String) (d : TableData V) (c : Catalog V) :
    (c.setTable t d).tables t' = if t' = t then some d else c.tables t' := by
  unfold Catalog.setTable
  by_cases h : t' = t <;> simp [h]

/-- The columns that an index reads. -/
def Index.uses (i : Index) : List String := i.columns ++ i.filled.toList

/-! ## Statements -/

variable [DecidableEq V]

/-- The rows cannot both be there: NULL equals nothing. -/
def Index.clash (i : Index) (r r' : Row V) : Bool :=
  (i.columns.all fun c => (r c).isSome && r c == r' c) &&
    i.filled.toList.all fun c => (r c).isSome && (r' c).isSome

/-- The rows can be in the index. -/
def Index.Fits (i : Index) (rows : List (Row V)) : Prop :=
  i.unique = true → rows.Pairwise fun r r' => i.clash r r' = false

instance (i : Index) (rows : List (Row V)) : Decidable (i.Fits rows) :=
  inferInstanceAs (Decidable (i.unique = true → rows.Pairwise fun r r' => i.clash r r' = false))

def createTable (t : String) (columns : List String) (c : Catalog V) : Except DbError (Catalog V) :=
  match c.tables t with
  | some _ => .ok c
  | none => .ok (c.setTable t ⟨columns, []⟩)

def createIndex (i : Index) (c : Catalog V) : Except DbError (Catalog V) :=
  if ∃ j ∈ c.indexes, j.name = i.name then .ok c
  else
    match c.tables i.table with
    | none => .error (.noSuchTable i.table)
    | some d =>
      if i.uses ⊆ d.columns then
        if i.Fits d.rows then .ok { c with indexes := c.indexes ++ [i] }
        else .error (.notUnique i.name)
      else .error (.noSuchColumn i.name)

def addColumn (t column : String) (c : Catalog V) : Except DbError (Catalog V) :=
  match c.tables t with
  | none => .error (.noSuchTable t)
  | some d =>
    if column ∈ d.columns then .error (.duplicateColumn column)
    else .ok (c.setTable t (d.addColumn column))

def addColumnIfNotExists (t column : String) (c : Catalog V) : Except DbError (Catalog V) :=
  match c.tables t with
  | none => .error (.noSuchTable t)
  | some d => if column ∈ d.columns then .ok c else .ok (c.setTable t (d.addColumn column))

def exec : Statement → Catalog V → Except DbError (Catalog V)
  | .createTable t columns => createTable t columns
  | .createIndex i => createIndex i
  | .addColumn t column => addColumn t column
  | .addColumnIfNotExists t column => addColumnIfNotExists t column

/-- One statement after the other. -/
def execAll : List Statement → Catalog V → Except DbError (Catalog V)
  | [], c => .ok c
  | s :: ss, c =>
    match exec s c with
    | .ok c' => execAll ss c'
    | .error e => .error e

/-- What a statement can leave. -/
inductive Change (c : Catalog V) : Statement → Catalog V → Prop
  | same {s : Statement} : Change c s c
  | table {t : String} {columns : List String} : c.tables t = none →
      Change c (.createTable t columns) (c.setTable t ⟨columns, []⟩)
  | index {i : Index} {d : TableData V} : c.tables i.table = some d → i.uses ⊆ d.columns → i.Fits d.rows →
      (∀ j ∈ c.indexes, j.name ≠ i.name) → Change c (.createIndex i) { c with indexes := c.indexes ++ [i] }
  | column {s : Statement} {t column : String} {d : TableData V} : c.tables t = some d →
      column ∉ d.columns → Change c s (c.setTable t (d.addColumn column))

end

section
variable {V : Type} {c c' : Catalog V} {s : Statement}

/-- What the statement is for. -/
def Statement.Done (s : Statement) (c : Catalog V) : Prop :=
  match s with
  | .createTable t _ => ∃ d, c.tables t = some d
  | .createIndex i => ∃ j ∈ c.indexes, j.name = i.name
  | .addColumn t column | .addColumnIfNotExists t column => ∃ d, c.tables t = some d ∧ column ∈ d.columns

/-- The table or index that the statement creates if it is not there. -/
def Statement.creates : Statement → Option String
  | .createTable t _ => some t
  | .createIndex i => some i.name
  | .addColumn _ _ | .addColumnIfNotExists _ _ => none

/-- The statement meets its table and columns. -/
def Statement.Placed (s : Statement) (c : Catalog V) : Prop :=
  match s with
  | .createTable _ _ => True
  | .createIndex i => ∃ d, c.tables i.table = some d ∧ i.uses ⊆ d.columns
  | .addColumn t _ | .addColumnIfNotExists t _ => ∃ d, c.tables t = some d

theorem done_column {t column : String} {d : TableData V} :
    ∃ d', (c.setTable t (d.addColumn column)).tables t = some d' ∧ column ∈ d'.columns := by
  refine ⟨d.addColumn column, by simp [setTable_tables], ?_⟩
  simp [TableData.addColumn]

variable [DecidableEq V]

theorem exec_change (hx : exec s c = .ok c') : Change c s c' ∧ s.Done c' := by
  cases s with
  | createTable t columns =>
    change createTable t columns c = _ at hx
    unfold createTable at hx
    cases hd : c.tables t with
    | some d =>
      rw [hd] at hx
      cases hx
      exact ⟨.same, d, hd⟩
    | none =>
      rw [hd] at hx
      cases hx
      exact ⟨.table hd, ⟨columns, []⟩, by simp [setTable_tables]⟩
  | createIndex i =>
    change createIndex i c = _ at hx
    unfold createIndex at hx
    split at hx
    · rename_i hi
      cases hx
      exact ⟨.same, hi⟩
    · rename_i hi
      cases hd : c.tables i.table with
      | none =>
        rw [hd] at hx
        cases hx
      | some d =>
        rw [hd] at hx
        dsimp only at hx
        split_ifs at hx with huses hfits
        cases hx
        exact ⟨.index hd huses hfits (by simpa using hi), i, by simp, rfl⟩
  | addColumn t column =>
    change addColumn t column c = _ at hx
    unfold addColumn at hx
    cases hd : c.tables t with
    | none =>
      rw [hd] at hx
      cases hx
    | some d =>
      rw [hd] at hx
      dsimp only at hx
      split_ifs at hx with hcolumn
      cases hx
      exact ⟨.column hd hcolumn, done_column⟩
  | addColumnIfNotExists t column =>
    change addColumnIfNotExists t column c = _ at hx
    unfold addColumnIfNotExists at hx
    cases hd : c.tables t with
    | none =>
      rw [hd] at hx
      cases hx
    | some d =>
      rw [hd] at hx
      dsimp only at hx
      split_ifs at hx with hcolumn
      · cases hx
        exact ⟨.same, d, hd, hcolumn⟩
      · cases hx
        exact ⟨.column hd hcolumn, done_column⟩

/-- The errors of a statement that meets its table and columns. -/
theorem exec_error {e : DbError} (hp : s.Placed c) (hx : exec s c = .error e) :
    (∃ t column, s = .addColumn t column ∧ e = .duplicateColumn column ∧ s.Done c) ∨
      ∃ i d, s = .createIndex i ∧ e = .notUnique i.name ∧ c.tables i.table = some d ∧
        i.uses ⊆ d.columns ∧ ¬ i.Fits d.rows := by
  cases s with
  | createTable t columns =>
    change createTable t columns c = _ at hx
    unfold createTable at hx
    split at hx <;> cases hx
  | createIndex i =>
    obtain ⟨d, hd, huses⟩ := hp
    change createIndex i c = _ at hx
    unfold createIndex at hx
    rw [hd] at hx
    dsimp only at hx
    split_ifs at hx with hi hfits
    cases hx
    exact .inr ⟨i, d, rfl, rfl, hd, huses, hfits⟩
  | addColumn t column =>
    obtain ⟨d, hd⟩ := hp
    change addColumn t column c = _ at hx
    unfold addColumn at hx
    rw [hd] at hx
    dsimp only at hx
    split_ifs at hx with hcolumn
    cases hx
    exact .inl ⟨t, column, rfl, rfl, d, hd, hcolumn⟩
  | addColumnIfNotExists t column =>
    obtain ⟨d, hd⟩ := hp
    change addColumnIfNotExists t column c = _ at hx
    unfold addColumnIfNotExists at hx
    rw [hd] at hx
    dsimp only at hx
    split_ifs at hx

/-- A duplicate column is there. -/
theorem exec_duplicate {column : String} (hx : exec s c = .error (.duplicateColumn column)) : s.Done c := by
  cases s with
  | createTable t columns =>
    change createTable t columns c = _ at hx
    unfold createTable at hx
    split at hx <;> cases hx
  | createIndex i =>
    change createIndex i c = _ at hx
    unfold createIndex at hx
    split_ifs at hx
    split at hx
    · cases hx
    · split_ifs at hx <;> cases hx
  | addColumn t column' =>
    change addColumn t column' c = _ at hx
    unfold addColumn at hx
    split at hx
    · cases hx
    · rename_i d hd
      split_ifs at hx with hcolumn
      exact ⟨d, hd, hcolumn⟩
  | addColumnIfNotExists t column' =>
    change addColumnIfNotExists t column' c = _ at hx
    unfold addColumnIfNotExists at hx
    split at hx
    · cases hx
    · split_ifs at hx

end

/-! ## What all statements keep -/

section
variable {V : Type}

/-- The rows agree on the columns. -/
def Agrees (columns : List String) (r r' : Row V) : Prop := ∀ column ∈ columns, r' column = r column

/-- The columns and the values of `d` are in `d'`. -/
structure TableData.Kept (d d' : TableData V) : Prop where
  columns : d.columns ⊆ d'.columns
  rows : List.Forall₂ (Agrees d.columns) d.rows d'.rows

/-- All data of `c` is in `c'`. -/
def Catalog.Keeps (c c' : Catalog V) : Prop :=
  ∀ t d, c.tables t = some d → ∃ d', c'.tables t = some d' ∧ d.Kept d'

/-- Tables, columns and indexes only come in. -/
structure Catalog.Grows (c c' : Catalog V) : Prop where
  tables : ∀ t d, c.tables t = some d → ∃ d', c'.tables t = some d' ∧ d.columns ⊆ d'.columns
  indexes : c.indexes ⊆ c'.indexes

variable {c c' c'' : Catalog V} {d d' d'' : TableData V}

theorem TableData.Kept.refl (d : TableData V) : d.Kept d :=
  ⟨List.Subset.refl _, List.forall₂_same.2 fun _ _ _ _ => rfl⟩

theorem agrees_trans {columns columns' : List String} (hsub : columns ⊆ columns')
    {rs rs' rs'' : List (Row V)}
    (h : List.Forall₂ (Agrees columns) rs rs') (h' : List.Forall₂ (Agrees columns') rs' rs'') :
    List.Forall₂ (Agrees columns) rs rs'' := by
  induction h generalizing rs'' with
  | nil =>
    cases h'
    exact .nil
  | cons hr _ ih =>
    cases h' with
    | cons hr' hrows' =>
      exact .cons (fun column hc => (hr' column (hsub hc)).trans (hr column hc)) (ih hrows')

theorem exists_agrees {columns : List String} {rs rs' : List (Row V)}
    (h : List.Forall₂ (Agrees columns) rs rs') {r' : Row V} (hr' : r' ∈ rs') :
    ∃ r ∈ rs, Agrees columns r r' := by
  induction h with
  | nil => cases hr'
  | @cons r o _ _ hr _ ih =>
    rcases List.mem_cons.1 hr' with rfl | hr'
    · exact ⟨r, List.mem_cons_self .., hr⟩
    · obtain ⟨o, ho, hagree⟩ := ih hr'
      exact ⟨o, List.mem_cons_of_mem _ ho, hagree⟩

theorem TableData.Kept.trans (h : d.Kept d') (h' : d'.Kept d'') : d.Kept d'' :=
  ⟨List.Subset.trans h.columns h'.columns, agrees_trans h.columns h.rows h'.rows⟩

theorem TableData.Kept.addColumn {column : String} (hc : column ∉ d.columns) :
    d.Kept (d.addColumn column) := by
  refine ⟨List.subset_append_left _ _, ?_⟩
  show List.Forall₂ _ d.rows (d.rows.map _)
  rw [List.forall₂_map_right_iff]
  refine List.forall₂_same.2 fun r _ column' hc' => ?_
  have hne : column' ≠ column := by
    rintro rfl
    exact hc hc'
  exact Function.update_of_ne hne _ _

theorem Catalog.Keeps.refl (c : Catalog V) : c.Keeps c := fun _ d hd => ⟨d, hd, .refl d⟩

theorem Catalog.Keeps.trans (h : c.Keeps c') (h' : c'.Keeps c'') : c.Keeps c'' := by
  intro t d hd
  obtain ⟨d', hd', hk⟩ := h t d hd
  obtain ⟨d'', hd'', hk'⟩ := h' t d' hd'
  exact ⟨d'', hd'', hk.trans hk'⟩

theorem Catalog.Grows.refl (c : Catalog V) : c.Grows c :=
  ⟨fun _ d hd => ⟨d, hd, List.Subset.refl _⟩, List.Subset.refl _⟩

theorem Catalog.Grows.trans (h : c.Grows c') (h' : c'.Grows c'') : c.Grows c'' := by
  refine ⟨fun t d hd => ?_, List.Subset.trans h.indexes h'.indexes⟩
  obtain ⟨d', hd', hk⟩ := h.tables t d hd
  obtain ⟨d'', hd'', hk'⟩ := h'.tables t d' hd'
  exact ⟨d'', hd'', List.Subset.trans hk hk'⟩

/-- What is done stays done. -/
theorem Statement.Done.mono {s : Statement} (hd : s.Done c) (h : c.Grows c') : s.Done c' := by
  cases s with
  | createTable t columns =>
    obtain ⟨d, hd⟩ := hd
    obtain ⟨d', hd', -⟩ := h.tables t d hd
    exact ⟨d', hd'⟩
  | createIndex i =>
    obtain ⟨j, hj, hname⟩ := hd
    exact ⟨j, h.indexes hj, hname⟩
  | addColumn t column | addColumnIfNotExists t column =>
    obtain ⟨d, hd, hc⟩ := hd
    obtain ⟨d', hd', hsub⟩ := h.tables t d hd
    exact ⟨d', hd', hsub hc⟩

variable [DecidableEq V]

variable {s : Statement}

theorem Change.keeps (h : Change c s c') : c.Keeps c' ∧ c.indexes ⊆ c'.indexes := by
  cases h with
  | same => exact ⟨.refl c, List.Subset.refl _⟩
  | @table t columns hnone =>
    refine ⟨fun t' d hd => ⟨d, ?_, .refl d⟩, List.Subset.refl _⟩
    have hne : t' ≠ t := by
      rintro rfl
      rw [hd] at hnone
      cases hnone
    rw [setTable_tables, if_neg hne, hd]
  | index => exact ⟨fun t d hd => ⟨d, hd, .refl d⟩, List.subset_append_left _ _⟩
  | @column _ t column d hd hc =>
    refine ⟨fun t' d' hd' => ?_, List.Subset.refl _⟩
    rw [setTable_tables]
    split
    · rename_i he
      subst he
      cases hd.symm.trans hd'
      exact ⟨_, rfl, .addColumn hc⟩
    · exact ⟨d', hd', .refl d'⟩

theorem Change.grows (h : Change c s c') : c.Grows c' := by
  obtain ⟨hkeeps, hindexes⟩ := h.keeps
  refine ⟨fun t d hd => ?_, hindexes⟩
  obtain ⟨d', hd', hk⟩ := hkeeps t d hd
  exact ⟨d', hd', hk.columns⟩

/-- The indexes are on columns that exist, and hold. -/
def Catalog.Ok (c : Catalog V) : Prop :=
  ∀ i ∈ c.indexes, ∃ d, c.tables i.table = some d ∧ i.uses ⊆ d.columns ∧ i.Fits d.rows

theorem Index.clash_congr {i : Index} {r r' o o' : Row V} (h : ∀ column ∈ i.uses, o column = r column)
    (h' : ∀ column ∈ i.uses, o' column = r' column) : i.clash o o' = i.clash r r' := by
  unfold Index.clash
  congr 1
  · rw [Bool.eq_iff_iff, List.all_eq_true, List.all_eq_true]
    refine forall_congr' fun column => forall_congr' fun hc => ?_
    rw [h column (List.mem_append_left _ hc), h' column (List.mem_append_left _ hc)]
  · rw [Bool.eq_iff_iff, List.all_eq_true, List.all_eq_true]
    refine forall_congr' fun column => forall_congr' fun hc => ?_
    rw [h column (List.mem_append_right _ hc), h' column (List.mem_append_right _ hc)]

/-- Rows with the same values fit as well. -/
theorem Index.Fits.kept {i : Index} (h : i.Fits d.rows) (huses : i.uses ⊆ d.columns) (hk : d.Kept d') :
    i.Fits d'.rows := by
  intro hu
  have hpair := h hu
  obtain ⟨-, hrows⟩ := hk
  generalize d'.rows = rs' at hrows ⊢
  generalize d.rows = rs at hrows hpair
  induction hrows with
  | nil => exact .nil
  | cons hr hrows ih =>
    obtain ⟨hhead, htail⟩ := List.pairwise_cons.1 hpair
    refine List.pairwise_cons.2 ⟨fun o ho => ?_, ih htail⟩
    obtain ⟨r, hm, hro⟩ := exists_agrees hrows ho
    rw [Index.clash_congr (fun column hc => hr column (huses hc)) fun column hc => hro column (huses hc)]
    exact hhead r hm

theorem Change.ok (hc : Change c s c') (h : c.Ok) : c'.Ok := by
  obtain ⟨hkeeps, -⟩ := hc.keeps
  have hold : ∀ i ∈ c.indexes, ∃ d, c'.tables i.table = some d ∧ i.uses ⊆ d.columns ∧ i.Fits d.rows := by
    intro i hi
    obtain ⟨d, hd, huses, hfits⟩ := h i hi
    obtain ⟨d', hd', hk⟩ := hkeeps _ d hd
    exact ⟨d', hd', List.Subset.trans huses hk.columns, hfits.kept huses hk⟩
  cases hc with
  | @index i d hd huses hfits =>
    intro j hj
    rcases List.mem_append.1 hj with hj | hj
    · exact hold j hj
    · rw [List.mem_singleton.1 hj]
      exact ⟨d, hd, huses, hfits⟩
  | same => exact h
  | table => exact hold
  | column => exact hold

/-! ## Several statements -/

theorem execAll_keeps : ∀ {ss : List Statement} {c c' : Catalog V}, execAll ss c = .ok c' →
    c.Keeps c' ∧ c.Grows c' ∧ (c.Ok → c'.Ok) ∧ ∀ s ∈ ss, s.Done c'
  | [], c, c', hx => by
    cases hx
    exact ⟨.refl c, .refl c, id, by simp⟩
  | s :: ss, c, c', hx => by
    unfold execAll at hx
    cases hs : exec s c with
    | error e =>
      rw [hs] at hx
      cases hx
    | ok c₁ =>
      rw [hs] at hx
      obtain ⟨hchange, hdone⟩ := exec_change hs
      obtain ⟨hkeeps, hgrows, hok, hall⟩ := execAll_keeps hx
      refine ⟨hchange.keeps.1.trans hkeeps, hchange.grows.trans hgrows, fun h => hok (hchange.ok h), ?_⟩
      exact List.forall_mem_cons.2 ⟨hdone.mono hgrows, hall⟩

/-- The statement that failed, and what those before it left. -/
theorem execAll_error : ∀ {ss : List Statement} {c : Catalog V} {e : DbError}, execAll ss c = .error e →
    ∃ pre s post c', ss = pre ++ s :: post ∧ execAll pre c = .ok c' ∧ exec s c' = .error e
  | [], c, e, hx => by cases hx
  | s :: ss, c, e, hx => by
    unfold execAll at hx
    cases hs : exec s c with
    | error e' =>
      rw [hs] at hx
      cases hx
      exact ⟨[], s, ss, c, rfl, rfl, hs⟩
    | ok c₁ =>
      rw [hs] at hx
      obtain ⟨pre, s', post, c', rfl, hpre, hs'⟩ := execAll_error hx
      refine ⟨s :: pre, s', post, c', rfl, ?_, hs'⟩
      unfold execAll
      rw [hs]
      exact hpre

/-- Nobody else is there. -/
theorem exec_ne_duplicate (s : Statement) (c : Catalog V) (name : String) :
    exec s c ≠ .error (.duplicateObject name) := by
  intro hx
  cases s with
  | createTable t columns =>
    change createTable t columns c = _ at hx
    unfold createTable at hx
    split at hx <;> cases hx
  | createIndex i =>
    change createIndex i c = _ at hx
    unfold createIndex at hx
    repeat' split at hx
    all_goals cases hx
  | addColumn t column =>
    change addColumn t column c = _ at hx
    unfold addColumn at hx
    repeat' split at hx
    all_goals cases hx
  | addColumnIfNotExists t column =>
    change addColumnIfNotExists t column c = _ at hx
    unfold addColumnIfNotExists at hx
    repeat' split at hx
    all_goals cases hx

theorem execAll_ne_duplicate (ss : List Statement) (c : Catalog V) (name : String) :
    execAll ss c ≠ .error (.duplicateObject name) := by
  intro hx
  obtain ⟨-, s, -, c', -, -, hs⟩ := execAll_error hx
  exact exec_ne_duplicate s c' name hs

/-- A statement that is done does nothing. -/
theorem exec_done (hd : s.Done c) (hs : ∀ t column, s ≠ .addColumn t column) :
    exec s c = .ok c := by
  cases s with
  | createTable t columns =>
    obtain ⟨d, hd⟩ := hd
    show createTable t columns c = _
    simp only [createTable, hd]
  | createIndex i =>
    exact if_pos hd
  | addColumn t column => exact absurd rfl (hs t column)
  | addColumnIfNotExists t column =>
    obtain ⟨d, hd, hc⟩ := hd
    show addColumnIfNotExists t column c = _
    simp only [addColumnIfNotExists, hd, if_pos hc]

theorem execAll_done : ∀ {ss : List Statement}, (∀ s ∈ ss, s.Done c ∧ ∀ t column, s ≠ .addColumn t column) →
    execAll ss c = .ok c
  | [], _ => rfl
  | s :: ss, h => by
    obtain ⟨hs, hss⟩ := List.forall_mem_cons.1 h
    unfold execAll
    rw [exec_done hs.1 hs.2]
    exact execAll_done hss

/-! ## Rows that fit -/

/-- The rows of the tables fit the indexes `is`, where these can be created. -/
def Catalog.Fitting (is : List Index) (c : Catalog V) : Prop :=
  ∀ i ∈ is, ∀ d, c.tables i.table = some d → i.uses ⊆ d.columns → i.Fits d.rows

theorem clash_null {i : Index} {column : String} (hc : column ∈ i.uses) {r r' : Row V}
    (hr : r column = none) :
    i.clash r r' = false := by
  unfold Index.clash
  rw [Bool.and_eq_false_iff]
  rcases List.mem_append.1 hc with hc | hc
  · left
    rw [List.all_eq_false]
    exact ⟨column, hc, by simp [hr]⟩
  · right
    rw [List.all_eq_false]
    exact ⟨column, hc, by simp [hr]⟩

theorem Change.fitting {is : List Index} (hc : Change c s c') (h : c.Fitting is) : c'.Fitting is := by
  intro i hi d' hd' huses
  cases hc with
  | same => exact h i hi d' hd' huses
  | index => exact h i hi d' hd' huses
  | @table t columns hnone =>
    rw [setTable_tables] at hd'
    split at hd'
    · cases hd'
      exact fun _ => .nil
    · exact h i hi d' hd' huses
  | @column _ t column d hd hnew =>
    rw [setTable_tables] at hd'
    split at hd'
    · rename_i he
      cases hd'
      by_cases hin : column ∈ i.uses
      · intro _
        refine List.pairwise_iff_forall_sublist.2 fun {r r'} hsub => ?_
        have hr : r ∈ (d.addColumn column).rows := hsub.subset (List.mem_cons_self ..)
        obtain ⟨o, -, rfl⟩ := List.mem_map.1 hr
        exact clash_null hin (Function.update_self ..)
      · have hold : i.uses ⊆ d.columns := by
          intro c hc
          rcases List.mem_append.1 (huses hc) with hm | hm
          · exact hm
          · rw [List.mem_singleton.1 hm] at hc
            exact absurd hc hin
        rw [← he] at hd
        exact (h i hi d hd hold).kept hold (.addColumn hnew)
    · exact h i hi d' hd' huses

end

end Ddl
