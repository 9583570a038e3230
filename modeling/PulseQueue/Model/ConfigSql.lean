import PulseQueue.Lib.Locking
import PulseQueue.Model.Postgres
import PulseQueue.Model.Sqlite

/-!
# The statements of `runtime_config`

`initialize_runtime_config` and `patch_runtime_config` of both repositories, statement by statement.
The value is the row with id 1, if there is one. SQLite takes its write lock with `BEGIN IMMEDIATE` and
with every write; Postgres locks the row that `SELECT ... FOR UPDATE` finds, and an insert waits for one
that is not committed yet.
-/

namespace PulseQueue

open Interaction Locking Txn

inductive ConfigSql
  | beginImmediate
  | select
  | selectForUpdate
  | insertOrIgnore (row : ConfigRow)
  | insertOnConflictDoNothing (row : ConfigRow)
  | update (row : ConfigRow)

namespace ConfigSql

def Answer : ConfigSql → Type
  | select | selectForUpdate => Option ConfigRow
  | _ => Unit

def exec : (c : ConfigSql) → Option ConfigRow → c.Answer × Option ConfigRow
  | beginImmediate, s => ((), s)
  | select, s => (s, s)
  | selectForUpdate, s => (s, s)
  | insertOrIgnore row, s => ((), s.or (some row))
  | insertOnConflictDoNothing row, s => ((), s.or (some row))
  | update row, s => ((), s.map fun _ => row)

def locks : ConfigSql → Option ConfigRow → Bool
  | beginImmediate, _ => true
  | select, _ => false
  | selectForUpdate, s => s.isSome
  | insertOrIgnore _, _ => true
  | insertOnConflictDoNothing _, s => s.isNone
  | update _, s => s.isSome

def statements : Statements ConfigSql Answer (Option ConfigRow) where
  exec := exec
  locks := locks
  reads := by
    intro c s h
    cases c <;> cases s <;> simp_all [exec, locks]

end ConfigSql

/-- A body of statements. -/
abbrev ConfigBody (α : Type) : Type := Prog ConfigSql ConfigSql.Answer Err α

def sql (c : ConfigSql) : ConfigBody c.Answer := .call c .pure

/-- The calls that write the row; `now` is the clock reading of the row written. -/
inductive ConfigCall
  | initializeRuntimeConfig (now : UtcTime) (default : RuntimeConfig)
  | patchRuntimeConfig (now : UtcTime) (patch : RuntimeConfigPatch)

namespace Sqlite

def initializeRuntimeConfigSql (now : UtcTime) (default : RuntimeConfig) : ConfigBody Unit :=
  sql (.insertOrIgnore ⟨default.modelDumpJson, toDbTime now⟩)

def patchRuntimeConfigSql (now : UtcTime) (patch : RuntimeConfigPatch) :
    ConfigBody RuntimeConfig := do
  let _ ← sql .beginImmediate
  let (row : Option ConfigRow) ← sql .select
  match row with
  | none => .raise (.runtime notInitializedMessage)
  | some row =>
    let current ← Prog.ofExcept (RuntimeConfig.modelValidateJson row.configJson)
    let updated ← Prog.ofExcept (mergeRuntimeConfig current patch)
    let _ ← sql (.update ⟨updated.modelDumpJson, toDbTime now⟩)
    pure updated

end Sqlite

namespace Postgres

def initializeRuntimeConfigSql (now : UtcTime) (default : RuntimeConfig) : ConfigBody Unit :=
  sql (.insertOnConflictDoNothing ⟨default.modelDumpJson, toDbTime now⟩)

def patchRuntimeConfigSql (now : UtcTime) (patch : RuntimeConfigPatch) :
    ConfigBody RuntimeConfig := do
  let (row : Option ConfigRow) ← sql .selectForUpdate
  match row with
  | none => .raise (.runtime notInitializedMessage)
  | some row =>
    let current ← Prog.ofExcept (RuntimeConfig.modelValidateJson row.configJson)
    let updated ← Prog.ofExcept (mergeRuntimeConfig current patch)
    let _ ← sql (.update ⟨updated.modelDumpJson, toDbTime now⟩)
    pure updated

end Postgres

end PulseQueue
