import ClusterSnapshot.Settings.Basic
import ClusterSnapshot.Toml.Reader
import ClusterSnapshot.Toml.Writer

/-!
# Settings as text

Settings are kept in a TOML document with one table per section. When it is read, every section and
every key in it may be missing and keys that mean nothing are passed over. A section may also be
an array of its values in order, what is too much at the end being passed over too.
-/

namespace ClusterSnapshot

namespace Settings

/-- Why a document does not give settings. -/
inductive ReadError where
  /-- It is no TOML document, or a value is not of the type that its key asks for. -/
  | malformed
  /-- It asks for no tasks at all. -/
  | noConcurrency
  deriving DecidableEq, Repr

/-- What went wrong; texts that are no documents have no message of ours. -/
def ReadError.message? : ReadError → Option String
  | .malformed => none
  | .noConcurrency => some "snapshot.max_concurrency must be at least 1"

open Toml (Value Entries)

/-- The values at the keys of a section. -/
def sectionEntries? (keys : List String) : Option Value → Option Entries
  | none => some []
  | some (.table _ entries) => some entries
  | some (.array items) => some (keys.zip items)
  | some (.tables elements) => some (keys.zip (elements.map (.table .header)))
  | some .date => some []
  | some _ => none

/-- A value read by `read`, or the default if it is missing. -/
def valueOr? {α : Type} (default : α) (read : Value → Option α) : Option Value → Option α
  | none => some default
  | some v => read v

/-- A text. -/
def readText? : Value → Option String
  | .text s => some s
  | _ => none

/-- Whether something is so. -/
def readBool? : Value → Option Bool
  | .boolean b => some b
  | _ => none

/-- A number of tasks. -/
def readCount? : Value → Option UInt64
  | .integer i => if 0 ≤ i then some (UInt64.ofNat i.toNat) else none
  | _ => none

/-- The section on the store. -/
def readStore? (v? : Option Value) : Option StoreSettings := do
  let entries ← sectionEntries? ["data_dir"] v?
  return ⟨← valueOr? StoreSettings.default.dataDir readText? (entries.find? "data_dir")⟩

/-- The section on snapshots. -/
def readSnapshot? (v? : Option Value) : Option SnapshotSettings := do
  let entries ←
    sectionEntries? ["max_concurrency", "ignore_errors", "ignore_scheduler_config"] v?
  let default := SnapshotSettings.default
  return {
    maxConcurrency :=
      ← valueOr? default.maxConcurrency readCount? (entries.find? "max_concurrency")
    ignoreErrors := ← valueOr? default.ignoreErrors readBool? (entries.find? "ignore_errors")
    ignoreSchedulerConfig :=
      ← valueOr? default.ignoreSchedulerConfig readBool?
          (entries.find? "ignore_scheduler_config") }

/-- The section on the scheduler. -/
def readScheduler? (v? : Option Value) : Option SchedulerSettings := do
  let entries ← sectionEntries? ["external"] v?
  return ⟨← valueOr? SchedulerSettings.default.external readBool? (entries.find? "external")⟩

/-- The settings in the outermost table of a document. -/
def ofEntries? (entries : Entries) : Option Settings := do
  return {
    store := ← readStore? (entries.find? "store")
    snapshot := ← readSnapshot? (entries.find? "snapshot")
    scheduler := ← readScheduler? (entries.find? "scheduler") }

/-- The settings that a document gives. -/
def ofText (text : String) : Except ReadError Settings :=
  match (Entries.ofText? text).bind ofEntries? with
  | none => .error .malformed
  | some settings =>
    if settings.snapshot.maxConcurrency = 0 then .error .noConcurrency else .ok settings

/-- Whether something is so, as written. -/
def flagText (b : Bool) : String := if b then "true" else "false"

/-- The document of settings; `none` if the number of tasks is more than TOML can write. -/
def text? (s : Settings) : Option String :=
  if 0x7FFFFFFFFFFFFFFF < s.snapshot.maxConcurrency.toNat then none
  else
    some <| "\n".intercalate [
      "[store]",
      "data_dir = " ++ Toml.quote s.store.dataDir,
      "",
      "[snapshot]",
      "max_concurrency = " ++ toString s.snapshot.maxConcurrency.toNat,
      "ignore_errors = " ++ flagText s.snapshot.ignoreErrors,
      "ignore_scheduler_config = " ++ flagText s.snapshot.ignoreSchedulerConfig,
      "",
      "[scheduler]",
      "external = " ++ flagText s.scheduler.external,
      ""]

end Settings

end ClusterSnapshot
