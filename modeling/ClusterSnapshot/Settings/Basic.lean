import ClusterSnapshot.Json.Record
import ClusterSnapshot.Path

/-!
# Settings

The settings of the program in three sections: where the store is kept, how snapshots are taken
and replayed, and whether somebody else runs the scheduler.
-/

namespace ClusterSnapshot

/-- Where the store is kept. -/
structure StoreSettings where
  /-- The path of the directory. -/
  dataDir : String
  deriving DecidableEq, Repr

/-- How snapshots are taken and replayed. -/
structure SnapshotSettings where
  /-- The greatest number of tasks that are under way at a time. -/
  maxConcurrency : UInt64
  ignoreErrors : Bool
  ignoreSchedulerConfig : Bool
  deriving DecidableEq, Repr

/-- Who runs the scheduler. -/
structure SchedulerSettings where
  /-- Whether the scheduler is run by somebody else and takes no configuration. -/
  external : Bool
  deriving DecidableEq, Repr

/-- The settings of the program. -/
structure Settings where
  store : StoreSettings
  snapshot : SnapshotSettings
  scheduler : SchedulerSettings
  deriving DecidableEq, Repr

/-- The number of tasks under way at a time unless something else is asked for. -/
def defaultMaxConcurrency : Nat := 16

/-- Where the store is kept unless something else is asked for. -/
def StoreSettings.default : StoreSettings := ⟨"/var/lib/schedsim"⟩

/-- The section on snapshots unless something else is asked for. -/
def SnapshotSettings.default : SnapshotSettings :=
  ⟨UInt64.ofNat defaultMaxConcurrency, false, false⟩

/-- The section on the scheduler unless something else is asked for. -/
def SchedulerSettings.default : SchedulerSettings := ⟨false⟩

/-- The settings unless something else is asked for. -/
def Settings.default : Settings := ⟨.default, .default, .default⟩

/-- Whether two settings ask for the same. Data directories are compared as paths, not as texts. -/
def Settings.agree (s t : Settings) : Bool :=
  Path.agree s.store.dataDir t.store.dataDir &&
    s.snapshot = t.snapshot && s.scheduler = t.scheduler

section Forms

open Members Member

/-- The members of the section on the store. -/
def StoreSettings.form : RecordForm StoreSettings :=
  .closed (build StoreSettings.mk |>.and (defaulted "data_dir" default.dataDir) (·.dataDir))

instance : JsonForm StoreSettings := StoreSettings.form.jsonForm

/-- The members of the section on snapshots. -/
def SnapshotSettings.form : RecordForm SnapshotSettings :=
  .closed
    (build SnapshotSettings.mk
      |>.and (defaulted "max_concurrency" default.maxConcurrency) (·.maxConcurrency)
      |>.and (defaulted "ignore_errors" default.ignoreErrors) (·.ignoreErrors)
      |>.and (defaulted "ignore_scheduler_config" default.ignoreSchedulerConfig)
        (·.ignoreSchedulerConfig))

instance : JsonForm SnapshotSettings := SnapshotSettings.form.jsonForm

/-- The members of the section on the scheduler. -/
def SchedulerSettings.form : RecordForm SchedulerSettings :=
  .closed (build SchedulerSettings.mk |>.and (defaulted "external" default.external) (·.external))

instance : JsonForm SchedulerSettings := SchedulerSettings.form.jsonForm

/-- The sections of the settings. -/
def Settings.form : RecordForm Settings :=
  .closed
    (build Settings.mk
      |>.and (defaulted "store" .default) (·.store)
      |>.and (defaulted "snapshot" .default) (·.snapshot)
      |>.and (defaulted "scheduler" .default) (·.scheduler))

instance : JsonForm Settings := Settings.form.jsonForm

end Forms

end ClusterSnapshot
