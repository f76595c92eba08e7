import ClusterSnapshot.Settings.Basic

/-!
# Options of one operation

Options say what an operation does about failures, and whether it leaves the scheduler alone.
Strict options stop at the first failure; lenient ones report failures and go on.
-/

namespace ClusterSnapshot

/-- How one capture, replay, clearing or copy goes about its work. -/
structure Options where
  /-- Whether failures are reported and passed over. -/
  ignoreErrors : Bool
  /-- Whether a replay leaves the running scheduler alone. -/
  ignoreSchedulerConfig : Bool
  deriving DecidableEq, Repr

namespace Options

/-- The first failure ends the operation. -/
def strict : Options := ⟨false, false⟩

/-- Failures are reported and passed over. -/
def lenient : Options := ⟨true, false⟩

instance : Inhabited Options := ⟨strict⟩

/-- The options with failures ignored or not. -/
def withIgnoreErrors (o : Options) (ignore : Bool) : Options := { o with ignoreErrors := ignore }

/-- The options with the scheduler left alone or not. -/
def withIgnoreSchedulerConfig (o : Options) (ignore : Bool) : Options :=
  { o with ignoreSchedulerConfig := ignore }

/-- The options that settings ask for. -/
def ofSettings (s : SnapshotSettings) : Options := ⟨s.ignoreErrors, s.ignoreSchedulerConfig⟩

end Options

end ClusterSnapshot
