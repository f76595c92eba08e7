import ClusterSnapshot.Extender.Phase
import ClusterSnapshot.Request.Error
import ClusterSnapshot.Kind

/-!
# Events

What the library reports while it works. Every event has a level, a message and fields that say
what it is about.
-/

namespace ClusterSnapshot

/-- How serious an event is. -/
inductive Level where
  | info
  | warn
  | error
  deriving DecidableEq, Repr

/-- The name of a level. -/
def Level.name : Level → String
  | .info => "INFO"
  | .warn => "WARN"
  | .error => "ERROR"

/-- Something worth reporting. -/
inductive Event where
  /-- The scheduler runs with a new configuration of so many profiles and extenders. -/
  | schedulerRestarted (profiles extenders : Nat)
  /-- The scheduler is run by somebody else and was not restarted. -/
  | restartSkipped
  | restartFailed (error : RequestError)
  | configFailed (error : RequestError)
  | listFailed (kind : Kind) (error : RequestError)
  | applyFailed (kind : Kind) (name : String) (error : RequestError)
  | deleteFailed (kind : Kind) (name : String) (error : RequestError)
  /-- A bound volume names its claim only in part. -/
  | claimIncomplete (volume claim ns : String)
  /-- The claim of a bound volume could not be had. -/
  | claimMissing (volume claim ns : String) (error : RequestError)
  /-- So many objects were captured, with or without the scheduler's configuration. -/
  | captured (counts : ByKind fun _ => Nat) (hasConfig : Bool)
  | replayed
  | cleared
  /-- So many objects were copied. -/
  | copied (objects : Nat)
  | extenderFailed (extender : String) (phase : Extender.Phase) (error : Extender.CallError)

namespace Event

/-- How serious an event is. -/
def level : Event → Level
  | .schedulerRestarted _ _ | .restartSkipped | .captured _ _ | .replayed | .cleared
  | .copied _ => .info
  | .extenderFailed _ _ _ => .warn
  | .restartFailed _ | .configFailed _ | .listFailed _ _ | .applyFailed _ _ _
  | .deleteFailed _ _ _ | .claimIncomplete _ _ _ | .claimMissing _ _ _ _ => .error

/-- What is said about an event. -/
def message : Event → String
  | .schedulerRestarted _ _ => "scheduler restarted"
  | .restartSkipped => "scheduler service is disabled, skipping restart"
  | .restartFailed _ => "failed to restart scheduler"
  | .configFailed _ => "failed to get scheduler config"
  | .listFailed _ _ => "failed to list resources"
  | .applyFailed _ _ _ => "failed to apply resource"
  | .deleteFailed _ _ _ => "failed to delete resource"
  | .claimIncomplete _ _ _ =>
    "claim reference of bound volume is incomplete, clearing claim uid"
  | .claimMissing _ _ _ _ => "failed to get claim for bound volume, clearing claim uid"
  | .captured _ _ => "snapshot exported"
  | .replayed => "snapshot imported"
  | .cleared => "cluster reset"
  | .copied _ => "cluster replicated"
  | .extenderFailed _ _ _ => "extender call failed"

/-- What an event is about. -/
def fields : Event → List (String × Json)
  | .schedulerRestarted profiles extenders =>
    [("profiles", .whole profiles), ("extenders", .whole extenders)]
  | .restartSkipped | .replayed | .cleared => []
  | .restartFailed e | .configFailed e => [("error", .string e.message)]
  | .listFailed k e => [("kind", .string k.name), ("error", .string e.message)]
  | .applyFailed k name e | .deleteFailed k name e =>
    [("kind", .string k.name), ("name", .string name), ("error", .string e.message)]
  | .claimIncomplete volume claim ns =>
    [("pv", .string volume), ("claim", .string claim), ("namespace", .string ns)]
  | .claimMissing volume claim ns e =>
    [("pv", .string volume), ("claim", .string claim), ("namespace", .string ns),
      ("error", .string e.message)]
  | .captured counts hasConfig =>
    [("pods", .whole counts.pod), ("nodes", .whole counts.node), ("pvs", .whole counts.volume),
      ("pvcs", .whole counts.claim), ("storage_classes", .whole counts.storageClass),
      ("priority_classes", .whole counts.priorityClass), ("namespaces", .whole counts.ns),
      ("scheduler_config", .bool hasConfig)]
  | .copied objects => [("objects", .whole objects)]
  | .extenderFailed extender phase e =>
    [("extender", .string extender), ("phase", .string phase.name), ("error", .string e.message)]

end Event

end ClusterSnapshot
