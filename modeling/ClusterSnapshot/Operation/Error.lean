import ClusterSnapshot.Kind
import ClusterSnapshot.Request.Error

/-!
# Failures of operations

An operation on a whole cluster fails because one of its requests failed, or because a task did not
finish. A replay and a clearing also say in which stage that happened.
-/

namespace ClusterSnapshot

/-- A stage of a replay. A clearing goes through the stages backwards. -/
inductive Stage where
  | scheduler
  | namespaces
  | cluster
  | volumes
  deriving DecidableEq, Repr

/-- What a stage is about. -/
def Stage.text : Stage → String
  | .scheduler => "scheduler"
  | .namespaces => "namespaces"
  | .cluster => "cluster resources"
  | .volumes => "persistent volumes"

/-- Why an operation on a cluster failed. -/
inductive OperationError where
  | list (kind : Kind) (source : RequestError)
  | apply (kind : Kind) (name : String) (source : RequestError)
  | delete (kind : Kind) (name : String) (source : RequestError)
  | schedulerConfig (source : RequestError)
  | restartScheduler (source : RequestError)
  /-- A stage of a replay failed. -/
  | replayStage (stage : Stage) (source : OperationError)
  /-- A stage of a clearing failed. -/
  | clearStage (stage : Stage) (source : OperationError)
  /-- A task could not be started or did not finish. -/
  | dispatch (reason : String)
  deriving DecidableEq, Repr

namespace OperationError

/-- What is said about a failure, causes included. -/
def message : OperationError → String
  | .list k e => "list " ++ k.name ++ ": " ++ e.message
  | .apply k name e => "apply " ++ k.name ++ " " ++ name ++ ": " ++ e.message
  | .delete k name e => "delete " ++ k.name ++ " " ++ name ++ ": " ++ e.message
  | .schedulerConfig e => "get scheduler config: " ++ e.message
  | .restartScheduler e => "restart scheduler: " ++ e.message
  | .replayStage stage e => "import " ++ stage.text ++ ": " ++ e.message
  | .clearStage stage e => "reset " ++ stage.text ++ ": " ++ e.message
  | .dispatch reason => "dispatch task: " ++ reason

/-- What is said about each cause below a failure, the nearest first. -/
def causes : OperationError → List String
  | .list _ e | .apply _ _ e | .delete _ _ e | .schedulerConfig e | .restartScheduler e =>
    [e.message]
  | .replayStage _ e | .clearStage _ e => e.message :: e.causes
  | .dispatch _ => []

/-- The failed request at the root, if there is one. -/
def requestError? : OperationError → Option RequestError
  | .list _ e | .apply _ _ e | .delete _ _ e | .schedulerConfig e | .restartScheduler e => some e
  | .replayStage _ e | .clearStage _ e => e.requestError?
  | .dispatch _ => none

/-- The failure of a task that did not finish. -/
def taskLost : OperationError := .dispatch "task did not complete"

end OperationError

end ClusterSnapshot
