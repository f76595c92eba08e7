import ClusterSnapshot.Operation.Basic

/-!
# Clearing a cluster

A clearing goes through the stages of a replay backwards, so that nothing is removed while
something that depends on it is still there: volumes; pods, nodes, claims, storage classes and
priority classes; namespaces; last the scheduler is restarted with the default configuration.
Reserved objects stay.

The objects of a kind are listed when their turn comes, while removals of the kinds before may
still be waiting in the queue. If listing fails, what waits in the queue is given up.
-/

namespace ClusterSnapshot

namespace Operator

variable {σ : Type}

/-- Removes one object. It does not matter if it is already gone. -/
def deleteOne (server : Server σ) (options : Options) (k : Kind) (name : String)
    (ns? : Option String) : Attempt σ Unit := do
  match ← Run.request server (.delete k name ns?) with
  | .ok _ => return
  | .error (.notFound _) => return
  | .error e =>
    if options.ignoreErrors then Attempt.report (.deleteFailed k name e)
    else throw (.delete k name e)

/-- Takes the removals of all objects of some kinds into a group. -/
def spawnDeletions (server : Server σ) (options : Options) (group : TaskGroup σ Unit) :
    List Kind → Attempt σ (TaskGroup σ Unit)
  | [] => return group
  | k :: rest => do
    let items ← listUserObjects server options k
    let group ← group.spawnAll <| items.map fun o =>
      Attempt.task (deleteOne server options k o.metadata.name o.metadata.ns?)
    spawnDeletions server options group rest

/-- The kinds that are removed after the volumes and before the namespaces, in order. -/
def clearedKinds : List Kind := [.pod, .node, .claim, .storageClass, .priorityClass]

/-- A stage of a clearing: all removals of some kinds, and the end of them. -/
def clearStage (op : Operator σ) (options : Options) (stage : Stage) (kinds : List Kind) :
    Attempt σ Unit :=
  Attempt.mapError (.clearStage stage) do
    let group ← spawnDeletions op.server options (.new op.maxConcurrency) kinds
    let _ ← ExceptT.mk group.wait

/-- Removes every object of the user and restores the default configuration of the scheduler. -/
def clear (op : Operator σ) (options : Options) : Attempt σ Unit := do
  op.clearStage options .volumes [.volume]
  op.clearStage options .cluster clearedKinds
  op.clearStage options .namespaces [.ns]
  Attempt.mapError (.clearStage .scheduler) (restartScheduler op.server options none)
  Attempt.report .cleared

end Operator

end ClusterSnapshot
