import ClusterSnapshot.Operation.Basic

/-!
# Replaying a snapshot

A replay goes through four stages, each of which ends before the next begins:

* the scheduler is restarted with the configuration of the snapshot;
* namespaces are created;
* priority classes, storage classes, claims, nodes and pods are created, in this order;
* volumes are created, bound ones referring to their claim as it is in this cluster.

Reserved objects are passed over. Nothing that an earlier stage did is undone when a later one
fails.
-/

namespace ClusterSnapshot

open Scheduler (Configuration)

namespace Desired

variable {k : Kind}

/-- The object as it is handed in, unless it is reserved: without an identity of its own and
without anything that only a store assigns. -/
def admitted? (d : Desired k) : Option (Desired k) :=
  if Desired.isExcluded d then none
  else some (Object.mapMetadata
    (fun m => { m.stripServerPopulated with uid? := none }) d)

end Desired

/-- The volume with another identity for its claim. -/
def Object.withClaimUid {M : Type} (volume : Object .volume M) (uid? : Option String) :
    Object .volume M :=
  let body : VolumeBody := volume.body
  { volume with
    body := ({ body with
      spec := { body.spec with
        claimRef? := body.spec.claimRef?.map fun r => { r with uid? } } } : VolumeBody) }

namespace Operator

variable {σ : Type}

/-- Hands in one object. -/
def applyOne {k : Kind} (server : Server σ) (options : Options) (d : Desired k) :
    Attempt σ Unit := do
  match ← Run.request server (.apply k d) with
  | .ok _ => return
  | .error e =>
    if options.ignoreErrors then Attempt.report (.applyFailed k d.metadata.name e)
    else throw (.apply k d.metadata.name e)

/-- A volume that was bound refers to its claim as it is in this cluster, or to none if the claim
is not there or not fully named. -/
def rebindClaim (server : Server σ) (volume : Desired .volume) : Run σ (Desired .volume) := do
  let body : VolumeBody := volume.body
  if !body.isBound then return volume
  let some ref := body.spec.claimRef? | return volume
  match ref.name?, ref.ns? with
  | some name, some ns =>
    let answer : Except RequestError (Stored .claim) ←
      Run.request server (.get .claim name (some ns))
    match answer with
    | .ok claim => return volume.withClaimUid claim.metadata.uid?
    | .error e =>
      Run.report (.claimMissing volume.metadata.name name ns e)
      return volume.withClaimUid none
  | name?, ns? =>
    Run.report (.claimIncomplete volume.metadata.name (name?.getD "") (ns?.getD ""))
    return volume.withClaimUid none

/-- The tasks that hand in the objects of a kind. -/
def applyTasks {k : Kind} (server : Server σ) (options : Options) (items : List (Desired k)) :
    List (Run σ (Ending Unit)) :=
  (items.filterMap Desired.admitted?).map fun d => Attempt.task (applyOne server options d)

/-- The tasks that hand in volumes. -/
def volumeTasks (server : Server σ) (options : Options) (volumes : List (Desired .volume)) :
    List (Run σ (Ending Unit)) :=
  (volumes.filterMap Desired.admitted?).map fun d => Attempt.task do
    let d ← rebindClaim server d
    applyOne server options d

/-- The kinds that are created after the namespaces and before the volumes, in order. -/
def clusterKinds : List Kind := [.priorityClass, .storageClass, .claim, .node, .pod]

/-- A stage of a replay: all its tasks, and the end of them. -/
def replayStage (op : Operator σ) (stage : Stage)
    (tasks : List (Run σ (Ending Unit))) : Attempt σ Unit :=
  Attempt.mapError (.replayStage stage) do
    let group : TaskGroup σ Unit ← (TaskGroup.new op.maxConcurrency).spawnAll tasks
    let _ ← ExceptT.mk group.wait

/-- The first stage of a replay, which is passed over if the scheduler is to be left alone. -/
def replayConfig (op : Operator σ) (replay : Replay) (options : Options) : Attempt σ Unit :=
  unless options.ignoreSchedulerConfig do
    Attempt.mapError (.replayStage .scheduler)
      (restartScheduler op.server options replay.schedulerConfig?)

/-- Brings the contents of a replay into the cluster. -/
def replay (op : Operator σ) (replay : Replay) (options : Options) : Attempt σ Unit := do
  op.replayConfig replay options
  let server := op.server
  op.replayStage .namespaces (applyTasks server options replay.objects.ns)
  op.replayStage .cluster
    (clusterKinds.flatMap fun k => applyTasks server options (replay.objects.get k))
  op.replayStage .volumes (volumeTasks server options replay.objects.volume)
  Attempt.report .replayed

end Operator

end ClusterSnapshot
