import ClusterSnapshot.Operation.Basic

/-!
# Capturing a cluster

One task lists the objects of each kind, and one more asks for the scheduler's configuration. With
strict options the first failure ends the capture; with lenient ones what cannot be had is left
out. Reserved objects are never captured.
-/

namespace ClusterSnapshot

open Scheduler (Configuration)

/-- What one task of a capture brings. -/
inductive Fetched where
  | objects (k : Kind) (items : List (Stored k))
  | config (config? : Option Configuration)

/-- The snapshot with what a task brought. -/
def Snapshot.receive (s : Snapshot) : Fetched → Snapshot
  | .objects k items => { s with objects := s.objects.set k items }
  | .config config? => { s with schedulerConfig? := config? }

namespace Operator

variable {σ : Type}

/-- The scheduler's configuration; none if the scheduler is run by somebody else. -/
def fetchConfig (server : Server σ) (options : Options) : Attempt σ (Option Configuration) := do
  let answer : Except RequestError Configuration ← Run.request server .getConfig
  match answer with
  | .ok config => return some config
  | .error .disabled => return none
  | .error e =>
    if options.ignoreErrors then
      Attempt.report (.configFailed e)
      return none
    else throw (.schedulerConfig e)

/-- The tasks of a capture, in order. -/
def captureTasks (server : Server σ) (options : Options) :
    List (Run σ (Ending Fetched)) :=
  Kind.all.map (fun k => Attempt.task (Fetched.objects k <$> listUserObjects server options k)) ++
    [Attempt.task (Fetched.config <$> fetchConfig server options)]

/-- Captures the user's part of the cluster. -/
def capture (op : Operator σ) (options : Options) : Attempt σ Snapshot := do
  let group : TaskGroup σ Fetched ←
    (TaskGroup.new op.maxConcurrency).spawnAll (captureTasks op.server options)
  let fetched ← ExceptT.mk group.wait
  let s := fetched.foldl Snapshot.receive .empty
  let s := { s with objects := s.objects.set .pod (s.objects.pod.map op.decorate) }
  Attempt.report (.captured s.counts s.schedulerConfig?.isSome)
  return s

end Operator

end ClusterSnapshot
