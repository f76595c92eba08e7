import ClusterSnapshot.Operation.Options
import ClusterSnapshot.Operation.TaskGroup
import ClusterSnapshot.Request.Run
import ClusterSnapshot.Snapshot

/-!
# Operations on whole clusters: what they share

An `Operator` captures, replays, clears and copies the cluster behind its server. An `Attempt` is a
run that may fail; the calls it made and the events it reported stay.
-/

namespace ClusterSnapshot

open Scheduler (Configuration)

/-- A cluster with how operations on it are carried out. -/
structure Operator (σ : Type) where
  server : Server σ
  /-- The number of tasks that are under way at a time. -/
  maxConcurrency : Nat
  /-- What is done to every pod that is captured. -/
  decorate : Stored .pod → Stored .pod

/-- A run that may fail. -/
abbrev Attempt (σ α : Type) := ExceptT OperationError (StateM (Progress σ)) α

/-- How a task ends that either gives an output or fails. -/
def Ending.ofExcept {α : Type} : Except OperationError α → Ending α
  | .ok x => .done x
  | .error e => .failed e

namespace Attempt

variable {σ α : Type}

/-- Reports an event. -/
def report (e : Event) : Attempt σ Unit := ExceptT.lift (Run.report e)

/-- The attempt as a task of a group. -/
def task (a : Attempt σ α) : Run σ (Ending α) := Ending.ofExcept <$> a.run

/-- The attempt, its failure sent through a function. -/
def mapError (f : OperationError → OperationError) (a : Attempt σ α) : Attempt σ α :=
  ExceptT.mk ((Except.mapError f) <$> a.run)

end Attempt

namespace Operator

variable {σ : Type}

/-- An operator with the usual number of tasks that leaves pods as they are. -/
def new (server : Server σ) : Operator σ := ⟨server, defaultMaxConcurrency, id⟩

/-- The operator with another number of tasks, at least one. -/
def withMaxConcurrency (op : Operator σ) (limit : Nat) : Operator σ :=
  { op with maxConcurrency := max 1 limit }

/-- The operator with something done to every pod that is captured. -/
def withDecorator (op : Operator σ) (decorate : Stored .pod → Stored .pod) : Operator σ :=
  { op with decorate }

end Operator

/-- The objects of a kind that are not reserved. With lenient options a kind that cannot be listed
counts as empty. -/
def listUserObjects {σ : Type} (server : Server σ) (options : Options) (k : Kind) :
    Attempt σ (List (Stored k)) := do
  let answer : Except RequestError (List (Stored k)) ← Run.request server (.list k none)
  match answer with
  | .ok items => return items.filter fun o => !Stored.isExcluded o
  | .error e =>
    if options.ignoreErrors then
      Attempt.report (.listFailed k e)
      return []
    else throw (.list k e)

/-- Restarts the scheduler, which may be run by somebody else. -/
def restartScheduler {σ : Type} (server : Server σ) (options : Options)
    (config? : Option Configuration) : Attempt σ Unit := do
  let answer : Except RequestError Unit ← Run.request server (.restart config?)
  match answer with
  | .ok _ => return
  | .error .disabled => Attempt.report .restartSkipped
  | .error e =>
    if options.ignoreErrors then Attempt.report (.restartFailed e)
    else throw (.restartScheduler e)

end ClusterSnapshot
