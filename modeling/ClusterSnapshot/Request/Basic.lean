import ClusterSnapshot.Object.Basic
import ClusterSnapshot.Request.Error
import ClusterSnapshot.Scheduler.Configuration

/-!
# Requests to a cluster

A cluster is reached through requests: four about objects of a kind, two about its scheduler. Each
request has its own type of answer. A `Call` is a request as it was made to a named cluster, with
how it ended.
-/

namespace ClusterSnapshot

open Scheduler (Configuration)

/-- What can be asked of a cluster. -/
inductive Request where
  /-- The objects of a kind, of one namespace or of all. -/
  | list (k : Kind) (ns? : Option String)
  /-- One object. -/
  | get (k : Kind) (name : String) (ns? : Option String)
  /-- To create or update an object. -/
  | apply (k : Kind) (desired : Desired k)
  /-- To remove an object. -/
  | delete (k : Kind) (name : String) (ns? : Option String)
  /-- The scheduler's configuration. -/
  | getConfig
  /-- To restart the scheduler, with the default configuration if none is given. -/
  | restart (config? : Option Configuration)

namespace Request

/-- The answer to a request. -/
def Answer : Request → Type
  | .list k _ => List (Stored k)
  | .get k _ _ => Stored k
  | .apply k _ => Stored k
  | .delete _ _ _ => Unit
  | .getConfig => Configuration
  | .restart _ => Unit

/-- The word for a request. -/
def verb : Request → String
  | .list _ _ => "list"
  | .get _ _ _ => "get"
  | .apply _ _ => "apply"
  | .delete _ _ _ => "delete"
  | .getConfig => "get_config"
  | .restart _ => "restart"

/-- The kind that a request is about. -/
def kind? : Request → Option Kind
  | .list k _ | .get k _ _ | .apply k _ | .delete k _ _ => some k
  | .getConfig | .restart _ => none

/-- The name that a request is about, empty if it is about no single object. -/
def name : Request → String
  | .get _ name _ | .delete _ name _ => name
  | .apply _ desired => desired.metadata.name
  | .list _ _ | .getConfig | .restart _ => ""

/-- A namespace as shown, a dash for none. -/
def namespaceText (ns? : Option String) : String := ns?.getD "-"

/-- One line about a request. -/
def text (r : Request) : String :=
  match r with
  | .list k ns? => "list " ++ k.name ++ " " ++ namespaceText ns?
  | .get k name ns? | .delete k name ns? =>
    r.verb ++ " " ++ k.name ++ " " ++ namespaceText ns? ++ "|" ++ name
  | .apply k d =>
    r.verb ++ " " ++ k.name ++ " " ++ namespaceText d.metadata.ns? ++ "|" ++ d.metadata.name
  | .getConfig => "get_config"
  | .restart (some _) => "restart given"
  | .restart none => "restart default"

end Request

/-- A request as it was made. -/
structure Call where
  /-- The cluster that was asked. -/
  cluster : String
  request : Request
  /-- How it failed, if it did. -/
  failure? : Option RequestError

/-- One line about a call and how it ended. -/
def Call.text (c : Call) : String :=
  c.cluster ++ " " ++ c.request.text ++ ": " ++
    match c.failure? with
    | none => "ok"
    | some e => e.message

end ClusterSnapshot
