import ClusterSnapshot.Request.Run
import ClusterSnapshot.Store.Basic

/-!
# Stores that serve requests

`Cluster.server` serves requests from a store. The scheduler of a cluster may be run by somebody
else; then requests about it are refused. `Server.withFaults` lets requests fail as a script says.
-/

namespace ClusterSnapshot

open Scheduler (Configuration)

namespace Cluster

/-- The failure to find an object. -/
def missing (k : Kind) (name : String) (ns? : Option String) : RequestError :=
  .notFound (k.name ++ " " ++ objectKey (k.scope ns?) name)

/-- An answer of the store as the answer to a request. -/
def asAnswer {α : Type} (answer : Except StoreError α) : Except RequestError α :=
  answer.mapError .ofStore

variable (c : Cluster)

/-- Serves a request for the objects of a kind. -/
def serveList (k : Kind) (ns? : Option String) : Except RequestError (List (Stored k)) :=
  asAnswer (c.store.list k ns?)

/-- Serves a request for one object, which must be there. -/
def serveGet (k : Kind) (name : String) (ns? : Option String) : Except RequestError (Stored k) := do
  match ← asAnswer (c.store.get k name ns?) with
  | some o => return o
  | none => throw (missing k name ns?)

/-- Serves a request to create or update an object. -/
def serveApply {k : Kind} (d : Desired k) : Except RequestError (Stored k) × Cluster :=
  match c.put d with
  | .ok (o, c) => (.ok o, c)
  | .error e => (.error (.ofStore e), c)

/-- Serves a request to remove an object, which must be there. -/
def serveDelete (k : Kind) (name : String) (ns? : Option String) :
    Except RequestError Unit × Cluster :=
  match c.store.remove k name ns? with
  | (true, store) => (.ok (), { c with store })
  | (false, store) => (.error (missing k name ns?), { c with store })

/-- Serves a request for the scheduler's configuration. -/
def serveConfig (external : Bool) : Except RequestError Configuration :=
  if external then .error .disabled else asAnswer c.store.activeConfig

/-- Serves a request to restart the scheduler. -/
def serveRestart (external : Bool) (config? : Option Configuration) :
    Except RequestError Unit × Cluster :=
  if external then (.error .disabled, c)
  else (.ok (), { c with store := c.store.setActiveConfig (config?.getD .default) })

/-- Serves a request. -/
def serve (external : Bool) (r : Request) (c : Cluster) : Except RequestError r.Answer × Cluster :=
  match r with
  | .list k ns? => (c.serveList k ns?, c)
  | .get k name ns? => (c.serveGet k name ns?, c)
  | .apply _ d => c.serveApply d
  | .delete k name ns? => c.serveDelete k name ns?
  | .getConfig => (c.serveConfig external, c)
  | .restart config? => c.serveRestart external config?

/-- A store that serves requests, its calls listed under a name. -/
def server (name : String) (external : Bool) : Server Cluster := ⟨name, serve external⟩

end Cluster

/-! ### Scripted failures -/

/-- A failure of all requests of a sort. -/
structure Fault where
  /-- The word for the requests that fail. -/
  verb : String
  /-- The kind that they are about, or any. -/
  kind? : Option Kind
  /-- The name that they are about, or any. -/
  name? : Option String
  error : RequestError
  deriving DecidableEq, Repr

/-- Whether a fault is meant for a request. -/
def Fault.fits (f : Fault) (r : Request) : Bool :=
  f.verb == r.verb && f.kind?.all (fun k => r.kind? == some k) && f.name?.all (· == r.name)

/-- The server failing as a script says, by the first fault that fits, and else answering as
before. -/
def Server.withFaults {σ : Type} (faults : List Fault) (server : Server σ) : Server σ where
  cluster := server.cluster
  serve r s :=
    match faults.find? (·.fits r) with
    | some f => (.error f.error, s)
    | none => server.serve r s

end ClusterSnapshot
