import ClusterSnapshot.Proofs.Request.Calls
import ClusterSnapshot.Proofs.Store.Reachable
import ClusterSnapshot.Store.Serving

/-!
# Stores that are asked

Whatever is asked of a store, and whether or not it is made to fail, one of few things is done to
the cluster: an object is put or removed, the configuration is set, or all is left as it is.

## Main results

* `Cluster.Served`: **what a request does to a cluster**.
* `Cluster.served_faulty`: a request does no more than that.
-/

namespace ClusterSnapshot

variable {k : Kind}

namespace Cluster

variable {c : Cluster}

/-! ### Removing -/

/-- A deletion that is asked for removes the object. -/
theorem serveDelete_snd (c : Cluster) (k : Kind) (name : String) (ns? : Option String) :
    (c.serveDelete k name ns?).2 = c.afterRemove k name ns? := by
  rw [serveDelete, Cluster.afterRemove]
  rcases c.store.remove k name ns? with ⟨existed, store⟩
  cases existed <;> rfl

/-- A removal succeeds if there is something to remove. -/
theorem serveDelete_fst (c : Cluster) (k : Kind) (name : String) (ns? : Option String) :
    (c.serveDelete k name ns?).1 =
      if (c.store.tables.get k).contains (objectKey (k.scope ns?) name) then .ok ()
      else .error (missing k name ns?) := by
  rw [serveDelete, Store.remove_eq]
  cases (c.store.tables.get k).contains (objectKey (k.scope ns?) name) <;> rfl

/-- To remove what is not there changes nothing. -/
theorem afterRemove_of_not_contains {name : String} {ns? : Option String}
    (h : (c.store.tables.get k).contains (objectKey (k.scope ns?) name) = false) :
    c.afterRemove k name ns? = c := by
  have htables : c.store.tables.set k (c.store.tables.get k) = c.store.tables := by
    refine ByKind.ext_get fun j => ?_
    by_cases hj : k = j
    · subst hj
      rw [ByKind.get_set_self]
    · rw [ByKind.get_set_of_ne _ _ hj]
  rw [afterRemove, Store.remove, KeyMap.erase_of_not_contains h, htables]

/-! ### What a request does -/

/-- The server of a cluster, some requests to which fail as a script says. -/
def faultyServer (name : String) (external : Bool) (faults : List Fault) : Server Cluster :=
  (Cluster.server name external).withFaults faults

/-- A request that a fault fits fails and changes nothing. -/
theorem faultyServer_of_fault {name : String} {external : Bool} {faults : List Fault} {r : Request}
    {f : Fault} (hf : faults.find? (·.fits r) = some f) (c : Cluster) :
    (faultyServer name external faults).serve r c = (.error f.error, c) := by
  simp only [faultyServer, Server.withFaults, hf]

/-- Any other request is served. -/
theorem faultyServer_of_none {name : String} {external : Bool} {faults : List Fault} {r : Request}
    (hf : faults.find? (·.fits r) = none) (c : Cluster) :
    (faultyServer name external faults).serve r c = Cluster.serve external r c := by
  simp only [faultyServer, Server.withFaults, hf]
  rfl

/-- Who only reads leaves a cluster as it is. -/
theorem serve_of_reads {name : String} {external : Bool} {faults : List Fault} {r : Request}
    (hr : r.Reads) (c : Cluster) : ((faultyServer name external faults).serve r c).2 = c := by
  cases hf : faults.find? (·.fits r) with
  | some f => rw [faultyServer_of_fault hf]
  | none =>
      rw [faultyServer_of_none hf]
      cases r with
      | list k ns? | get k name ns? | getConfig => rfl
      | apply k d | delete k name ns? | restart config? => cases hr

/-- **What a request does to a cluster**, as it ends. -/
inductive Served (c : Cluster) : Request → Option RequestError → Cluster → Prop
  | put {k : Kind} {d : Desired k} : Desired.refusal? d = none →
    Served c (.apply k d) none (c.afterPut d)
  | removed {k : Kind} {name : String} {ns? : Option String} :
    Served c (.delete k name ns?) none (c.afterRemove k name ns?)
  | restarted {config? : Option Scheduler.Configuration} :
    Served c (.restart config?) none (c.afterConfig (config?.getD .default))
  | read {r : Request} {failure? : Option RequestError} : r.Reads → Served c r failure? c
  | failed {r : Request} {e : RequestError} : Served c r (some e) c

/-- Whatever is asked of a cluster that can be read is served. -/
theorem served_serve (hc : c.store.Readable) (cluster : String) (external : Bool) (r : Request) :
    c.Served r ((Cluster.server cluster external).call r c).failure?
      ((Cluster.server cluster external).serve r c).2 := by
  cases r with
  | list k ns? | get k name ns? | getConfig => exact .read trivial
  | apply k d =>
      cases hrefusal : Desired.refusal? d with
      | none =>
          have happly : c.serveApply d = (.ok (c.putObject d), c.afterPut d) := by
            rw [serveApply, put_eq hc hrefusal]
          have hserve : (Cluster.server cluster external).serve (.apply k d) c = _ := happly
          rw [Server.call, hserve]
          exact .put hrefusal
      | some e =>
          have happly : c.serveApply d = (.error (.ofStore e), c) := by
            rw [serveApply, put_of_refusal hrefusal]
          have hserve : (Cluster.server cluster external).serve (.apply k d) c = _ := happly
          rw [Server.call, hserve]
          exact .failed
  | delete k name ns? =>
      have hfst := c.serveDelete_fst k name ns?
      have hsnd := c.serveDelete_snd k name ns?
      cases hcontains : (c.store.tables.get k).contains (objectKey (k.scope ns?) name) with
      | true =>
          rw [hcontains, if_pos rfl] at hfst
          have hserve : (Cluster.server cluster external).serve (.delete k name ns?) c =
              (.ok (), c.afterRemove k name ns?) := Prod.ext hfst hsnd
          rw [Server.call, hserve]
          exact .removed
      | false =>
          rw [hcontains, if_neg Bool.false_ne_true] at hfst
          rw [afterRemove_of_not_contains hcontains] at hsnd
          have hserve : (Cluster.server cluster external).serve (.delete k name ns?) c =
              (.error (missing k name ns?), c) := Prod.ext hfst hsnd
          rw [Server.call, hserve]
          exact .failed
  | restart config? =>
      cases external with
      | true => exact .failed
      | false => exact .restarted

/-- **A request does no more than that**, even if some requests are made to fail. -/
theorem served_faulty (hc : c.store.Readable) (name : String) (external : Bool)
    (faults : List Fault) (r : Request) :
    c.Served r ((faultyServer name external faults).call r c).failure?
      ((faultyServer name external faults).serve r c).2 := by
  cases hf : faults.find? (·.fits r) with
  | some f =>
      rw [Server.call, faultyServer_of_fault hf]
      exact .failed
  | none =>
      rw [Server.call, faultyServer_of_none hf]
      exact served_serve hc name external r

end Cluster

end ClusterSnapshot
