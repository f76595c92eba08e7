import ClusterSnapshot.Object.Basic
import ClusterSnapshot.Scheduler.Configuration

/-!
# Snapshots

A snapshot holds the user's part of a cluster: the objects of every kind in order, and the
scheduler's configuration if there was one to be had. A `Snapshot` holds stored objects, a `Replay`
what is handed in to obtain them; both are written alike, so the text of one can be read as the
other.
-/

namespace ClusterSnapshot

open Scheduler (Configuration)

/-- Objects of every kind and a configuration of the scheduler. -/
structure Contents (M : Type) where
  objects : ByKind fun k => List (Object k M)
  schedulerConfig? : Option Configuration

/-- What was captured of a cluster. -/
abbrev Snapshot := Contents Metadata

/-- What is to be brought into a cluster. -/
abbrev Replay := Contents DesiredMetadata

namespace Contents

variable {M : Type}

/-- No objects and no configuration. -/
def empty : Contents M := ⟨.ofFn fun _ => [], none⟩

instance : Inhabited (Contents M) := ⟨empty⟩

/-- The number of objects of each kind. -/
def counts (c : Contents M) : ByKind fun _ => Nat := .ofFn fun k => (c.objects.get k).length

/-- The number of objects. -/
def objectCount (c : Contents M) : Nat :=
  Kind.all.foldl (fun n k => n + (c.objects.get k).length) 0

open Members Member in
/-- The members of a snapshot: a list for every kind, and the configuration or `null`. -/
def form (M : Type) [JsonForm M] : RecordForm (Contents M) :=
  .closed
    (build (fun pods nodes volumes claims storageClasses priorityClasses config? namespaces =>
        Contents.mk
          ⟨pods, nodes, volumes, claims, storageClasses, priorityClasses, namespaces⟩ config?)
      |>.and (defaulted "pods" []) (·.objects.pod)
      |>.and (defaulted "nodes" []) (·.objects.node)
      |>.and (defaulted "pvs" []) (·.objects.volume)
      |>.and (defaulted "pvcs" []) (·.objects.claim)
      |>.and (defaulted "storageClasses" []) (·.objects.storageClass)
      |>.and (defaulted "priorityClasses" []) (·.objects.priorityClass)
      |>.and (defaulted "schedulerConfig" none) (·.schedulerConfig?)
      |>.and (defaulted "namespaces" []) (·.objects.ns))

instance [JsonForm M] : JsonForm (Contents M) := (form M).jsonForm

end Contents

/-- What brings the contents of a snapshot into a cluster. -/
def Snapshot.toReplay (s : Snapshot) : Replay where
  objects := .ofFn fun k => (s.objects.get k).map Stored.toDesired
  schedulerConfig? := s.schedulerConfig?

end ClusterSnapshot
