import ClusterSnapshot.Json.Record

/-!
# Metadata of objects

Metadata comes in two forms. `Metadata` is what a stored object carries: it has a name, and the
identity, version and time of creation that the store assigned. `DesiredMetadata` is what is handed
in to create or update an object: there every field may be missing, and nothing is assigned by a
store. Members without a field of their own are kept as they are.
-/

namespace ClusterSnapshot

/-- Metadata of a stored object. -/
structure Metadata where
  name : String
  ns? : Option String
  /-- The identity of the object in its cluster. -/
  uid? : Option String
  resourceVersion? : Option String
  creationTimestamp? : Option String
  labels : KeyMap String
  annotations : KeyMap String
  /-- All other members. -/
  extra : KeyMap Json
  deriving Inhabited

/-- Metadata of an object that is to be. -/
structure DesiredMetadata where
  name? : Option String
  ns? : Option String
  uid? : Option String
  labels : KeyMap String
  annotations : KeyMap String
  /-- All other members. -/
  extra : KeyMap Json
  deriving Inhabited

namespace Metadata

/-- Metadata with nothing but a name and perhaps a namespace. -/
def named (name : String) (ns? : Option String) : Metadata :=
  ⟨name, ns?, none, none, none, ∅, ∅, ∅⟩

/-- The members that only a store assigns. -/
def serverPopulated : List String :=
  ["resourceVersion", "creationTimestamp", "managedFields", "generation", "selfLink",
    "deletionTimestamp", "deletionGracePeriodSeconds"]

/-- What a user could have set. -/
def toDesired (m : Metadata) : DesiredMetadata :=
  ⟨some m.name, m.ns?, m.uid?, m.labels, m.annotations, m.extra.eraseAll serverPopulated⟩

open Members Member in
/-- The members of stored metadata. -/
def form : RecordForm Metadata :=
  .withRest
    (build Metadata.mk
      |>.and (required "name") (·.name)
      |>.and (optional "namespace") (·.ns?)
      |>.and (optional "uid") (·.uid?)
      |>.and (optional "resourceVersion") (·.resourceVersion?)
      |>.and (optional "creationTimestamp") (·.creationTimestamp?)
      |>.and (texts "labels") (·.labels)
      |>.and (texts "annotations") (·.annotations))
    (·.extra)

instance : JsonForm Metadata := form.jsonForm

end Metadata

namespace DesiredMetadata

/-- The name, empty if there is none. -/
def name (m : DesiredMetadata) : String := m.name?.getD ""

/-- The metadata without the members that only a store assigns. -/
def stripServerPopulated (m : DesiredMetadata) : DesiredMetadata :=
  { m with extra := m.extra.eraseAll Metadata.serverPopulated }

open Members Member in
/-- The members of desired metadata. -/
def form : RecordForm DesiredMetadata :=
  .withRest
    (build DesiredMetadata.mk
      |>.and (optional "name") (·.name?)
      |>.and (optional "namespace") (·.ns?)
      |>.and (optional "uid") (·.uid?)
      |>.and (texts "labels") (·.labels)
      |>.and (texts "annotations") (·.annotations))
    (·.extra)

instance : JsonForm DesiredMetadata := form.jsonForm

end DesiredMetadata

/-- A reference from one object to another. -/
structure ObjectReference where
  apiVersion? : Option String
  kind? : Option String
  name? : Option String
  ns? : Option String
  uid? : Option String
  resourceVersion? : Option String
  deriving DecidableEq, Inhabited

namespace ObjectReference

open Members Member in
/-- The members of a reference. -/
def form : RecordForm ObjectReference :=
  .closed
    (build ObjectReference.mk
      |>.and (optional "apiVersion") (·.apiVersion?)
      |>.and (optional "kind") (·.kind?)
      |>.and (optional "name") (·.name?)
      |>.and (optional "namespace") (·.ns?)
      |>.and (optional "uid") (·.uid?)
      |>.and (optional "resourceVersion") (·.resourceVersion?))

instance : JsonForm ObjectReference := form.jsonForm

end ObjectReference

end ClusterSnapshot
