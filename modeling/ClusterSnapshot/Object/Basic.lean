import ClusterSnapshot.Object.Body
import ClusterSnapshot.Reserved

/-!
# Objects

An object of a kind is a header, its metadata and its body. With `Metadata` it is a stored object,
with `DesiredMetadata` one that is to be. `Stored.toDesired` gives what a user could have written to
obtain a stored object.
-/

namespace ClusterSnapshot

/-- An object of a kind with metadata of type `M`. -/
structure Object (k : Kind) (M : Type) where
  apiVersion? : Option String
  kind? : Option String
  metadata : M
  body : Body k

/-- An object as a store holds it. -/
abbrev Stored (k : Kind) := Object k Metadata

/-- An object as it is handed in. -/
abbrev Desired (k : Kind) := Object k DesiredMetadata

namespace Object

variable {k : Kind} {M N : Type}

/-- The object with its metadata sent through a function. -/
def mapMetadata (f : M → N) (o : Object k M) : Object k N :=
  ⟨o.apiVersion?, o.kind?, f o.metadata, o.body⟩

/-- The object under the version and the name of its kind. -/
def stampType (o : Object k M) : Object k M :=
  { o with apiVersion? := some k.apiVersion, kind? := some k.name }

/-- A new object with the given metadata. -/
def blank (k : Kind) (metadata : M) : Object k M := ⟨none, none, metadata, .blank k⟩

open Members Member in
/-- The members of an object: its header, then those of its body. -/
def form (k : Kind) (M : Type) [JsonForm M] : RecordForm (Object k M) where
  members :=
    (build Object.mk
      |>.and (optional "apiVersion") (·.apiVersion?)
      |>.and (optional "kind") (·.kind?)
      |>.and (required "metadata") (·.metadata)).andPart (Body.form k).members (·.body)
  rest? := (Body.form k).rest?.map fun rest o => rest o.body

instance [JsonForm M] : JsonForm (Object k M) := (form k M).jsonForm

end Object

namespace Stored

variable {k : Kind}

/-- What a user could have written to obtain the object. -/
def toDesired (o : Stored k) : Desired k := o.mapMetadata Metadata.toDesired

/-- Whether the object is reserved. -/
def isExcluded (o : Stored k) : Bool := Reserved.isExcluded k o.metadata.name o.metadata.ns?

/-- A new object with a name and perhaps a namespace. -/
def new (k : Kind) (name : String) (ns? : Option String) : Stored k := .blank k (.named name ns?)

/-- A new storage class. -/
def newStorageClass (name provisioner : String) : Stored .storageClass :=
  { new .storageClass name none with
    body := (⟨provisioner, ∅, none, none, none, ∅⟩ : StorageClassBody) }

/-- A new priority class. -/
def newPriorityClass (name : String) (value : Int32) : Stored .priorityClass :=
  { new .priorityClass name none with
    body := (⟨value, none, none, none⟩ : PriorityClassBody) }

end Stored

/-- Whether a volume was last seen bound to a claim. -/
def Object.isBound {M : Type} (o : Object .volume M) : Bool := VolumeBody.isBound o.body

namespace Desired

variable {k : Kind}

/-- The name, empty if there is none. -/
def name (d : Desired k) : String := d.metadata.name

/-- Whether the object is reserved, going by the metadata as handed in. -/
def isExcluded (d : Desired k) : Bool := Reserved.isExcluded k d.metadata.name d.metadata.ns?

/-- The object without the metadata that only a store assigns. -/
def stripServerPopulated (d : Desired k) : Desired k :=
  d.mapMetadata DesiredMetadata.stripServerPopulated

end Desired

end ClusterSnapshot
