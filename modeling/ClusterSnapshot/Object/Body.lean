import ClusterSnapshot.Kind
import ClusterSnapshot.Metadata

/-!
# Bodies of objects

The body of an object is what it says besides its metadata. Of most kinds the library knows
nothing but that a body has a specification and a status. Of volumes it knows the claim that a
volume is bound to, and of storage classes and priority classes the fields of their own.
-/

namespace ClusterSnapshot

/-- A specification and a status, both carried without being looked at. -/
structure Payload where
  spec? : Option Json
  status? : Option Json
  deriving Inhabited

/-- What a volume is to be. -/
structure VolumeSpec where
  /-- The claim that the volume is for. -/
  claimRef? : Option ObjectReference
  storageClassName? : Option String
  extra : KeyMap Json
  deriving Inhabited

/-- What was last seen of a volume. -/
structure VolumeStatus where
  phase? : Option String
  extra : KeyMap Json
  deriving Inhabited

/-- The body of a volume. -/
structure VolumeBody where
  spec : VolumeSpec
  status? : Option VolumeStatus
  deriving Inhabited

/-- The body of a storage class. -/
structure StorageClassBody where
  provisioner : String
  parameters : KeyMap String
  reclaimPolicy? : Option String
  volumeBindingMode? : Option String
  allowVolumeExpansion? : Option Bool
  extra : KeyMap Json
  deriving Inhabited

/-- The body of a priority class. -/
structure PriorityClassBody where
  value : Int32
  globalDefault? : Option Bool
  description? : Option String
  preemptionPolicy? : Option String
  deriving DecidableEq, Inhabited

section Forms

open Members Member

/-- The members of an opaque body. -/
def Payload.form : RecordForm Payload :=
  .closed
    (build Payload.mk
      |>.and (optional "spec") (·.spec?)
      |>.and (optional "status") (·.status?))

/-- The members of a volume's specification. -/
def VolumeSpec.form : RecordForm VolumeSpec :=
  .withRest
    (build VolumeSpec.mk
      |>.and (optional "claimRef") (·.claimRef?)
      |>.and (optional "storageClassName") (·.storageClassName?))
    (·.extra)

instance : JsonForm VolumeSpec := VolumeSpec.form.jsonForm

/-- The members of a volume's status. -/
def VolumeStatus.form : RecordForm VolumeStatus :=
  .withRest (build VolumeStatus.mk |>.and (optional "phase") (·.phase?)) (·.extra)

instance : JsonForm VolumeStatus := VolumeStatus.form.jsonForm

/-- The members of a volume's body. -/
def VolumeBody.form : RecordForm VolumeBody :=
  .closed
    (build VolumeBody.mk
      |>.and (defaulted "spec" ⟨none, none, ∅⟩) (·.spec)
      |>.and (optional "status") (·.status?))

/-- The members of a storage class's body. -/
def StorageClassBody.form : RecordForm StorageClassBody :=
  .withRest
    (build StorageClassBody.mk
      |>.and (defaulted "provisioner" "") (·.provisioner)
      |>.and (texts "parameters") (·.parameters)
      |>.and (optional "reclaimPolicy") (·.reclaimPolicy?)
      |>.and (optional "volumeBindingMode") (·.volumeBindingMode?)
      |>.and (optional "allowVolumeExpansion") (·.allowVolumeExpansion?))
    (·.extra)

/-- The members of a priority class's body. -/
def PriorityClassBody.form : RecordForm PriorityClassBody :=
  .closed
    (build PriorityClassBody.mk
      |>.and (defaulted "value" 0) (·.value)
      |>.and (optional "globalDefault") (·.globalDefault?)
      |>.and (optional "description") (·.description?)
      |>.and (optional "preemptionPolicy") (·.preemptionPolicy?))

end Forms

/-- The body of an object of a kind. -/
def Body : Kind → Type
  | .volume => VolumeBody
  | .storageClass => StorageClassBody
  | .priorityClass => PriorityClassBody
  | .pod | .node | .claim | .ns => Payload

namespace Body

/-- The members of a body. -/
def form : (k : Kind) → RecordForm (Body k)
  | .volume => VolumeBody.form
  | .storageClass => StorageClassBody.form
  | .priorityClass => PriorityClassBody.form
  | .pod | .node | .claim | .ns => Payload.form

/-- The body of a new object of a kind. -/
def blank : (k : Kind) → Body k
  | .volume => ({ spec := ⟨none, none, ∅⟩, status? := none } : VolumeBody)
  | .storageClass => (⟨"", ∅, none, none, none, ∅⟩ : StorageClassBody)
  | .priorityClass => (⟨0, none, none, none⟩ : PriorityClassBody)
  | .pod | .node | .claim | .ns => (⟨none, none⟩ : Payload)

instance (k : Kind) : Inhabited (Body k) := ⟨blank k⟩

end Body

/-- The phase of a volume that is bound to a claim. -/
def boundPhase : String := "Bound"

/-- Whether a volume was last seen bound to a claim. -/
def VolumeBody.isBound (b : VolumeBody) : Bool :=
  (b.status?.bind (·.phase?)) == some boundPhase

end ClusterSnapshot
