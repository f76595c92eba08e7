import ClusterSnapshot.Proofs.Operation.BringingIn
import ClusterSnapshot.Proofs.Operation.Capture

/-!
# What is carried from one cluster to another

A captured object has an identity and a version that belong to its cluster, and a bound volume has
the identity of its claim. The rest is portable: when the object is brought into another cluster, it
is the same there.

## Main results

* `Stored.portable`: an object without what belongs to one cluster only.
* `Cluster.WellFormed.portable_putObject`: **an object that is carried over is the same**, but for
  that.
-/

namespace ClusterSnapshot

open JsonForm (Sound Rereads)
open Number (InRange IsWhole64)

variable {P : Number → Prop} {k : Kind}

/-- The body of a volume without the identity of the claim that it is bound to. -/
def VolumeBody.portable (b : VolumeBody) : VolumeBody :=
  if b.isBound then
    { b with spec :=
        { b.spec with claimRef? := b.spec.claimRef?.map fun r => { r with uid? := none } } }
  else b

/-- Another identity for the claim does not matter. -/
theorem VolumeBody.portable_withClaim {b : VolumeBody} (h : b.isBound = true)
    (uid? : Option String) :
    VolumeBody.portable { b with spec := { b.spec with
      claimRef? := b.spec.claimRef?.map fun r => { r with uid? } } } = b.portable := by
  have hbound : VolumeBody.isBound { b with spec := { b.spec with
      claimRef? := b.spec.claimRef?.map fun r => { r with uid? } } } = true := h
  rw [portable, portable, if_pos hbound, if_pos h]
  simp only [Option.map_map, Function.comp_def]

/-- The body of a kind without what belongs to one cluster only. -/
def Body.portable : (k : Kind) → Body k → Body k
  | .volume, b => VolumeBody.portable b
  | .pod, b | .node, b | .claim, b | .storageClass, b | .priorityClass, b | .ns, b => b

/-- The object without what belongs to one cluster only: its identity, its version and, of a bound
volume, the identity of its claim. -/
def Stored.portable (o : Stored k) : Stored k :=
  ⟨o.apiVersion?, o.kind?, { o.metadata with uid? := none, resourceVersion? := none },
    Body.portable k o.body⟩

/-- The snapshot with its objects as far as they are portable. -/
def Snapshot.portable (s : Snapshot) : Snapshot :=
  { s with objects := .ofFn fun k => (s.objects.get k).map Stored.portable }

/-- A captured object as it is handed in to another cluster. -/
def Stored.carried (o : Stored k) : Desired k :=
  (Stored.toDesired o).mapMetadata fun m => { m.stripServerPopulated with uid? := none }

/-- What the user could have written of an object is admitted as what is carried over. -/
theorem Stored.admitted?_toDesired {o : Stored k} (h : Stored.isExcluded o = false) :
    Desired.admitted? (Stored.toDesired o) = some o.carried := by
  have hexcluded : Desired.isExcluded (Stored.toDesired o) = false := h
  rw [Desired.admitted?, hexcluded]
  rfl

/-- What is carried over of a sound object is sound. -/
theorem Stored.sound_carried [NumberRange P] {o : Stored k} {room : Nat} (h : Sound P room o)
    (hexcluded : Stored.isExcluded o = false) : Sound P room o.carried :=
  Desired.sound_of_admitted? (Stored.admitted?_toDesired hexcluded) (Stored.sound_toDesired h)

/-- A captured object is handed in for the address that it had. -/
theorem Stored.Proper.address_carried {c : Cluster} {o : Stored k} (h : o.Proper c) :
    Desired.address o.carried = o.address := by
  change (⟨k, k.home o.metadata.ns?, o.metadata.name⟩ : Address) = _
  rw [h.home]
  rfl

/-- What is carried over of a proper object is not refused. -/
theorem Stored.Proper.refusal?_carried {c : Cluster} {o : Stored k} (h : o.Proper c) :
    Desired.refusal? o.carried = none := by
  change (if o.metadata.name = "" then _ else _) = none
  rw [if_neg h.name]
  rfl

/-- What is portable of the metadata that a store assigns. -/
theorem Desired.portable_metadata_stored (d : Desired k) (uid? : Option String) (revision : Nat) :
    { (Desired.stored d uid? revision none).metadata with uid? := none, resourceVersion? := none } =
      (⟨d.metadata.name, k.home d.metadata.ns?, none, none, none, d.metadata.labels,
        d.metadata.annotations, d.metadata.extra.eraseAll Metadata.serverPopulated⟩ : Metadata) :=
  rfl

namespace Cluster

/-- To prepare an object leaves what is portable of its body. -/
theorem portable_prepared (c : Cluster) (d : Desired k) :
    Body.portable k (c.prepared k d).body = Body.portable k d.body := by
  rcases c.prepared_cases d with h | ⟨rfl, hbound, uid?, h⟩
  · rw [h]
  · rw [h]
    exact VolumeBody.portable_withClaim hbound uid?

/-- In a well formed cluster no object has a time of creation. -/
theorem WellFormed.putObject_stored {c : Cluster} (hc : c.WellFormed P) (d : Desired k) :
    ∃ uid?, c.putObject d = Desired.stored d uid? (c.store.revision + 1) none := by
  rw [putObject]
  split
  · rename_i o ho
    rw [(hc.of_find? ho).2.2.created]
    exact ⟨_, rfl⟩
  · exact ⟨_, rfl⟩

/-- **An object that is carried over is the same**, but for what belongs to one cluster only. -/
theorem WellFormed.portable_putObject {c c' : Cluster} (hc' : c'.WellFormed P) {o : Stored k}
    (ho : o.Proper c) :
    (c'.putObject (c'.prepared k o.carried)).portable = o.portable := by
  obtain ⟨uid?, hput⟩ := hc'.putObject_stored (c'.prepared k o.carried)
  have hbody := c'.portable_prepared o.carried
  have hmetadata := c'.prepared_metadata o.carried
  have hextra : ((o.metadata.extra.eraseAll Metadata.serverPopulated).eraseAll
      Metadata.serverPopulated).eraseAll Metadata.serverPopulated = o.metadata.extra := by
    rw [KeyMap.eraseAll_eq_self ho.extra, KeyMap.eraseAll_eq_self ho.extra,
      KeyMap.eraseAll_eq_self ho.extra]
  rw [hput, Stored.portable, Stored.portable]
  refine (Object.mk.injEq ..).mpr ⟨ho.apiVersion.symm, ho.kind.symm, ?_, hbody⟩
  rw [Desired.portable_metadata_stored, hmetadata]
  exact (Metadata.mk.injEq ..).mpr ⟨rfl, ho.home, rfl, rfl, ho.created.symm, rfl, rfl, hextra⟩

end Cluster

end ClusterSnapshot
