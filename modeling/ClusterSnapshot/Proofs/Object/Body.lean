import ClusterSnapshot.Object.Body
import ClusterSnapshot.Proofs.Object.Metadata

/-!
# Bodies that survive being written

The bodies of all kinds are lawful. Each is reread by the free values among its fields.

## Main results

* `Body.form_lawful`: **the form of every body is lawful**, given room for one bracket.
* `Body.fits_reread`, `Body.rereadsTo`: how a body is reread.
* `VolumeBody.fits_withClaim`: a volume may refer to any claim.
-/

namespace ClusterSnapshot

open JsonForm (Sound Lawful Rereads)
open Members Member

variable {P : Number → Prop} {room : Nat}

/-! ### Opaque bodies -/

namespace Payload

/-- The fields of an opaque body survive being written. -/
structure Fields (P : Number → Prop) (room : Nat) (b : Payload) : Prop where
  spec : Sound P room b.spec?
  status : Sound P room b.status?

/-- A payload with sound fields fits. -/
theorem Fields.fits {b : Payload} (h : b.Fields P room) : form.Fits P room b :=
  ⟨⟨_, ((Shows.build.and (keeps_optional h.spec)).and (keeps_optional h.status)).through _, rfl⟩,
    fun _ he => absurd he List.not_mem_nil⟩

/-- The fields of a payload that was read are sound. -/
theorem fields_of_read [NumberRange P] {find : String → Option Document}
    {f : KeyMap Json → Payload} {rest : KeyMap Json} (hf : form.members.read? room find = some f)
    (hnumbers : ∀ name, ∀ d ∈ find name, d.AllNumbers P) : (f rest).Fields P room := by
  simp only [form, RecordForm.closed, read?_through, read?_and, read?_build] at hf
  obtain ⟨_, ⟨_, status?, ⟨_, spec?, rfl, hspec, rfl⟩, hstatus, rfl⟩, rfl⟩ := hf
  exact ⟨sound_of_read_optional hspec (hnumbers _), sound_of_read_optional hstatus (hnumbers _)⟩

/-- The form of payloads is lawful. -/
theorem form_lawful : form.Lawful 0 :=
  ⟨by decide, fun _ _ _ _ hf hnumbers _ _ => (fields_of_read hf hnumbers).fits⟩

/-- A payload that fits has sound fields. -/
theorem fields_of_fits [NumberRange P] {b : Payload} (h : form.Fits P room b) :
    b.Fields P room := by
  obtain ⟨find, f, rest, hf, hnumbers, -, -, rfl⟩ :=
    RecordForm.parts_of_sound (h.sound form_lawful.nodup)
  exact fields_of_read hf hnumbers

/-- The body with its free values reread. -/
def reread (b : Payload) : Payload := ⟨Rereads.reread b.spec?, Rereads.reread b.status?⟩

/-- What a reread payload writes is what the payload writes, reread. -/
theorem rereadsTo (b : Payload) : form.members.RereadsTo b b.reread :=
  ((RereadsTo.build.and (rereadsTo_optional b.spec?)).and (rereadsTo_optional b.status?)).through

/-- A payload that fits still fits when it is reread. -/
theorem fits_reread [NumberRange P] {b : Payload} (h : form.Fits P room b) :
    form.Fits P room b.reread := by
  obtain ⟨hspec, hstatus⟩ := fields_of_fits h
  exact Fields.fits ⟨Rereads.sound_reread hspec, Rereads.sound_reread hstatus⟩

end Payload

/-! ### Volumes -/

namespace VolumeSpec

/-- The fields of a volume's specification survive being written. -/
structure Fields (P : Number → Prop) (room : Nat) (s : VolumeSpec) : Prop where
  claimRef : s.claimRef? = none ∨ 0 < room
  extra : form.RestFits P room s.extra

/-- A reference to a claim is sound, if there is room for its bracket. -/
theorem sound_claimRef {r? : Option ObjectReference} (h : r? = none ∨ 0 < room) :
    Sound P room r? := by
  cases r? with
  | none => exact JsonForm.sound_none
  | some r =>
      obtain ⟨n, rfl⟩ : ∃ n, room = n + 1 := ⟨room - 1, by simp at h; omega⟩
      exact JsonForm.sound_some (fun h => by cases h) r.sound

/-- A sound reference to a claim needs room for its bracket. -/
theorem pos_of_sound_claimRef {r? : Option ObjectReference} (h : Sound P room r?) :
    r? = none ∨ 0 < room := by
  cases r? with
  | none => exact .inl rfl
  | some r => exact .inr (RecordForm.pos_of_sound (JsonForm.sound_some_iff.mp h).2)

/-- The specification of a volume with sound fields fits. -/
theorem Fields.fits {s : VolumeSpec} (h : s.Fields P room) : form.Fits P room s :=
  ⟨⟨_, (Shows.build.and (keeps_optional (sound_claimRef h.claimRef))).and
      (keeps_text? s.storageClassName?), rfl⟩, h.extra⟩

/-- The fields of a specification that was read are sound. -/
theorem fields_of_read [NumberRange P] {find : String → Option Document}
    {f : KeyMap Json → VolumeSpec} {rest : KeyMap Json}
    (hf : form.members.read? room find = some f)
    (hnumbers : ∀ name, ∀ d ∈ find name, d.AllNumbers P) (hrest : form.RestFits P room rest) :
    (f rest).Fields P room := by
  simp only [form, RecordForm.withRest, read?_and, read?_build] at hf
  obtain ⟨_, storageClassName?, ⟨_, claimRef?, rfl, hclaim, rfl⟩, -, rfl⟩ := hf
  exact ⟨pos_of_sound_claimRef (sound_of_read_optional hclaim (hnumbers _)), hrest⟩

/-- The form of specifications of volumes is lawful. -/
theorem form_lawful : form.Lawful 0 :=
  ⟨by decide, fun _ _ _ _ hf hnumbers hrest _ => (fields_of_read hf hnumbers hrest).fits⟩

instance : Lawful VolumeSpec := form_lawful.lawful

/-- The specification of a volume is sound if its fields are. -/
theorem sound_iff [NumberRange P] {s : VolumeSpec} :
    Sound P (room + 1) s ↔ s.Fields P room := by
  constructor
  · intro h
    obtain ⟨find, f, rest, hf, hnumbers, hrest, -, rfl⟩ := RecordForm.parts_of_sound h
    exact fields_of_read hf hnumbers hrest
  · exact fun h => h.fits.sound form_lawful.nodup

instance : Rereads VolumeSpec where
  reread s := { s with extra := s.extra.map Json.reread }
  toJson_reread s := by
    refine RecordForm.toJson_of_rereadsTo form ?_ rfl
    exact (RereadsTo.build.and (rereadsTo_plain_optional ObjectReference.plain)).and
      (rereadsTo_text? _)
  sound_reread := by
    intro P _ room s h
    obtain ⟨r, rfl⟩ := RecordForm.exists_succ_of_sound h
    obtain ⟨hclaim, hextra⟩ := sound_iff.mp h
    exact sound_iff.mpr ⟨hclaim, hextra.reread⟩

/-- A specification without anything in it. -/
theorem sound_blank [NumberRange P] : Sound P (room + 1) (⟨none, none, ∅⟩ : VolumeSpec) :=
  sound_iff.mpr ⟨.inl rfl, fun _ he => absurd he List.not_mem_nil⟩

end VolumeSpec

namespace VolumeStatus

/-- The status of a volume fits if its other members do. -/
theorem fits_of_restFits {s : VolumeStatus} (h : form.RestFits P room s.extra) :
    form.Fits P room s :=
  ⟨⟨_, Shows.build.and (keeps_text? s.phase?), rfl⟩, h⟩

/-- The other members of a status that was read fit. -/
theorem restFits_of_read {find : String → Option Document}
    {f : KeyMap Json → VolumeStatus} {rest : KeyMap Json}
    (hf : form.members.read? room find = some f) (hrest : form.RestFits P room rest) :
    form.RestFits P room (f rest).extra := by
  simp only [form, RecordForm.withRest, read?_and, read?_build] at hf
  obtain ⟨_, phase?, rfl, -, rfl⟩ := hf
  exact hrest

/-- The form of the status of volumes is lawful. -/
theorem form_lawful : form.Lawful 0 :=
  ⟨by decide, fun _ _ _ _ hf _ hrest _ => fits_of_restFits (restFits_of_read hf hrest)⟩

instance : Lawful VolumeStatus := form_lawful.lawful

/-- The status of a volume is sound if its other members are. -/
theorem sound_iff [NumberRange P] {s : VolumeStatus} :
    Sound P (room + 1) s ↔ form.RestFits P room s.extra := by
  constructor
  · intro h
    obtain ⟨find, f, rest, hf, -, hrest, -, rfl⟩ := RecordForm.parts_of_sound h
    exact restFits_of_read hf hrest
  · exact fun h => (fits_of_restFits h).sound form_lawful.nodup

instance : Rereads VolumeStatus where
  reread s := { s with extra := s.extra.map Json.reread }
  toJson_reread s := by
    refine RecordForm.toJson_of_rereadsTo form ?_ rfl
    exact RereadsTo.build.and (rereadsTo_text? _)
  sound_reread := by
    intro P _ room s h
    obtain ⟨r, rfl⟩ := RecordForm.exists_succ_of_sound h
    exact sound_iff.mpr (sound_iff.mp h).reread

end VolumeStatus

namespace VolumeBody

/-- The fields of a volume's body survive being written. -/
structure Fields (P : Number → Prop) (room : Nat) (b : VolumeBody) : Prop where
  spec : Sound P room b.spec
  status : Sound P room b.status?

/-- The body of a volume with sound fields fits. -/
theorem Fields.fits {b : VolumeBody} (h : b.Fields P room) : form.Fits P room b :=
  ⟨⟨_, ((Shows.build.and (keeps_defaulted h.spec)).and (keeps_optional h.status)).through _, rfl⟩,
    fun _ he => absurd he List.not_mem_nil⟩

/-- The fields of the body of a volume that was read are sound. -/
theorem fields_of_read [NumberRange P] {find : String → Option Document}
    {f : KeyMap Json → VolumeBody} {rest : KeyMap Json} (hroom : 0 < room)
    (hf : form.members.read? room find = some f)
    (hnumbers : ∀ name, ∀ d ∈ find name, d.AllNumbers P) : (f rest).Fields P room := by
  obtain ⟨r, rfl⟩ : ∃ r, room = r + 1 := ⟨room - 1, by omega⟩
  simp only [form, RecordForm.closed, read?_through, read?_and, read?_build] at hf
  obtain ⟨_, ⟨_, status?, ⟨_, spec, rfl, hspec, rfl⟩, hstatus, rfl⟩, rfl⟩ := hf
  exact ⟨sound_of_read_defaulted VolumeSpec.sound_blank hspec (hnumbers _),
    sound_of_read_optional hstatus (hnumbers _)⟩

/-- The form of bodies of volumes is lawful, with room for a bracket. -/
theorem form_lawful : form.Lawful 1 :=
  ⟨by decide, fun hroom _ _ _ hf hnumbers _ _ => (fields_of_read hroom hf hnumbers).fits⟩

/-- The body of a volume that fits has sound fields. -/
theorem fields_of_fits [NumberRange P] {b : VolumeBody} (hroom : 0 < room)
    (h : form.Fits P room b) : b.Fields P room := by
  obtain ⟨find, f, rest, hf, hnumbers, -, -, rfl⟩ :=
    RecordForm.parts_of_sound (h.sound form_lawful.nodup)
  exact fields_of_read hroom hf hnumbers

/-- The body with its free values reread. -/
def reread (b : VolumeBody) : VolumeBody := ⟨Rereads.reread b.spec, Rereads.reread b.status?⟩

/-- What the reread body of a volume writes is what the body writes, reread. -/
theorem rereadsTo (b : VolumeBody) : form.members.RereadsTo b b.reread :=
  ((RereadsTo.build.and (rereadsTo_defaulted (Rereads.toJson_reread b.spec))).and
    (rereadsTo_optional b.status?)).through

/-- The body of a volume that fits still fits when it is reread. -/
theorem fits_reread [NumberRange P] {b : VolumeBody} (hroom : 0 < room) (h : form.Fits P room b) :
    form.Fits P room b.reread := by
  obtain ⟨hspec, hstatus⟩ := fields_of_fits hroom h
  exact Fields.fits ⟨Rereads.sound_reread hspec, Rereads.sound_reread hstatus⟩

/-- A volume may refer to any claim if it refers to one at all. -/
theorem fits_withClaim [NumberRange P] {b : VolumeBody} (hroom : 0 < room)
    (h : form.Fits P room b) (f : ObjectReference → ObjectReference) :
    form.Fits P room
      { b with spec := { b.spec with claimRef? := b.spec.claimRef?.map f } } := by
  obtain ⟨hspec, hstatus⟩ := fields_of_fits hroom h
  obtain ⟨r, rfl⟩ : ∃ r, room = r + 1 := ⟨room - 1, by omega⟩
  obtain ⟨hclaim, hextra⟩ := VolumeSpec.sound_iff.mp hspec
  refine Fields.fits ⟨VolumeSpec.sound_iff.mpr ⟨?_, hextra⟩, hstatus⟩
  exact hclaim.imp_left fun hnone => by rw [hnone, Option.map_none]

end VolumeBody

/-! ### Classes -/

namespace StorageClassBody

/-- The fields of a storage class's body survive being written. -/
structure Fields (P : Number → Prop) (room : Nat) (b : StorageClassBody) : Prop where
  parameters : b.parameters = ∅ ∨ 0 < room
  extra : form.RestFits P room b.extra

/-- The body of a storage class with sound fields fits. -/
theorem Fields.fits {b : StorageClassBody} (h : b.Fields P room) : form.Fits P room b :=
  ⟨⟨_, ((((Shows.build.and (keeps_defaulted (JsonForm.sound_text b.provisioner))).and
      (keeps_texts_iff.mpr h.parameters)).and (keeps_text? b.reclaimPolicy?)).and
      (keeps_text? b.volumeBindingMode?)).and
      (keeps_optional (JsonForm.sound_bool? b.allowVolumeExpansion?)), rfl⟩, h.extra⟩

/-- The fields of the body of a storage class that was read are sound. -/
theorem fields_of_read [NumberRange P] {find : String → Option Document}
    {f : KeyMap Json → StorageClassBody} {rest : KeyMap Json}
    (hf : form.members.read? room find = some f)
    (hnumbers : ∀ name, ∀ d ∈ find name, d.AllNumbers P) (hrest : form.RestFits P room rest) :
    (f rest).Fields P room := by
  simp only [form, RecordForm.withRest, read?_and, read?_build] at hf
  obtain ⟨_, _, ⟨_, _, ⟨_, _, ⟨_, parameters, ⟨_, _, rfl, -, rfl⟩, hparameters, rfl⟩, -, rfl⟩, -,
    rfl⟩, -, rfl⟩ := hf
  exact ⟨keeps_texts_iff.mp (keeps_of_read_texts hparameters (hnumbers _)), hrest⟩

/-- The other members of a storage class are those that were read besides its fields. -/
theorem extra_of_read {find : String → Option Document} {f : KeyMap Json → StorageClassBody}
    (hf : form.members.read? room find = some f) (rest : KeyMap Json) : (f rest).extra = rest := by
  simp only [form, RecordForm.withRest, read?_and, read?_build] at hf
  obtain ⟨_, _, ⟨_, _, ⟨_, _, ⟨_, _, ⟨_, _, rfl, -, rfl⟩, -, rfl⟩, -, rfl⟩, -, rfl⟩, -, rfl⟩ := hf
  rfl

/-- The form of bodies of storage classes is lawful. -/
theorem form_lawful : form.Lawful 0 :=
  ⟨by decide, fun _ _ _ _ hf hnumbers hrest _ => (fields_of_read hf hnumbers hrest).fits⟩

/-- The body of a storage class that fits has sound fields. -/
theorem fields_of_fits [NumberRange P] {b : StorageClassBody} (h : form.Fits P room b) :
    b.Fields P room := by
  obtain ⟨find, f, rest, hf, hnumbers, hrest, -, rfl⟩ :=
    RecordForm.parts_of_sound (h.sound form_lawful.nodup)
  exact fields_of_read hf hnumbers hrest

/-- The body with its free values reread. -/
def reread (b : StorageClassBody) : StorageClassBody :=
  { b with extra := b.extra.map Json.reread }

/-- What the reread body of a storage class writes is what the body writes, reread. -/
theorem rereadsTo (b : StorageClassBody) : form.members.RereadsTo b b.reread :=
  ((((RereadsTo.build.and (rereadsTo_defaulted rfl)).and (rereadsTo_texts _)).and
    (rereadsTo_text? _)).and (rereadsTo_text? _)).and
    (rereadsTo_plain_optional JsonForm.plain_bool)

/-- The body of a storage class that fits still fits when it is reread. -/
theorem fits_reread [NumberRange P] {b : StorageClassBody} (h : form.Fits P room b) :
    form.Fits P room b.reread := by
  obtain ⟨hparameters, hextra⟩ := fields_of_fits h
  exact Fields.fits ⟨hparameters, hextra.reread⟩

end StorageClassBody

namespace PriorityClassBody

/-- Every body of a priority class fits. -/
theorem fits [NumberRange P] (b : PriorityClassBody) : form.Fits P room b :=
  ⟨⟨_, ((((Shows.build.and (keeps_defaulted (JsonForm.sound_int32 b.value))).and
      (keeps_optional (JsonForm.sound_bool? b.globalDefault?))).and
      (keeps_text? b.description?)).and (keeps_text? b.preemptionPolicy?)).through _, rfl⟩,
    fun _ he => absurd he List.not_mem_nil⟩

/-- The form of bodies of priority classes is lawful. -/
theorem form_lawful : form.Lawful 0 := ⟨by decide, fun _ _ _ _ _ _ _ _ => fits _⟩

/-- The body of a priority class has no numbers that could change. -/
theorem rereadsTo (b : PriorityClassBody) : form.members.RereadsTo b b :=
  ((((RereadsTo.build.and (rereadsTo_defaulted rfl)).and
    (rereadsTo_plain_optional JsonForm.plain_bool)).and (rereadsTo_text? _)).and
    (rereadsTo_text? _)).through

end PriorityClassBody

/-! ### Bodies of every kind -/

namespace Body

/-- **The form of every body is lawful.** -/
theorem form_lawful : ∀ k : Kind, (form k).Lawful 1
  | .volume => VolumeBody.form_lawful
  | .storageClass => StorageClassBody.form_lawful.mono (by decide)
  | .priorityClass => PriorityClassBody.form_lawful.mono (by decide)
  | .pod | .node | .claim | .ns => Payload.form_lawful.mono (by decide)

/-- What was read as the rest of a body is the rest of the body. -/
theorem rest_of_read {find : String → Option Document} {rest : KeyMap Json} :
    ∀ (k : Kind) {f : KeyMap Json → Body k}, (form k).members.read? room find = some f →
      ((form k).rest? = none → rest = ∅) → (form k).rest (f rest) = rest
  | .storageClass, _, hf, _ => StorageClassBody.extra_of_read hf rest
  | .volume, _, _, hclosed => (hclosed rfl).symm
  | .priorityClass, _, _, hclosed => (hclosed rfl).symm
  | .pod, _, _, hclosed | .node, _, _, hclosed | .claim, _, _, hclosed | .ns, _, _, hclosed =>
    (hclosed rfl).symm

/-- The body of a kind with its free values reread. -/
def reread : (k : Kind) → Body k → Body k
  | .volume => VolumeBody.reread
  | .storageClass => StorageClassBody.reread
  | .priorityClass => id
  | .pod | .node | .claim | .ns => Payload.reread

/-- What the members of a reread body write is what those of the body write, reread. -/
theorem rereadsTo : ∀ (k : Kind) (b : Body k), (form k).members.RereadsTo b (reread k b)
  | .volume, b => VolumeBody.rereadsTo b
  | .storageClass, b => StorageClassBody.rereadsTo b
  | .priorityClass, b => PriorityClassBody.rereadsTo b
  | .pod, b | .node, b | .claim, b | .ns, b => Payload.rereadsTo b

/-- The rest of a reread body is the rest of the body, reread. -/
theorem rest_reread : ∀ (k : Kind) (b : Body k),
    (form k).rest (reread k b) = ((form k).rest b).map Json.reread
  | .volume, _ => rfl
  | .storageClass, _ => rfl
  | .priorityClass, _ => rfl
  | .pod, _ | .node, _ | .claim, _ | .ns, _ => rfl

/-- The reread body survives being written, too. -/
theorem fits_reread [NumberRange P] (hroom : 0 < room) : ∀ (k : Kind) {b : Body k},
    (form k).Fits P room b → (form k).Fits P room (reread k b)
  | .volume, _, h => VolumeBody.fits_reread hroom h
  | .storageClass, _, h => StorageClassBody.fits_reread h
  | .priorityClass, _, h => h
  | .pod, _, h | .node, _, h | .claim, _, h | .ns, _, h => Payload.fits_reread h

/-- The blank body of every kind fits, with room for a bracket. -/
theorem fits_blank [NumberRange P] : ∀ k : Kind, (form k).Fits P (room + 1) (blank k)
  | .volume => VolumeBody.Fields.fits ⟨VolumeSpec.sound_blank, JsonForm.sound_none⟩
  | .storageClass => StorageClassBody.Fields.fits ⟨.inl rfl, fun _ he => absurd he List.not_mem_nil⟩
  | .priorityClass => PriorityClassBody.fits _
  | .pod | .node | .claim | .ns => Payload.Fields.fits ⟨JsonForm.sound_none, JsonForm.sound_none⟩

/-- The blank body of every kind has no rest. -/
theorem rest_blank : ∀ k : Kind, (form k).rest (blank k) = ∅
  | .volume | .storageClass | .priorityClass | .pod | .node | .claim | .ns => rfl

end Body

end ClusterSnapshot
