import ClusterSnapshot.Proofs.Object.Basic
import ClusterSnapshot.Proofs.Scheduler.Configuration
import ClusterSnapshot.Snapshot

/-!
# Snapshots that survive being written

A snapshot is sound if the objects of every kind and the configuration are, with room for the two
brackets around each object. So is whatever a text of a snapshot or of a replay holds.

## Main results

* `Contents.sound_iff`: soundness by objects and configuration.
* `Contents.allSound_of_ofText?`: **every object of a text is sound**, and so is its configuration.
-/

namespace ClusterSnapshot

open JsonForm (Sound Lawful LawfulFrom)
open Members Member

variable {P : Number → Prop} {room : Nat}

namespace Contents

variable {M : Type} [JsonForm M]

/-- The parts of a snapshot survive being written. -/
structure Fields (P : Number → Prop) (room : Nat) (c : Contents M) : Prop where
  objects : ∀ k, Sound P room (c.objects.get k)
  config : Sound P room c.schedulerConfig?

/-- A snapshot with sound fields fits. -/
theorem Fields.fits {c : Contents M} (h : c.Fields P room) : (form M).Fits P room c := by
  refine ⟨⟨_, (.and (.and (.and (.and (.and (.and (.and (.and .build ?_) ?_) ?_) ?_) ?_) ?_) ?_)
    ?_ : Shows _ _ _ _ _).through _, rfl⟩, fun _ he => absurd he List.not_mem_nil⟩
  · exact keeps_defaulted (h.objects .pod)
  · exact keeps_defaulted (h.objects .node)
  · exact keeps_defaulted (h.objects .volume)
  · exact keeps_defaulted (h.objects .claim)
  · exact keeps_defaulted (h.objects .storageClass)
  · exact keeps_defaulted (h.objects .priorityClass)
  · exact keeps_defaulted h.config
  · exact keeps_defaulted (h.objects .ns)

/-- The fields of a snapshot have different names. -/
theorem nodup_names : (form M).members.names.Nodup := by
  change ["pods", "nodes", "pvs", "pvcs", "storageClasses", "priorityClasses", "schedulerConfig",
    "namespaces"].Nodup
  decide

variable [∀ k, Lawful (Object k M)]

/-- The fields of a snapshot that was read are sound. -/
theorem fields_of_read [NumberRange P] (hroom : 0 < room) {find : String → Option Document}
    {f : KeyMap Json → Contents M} {rest : KeyMap Json}
    (hf : (form M).members.read? room find = some f)
    (hnumbers : ∀ name, ∀ d ∈ find name, d.AllNumbers P) : (f rest).Fields P room := by
  simp only [form, RecordForm.closed, read?_through, read?_and, read?_build] at hf
  obtain ⟨_, ⟨_, namespaces, ⟨_, config?, ⟨_, priorityClasses, ⟨_, storageClasses, ⟨_, claims,
    ⟨_, volumes, ⟨_, nodes, ⟨_, pods, rfl, hpods, rfl⟩, hnodes, rfl⟩, hvolumes, rfl⟩, hclaims, rfl⟩,
    hstorage, rfl⟩, hpriority, rfl⟩, hconfig, rfl⟩, hnamespaces, rfl⟩, rfl⟩ := hf
  constructor
  · intro k
    cases k with
    | pod => exact sound_of_read_defaulted (JsonForm.sound_nil hroom) hpods (hnumbers _)
    | node => exact sound_of_read_defaulted (JsonForm.sound_nil hroom) hnodes (hnumbers _)
    | volume => exact sound_of_read_defaulted (JsonForm.sound_nil hroom) hvolumes (hnumbers _)
    | claim => exact sound_of_read_defaulted (JsonForm.sound_nil hroom) hclaims (hnumbers _)
    | storageClass => exact sound_of_read_defaulted (JsonForm.sound_nil hroom) hstorage (hnumbers _)
    | priorityClass =>
        exact sound_of_read_defaulted (JsonForm.sound_nil hroom) hpriority (hnumbers _)
    | ns => exact sound_of_read_defaulted (JsonForm.sound_nil hroom) hnamespaces (hnumbers _)
  · exact sound_of_read_defaulted JsonForm.sound_none hconfig (hnumbers _)

/-- The form of snapshots is lawful, with room for a bracket. -/
theorem form_lawful : (form M).Lawful 1 :=
  ⟨nodup_names, fun hroom _ _ _ hf hnumbers _ _ => (fields_of_read hroom hf hnumbers).fits⟩

/-- A snapshot is sound if its parts are. -/
theorem sound_iff [NumberRange P] {c : Contents M} :
    Sound P (room + 2) c ↔ c.Fields P (room + 1) := by
  constructor
  · intro h
    obtain ⟨find, f, rest, hf, hnumbers, -, -, rfl⟩ := RecordForm.parts_of_sound h
    exact fields_of_read (Nat.succ_pos room) hf hnumbers
  · exact fun h => h.fits.sound nodup_names

/-- All objects and the configuration survive being written. -/
structure AllSound (P : Number → Prop) (c : Contents M) : Prop where
  objects : ∀ k, ∀ o ∈ c.objects.get k, Sound P nestingLimit o
  config : ∀ config ∈ c.schedulerConfig?, Sound P nestingLimit config

omit [∀ k, Lawful (Object k M)] in
/-- Other sound objects of a kind may stand in their place. -/
theorem AllSound.setObjects {c : Contents M} (h : c.AllSound P) {k : Kind} {os : List (Object k M)}
    (hos : ∀ o ∈ os, Sound P nestingLimit o) :
    ({ c with objects := c.objects.set k os } : Contents M).AllSound P := by
  refine ⟨fun j o ho => ?_, h.config⟩
  by_cases hj : k = j
  · subst hj
    rw [ByKind.get_set_self] at ho
    exact hos o ho
  · rw [ByKind.get_set_of_ne _ _ hj] at ho
    exact h.objects j o ho

/-- What stands in a sound snapshot is sound, with less room. -/
theorem forall_sound [NumberRange P] {c : Contents M} (h : Sound P (room + 2) c) :
    (∀ k, ∀ o ∈ c.objects.get k, Sound P room o) ∧
      ∀ config ∈ c.schedulerConfig?, Sound P (room + 1) config := by
  obtain ⟨hobjects, hconfig⟩ := sound_iff.mp h
  refine ⟨fun k => ?_, fun config hc => ?_⟩
  · obtain ⟨r, hr, hall⟩ :=
      JsonForm.forall_sound_of_list (hobjects k).reads_self (hobjects k).numbers
    obtain rfl := Nat.succ.inj hr
    exact hall
  · rw [Option.mem_def.mp hc] at hconfig
    exact (JsonForm.sound_some_iff.mp hconfig).2

/-- A snapshot is sound if what stands in it is sound with less room. -/
theorem sound_of_forall [NumberRange P] {c : Contents M}
    (hobjects : ∀ k, ∀ o ∈ c.objects.get k, Sound P room o)
    (hconfig : ∀ config ∈ c.schedulerConfig?, Sound P (room + 1) config) :
    Sound P (room + 2) c := by
  refine sound_iff.mpr ⟨fun k => JsonForm.sound_list (hobjects k), ?_⟩
  cases hc : c.schedulerConfig? with
  | none => exact JsonForm.sound_none
  | some config => exact JsonForm.sound_some (by nofun) (hconfig config hc)

/-- What a text of a snapshot holds is sound. -/
theorem sound_of_ofText? {s : String} {c : Contents M} (h : JsonForm.ofText? s = some c) :
    Sound Number.InRange nestingLimit c :=
  form_lawful.lawfulFrom.sound_of_ofText? (by decide) h

/-- **Every object of a text is sound**, and so is its configuration. -/
theorem allSound_of_ofText? {s : String} {c : Contents M} (h : JsonForm.ofText? s = some c) :
    c.AllSound Number.InRange := by
  obtain ⟨hobjects, hconfig⟩ := forall_sound (sound_of_ofText? h)
  exact ⟨fun k o ho => (hobjects k o ho).mono (by decide),
    fun config hc => (hconfig config hc).mono (by decide)⟩

end Contents

end ClusterSnapshot
