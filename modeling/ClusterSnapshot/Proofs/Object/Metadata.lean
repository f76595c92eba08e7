import ClusterSnapshot.Metadata
import ClusterSnapshot.Proofs.Json.Rereading

/-!
# Metadata that survives being written

Both forms of metadata are lawful. Sound metadata comes down to its labels, its annotations and its
other members, so metadata that a store assigns to an object is sound when the metadata handed in
was.

## Main results

* `Metadata.sound_iff`, `DesiredMetadata.sound_iff`: soundness by the fields.
* `Metadata.sound_toDesired`: **what a user could have set of sound metadata is sound**.
* `ObjectReference.sound`: every reference is sound.
-/

namespace ClusterSnapshot

open JsonForm (Sound Lawful Rereads)

variable {P : Number → Prop} {room : Nat}

/-- An optional text is sound. -/
theorem JsonForm.sound_text? (s? : Option String) : Sound P room s? := by
  cases s? with
  | none => exact JsonForm.sound_none
  | some s => exact JsonForm.sound_some (fun h => by cases h) (JsonForm.sound_text s)

/-- An optional truth value is sound. -/
theorem JsonForm.sound_bool? (b? : Option Bool) : Sound P room b? := by
  cases b? with
  | none => exact JsonForm.sound_none
  | some b => exact JsonForm.sound_some (fun h => by cases h) (JsonForm.sound_bool b)

namespace Member

variable {name : String}

/-- An optional text is kept. -/
theorem keeps_text? (s? : Option String) : (optional name).Keeps P room s? :=
  keeps_optional (JsonForm.sound_text? s?)

/-- A map of texts needs a bracket of its own unless it is empty. -/
theorem keeps_texts_iff {m : KeyMap String} :
    (texts name).Keeps P room m ↔ (m = ∅ ∨ 0 < room) := by
  constructor
  · intro h
    by_cases hm : m = ∅
    · exact .inl hm
    · have hread := h.reads room (le_refl room)
      have hwrite : (texts name).write m = some (JsonForm.toJson m) := by
        simp [texts, unlessEmpty, isEmpty_keyMap_iff, hm]
      rw [hwrite] at hread
      obtain ⟨r, named, entries, rfl, -⟩ := JsonForm.ofDocument?_keyMap hread
      exact .inr (Nat.succ_pos r)
  · intro h
    refine keeps_unlessEmpty (fun y hy => (isEmpty_keyMap_iff y).mp hy) fun hne => ?_
    have hm : m ≠ ∅ := fun hm => by simp [(isEmpty_keyMap_iff m).mpr hm] at hne
    obtain ⟨r, rfl⟩ : ∃ r, room = r + 1 := ⟨room - 1, by have := h.resolve_left hm; omega⟩
    exact JsonForm.sound_map fun e _ => JsonForm.sound_text e.2

/-- Texts by key that were read are kept. -/
theorem keeps_of_read_texts [NumberRange P] {d? : Option Document} {m : KeyMap String}
    (h : (texts name).read? room d? = some m) (hd : ∀ d ∈ d?, d.AllNumbers P) :
    (texts name).Keeps P room m :=
  keeps_of_read_unlessEmpty isEmpty_keyMap_iff h hd

/-- Texts by key have no numbers. -/
theorem rereadsTo_texts (m : KeyMap String) : (texts name).RereadsTo m m :=
  rereadsTo_plain_unlessEmpty (JsonForm.plain_map JsonForm.plain_text)

/-- An optional text has no numbers. -/
theorem rereadsTo_text? (s? : Option String) : (optional name).RereadsTo s? s? :=
  rereadsTo_plain_optional JsonForm.plain_text

end Member

open Members Member

namespace Metadata

/-- The fields of metadata survive being written. -/
structure Fields (P : Number → Prop) (room : Nat) (m : Metadata) : Prop where
  labels : m.labels = ∅ ∨ 0 < room
  annotations : m.annotations = ∅ ∨ 0 < room
  extra : form.RestFits P room m.extra

/-- Stored metadata with sound fields fits. -/
theorem Fields.fits {m : Metadata} (h : m.Fields P room) : form.Fits P room m :=
  ⟨⟨_, ((((((Shows.build.and (keeps_required (JsonForm.sound_text m.name))).and
      (keeps_text? m.ns?)).and (keeps_text? m.uid?)).and (keeps_text? m.resourceVersion?)).and
      (keeps_text? m.creationTimestamp?)).and (keeps_texts_iff.mpr h.labels)).and
      (keeps_texts_iff.mpr h.annotations), rfl⟩, h.extra⟩

/-- The fields of stored metadata that was read are sound. -/
theorem fields_of_read [NumberRange P] {find : String → Option Document}
    {f : KeyMap Json → Metadata} {rest : KeyMap Json} (hf : form.members.read? room find = some f)
    (hnumbers : ∀ name, ∀ d ∈ find name, d.AllNumbers P) (hrest : form.RestFits P room rest) :
    (f rest).Fields P room := by
  simp only [form, RecordForm.withRest, read?_and, read?_build] at hf
  obtain ⟨_, annotations, ⟨_, labels, ⟨_, _, ⟨_, _, ⟨_, _, ⟨_, _, ⟨_, _, rfl, -, rfl⟩, -, rfl⟩, -,
    rfl⟩, -, rfl⟩, -, rfl⟩, hlabels, rfl⟩, hannotations, rfl⟩ := hf
  exact ⟨keeps_texts_iff.mp (keeps_of_read_texts hlabels (hnumbers _)),
    keeps_texts_iff.mp (keeps_of_read_texts hannotations (hnumbers _)), hrest⟩

/-- The form of stored metadata is lawful. -/
theorem form_lawful : form.Lawful 0 :=
  ⟨by decide, fun _ _ _ _ hf hnumbers hrest _ => (fields_of_read hf hnumbers hrest).fits⟩

instance : Lawful Metadata := form_lawful.lawful

/-- Metadata is sound if its fields are. -/
theorem sound_iff [NumberRange P] {m : Metadata} :
    Sound P (room + 1) m ↔ m.Fields P room := by
  constructor
  · intro h
    obtain ⟨find, f, rest, hf, hnumbers, hrest, -, rfl⟩ := RecordForm.parts_of_sound h
    exact fields_of_read hf hnumbers hrest
  · exact fun h => h.fits.sound form_lawful.nodup

instance : Rereads Metadata where
  reread m := { m with extra := m.extra.map Json.reread }
  toJson_reread m := by
    refine RecordForm.toJson_of_rereadsTo form ?_ rfl
    refine .and (.and (.and (.and (.and (.and (.and .build ?_) ?_) ?_) ?_) ?_) ?_) ?_
    · exact rereadsTo_required rfl
    · exact rereadsTo_text? m.ns?
    · exact rereadsTo_text? m.uid?
    · exact rereadsTo_text? m.resourceVersion?
    · exact rereadsTo_text? m.creationTimestamp?
    · exact rereadsTo_texts m.labels
    · exact rereadsTo_texts m.annotations
  sound_reread := by
    intro P _ room m h
    obtain ⟨r, rfl⟩ := RecordForm.exists_succ_of_sound h
    obtain ⟨hlabels, hannotations, hextra⟩ := sound_iff.mp h
    exact sound_iff.mpr ⟨hlabels, hannotations, hextra.reread⟩

end Metadata

namespace DesiredMetadata

/-- The fields of desired metadata survive being written. -/
structure Fields (P : Number → Prop) (room : Nat) (m : DesiredMetadata) : Prop where
  labels : m.labels = ∅ ∨ 0 < room
  annotations : m.annotations = ∅ ∨ 0 < room
  extra : form.RestFits P room m.extra

/-- Desired metadata with sound fields fits. -/
theorem Fields.fits {m : DesiredMetadata} (h : m.Fields P room) : form.Fits P room m :=
  ⟨⟨_, ((((Shows.build.and (keeps_text? m.name?)).and (keeps_text? m.ns?)).and
      (keeps_text? m.uid?)).and (keeps_texts_iff.mpr h.labels)).and
      (keeps_texts_iff.mpr h.annotations), rfl⟩, h.extra⟩

/-- The fields of desired metadata that was read are sound. -/
theorem fields_of_read [NumberRange P] {find : String → Option Document}
    {f : KeyMap Json → DesiredMetadata} {rest : KeyMap Json}
    (hf : form.members.read? room find = some f)
    (hnumbers : ∀ name, ∀ d ∈ find name, d.AllNumbers P) (hrest : form.RestFits P room rest) :
    (f rest).Fields P room := by
  simp only [form, RecordForm.withRest, read?_and, read?_build] at hf
  obtain ⟨_, annotations, ⟨_, labels, ⟨_, _, ⟨_, _, ⟨_, _, rfl, -, rfl⟩, -, rfl⟩, -, rfl⟩, hlabels,
    rfl⟩, hannotations, rfl⟩ := hf
  exact ⟨keeps_texts_iff.mp (keeps_of_read_texts hlabels (hnumbers _)),
    keeps_texts_iff.mp (keeps_of_read_texts hannotations (hnumbers _)), hrest⟩

/-- The form of desired metadata is lawful. -/
theorem form_lawful : form.Lawful 0 :=
  ⟨by decide, fun _ _ _ _ hf hnumbers hrest _ => (fields_of_read hf hnumbers hrest).fits⟩

instance : Lawful DesiredMetadata := form_lawful.lawful

/-- Desired metadata is sound if its fields are. -/
theorem sound_iff [NumberRange P] {m : DesiredMetadata} :
    Sound P (room + 1) m ↔ m.Fields P room := by
  constructor
  · intro h
    obtain ⟨find, f, rest, hf, hnumbers, hrest, -, rfl⟩ := RecordForm.parts_of_sound h
    exact fields_of_read hf hnumbers hrest
  · exact fun h => h.fits.sound form_lawful.nodup

end DesiredMetadata

/-- Members that are in no way fields of desired metadata, and that no store assigns, are in no way
fields of stored metadata. -/
theorem Metadata.not_mem_names {name : String} (h : name ∉ DesiredMetadata.form.members.names)
    (hserver : name ∉ serverPopulated) : name ∉ form.members.names := by
  simp only [form, DesiredMetadata.form, RecordForm.withRest, Members.and, Members.build,
    Member.required, Member.optional, Member.texts, Member.unlessEmpty, serverPopulated,
    List.nil_append, List.cons_append, List.mem_cons, List.not_mem_nil, or_false,
    not_or] at h hserver ⊢
  tauto

/-- **What a user could have set of sound metadata is sound.** -/
theorem Metadata.sound_toDesired [NumberRange P] {m : Metadata} (h : Sound P room m) :
    Sound P room m.toDesired := by
  obtain ⟨r, rfl⟩ := RecordForm.exists_succ_of_sound h
  obtain ⟨hlabels, hannotations, hextra⟩ := sound_iff.mp h
  refine DesiredMetadata.sound_iff.mpr ⟨hlabels, hannotations, fun e he => ?_⟩
  obtain ⟨hother, hsound⟩ := hextra e (KeyMap.mem_eraseAll.mp he).1
  exact ⟨fun hmem => hother ((by decide : DesiredMetadata.form.members.names ⊆
    form.members.names) hmem), hsound⟩

/-- Metadata that a store assigns is sound if the metadata handed in is. -/
theorem DesiredMetadata.sound_assigned [NumberRange P] {m : DesiredMetadata} (h : Sound P room m)
    (name : String) (ns? uid? resourceVersion? creationTimestamp? : Option String) :
    Sound P room (⟨name, ns?, uid?, resourceVersion?, creationTimestamp?, m.labels, m.annotations,
      m.extra.eraseAll Metadata.serverPopulated⟩ : Metadata) := by
  obtain ⟨r, rfl⟩ := RecordForm.exists_succ_of_sound h
  obtain ⟨hlabels, hannotations, hextra⟩ := sound_iff.mp h
  refine Metadata.sound_iff.mpr ⟨hlabels, hannotations, fun e he => ?_⟩
  obtain ⟨hmem, hserver⟩ := KeyMap.mem_eraseAll.mp he
  obtain ⟨hother, hsound⟩ := hextra e hmem
  exact ⟨Metadata.not_mem_names hother hserver, hsound⟩

/-- Metadata handed in may leave out what a store assigns, and any identity. -/
theorem DesiredMetadata.sound_stripped [NumberRange P] {m : DesiredMetadata} (h : Sound P room m)
    (uid? : Option String) : Sound P room { m.stripServerPopulated with uid? } := by
  obtain ⟨r, rfl⟩ := RecordForm.exists_succ_of_sound h
  obtain ⟨hlabels, hannotations, hextra⟩ := sound_iff.mp h
  refine sound_iff.mpr ⟨hlabels, hannotations, fun e he => ?_⟩
  exact hextra e (KeyMap.mem_eraseAll.mp he).1

/-! ### References -/

/-- Every reference fits. -/
theorem ObjectReference.form_fits (r : ObjectReference) : form.Fits P room r :=
  ⟨⟨_, ((((((Shows.build.and (keeps_text? r.apiVersion?)).and (keeps_text? r.kind?)).and
      (keeps_text? r.name?)).and (keeps_text? r.ns?)).and (keeps_text? r.uid?)).and
      (keeps_text? r.resourceVersion?)).through _, rfl⟩, fun _ he => absurd he List.not_mem_nil⟩

/-- The form of references is lawful. -/
theorem ObjectReference.form_lawful : form.Lawful 0 :=
  ⟨by decide, fun _ _ _ _ _ _ _ _ => form_fits _⟩

instance : Lawful ObjectReference := ObjectReference.form_lawful.lawful

/-- Every reference is sound. -/
theorem ObjectReference.sound (r : ObjectReference) : Sound P (room + 1) r :=
  (form_fits r).sound form_lawful.nodup

/-- A reference has no numbers. -/
theorem ObjectReference.plain (r : ObjectReference) : JsonForm.Plain r := by
  refine (RecordForm.toJson_of_rereadsTo form ?_ rfl).symm
  refine .through (.and (.and (.and (.and (.and (.and .build ?_) ?_) ?_) ?_) ?_) ?_)
  · exact rereadsTo_text? r.apiVersion?
  · exact rereadsTo_text? r.kind?
  · exact rereadsTo_text? r.name?
  · exact rereadsTo_text? r.ns?
  · exact rereadsTo_text? r.uid?
  · exact rereadsTo_text? r.resourceVersion?

end ClusterSnapshot
