import ClusterSnapshot.Object.Basic
import ClusterSnapshot.Proofs.Object.Body

/-!
# Objects that survive being written

An object is sound if its metadata is, if its body is, and if the body has no further member named
like one of the header. So a store can assign metadata to a sound object without making it unsound.

## Main results

* `Object.sound_iff`: soundness by metadata and body.
* `Object.sound_of_metadata`: **other sound metadata leaves an object sound**.
* `Object.reread`: what the text of a stored object denotes, with the same metadata but for free
  values.
-/

namespace ClusterSnapshot

open JsonForm (Sound Lawful Rereads)
open Members Member

variable {P : Number → Prop} {room : Nat} {k : Kind} {M : Type} [JsonForm M]

namespace Object

/-- The members of the header. -/
def header (k : Kind) (M : Type) [JsonForm M] : Members (Object k M) (Body k → Object k M) :=
  build Object.mk
    |>.and (optional "apiVersion") (·.apiVersion?)
    |>.and (optional "kind") (·.kind?)
    |>.and (required "metadata") (·.metadata)

/-- An object is written as its header and its body. -/
theorem form_members : (form k M).members = (header k M).andPart (Body.form k).members (·.body) :=
  rfl

/-- The names of the header stand in front of those of the body. -/
theorem form_names :
    (form k M).members.names = ["apiVersion", "kind", "metadata"] ++ (Body.form k).members.names :=
  rfl

/-- The rest of an object is that of its body. -/
theorem form_rest (o : Object k M) : (form k M).rest o = (Body.form k).rest o.body := by
  unfold RecordForm.rest form
  simp only
  cases (Body.form k).rest? <;> rfl

/-- No field of the header is a field of the body. -/
theorem nodup_names : (form k M).members.names.Nodup := by
  rw [form_names]
  cases k <;> decide

/-- The parts of an object survive being written. -/
structure Fields (P : Number → Prop) (room : Nat) (o : Object k M) : Prop where
  metadata : Sound P room o.metadata
  body : (Body.form k).Fits P room o.body
  extra : ∀ e ∈ ((Body.form k).rest o.body).entries, e.1 ∉ ["apiVersion", "kind", "metadata"]

/-- An object with parts that survive being written fits. -/
theorem Fields.fits {o : Object k M} (h : o.Fields P room) : (form k M).Fits P room o := by
  obtain ⟨g, hshows, hg⟩ := h.body.members
  have hheader : (header k M).Shows P room o (Object.mk o.apiVersion? o.kind? o.metadata) :=
    ((Shows.build.and (keeps_text? o.apiVersion?)).and (keeps_text? o.kind?)).and
      (keeps_required h.metadata)
  constructor
  · refine ⟨_, hheader.andPart hshows, ?_⟩
    rw [form_rest]
    exact congrArg (Object.mk o.apiVersion? o.kind? o.metadata) hg
  · rw [form_rest]
    intro e he
    obtain ⟨hother, hsound⟩ := h.body.rest e he
    refine ⟨?_, hsound⟩
    rw [form_names, List.mem_append, not_or]
    exact ⟨h.extra e he, hother⟩

/-- What the parts of an object were read as survives being written. -/
theorem fields_of_read [Lawful M] [NumberRange P]
    (hpos : ∀ m : M, Sound P room m → 0 < room) {find : String → Option Document}
    {f : KeyMap Json → Object k M} {rest : KeyMap Json}
    (hf : (form k M).members.read? room find = some f)
    (hnumbers : ∀ name, ∀ d ∈ find name, d.AllNumbers P)
    (hrest : (form k M).RestFits P room rest) (hclosed : (form k M).rest? = none → rest = ∅) :
    (f rest).Fields P room := by
  rw [form_members, read?_andPart] at hf
  obtain ⟨_, g, hheader, hbody, rfl⟩ := hf
  simp only [header, read?_and, read?_build] at hheader
  obtain ⟨_, m, ⟨_, _, ⟨_, _, rfl, -, rfl⟩, -, rfl⟩, hmetadata, rfl⟩ := hheader
  have hm := sound_of_read_required hmetadata (hnumbers _)
  have hrest' : (Body.form k).RestFits P room rest := by
    intro e he
    obtain ⟨hother, hsound⟩ := hrest e he
    rw [form_names, List.mem_append, not_or] at hother
    exact ⟨hother.2, hsound⟩
  have hbodyClosed : (Body.form k).rest? = none → rest = ∅ := by
    intro hnone
    refine hclosed ?_
    simp [form, hnone]
  have hfits := (Body.form_lawful k).fits (hpos m hm) hbody hnumbers hrest' hbodyClosed
  refine ⟨hm, hfits, fun e he => ?_⟩
  rw [Body.rest_of_read k hbody hbodyClosed] at he
  have hother := (hrest e he).1
  rw [form_names, List.mem_append, not_or] at hother
  exact hother.1

/-- The form of objects is lawful if that of their metadata is. -/
theorem form_lawful [Lawful M]
    (hpos : ∀ {P : Number → Prop} {room : Nat} {m : M}, Sound P room m → 0 < room) :
    (form k M).Lawful 0 :=
  ⟨nodup_names, fun _ _ _ _ hf hnumbers hrest hclosed =>
    (fields_of_read (fun _ => hpos) hf hnumbers hrest hclosed).fits⟩

instance : Lawful (Stored k) := (form_lawful RecordForm.pos_of_sound).lawful

instance : Lawful (Desired k) := (form_lawful RecordForm.pos_of_sound).lawful

/-- An object is sound if its parts are. -/
theorem sound_iff [Lawful M] [NumberRange P] (hpos : ∀ m : M, Sound P room m → 0 < room)
    {o : Object k M} : Sound P (room + 1) o ↔ o.Fields P room := by
  constructor
  · intro h
    obtain ⟨find, f, rest, hf, hnumbers, hrest, hclosed, rfl⟩ := RecordForm.parts_of_sound h
    exact fields_of_read hpos hf hnumbers hrest hclosed
  · exact fun h => h.fits.sound nodup_names

/-- An object that is sound has room for its metadata. -/
theorem exists_room [Lawful M] [NumberRange P] (hpos : ∀ (r : Nat) (m : M), Sound P r m → 0 < r)
    {o : Object k M} (h : Sound P room o) : ∃ r, room = r + 2 := by
  obtain ⟨r, rfl⟩ := RecordForm.exists_succ_of_sound h
  have := hpos r _ ((sound_iff (hpos r)).mp h).metadata
  exact ⟨r - 1, by omega⟩

end Object

/-! ### Stored and desired objects -/

namespace Object

/-- Stored metadata needs some room. -/
theorem pos_of_sound_metadata (r : Nat) (m : Metadata) (h : Sound P r m) : 0 < r :=
  RecordForm.pos_of_sound h

/-- Desired metadata needs some room. -/
theorem pos_of_sound_desired (r : Nat) (m : DesiredMetadata) (h : Sound P r m) : 0 < r :=
  RecordForm.pos_of_sound h

/-- The object with its free values reread. -/
def reread (o : Stored k) : Stored k :=
  ⟨o.apiVersion?, o.kind?, Rereads.reread o.metadata, Body.reread k o.body⟩

instance : Rereads (Stored k) where
  reread := reread
  toJson_reread o := by
    refine RecordForm.toJson_of_rereadsTo (form k Metadata) ?_ ?_
    · have hheader : (header k Metadata).RereadsTo o o.reread := by
        rw [header]
        refine .and (.and (.and .build ?_) ?_) ?_
        · exact rereadsTo_text? o.apiVersion?
        · exact rereadsTo_text? o.kind?
        · exact rereadsTo_required (Rereads.toJson_reread o.metadata)
      exact hheader.andPart (Body.rereadsTo k o.body)
    · rw [form_rest, form_rest]
      exact Body.rest_reread k o.body
  sound_reread := by
    intro P _ room o h
    obtain ⟨r, rfl⟩ := exists_room pos_of_sound_metadata h
    obtain ⟨hmetadata, hbody, hextra⟩ := (sound_iff (pos_of_sound_metadata _)).mp h
    refine (sound_iff (pos_of_sound_metadata _)).mpr ⟨Rereads.sound_reread hmetadata,
      Body.fits_reread (Nat.succ_pos r) k hbody, ?_⟩
    change ∀ e ∈ ((Body.form k).rest (Body.reread k o.body)).entries, _
    rw [Body.rest_reread]
    exact List.forall_mem_map.mpr hextra

/-- **Other sound metadata leaves an object sound**, whatever its header says. -/
theorem sound_of_metadata [NumberRange P] {M N : Type} [JsonForm M] [Lawful M] [JsonForm N]
    [Lawful N] (hpos : ∀ (r : Nat) (m : M), Sound P r m → 0 < r)
    (hpos' : ∀ (r : Nat) (n : N), Sound P r n → 0 < r) {o : Object k M} (h : Sound P room o)
    (apiVersion? kind? : Option String) {n : N} (hn : ∀ r, Sound P r o.metadata → Sound P r n) :
    Sound P room (⟨apiVersion?, kind?, n, o.body⟩ : Object k N) := by
  obtain ⟨r, rfl⟩ := exists_room hpos h
  obtain ⟨hmetadata, hbody, hextra⟩ := (sound_iff (hpos _)).mp h
  exact (sound_iff (hpos' _)).mpr ⟨hn _ hmetadata, hbody, hextra⟩

end Object

/-- What a user could have written to obtain a sound object is sound. -/
theorem Stored.sound_toDesired [NumberRange P] {o : Stored k} (h : Sound P room o) :
    Sound P room (Stored.toDesired o) :=
  Object.sound_of_metadata Object.pos_of_sound_metadata Object.pos_of_sound_desired h _ _
    fun _ hm => Metadata.sound_toDesired hm

/-- An object to be with a name, perhaps a namespace, and labels. -/
def Desired.labelled (k : Kind) (name : String) (ns? : Option String) (labels : KeyMap String) :
    Desired k :=
  .blank k ⟨some name, ns?, none, labels, ∅, ∅⟩

/-- An object with labels is sound, if there is room for them. -/
theorem Desired.sound_labelled [NumberRange P] (k : Kind) (name : String) (ns? : Option String)
    {labels : KeyMap String} (h : labels = ∅ ∨ 0 < room) :
    Sound P (room + 2) (Desired.labelled k name ns? labels) := by
  refine (Object.sound_iff (Object.pos_of_sound_desired _)).mpr ⟨?_, Body.fits_blank k, ?_⟩
  · exact DesiredMetadata.sound_iff.mpr ⟨h, .inl rfl, fun _ he => absurd he List.not_mem_nil⟩
  · intro e he
    change e ∈ ((Body.form k).rest (Body.blank k)).entries at he
    rw [Body.rest_blank] at he
    exact absurd he List.not_mem_nil

/-- An object to be with nothing but a name and perhaps a namespace. -/
def Desired.plain (k : Kind) (name : String) (ns? : Option String) : Desired k :=
  .blank k ⟨some name, ns?, none, ∅, ∅, ∅⟩

/-- An object with nothing but a name is sound. -/
theorem Desired.sound_plain [NumberRange P] (k : Kind) (name : String) (ns? : Option String) :
    Sound P (room + 2) (Desired.plain k name ns?) :=
  sound_labelled k name ns? (.inl rfl)

end ClusterSnapshot
