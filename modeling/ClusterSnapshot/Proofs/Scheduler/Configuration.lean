import ClusterSnapshot.Proofs.Object.Metadata
import ClusterSnapshot.Scheduler.Configuration

/-!
# Configurations that survive being written

Configurations of the scheduler are lawful, and so are their profiles and extenders. A configuration
is reread by its free values, those of its profiles and extenders included.

## Main results

* `Scheduler.Configuration.form_lawful`: a configuration that was read is sound.
* An instance of `Rereads` for configurations: **what is read of the text of a configuration**.
-/

namespace ClusterSnapshot

open JsonForm (Sound Lawful Rereads)
open Members Member

variable {P : Number → Prop} {room : Nat}

namespace Scheduler

/-! ### Profiles -/

namespace Profile

/-- The fields of a profile survive being written. -/
structure Fields (P : Number → Prop) (room : Nat) (p : Profile) : Prop where
  plugins : Sound P room p.plugins?
  extra : form.RestFits P room p.extra

/-- A profile with sound fields fits. -/
theorem Fields.fits {p : Profile} (h : p.Fields P room) : form.Fits P room p :=
  ⟨⟨_, (Shows.build.and (keeps_text? p.schedulerName?)).and (keeps_optional h.plugins), rfl⟩,
    h.extra⟩

/-- The fields of a profile that was read are sound. -/
theorem fields_of_read [NumberRange P] {find : String → Option Document} {f : KeyMap Json → Profile}
    {rest : KeyMap Json} (hf : form.members.read? room find = some f)
    (hnumbers : ∀ name, ∀ d ∈ find name, d.AllNumbers P) (hrest : form.RestFits P room rest) :
    (f rest).Fields P room := by
  simp only [form, RecordForm.withRest, read?_and, read?_build] at hf
  obtain ⟨_, plugins?, ⟨_, name?, rfl, -, rfl⟩, hplugins, rfl⟩ := hf
  exact ⟨sound_of_read_optional hplugins (hnumbers _), hrest⟩

/-- The form of profiles is lawful. -/
theorem form_lawful : form.Lawful 0 :=
  ⟨by decide, fun _ _ _ _ hf hnumbers hrest _ => (fields_of_read hf hnumbers hrest).fits⟩

instance : Lawful Profile := form_lawful.lawful

/-- A profile is sound if its fields are. -/
theorem sound_iff [NumberRange P] {p : Profile} : Sound P (room + 1) p ↔ p.Fields P room := by
  constructor
  · intro h
    obtain ⟨find, f, rest, hf, hnumbers, hrest, -, rfl⟩ := RecordForm.parts_of_sound h
    exact fields_of_read hf hnumbers hrest
  · exact fun h => h.fits.sound form_lawful.nodup

instance : Rereads Profile where
  reread p := ⟨p.schedulerName?, Rereads.reread p.plugins?, p.extra.map Json.reread⟩
  toJson_reread p := by
    refine RecordForm.toJson_of_rereadsTo form ?_ rfl
    refine .and (.and .build ?_) ?_
    · exact rereadsTo_text? p.schedulerName?
    · exact rereadsTo_optional p.plugins?
  sound_reread := by
    intro P _ room p h
    obtain ⟨r, rfl⟩ := RecordForm.exists_succ_of_sound h
    obtain ⟨hplugins, hextra⟩ := sound_iff.mp h
    exact sound_iff.mpr ⟨Rereads.sound_reread hplugins, hextra.reread⟩

/-- A profile with nothing but a name. -/
theorem sound_named [NumberRange P] (name : String) :
    Sound P (room + 1) (⟨some name, none, ∅⟩ : Profile) :=
  sound_iff.mpr ⟨JsonForm.sound_none, fun _ he => absurd he List.not_mem_nil⟩

end Profile

/-! ### Extenders -/

namespace ExtenderConfig

/-- The entry of an extender fits if its other members do. -/
theorem fits_of_restFits [NumberRange P] {e : ExtenderConfig} (h : form.RestFits P room e.extra) :
    form.Fits P room e :=
  ⟨⟨_, (((((Shows.build.and (keeps_required (JsonForm.sound_text e.urlPrefix))).and
    (keeps_text? e.filterVerb?)).and (keeps_text? e.prioritizeVerb?)).and
    (keeps_text? e.preemptVerb?)).and (keeps_text? e.bindVerb?)).and
    (keeps_defaulted (JsonForm.sound_int64 e.weight)), rfl⟩, h⟩

/-- The other members of an entry that was read fit. -/
theorem restFits_of_read {find : String → Option Document} {f : KeyMap Json → ExtenderConfig}
    {rest : KeyMap Json} (hf : form.members.read? room find = some f)
    (hrest : form.RestFits P room rest) : form.RestFits P room (f rest).extra := by
  simp only [form, RecordForm.withRest, read?_and, read?_build] at hf
  obtain ⟨_, weight, ⟨_, bind?, ⟨_, preempt?, ⟨_, prioritize?, ⟨_, filter?, ⟨_, url, rfl, -, rfl⟩,
    -, rfl⟩, -, rfl⟩, -, rfl⟩, -, rfl⟩, -, rfl⟩ := hf
  exact hrest

/-- The form of entries of extenders is lawful. -/
theorem form_lawful : form.Lawful 0 :=
  ⟨by decide, fun _ _ _ _ hf _ hrest _ => fits_of_restFits (restFits_of_read hf hrest)⟩

instance : Lawful ExtenderConfig := form_lawful.lawful

/-- The entry of an extender is sound if its other members are. -/
theorem sound_iff [NumberRange P] {e : ExtenderConfig} :
    Sound P (room + 1) e ↔ form.RestFits P room e.extra := by
  constructor
  · intro h
    obtain ⟨find, f, rest, hf, -, hrest, -, rfl⟩ := RecordForm.parts_of_sound h
    exact restFits_of_read hf hrest
  · exact fun h => (fits_of_restFits h).sound form_lawful.nodup

instance : Rereads ExtenderConfig where
  reread e := { e with extra := e.extra.map Json.reread }
  toJson_reread e := by
    refine RecordForm.toJson_of_rereadsTo form ?_ rfl
    exact (((((RereadsTo.build.and (rereadsTo_required rfl)).and (rereadsTo_text? _)).and
      (rereadsTo_text? _)).and (rereadsTo_text? _)).and (rereadsTo_text? _)).and
      (rereadsTo_defaulted rfl)
  sound_reread := by
    intro P _ room e h
    obtain ⟨r, rfl⟩ := RecordForm.exists_succ_of_sound h
    exact sound_iff.mpr (sound_iff.mp h).reread

end ExtenderConfig

/-! ### Configurations -/

namespace Configuration

/-- The fields of a configuration survive being written. -/
structure Fields (P : Number → Prop) (room : Nat) (c : Configuration) : Prop where
  parallelism : Sound P room c.parallelism?
  profiles : c.profiles = [] ∨ Sound P room c.profiles
  extenders : c.extenders = [] ∨ Sound P room c.extenders
  extra : form.RestFits P room c.extra

/-- A configuration with sound fields fits. -/
theorem Fields.fits {c : Configuration} (h : c.Fields P room) : form.Fits P room c :=
  ⟨⟨_, ((((Shows.build.and (keeps_text? c.apiVersion?)).and (keeps_text? c.kind?)).and
    (keeps_optional h.parallelism)).and (keeps_list h.profiles)).and (keeps_list h.extenders), rfl⟩,
    h.extra⟩

/-- The fields of a configuration that was read are sound. -/
theorem fields_of_read [NumberRange P] {find : String → Option Document}
    {f : KeyMap Json → Configuration} {rest : KeyMap Json}
    (hf : form.members.read? room find = some f)
    (hnumbers : ∀ name, ∀ d ∈ find name, d.AllNumbers P) (hrest : form.RestFits P room rest) :
    (f rest).Fields P room := by
  simp only [form, RecordForm.withRest, read?_and, read?_build] at hf
  obtain ⟨_, extenders, ⟨_, profiles, ⟨_, parallelism?, ⟨_, kind?, ⟨_, apiVersion?, rfl, -, rfl⟩, -,
    rfl⟩, hparallelism, rfl⟩, hprofiles, rfl⟩, hextenders, rfl⟩ := hf
  exact ⟨sound_of_read_optional hparallelism (hnumbers _),
    nil_or_sound_of_read hprofiles (hnumbers _), nil_or_sound_of_read hextenders (hnumbers _),
    hrest⟩

/-- A configuration that was read is sound. -/
theorem form_lawful : form.Lawful 0 :=
  ⟨by decide, fun _ _ _ _ hf hnumbers hrest _ => (fields_of_read hf hnumbers hrest).fits⟩

instance : Lawful Configuration := form_lawful.lawful

/-- A configuration is sound if its fields are. -/
theorem sound_iff [NumberRange P] {c : Configuration} :
    Sound P (room + 1) c ↔ c.Fields P room := by
  constructor
  · intro h
    obtain ⟨find, f, rest, hf, hnumbers, hrest, -, rfl⟩ := RecordForm.parts_of_sound h
    exact fields_of_read hf hnumbers hrest
  · exact fun h => h.fits.sound form_lawful.nodup

instance : Rereads Configuration where
  reread c := { c with
    profiles := Rereads.reread c.profiles
    extenders := Rereads.reread c.extenders
    extra := c.extra.map Json.reread }
  toJson_reread c := by
    refine RecordForm.toJson_of_rereadsTo form ?_ rfl
    refine .and (.and (.and (.and (.and .build ?_) ?_) ?_) ?_) ?_
    · exact rereadsTo_text? c.apiVersion?
    · exact rereadsTo_text? c.kind?
    · exact rereadsTo_plain_optional JsonForm.plain_int32
    · exact rereadsTo_list c.profiles
    · exact rereadsTo_list c.extenders
  sound_reread := by
    intro P _ room c h
    obtain ⟨r, rfl⟩ := RecordForm.exists_succ_of_sound h
    obtain ⟨hparallelism, hprofiles, hextenders, hextra⟩ := sound_iff.mp h
    exact sound_iff.mpr ⟨hparallelism, nil_or_sound_reread hprofiles,
      nil_or_sound_reread hextenders, hextra.reread⟩

/-- The configuration that a scheduler starts with is sound. -/
theorem sound_default [NumberRange P] : Sound P (room + 3) Configuration.default := by
  refine sound_iff.mpr ⟨JsonForm.sound_none, .inr (JsonForm.sound_list fun p hp => ?_), .inl rfl,
    fun _ he => absurd he List.not_mem_nil⟩
  obtain rfl := List.mem_singleton.mp hp
  exact Profile.sound_named "default-scheduler"

end Configuration

end Scheduler

end ClusterSnapshot
