import ClusterSnapshot.Extender.Message
import ClusterSnapshot.Proofs.Object.Basic

/-!
# Messages that survive being written

What was read of a message to or from an extender survives being written. Some messages write lists
that they did not have to read, and so are lawful only where there is room for those.

## Main results

* `Args.form_lawful` … `BindingResult.form_lawful`: **every message is lawful**, from some room on.
-/

namespace ClusterSnapshot.Extender

open JsonForm (Sound Lawful LawfulFrom)
open Members Member

variable {P : Number → Prop} {room : Nat}

/-- A sound object takes two levels, its own and that of its metadata. -/
theorem two_le_of_sound [NumberRange P] {k : Kind} {o : Stored k} (h : Sound P room o) :
    2 ≤ room := by
  obtain ⟨r, rfl⟩ := Object.exists_room Object.pos_of_sound_metadata h
  exact Nat.le_add_left 2 r

/-- A closed record has no further members. -/
theorem restFits_closed {ρ : Type} {members : Members ρ ρ} (r : ρ) :
    (RecordForm.closed members).RestFits P room ((RecordForm.closed members).rest r) :=
  fun _ he => absurd he List.not_mem_nil

/-! ### Filtering and ranking -/

/-- The form of lists of nodes is lawful. -/
theorem NodeList.form_lawful : NodeList.form.Lawful 1 := by
  refine ⟨by decide, fun hroom _ _ _ hf hnumbers hrest _ => ?_⟩
  simp only [form, RecordForm.withRest, read?_and, read?_build] at hf
  obtain ⟨_, items, rfl, hitems, rfl⟩ := hf
  have hsound := sound_of_read_defaulted (JsonForm.sound_nil hroom) hitems (hnumbers _)
  exact ⟨⟨_, Shows.build.and (keeps_defaulted hsound), rfl⟩, hrest⟩

/-- The form of the arguments of filters and priorities is lawful. -/
theorem Args.form_lawful : Args.form.Lawful 0 := by
  refine ⟨by decide, fun _ _ _ _ hf hnumbers _ _ => ?_⟩
  simp only [form, RecordForm.closed, read?_through, read?_and, read?_build] at hf
  obtain ⟨_, ⟨_, nodeNames?, ⟨_, nodes?, ⟨_, pod, rfl, hpod, rfl⟩, hnodes, rfl⟩, hnames, rfl⟩,
    rfl⟩ := hf
  have hpod := sound_of_read_required hpod (hnumbers _)
  -- The pod takes as much room as an empty list of nodes.
  have hnodes := sound_of_read_optional_from NodeList.form_lawful.lawfulFrom (two_le_of_sound hpod)
    hnodes (hnumbers _)
  have hnames := sound_of_read_optional hnames (hnumbers _)
  exact ⟨⟨_, ((((Shows.build.and (keeps_required hpod)).and (keeps_optional hnodes)).and
    (keeps_optional hnames)).through _), rfl⟩, restFits_closed _⟩

/-- The form of answers to filters is lawful. -/
theorem FilterResult.form_lawful : FilterResult.form.Lawful 2 := by
  refine ⟨by decide, fun hroom _ _ _ hf hnumbers _ _ => ?_⟩
  simp only [form, RecordForm.closed, read?_through, read?_and, read?_build] at hf
  obtain ⟨_, ⟨_, error, ⟨_, unresolvable, ⟨_, failed, ⟨_, nodeNames?, ⟨_, nodes?, rfl, hnodes, rfl⟩,
    hnames, rfl⟩, hfailed, rfl⟩, hunresolvable, rfl⟩, herror, rfl⟩, rfl⟩ := hf
  have hnodes := sound_of_read_optional_from NodeList.form_lawful.lawfulFrom hroom hnodes
    (hnumbers _)
  have hnames := sound_of_read_optional hnames (hnumbers _)
  have hfailed := keeps_of_read_texts hfailed (hnumbers _)
  have hunresolvable := keeps_of_read_texts hunresolvable (hnumbers _)
  have herror := keeps_of_read_unlessEmpty (fun s => String.isEmpty_iff) herror (hnumbers _)
  exact ⟨⟨_, ((((((Shows.build.and (keeps_optional hnodes)).and (keeps_optional hnames)).and
    hfailed).and hunresolvable).and herror).through _), rfl⟩, restFits_closed _⟩

/-- The form of priorities is lawful. -/
theorem HostPriority.form_lawful : HostPriority.form.Lawful 0 := by
  refine ⟨by decide, fun _ _ _ _ hf _ _ _ => ?_⟩
  simp only [form, RecordForm.closed, read?_through, read?_and, read?_build] at hf
  obtain ⟨_, ⟨_, score, ⟨_, host, rfl, -, rfl⟩, -, rfl⟩, rfl⟩ := hf
  exact ⟨⟨_, (((Shows.build.and (keeps_required (JsonForm.sound_text host))).and
    (keeps_required (JsonForm.sound_int64 score))).through _), rfl⟩, restFits_closed _⟩

instance : Lawful HostPriority := HostPriority.form_lawful.lawful

/-! ### Preempting -/

/-- The form of victims is lawful. -/
theorem Victims.form_lawful : Victims.form.Lawful 1 := by
  refine ⟨by decide, fun hroom _ _ _ hf hnumbers _ _ => ?_⟩
  simp only [form, RecordForm.closed, read?_through, read?_and, read?_build] at hf
  obtain ⟨_, ⟨_, violations, ⟨_, pods, rfl, hpods, rfl⟩, -, rfl⟩, rfl⟩ := hf
  have hpods := sound_of_read_defaulted (JsonForm.sound_nil hroom) hpods (hnumbers _)
  exact ⟨⟨_, (((Shows.build.and (keeps_defaulted hpods)).and
    (keeps_defaulted (JsonForm.sound_int64 violations))).through _), rfl⟩, restFits_closed _⟩

/-- The form of references to victims is lawful. -/
theorem MetaPod.form_lawful : MetaPod.form.Lawful 0 := by
  refine ⟨by decide, fun _ _ _ _ hf _ _ _ => ?_⟩
  simp only [form, RecordForm.closed, read?_through, read?_and, read?_build] at hf
  obtain ⟨_, ⟨_, uid, rfl, -, rfl⟩, rfl⟩ := hf
  exact ⟨⟨_, ((Shows.build.and (keeps_required (JsonForm.sound_text uid))).through _), rfl⟩,
    restFits_closed _⟩

instance : Lawful MetaPod := MetaPod.form_lawful.lawful

/-- The form of victims by reference is lawful. -/
theorem MetaVictims.form_lawful : MetaVictims.form.Lawful 1 := by
  refine ⟨by decide, fun hroom _ _ _ hf hnumbers _ _ => ?_⟩
  simp only [form, RecordForm.closed, read?_through, read?_and, read?_build] at hf
  obtain ⟨_, ⟨_, violations, ⟨_, pods, rfl, hpods, rfl⟩, -, rfl⟩, rfl⟩ := hf
  have hpods := sound_of_read_defaulted (JsonForm.sound_nil hroom) hpods (hnumbers _)
  exact ⟨⟨_, (((Shows.build.and (keeps_defaulted hpods)).and
    (keeps_defaulted (JsonForm.sound_int64 violations))).through _), rfl⟩, restFits_closed _⟩

/-- A map that is absent when it is empty. -/
theorem keeps_of_read_nonEmptyMap [NumberRange P] {α : Type} [JsonForm α] {least : Nat}
    (hα : LawfulFrom α least) (hroom : least < room) {name : String} {m : KeyMap α}
    {d? : Option Document} (h : (nonEmptyMap name).read? room d? = some m)
    (hd : ∀ d ∈ d?, d.AllNumbers P) : (nonEmptyMap name).Keeps P room m :=
  keeps_of_read_unlessEmpty_from hα.map hroom isEmpty_keyMap_iff h hd

/-- The form of the arguments of preemptions is lawful. -/
theorem PreemptionArgs.form_lawful : PreemptionArgs.form.Lawful 3 := by
  refine ⟨by decide, fun hroom _ _ _ hf hnumbers _ _ => ?_⟩
  simp only [form, RecordForm.closed, read?_through, read?_and, read?_build] at hf
  obtain ⟨_, ⟨_, metaVictims, ⟨_, victims, ⟨_, pod, rfl, hpod, rfl⟩, hvictims, rfl⟩, hmeta, rfl⟩,
    rfl⟩ := hf
  have hpod := sound_of_read_required hpod (hnumbers _)
  have hvictims := keeps_of_read_nonEmptyMap Victims.form_lawful.lawfulFrom hroom hvictims
    (hnumbers _)
  have hmeta := keeps_of_read_nonEmptyMap MetaVictims.form_lawful.lawfulFrom hroom hmeta
    (hnumbers _)
  exact ⟨⟨_, ((((Shows.build.and (keeps_required hpod)).and hvictims).and hmeta).through _), rfl⟩,
    restFits_closed _⟩

/-- The form of answers to preemptions is lawful. -/
theorem PreemptionResult.form_lawful : PreemptionResult.form.Lawful 3 := by
  refine ⟨by decide, fun hroom _ _ _ hf hnumbers _ _ => ?_⟩
  simp only [form, RecordForm.closed, read?_through, read?_and, read?_build] at hf
  obtain ⟨_, ⟨_, metaVictims, rfl, hmeta, rfl⟩, rfl⟩ := hf
  have hmeta := keeps_of_read_nonEmptyMap MetaVictims.form_lawful.lawfulFrom hroom hmeta
    (hnumbers _)
  exact ⟨⟨_, ((Shows.build.and hmeta).through _), rfl⟩, restFits_closed _⟩

/-! ### Binding -/

/-- The form of the arguments of bindings is lawful. -/
theorem BindingArgs.form_lawful : BindingArgs.form.Lawful 0 := by
  refine ⟨by decide, fun _ _ _ _ hf _ _ _ => ?_⟩
  simp only [form, RecordForm.closed, read?_through, read?_and, read?_build] at hf
  obtain ⟨_, ⟨_, node, ⟨_, uid, ⟨_, ns, ⟨_, name, rfl, -, rfl⟩, -, rfl⟩, -, rfl⟩, -, rfl⟩,
    rfl⟩ := hf
  exact ⟨⟨_, (((((Shows.build.and (keeps_required (JsonForm.sound_text name))).and
    (keeps_required (JsonForm.sound_text ns))).and (keeps_defaulted (JsonForm.sound_text uid))).and
    (keeps_required (JsonForm.sound_text node))).through _), rfl⟩, restFits_closed _⟩

/-- The form of answers to bindings is lawful. -/
theorem BindingResult.form_lawful : BindingResult.form.Lawful 0 := by
  refine ⟨by decide, fun _ _ _ _ hf hnumbers _ _ => ?_⟩
  simp only [form, RecordForm.closed, read?_through, read?_and, read?_build] at hf
  obtain ⟨_, ⟨_, error, rfl, herror, rfl⟩, rfl⟩ := hf
  have herror := keeps_of_read_unlessEmpty (fun s => String.isEmpty_iff) herror (hnumbers _)
  exact ⟨⟨_, ((Shows.build.and herror).through _), rfl⟩, restFits_closed _⟩

end ClusterSnapshot.Extender
