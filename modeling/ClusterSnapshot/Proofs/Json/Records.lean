import ClusterSnapshot.Proofs.Json.Sound

/-!
# Records that survive being written

Whether a record is sound is a matter of its fields: each member has to read what it wrote, and the
rest must not have a member with a name of its own. `Members.Shows` says the first for a number of
members, and is built up just as they are; `RecordForm.Fits` adds the second.

## Main results

* `Members.Shows.and`, `Members.Shows.andPart`: members that read the fields they show.
* `RecordForm.Fits.sound`: **a record whose fields are sound is sound**.
* `RecordForm.Lawful.lawful`: a record form is lawful if what its parts read fits.
-/

namespace ClusterSnapshot

/-! ### Members -/

open JsonForm (Sound Lawful LawfulFrom)

namespace Member

/-- What is written for a value is read as that value. -/
structure Keeps {α : Type} (m : Member α) (P : Number → Prop) (room : Nat) (x : α) : Prop where
  reads : ∀ room' ≥ room, m.read? room' ((m.write x).map Json.document) = some x
  numbers : ∀ v ∈ m.write x, v.document.AllNumbers P

variable {α : Type} [JsonForm α] {P : Number → Prop} [NumberRange P] {room : Nat} {name : String}
  {d? : Option Document} {x : α}

omit [NumberRange P] in
/-- A member that is required keeps a sound value. -/
theorem keeps_required (h : Sound P room x) : (required name).Keeps P room x :=
  ⟨h.reads, by simpa [required] using h.numbers⟩

/-- What a member that is required reads is sound. -/
theorem sound_of_read_required [Lawful α] (h : (required name).read? room d? = some x)
    (hd : ∀ d ∈ d?, d.AllNumbers P) : Sound P room x := by
  obtain ⟨d, rfl, hread⟩ := Option.bind_eq_some_iff.mp h
  exact Lawful.sound hread (hd d rfl)

omit [NumberRange P] in
/-- A member with a default keeps a sound value. -/
theorem keeps_defaulted {default : α} (h : Sound P room x) :
    (defaulted name default).Keeps P room x :=
  ⟨h.reads, by simpa [defaulted] using h.numbers⟩

/-- What a member with a default reads is sound, if the default is. -/
theorem sound_of_read_defaulted [Lawful α] {default : α} (hdefault : Sound P room default)
    (h : (defaulted name default).read? room d? = some x) (hd : ∀ d ∈ d?, d.AllNumbers P) :
    Sound P room x := by
  cases d? with
  | none =>
      obtain rfl := Option.some.inj h
      exact hdefault
  | some d => exact Lawful.sound h (hd d rfl)

omit [NumberRange P] in
/-- A member that is absent when it is empty keeps the empty value. -/
theorem keeps_empty {empty : α} {isEmpty : α → Bool} (h : isEmpty empty = true) :
    (unlessEmpty name empty isEmpty).Keeps P room empty :=
  ⟨fun _ _ => by simp [unlessEmpty, h], by simp [unlessEmpty, h]⟩

omit [NumberRange P] in
/-- A member that is absent when it is empty keeps any sound value. -/
theorem keeps_unlessEmpty {empty : α} {isEmpty : α → Bool}
    (hempty : ∀ y, isEmpty y = true → y = empty) (h : isEmpty x = false → Sound P room x) :
    (unlessEmpty name empty isEmpty).Keeps P room x := by
  by_cases hx : isEmpty x = true
  · obtain rfl := hempty x hx
    exact keeps_empty hx
  · have hsound := h (Bool.eq_false_iff.mpr hx)
    refine ⟨fun r hr => ?_, ?_⟩
    · simpa [unlessEmpty, hx] using hsound.reads r hr
    · simpa [unlessEmpty, hx] using hsound.numbers

/-- A member that is absent when it is empty keeps what it reads, if there is some room. -/
theorem keeps_of_read_unlessEmpty_from {least : Nat} (hα : LawfulFrom α least)
    (hroom : least ≤ room) {empty : α} {isEmpty : α → Bool}
    (hempty : ∀ y, isEmpty y = true ↔ y = empty)
    (h : (unlessEmpty name empty isEmpty).read? room d? = some x)
    (hd : ∀ d ∈ d?, d.AllNumbers P) : (unlessEmpty name empty isEmpty).Keeps P room x := by
  cases d? with
  | none =>
      obtain rfl := Option.some.inj h
      exact keeps_empty ((hempty _).mpr rfl)
  | some d =>
      exact keeps_unlessEmpty (fun y hy => (hempty y).mp hy) fun _ => hα.sound hroom h (hd d rfl)

/-- A member that is absent when it is empty keeps what it reads, in any room. -/
theorem keeps_of_read_unlessEmpty [Lawful α] {empty : α} {isEmpty : α → Bool}
    (hempty : ∀ y, isEmpty y = true ↔ y = empty)
    (h : (unlessEmpty name empty isEmpty).read? room d? = some x)
    (hd : ∀ d ∈ d?, d.AllNumbers P) : (unlessEmpty name empty isEmpty).Keeps P room x :=
  keeps_of_read_unlessEmpty_from .of_lawful (Nat.zero_le _) hempty h hd

omit [NumberRange P] in
/-- A list that is absent when it is empty. -/
theorem keeps_list {xs : List α} (h : xs = [] ∨ Sound P room xs) :
    (unlessEmpty name [] List.isEmpty).Keeps P room xs := by
  rcases h with rfl | h
  · exact keeps_empty rfl
  · exact keeps_unlessEmpty (fun _ => List.isEmpty_iff.mp) fun _ => h

/-- A list that is absent when it is empty is read as an empty or a sound one. -/
theorem nil_or_sound_of_read [Lawful α] {xs : List α}
    (h : (unlessEmpty name [] List.isEmpty).read? room d? = some xs)
    (hd : ∀ d ∈ d?, d.AllNumbers P) : xs = [] ∨ Sound P room xs := by
  cases d? with
  | none => exact .inl (Option.some.inj h).symm
  | some d => exact .inr (Lawful.sound h (hd d rfl))

/-- Only the empty map is empty. -/
theorem isEmpty_keyMap_iff {β : Type} (m : KeyMap β) : m.isEmpty = true ↔ m = ∅ := by
  rw [KeyMap.isEmpty, List.isEmpty_iff]
  exact ⟨fun h => KeyMap.ext_entries h, fun h => by rw [h]; rfl⟩

omit [NumberRange P] in
/-- An optional member keeps a sound value, present or not. -/
theorem keeps_optional {x? : Option α} (h : Sound P room x?) :
    (optional name).Keeps P room x? := by
  cases x? with
  | none => exact ⟨fun _ _ => rfl, by simp [optional]⟩
  | some x =>
      refine ⟨h.reads, ?_⟩
      have hnumbers : (JsonForm.toJson x).document.AllNumbers P := h.numbers
      simpa [optional] using hnumbers

/-- What an optional member reads is sound, if there is some room. -/
theorem sound_of_read_optional_from {least : Nat} (hα : LawfulFrom α least)
    (hroom : least ≤ room) {x? : Option α} (h : (optional name).read? room d? = some x?)
    (hd : ∀ d ∈ d?, d.AllNumbers P) : Sound P room x? := by
  cases d? with
  | none =>
      obtain rfl := Option.some.inj h
      exact JsonForm.sound_none
  | some d => exact hα.option.sound hroom h (hd d rfl)

/-- What an optional member reads is sound, in any room. -/
theorem sound_of_read_optional [Lawful α] {x? : Option α}
    (h : (optional name).read? room d? = some x?) (hd : ∀ d ∈ d?, d.AllNumbers P) :
    Sound P room x? :=
  sound_of_read_optional_from .of_lawful (Nat.zero_le _) h hd

end Member

/-- Named documents of members as they are written. -/
def namedDocuments (members : List (String × Json)) : List (String × Document) :=
  members.map fun e => (e.1, e.2.document)

namespace Members

variable {ρ σ α β γ : Type} {P : Number → Prop} {room : Nat}

/-- A way to look members up finds what is written for the names of a list, and nothing else. -/
def Finds (find : String → Option Document) (names : List String)
    (written : List (String × Json)) : Prop :=
  ∀ name ∈ names, find name = KeyMap.valueAt? name (namedDocuments written)

/-- The members read what they wrote for `r`, and it is read as `b`. -/
structure Shows (ms : Members ρ β) (P : Number → Prop) (room : Nat) (r : ρ) (b : β) : Prop where
  sublist : ((ms.write r).map (·.1)).Sublist ms.names
  reads : ms.names.Nodup → ∀ room' ≥ room, ∀ find, Finds find ms.names (ms.write r) →
    ms.read? room' find = some b
  numbers : ∀ e ∈ ms.write r, e.2.document.AllNumbers P

/-- No members at all show whatever is built without them. -/
theorem Shows.build {r : ρ} {x : β} : (build x : Members ρ β).Shows P room r x :=
  ⟨by simp [Members.build], fun _ _ _ _ _ => rfl, by simp [Members.build]⟩

/-- Documents stand under the names that were written. -/
theorem map_fst_namedDocuments (written : List (String × Json)) :
    (namedDocuments written).map (·.1) = written.map (·.1) := by
  rw [namedDocuments, List.map_map]
  rfl

/-- Looking up among two lists of members with different names is looking up in one of them. -/
theorem Finds.append {find : String → Option Document} {names₁ names₂ : List String}
    {l₁ l₂ : List (String × Json)} (h : Finds find (names₁ ++ names₂) (l₁ ++ l₂))
    (hnodup : (names₁ ++ names₂).Nodup) (h₁ : (l₁.map (·.1)).Sublist names₁)
    (h₂ : (l₂.map (·.1)).Sublist names₂) : Finds find names₁ l₁ ∧ Finds find names₂ l₂ := by
  have hdisjoint := (List.nodup_append.mp hnodup).2.2
  constructor
  · intro name hname
    have hnone : KeyMap.valueAt? name (namedDocuments l₂) = none := by
      refine KeyMap.valueAt?_eq_none fun hmem => ?_
      rw [map_fst_namedDocuments] at hmem
      exact hdisjoint name hname name (h₂.subset hmem) rfl
    rw [h name (List.mem_append_left _ hname), namedDocuments, List.map_append,
      KeyMap.valueAt?_append]
    exact (congrArg (Option.or _) hnone).trans (Option.or_none)
  · intro name hname
    have hnone : KeyMap.valueAt? name (namedDocuments l₁) = none := by
      refine KeyMap.valueAt?_eq_none fun hmem => ?_
      rw [map_fst_namedDocuments] at hmem
      exact hdisjoint name (h₁.subset hmem) name hname rfl
    rw [h name (List.mem_append_right _ hname), namedDocuments, List.map_append,
      KeyMap.valueAt?_append]
    exact (congrArg (Option.or · _) hnone).trans (Option.none_or)

/-- A member writes its own name or nothing. -/
theorem sublist_member {m : Member α} {x : α} :
    ((((m.write x).map (m.name, ·)).toList).map (·.1)).Sublist [m.name] := by
  cases m.write x with
  | none => simp
  | some v => simp

/-- One more member that keeps its value is shown with the others. -/
theorem Shows.and {ms : Members ρ (α → β)} {m : Member α} {field : ρ → α} {r : ρ} {f : α → β}
    (h : ms.Shows P room r f) (hm : m.Keeps P room (field r)) :
    (ms.and m field).Shows P room r (f (field r)) := by
  refine ⟨?_, fun hnodup room' hroom find hfind => ?_, ?_⟩
  · simp only [Members.and, List.map_append]
    exact h.sublist.append sublist_member
  · obtain ⟨h₁, h₂⟩ := Finds.append hfind hnodup h.sublist sublist_member
    have hfound : find m.name = (m.write (field r)).map Json.document := by
      rw [h₂ m.name (by simp)]
      cases m.write (field r) with
      | none => rfl
      | some v => simp [namedDocuments, KeyMap.valueAt?]
    simp only [Members.and, h.reads (List.nodup_append.mp hnodup).1 room' hroom find h₁, hfound,
      hm.reads room' hroom, Option.bind_eq_bind, Option.bind_some]
    rfl
  · intro e he
    rcases List.mem_append.mp he with he | he
    · exact h.numbers e he
    · obtain ⟨v, hv, rfl⟩ := Option.map_eq_some_iff.mp (Option.mem_toList.mp he)
      exact hm.numbers v hv

/-- A part that is shown is shown with the others. -/
theorem Shows.andPart {ms : Members ρ (α → β)} {part : Members σ (γ → α)} {field : ρ → σ} {r : ρ}
    {f : α → β} {g : γ → α} (h : ms.Shows P room r f) (hpart : part.Shows P room (field r) g) :
    (ms.andPart part field).Shows P room r (fun x => f (g x)) := by
  refine ⟨?_, fun hnodup room' hroom find hfind => ?_, ?_⟩
  · simp only [Members.andPart, List.map_append]
    exact h.sublist.append hpart.sublist
  · obtain ⟨h₁, h₂⟩ := Finds.append hfind hnodup h.sublist hpart.sublist
    simp only [Members.andPart, h.reads (List.nodup_append.mp hnodup).1 room' hroom find h₁,
      hpart.reads (List.nodup_append.mp hnodup).2.1 room' hroom find h₂, Option.bind_eq_bind,
      Option.bind_some]
    rfl
  · intro e he
    rcases List.mem_append.mp he with he | he
    · exact h.numbers e he
    · exact hpart.numbers e he

/-- What is made of the members is shown if they are. -/
theorem Shows.through {ms : Members ρ α} {r : ρ} {x : α} (f : α → β) (h : ms.Shows P room r x) :
    (ms.through f).Shows P room r (f x) := by
  refine ⟨h.sublist, fun hnodup room' hroom find hfind => ?_, h.numbers⟩
  simp only [Members.through, h.reads hnodup room' hroom find hfind, Option.map_some]

/-! ### What members were read from -/

/-- Without members nothing is looked up. -/
theorem read?_build {find : String → Option Document} {x b : β} :
    (build x : Members ρ β).read? room find = some b ↔ x = b := Option.some_inj

/-- One more member is read besides the others. -/
theorem read?_and {ms : Members ρ (α → β)} {m : Member α} {field : ρ → α}
    {find : String → Option Document} {b : β} :
    (ms.and m field).read? room find = some b ↔
      ∃ f x, ms.read? room find = some f ∧ m.read? room (find m.name) = some x ∧ f x = b := by
  simp only [Members.and, Option.bind_eq_bind, Option.bind_eq_some_iff]
  constructor
  · rintro ⟨f, hf, x, hx, hb⟩
    exact ⟨f, x, hf, hx, Option.some.inj hb⟩
  · rintro ⟨f, x, hf, hx, rfl⟩
    exact ⟨f, hf, x, hx, rfl⟩

/-- A part is read besides the others. -/
theorem read?_andPart {ms : Members ρ (α → β)} {part : Members σ (γ → α)} {field : ρ → σ}
    {find : String → Option Document} {b : γ → β} :
    (ms.andPart part field).read? room find = some b ↔
      ∃ f g, ms.read? room find = some f ∧ part.read? room find = some g ∧
        (fun x => f (g x)) = b := by
  simp only [Members.andPart, Option.bind_eq_bind, Option.bind_eq_some_iff]
  constructor
  · rintro ⟨f, hf, g, hg, hb⟩
    exact ⟨f, g, hf, hg, Option.some.inj hb⟩
  · rintro ⟨f, g, hf, hg, rfl⟩
    exact ⟨f, hf, g, hg, rfl⟩

/-- What is made of the members is read if they are. -/
theorem read?_through {ms : Members ρ α} {f : α → β} {find : String → Option Document} {b : β} :
    (ms.through f).read? room find = some b ↔ ∃ x, ms.read? room find = some x ∧ f x = b :=
  Option.map_eq_some_iff

/-! ### What is written for members -/

/-- No members at all write nothing. -/
theorem not_mem_write_build {x : β} {r : ρ} {e : String × Json} :
    e ∉ (build x : Members ρ β).write r := List.not_mem_nil

/-- One more member is written besides the others. -/
theorem mem_write_and {ms : Members ρ (α → β)} {m : Member α} {field : ρ → α} {r : ρ}
    {e : String × Json} :
    e ∈ (ms.and m field).write r ↔
      e ∈ ms.write r ∨ ∃ v, m.write (field r) = some v ∧ (m.name, v) = e := by
  simp only [Members.and, List.mem_append, Option.mem_toList, Option.map_eq_some_iff]

end Members

/-! ### Records -/

namespace RecordForm

variable {ρ : Type} (form : RecordForm ρ) {P : Number → Prop} {room : Nat}

/-- The members of a record without a field of their own, none of a closed record. -/
def rest (r : ρ) : KeyMap Json :=
  match form.rest? with
  | some rest => rest r
  | none => ∅

/-- The members of a map are no members of the record with a field, and their values are sound. -/
def RestFits (P : Number → Prop) (room : Nat) (rest : KeyMap Json) : Prop :=
  ∀ e ∈ rest.entries, e.1 ∉ form.members.names ∧ Sound P room e.2

/-- The members with a field read what they wrote, and so do all others. -/
structure Fits (P : Number → Prop) (room : Nat) (r : ρ) : Prop where
  members : ∃ f, form.members.Shows P room r f ∧ f (form.rest r) = r
  rest : form.RestFits P room (form.rest r)

variable {form}

/-- A record is written as its members with a field, and then the rest. -/
theorem toJson_eq (r : ρ) : form.toJson r =
    .object (form.members.write r ++ (form.rest r).entries) := by
  rw [toJson, rest]
  cases form.rest? <;> rfl

/-- A closed record has no rest. -/
theorem rest_closed (h : form.rest? = none) (r : ρ) : form.rest r = ∅ := by
  rw [rest, h]

/-- Members with other names are part of the rest. -/
theorem filter_rest {names : List String} {l : List (String × Document)}
    (h : ∀ e ∈ l, e.1 ∉ names) : l.filter (fun e => !names.contains e.1) = l := by
  refine List.filter_eq_self.mpr fun e he => ?_
  simpa using h e he

/-- Members with a field are no part of the rest. -/
theorem filter_own {names : List String} {l : List (String × Document)}
    (h : ∀ e ∈ l, e.1 ∈ names) : l.filter (fun e => !names.contains e.1) = [] := by
  refine List.filter_eq_nil_iff.mpr fun e he => ?_
  simpa using h e he

/-- The named members of the document of a record are those that it wrote. -/
theorem Fits.named?_document {r : ρ} (h : form.Fits P room r) (hnames : form.members.names.Nodup) :
    form.named? (form.toJson r).document =
      some (namedDocuments (form.members.write r ++ (form.rest r).entries)) := by
  obtain ⟨f, hshows, -⟩ := h.members
  have hown : ((namedDocuments (form.members.write r ++ (form.rest r).entries)).map (·.1)).filter
      (form.members.names.contains ·) = (form.members.write r).map (·.1) := by
    rw [Members.map_fst_namedDocuments, List.map_append, List.filter_append]
    have h₁ : ((form.members.write r).map (·.1)).filter (form.members.names.contains ·) =
        (form.members.write r).map (·.1) := by
      refine List.filter_eq_self.mpr fun name hname => ?_
      simpa using hshows.sublist.subset hname
    have h₂ : ((form.rest r).entries.map (·.1)).filter (form.members.names.contains ·) = [] := by
      refine List.filter_eq_nil_iff.mpr fun name hname => ?_
      obtain ⟨e, he, rfl⟩ := List.mem_map.mp hname
      simpa using (h.rest e he).1
    rw [h₁, h₂, List.append_nil]
  rw [toJson_eq, JsonForm.document_object, named?]
  simp only [Document.keyed?_map, Option.bind_eq_bind, Option.bind_some]
  refine if_pos ?_
  refine hown.symm ▸ ?_
  exact hshows.sublist.nodup hnames

/-- The rest of the document of a record is read as the rest of the record. -/
theorem Fits.restOf?_document {r : ρ} {room' : Nat} (h : form.Fits P room r)
    (hroom : room ≤ room') :
    form.restOf? room' (namedDocuments (form.members.write r ++ (form.rest r).entries)) =
      some (form.rest r) := by
  obtain ⟨f, hshows, -⟩ := h.members
  have hothers : (namedDocuments (form.members.write r ++ (form.rest r).entries)).filter
      (fun e => !form.members.names.contains e.1) = namedDocuments (form.rest r).entries := by
    rw [namedDocuments, List.map_append, List.filter_append, filter_own, filter_rest]
    · rfl
    · exact List.forall_mem_map.mpr fun e he => (h.rest e he).1
    · refine List.forall_mem_map.mpr fun e he => ?_
      exact hshows.sublist.subset (List.mem_map.mpr ⟨e, he, rfl⟩)
  have hentries : (namedDocuments (form.rest r).entries).mapM
      (fun e => (e.2.value? room').map (e.1, ·)) = some (form.rest r).entries := by
    refine JsonForm.mapM_eq_some_of_forall fun e he => ?_
    have hread : e.2.document.value? room' = some e.2 := (h.rest e he).2.reads room' hroom
    rw [hread, Option.map_some]
  rw [restOf?]
  split
  · rename_i hclosed
    rw [rest_closed hclosed]
  · simp only [hothers, Option.bind_eq_bind]
    refine (congrArg (Option.bind · _) hentries).trans ?_
    exact congrArg some (KeyMap.ofEntries_entries _)

/-- **A record with fields that are sound is sound.** -/
theorem Fits.sound {r : ρ} (h : form.Fits P room r) (hnames : form.members.names.Nodup) :
    @Sound ρ form.jsonForm P (room + 1) r := by
  obtain ⟨f, hshows, hr⟩ := h.members
  refine @Sound.mk ρ form.jsonForm P (room + 1) r (fun room' hroom => ?_) ?_
  · obtain ⟨room', rfl⟩ : ∃ n, room' = n + 1 := ⟨room' - 1, by omega⟩
    have hfinds : Members.Finds
        (fun name => KeyMap.valueAt? name
          (namedDocuments (form.members.write r ++ (form.rest r).entries)))
        form.members.names (form.members.write r) := by
      intro name hname
      have hnone : KeyMap.valueAt? name (namedDocuments (form.rest r).entries) = none := by
        refine KeyMap.valueAt?_eq_none fun hmem => ?_
        rw [Members.map_fst_namedDocuments] at hmem
        obtain ⟨e, he, rfl⟩ := List.mem_map.mp hmem
        exact (h.rest e he).1 hname
      simp only [namedDocuments, List.map_append, KeyMap.valueAt?_append]
      exact (congrArg (Option.or _) hnone).trans Option.or_none
    have hread := hshows.reads hnames room' (by omega) _ hfinds
    change form.ofDocument? (room' + 1) (form.toJson r).document = some r
    simp only [ofDocument?, h.named?_document hnames, Option.bind_eq_bind, Option.bind_some, hread,
      h.restOf?_document (by omega : room ≤ room'), hr]
    rfl
  · change (form.toJson r).document.AllNumbers P
    rw [toJson_eq, Json.document, Json.memberDocuments_eq, Document.allNumbers_object,
      List.forall_mem_map]
    intro e he
    rcases List.mem_append.mp he with he | he
    · exact hshows.numbers e he
    · exact (h.rest e he).2.numbers

/-- The numbers of named members are numbers of the document. -/
theorem allNumbers_of_named? {d : Document} {named : List (String × Document)}
    (h : form.named? d = some named) (hd : d.AllNumbers P) : ∀ e ∈ named, e.2.AllNumbers P := by
  cases d with
  | object members =>
      simp only [named?, Option.bind_eq_bind, Option.bind_eq_some_iff] at h
      obtain ⟨l, hl, h⟩ := h
      split at h
      · obtain rfl := Option.some.inj h
        exact fun e he => Document.allNumbers_object.mp hd _ (Document.mem_of_keyed? hl e he)
      · cases h
  | array items =>
      simp only [named?] at h
      split at h
      · cases h
      · obtain rfl := Option.some.inj h
        exact fun e he => Document.allNumbers_array.mp hd _ (List.of_mem_zip he).2
  | _ => cases h

/-- The rest that is read has other names than the fields, and is sound. -/
theorem restFits_of_restOf? [NumberRange P] {named : List (String × Document)} {rest : KeyMap Json}
    (h : form.restOf? room named = some rest) (hnamed : ∀ e ∈ named, e.2.AllNumbers P) :
    form.RestFits P room rest ∧ (form.rest? = none → rest = ∅) := by
  rw [restOf?] at h
  split at h
  · obtain rfl := Option.some.inj h
    refine ⟨fun e he => ?_, fun _ => rfl⟩
    exact absurd he (List.not_mem_nil)
  · rename_i hopen
    simp only [Option.bind_eq_bind, Option.bind_eq_some_iff] at h
    obtain ⟨entries, hentries, h⟩ := h
    obtain rfl := Option.some.inj h
    refine ⟨fun e he => ?_, fun hclosed => by simp [hopen] at hclosed⟩
    obtain ⟨x, hx, hread⟩ :=
      JsonForm.forall_of_mapM_eq_some hentries e (KeyMap.mem_ofEntries he)
    obtain ⟨hmem, hother⟩ := List.mem_filter.mp hx
    obtain ⟨v, hv, rfl⟩ := Option.map_eq_some_iff.mp hread
    refine ⟨by simpa using hother, ?_⟩
    exact (Lawful.sound (α := Json) hv (hnamed x hmem))

/-- What the parts of a record were read from. -/
theorem ofDocument?_eq_some [NumberRange P] {d : Document} {r : ρ}
    (h : form.ofDocument? room d = some r) (hd : d.AllNumbers P) :
    ∃ room' find f rest, room = room' + 1 ∧ form.members.read? room' find = some f ∧
      (∀ name, ∀ d ∈ find name, d.AllNumbers P) ∧ form.RestFits P room' rest ∧
      (form.rest? = none → rest = ∅) ∧ f rest = r := by
  cases room with
  | zero => cases h
  | succ room =>
      simp only [ofDocument?, Option.bind_eq_bind, Option.bind_eq_some_iff] at h
      obtain ⟨named, hnamed, f, hf, rest, hrest, h⟩ := h
      obtain rfl := Option.some.inj h
      have hnumbers := allNumbers_of_named? hnamed hd
      obtain ⟨hfits, hclosed⟩ := restFits_of_restOf? hrest hnumbers
      refine ⟨room, _, f, rest, rfl, hf, ?_, hfits, hclosed, rfl⟩
      intro name d hd
      exact hnumbers _ (KeyMap.mem_of_valueAt?_eq_some hd)

/-- What is read with so much room fits. -/
structure Lawful (form : RecordForm ρ) (least : Nat) : Prop where
  nodup : form.members.names.Nodup
  fits : ∀ {P : Number → Prop} [NumberRange P] {room : Nat}, least ≤ room →
    ∀ {find : String → Option Document} {f : KeyMap Json → ρ} {rest : KeyMap Json},
      form.members.read? room find = some f → (∀ name, ∀ d ∈ find name, d.AllNumbers P) →
        form.RestFits P room rest → (form.rest? = none → rest = ∅) → form.Fits P room (f rest)

/-- A form that is lawful with some room is so with more. -/
theorem Lawful.mono {least least' : Nat} (hform : form.Lawful least) (hle : least ≤ least') :
    form.Lawful least' :=
  ⟨hform.nodup, fun hroom => hform.fits (by omega)⟩

/-- A record that was read with enough room is sound. -/
theorem Lawful.sound [NumberRange P] {least : Nat} (hform : form.Lawful least) {d : Document}
    {r : ρ} (h : form.ofDocument? room d = some r) (hroom : least < room) (hd : d.AllNumbers P) :
    @Sound ρ form.jsonForm P room r := by
  obtain ⟨room, find, f, rest, rfl, hf, hnumbers, hfits, hclosed, rfl⟩ := ofDocument?_eq_some h hd
  exact (hform.fits (by omega) hf hnumbers hfits hclosed).sound hform.nodup

/-- A sound record needs some room. -/
theorem pos_of_sound {r : ρ} (h : @Sound ρ form.jsonForm P room r) : 0 < room := by
  refine Nat.pos_of_ne_zero ?_
  rintro rfl
  have hread : form.ofDocument? 0 _ = some r := @Sound.reads_self ρ form.jsonForm P 0 r h
  cases hread

/-- A sound record has room for the bracket that it is written in. -/
theorem exists_succ_of_sound {r : ρ} (h : @Sound ρ form.jsonForm P room r) :
    ∃ room', room = room' + 1 :=
  Nat.exists_eq_succ_of_ne_zero (pos_of_sound h).ne'

/-- What the parts of a sound record could be read from. -/
theorem parts_of_sound [NumberRange P] {r : ρ} (h : @Sound ρ form.jsonForm P (room + 1) r) :
    ∃ find f rest, form.members.read? room find = some f ∧
      (∀ name, ∀ d ∈ find name, d.AllNumbers P) ∧ form.RestFits P room rest ∧
      (form.rest? = none → rest = ∅) ∧ f rest = r := by
  obtain ⟨room', find, f, rest, hroom, hparts⟩ := ofDocument?_eq_some
    (@Sound.reads_self ρ form.jsonForm P (room + 1) r h) (@Sound.numbers ρ form.jsonForm P _ r h)
  obtain rfl := Nat.succ.inj hroom
  exact ⟨find, f, rest, hparts⟩

/-- A record whose parts were read is lawful from some room on. -/
theorem Lawful.lawfulFrom {least : Nat} (hform : form.Lawful least) :
    @JsonForm.LawfulFrom ρ form.jsonForm (least + 1) := by
  refine @JsonForm.LawfulFrom.mk ρ form.jsonForm (least + 1)
    (fun {P} _ {room} {d} {r} hroom h hd => hform.sound h hroom hd) fun {room} {d} {r} _ h => ?_
  cases h

/-- **Records whose parts were read are lawful.** -/
theorem Lawful.lawful (hform : form.Lawful 0) : @JsonForm.Lawful ρ form.jsonForm := by
  refine @JsonForm.Lawful.mk ρ form.jsonForm (fun {P} _ {room} {d} {r} h hd => ?_)
    (@JsonForm.LawfulFrom.null_of_toJson ρ form.jsonForm 1 hform.lawfulFrom)
  refine hform.sound h ?_ hd
  cases room with
  | zero => cases h
  | succ room => omega

end RecordForm

end ClusterSnapshot
