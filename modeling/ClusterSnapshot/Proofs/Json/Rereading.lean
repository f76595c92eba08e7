import ClusterSnapshot.Proofs.Json.Records

/-!
# Reading what was written

The text of a sound value is read as the value with each of its numbers read again. `Rereads` gives
that value its name: for a record it is the record with the free values among its fields reread.
Where all numbers are whole, the value itself comes back.

## Main results

* `JsonForm.ofText?_text`: **the text of a sound value denotes the reread value**.
* `JsonForm.ofText?_text_whole`: without reals, it denotes the value.
* `JsonForm.reread_eq_self_iff`: the reread value is the value if its numbers are read exactly.
* `JsonForm.sound_of_ofText?`: what a text denotes is sound.
* `JsonForm.sound_whole_iff`: without reals, what a text denotes is all that is sound.
-/

namespace ClusterSnapshot

namespace JsonForm

/-- A form whose values have a reread value. -/
class Rereads (α : Type) [JsonForm α] where
  /-- The value with each number read again. -/
  reread : α → α
  toJson_reread : ∀ x : α, toJson (reread x) = (toJson x).reread
  sound_reread : ∀ {P : Number → Prop} [NumberRange P] {room : Nat} {x : α}, Sound P room x →
    Sound P room (reread x)

export Rereads (reread)

variable {α : Type} [JsonForm α]

/-- The text of a value is read as the document that it writes. -/
theorem ofText?_eq (x : α) :
    (ofText? (text x) : Option α) = ofDocument? nestingLimit (toJson x).scanned := by
  rw [ofText?, text, Json.ofText?_compact, Option.bind_some]

/-- The indented text of a value denotes what its compact text does. -/
theorem ofText?_indented (x : α) : (ofText? (toJson x).indented : Option α) = ofText? (text x) := by
  rw [ofText?, ofText?, text, Json.ofText?_indented, Json.ofText?_compact]

/-- **The text of a sound value denotes the reread value.** -/
theorem ofText?_text [Rereads α] {P : Number → Prop} [NumberRange P] {x : α}
    (h : Sound P nestingLimit x) : ofText? (text x) = some (reread x) := by
  rw [ofText?_eq, Json.scanned_eq (h.numbers.mono NumberRange.inRange), ← Rereads.toJson_reread]
  exact (Rereads.sound_reread h).reads_self

/-- Without reals, the text of a sound value denotes the value. -/
theorem ofText?_text_whole {x : α} (h : Sound Number.IsWhole64 nestingLimit x) :
    ofText? (text x) = some x := by
  rw [ofText?_eq, Json.scanned_eq_document h.numbers]
  exact h.reads_self

/-- What a text denotes is sound, if the form asks for no more room than there is. -/
theorem LawfulFrom.sound_of_ofText? {least : Nat} (hα : LawfulFrom α least)
    (hleast : least ≤ nestingLimit) {s : String} {x : α} (h : ofText? s = some x) :
    Sound Number.InRange nestingLimit x := by
  obtain ⟨d, hd, hread⟩ := Option.bind_eq_some_iff.mp h
  exact hα.sound hleast hread (Document.allNumbers_of_ofText? hd)

/-- What a text denotes is sound. -/
theorem sound_of_ofText? [Lawful α] {s : String} {x : α} (h : ofText? s = some x) :
    Sound Number.InRange nestingLimit x :=
  LawfulFrom.of_lawful.sound_of_ofText? (Nat.zero_le _) h

/-- Without reals, the sound values are those that some text denotes. -/
theorem sound_whole_iff [Lawful α] {x : α} :
    Sound Number.IsWhole64 nestingLimit x ↔
      (∃ s, ofText? s = some x) ∧ (toJson x).document.AllNumbers Number.IsWhole64 := by
  constructor
  · exact fun h => ⟨⟨text x, ofText?_text_whole h⟩, h.numbers⟩
  · rintro ⟨⟨s, hs⟩, hnumbers⟩
    exact ⟨(sound_of_ofText? hs).reads, hnumbers⟩

/-- A sound value is sound with every weaker property of its numbers. -/
theorem Sound.mono_numbers {P Q : Number → Prop} (hPQ : ∀ n, P n → Q n) {room : Nat} {x : α}
    (h : Sound P room x) : Sound Q room x :=
  ⟨h.reads, h.numbers.mono hPQ⟩

/-- **A sound value is its own reread value** just when each of its numbers is. -/
theorem reread_eq_self_iff [Rereads α] {P : Number → Prop} [NumberRange P] {room : Nat} {x : α}
    (h : Sound P room x) : reread x = x ↔ (toJson x).document.AllNumbers Number.Steady := by
  rw [← Json.reread_eq_iff, ← Rereads.toJson_reread]
  refine ⟨congrArg toJson, fun hjson => ?_⟩
  have hreread := (Rereads.sound_reread h).reads_self
  rw [hjson, h.reads_self] at hreread
  exact (Option.some.inj hreread).symm

/-- Without reals, a sound value is its own reread value. -/
theorem reread_eq_self [Rereads α] {room : Nat} {x : α} (h : Sound Number.IsWhole64 room x) :
    reread x = x :=
  (reread_eq_self_iff h).mpr (h.numbers.mono fun _ => Number.IsWhole64.steady)

/-! ### Forms without free values -/

/-- A value that is written without numbers of its own that could change. -/
def Plain (x : α) : Prop := (toJson x).reread = toJson x

/-- A text has no numbers. -/
theorem plain_text (s : String) : Plain s := rfl

/-- A truth value has no numbers. -/
theorem plain_bool (b : Bool) : Plain b := rfl

/-- A whole number is read again as itself. -/
theorem plain_int32 (i : Int32) : Plain i := rfl

/-- A map of plain values is plain. -/
theorem plain_map {m : KeyMap α} (h : ∀ x : α, Plain x) : Plain m := by
  have hmembers : (m.entries.map fun e => (e.1, toJson e.2)).map (fun e => (e.1, e.2.reread)) =
      m.entries.map fun e => (e.1, toJson e.2) := by
    rw [List.map_map]
    exact List.map_congr_left fun e _ => congrArg (e.1, ·) (h e.2)
  change Json.reread (.object (m.entries.map fun e => (e.1, toJson e.2))) = _
  rw [Json.reread, Json.rereadMembers_eq, hmembers]
  rfl

/-! ### Free values, options and maps -/

instance : Rereads Json where
  reread := Json.reread
  toJson_reread _ := rfl
  sound_reread h := by
    obtain ⟨hfits, hnumbers⟩ := sound_json_iff.mp h
    exact sound_json_iff.mpr ⟨hfits.reread, Json.allNumbers_reread hnumbers⟩

/-- Only `null` is reread as `null`. -/
theorem reread_ne_null {v : Json} (h : v ≠ .null) : v.reread ≠ .null := by
  cases v <;> simp_all [Json.reread]

/-- What is present is sound if it is not written as `null` and is sound by itself. -/
theorem sound_some_iff {P : Number → Prop} {room : Nat} {x : α} :
    Sound P room (some x) ↔ toJson x ≠ .null ∧ Sound P room x := by
  constructor
  · intro h
    have hne : toJson x ≠ .null := by
      intro hnull
      have hread := h.reads_self
      rw [show toJson (some x) = toJson x from rfl, hnull] at hread
      cases hread
    refine ⟨hne, fun r hr => ?_, h.numbers⟩
    have hread := h.reads r hr
    rw [show toJson (some x) = toJson x from rfl,
      ofDocument?_option_some (document_ne_null hne)] at hread
    obtain ⟨y, hy, heq⟩ := Option.map_eq_some_iff.mp hread
    rw [hy, Option.some.inj heq]
  · rintro ⟨hne, h⟩
    exact sound_some hne h

instance [Rereads α] : Rereads (Option α) where
  reread := Option.map reread
  toJson_reread x? := by
    cases x? with
    | none => rfl
    | some x => exact Rereads.toJson_reread x
  sound_reread := by
    intro P _ room x? h
    cases x? with
    | none => exact sound_none
    | some x =>
        obtain ⟨hne, hx⟩ := sound_some_iff.mp h
        refine sound_some_iff.mpr ⟨?_, Rereads.sound_reread hx⟩
        rw [Rereads.toJson_reread]
        exact reread_ne_null hne

instance [Lawful α] [Rereads α] : Rereads (List α) where
  reread := List.map reread
  toJson_reread xs := by
    change Json.array ((xs.map reread).map toJson) = Json.reread (.array (xs.map toJson))
    rw [Json.reread, Json.rereadItems_eq, List.map_map, List.map_map]
    exact congrArg Json.array (List.map_congr_left fun x _ => Rereads.toJson_reread x)
  sound_reread := by
    intro P _ room xs h
    obtain ⟨r, rfl, hall⟩ := forall_sound_of_list h.reads_self h.numbers
    exact sound_list (List.forall_mem_map.mpr fun x hx => Rereads.sound_reread (hall x hx))

end JsonForm

/-! ### Members and records -/

open JsonForm (Rereads Plain Sound)

/-- Lists of members are reread one after the other. -/
theorem Json.rereadMembers_append (l₁ l₂ : List (String × Json)) :
    rereadMembers (l₁ ++ l₂) = rereadMembers l₁ ++ rereadMembers l₂ := by
  simp only [rereadMembers_eq, List.map_append]

namespace Member

variable {α : Type} [JsonForm α] {name : String}

/-- What a member writes for the second value is what it writes for the first, reread. -/
def RereadsTo (m : Member α) (x y : α) : Prop := m.write y = (m.write x).map Json.reread

/-- A member that is required is reread with its value. -/
theorem rereadsTo_required {x y : α} (h : JsonForm.toJson y = (JsonForm.toJson x).reread) :
    (required name).RereadsTo x y := congrArg some h

/-- A member with a default is reread with its value. -/
theorem rereadsTo_defaulted {default x y : α}
    (h : JsonForm.toJson y = (JsonForm.toJson x).reread) :
    (defaulted name default).RereadsTo x y := congrArg some h

/-- A plain member that is absent when it is empty stays as it is. -/
theorem rereadsTo_plain_unlessEmpty {empty x : α} {isEmpty : α → Bool} (h : Plain x) :
    (unlessEmpty name empty isEmpty).RereadsTo x x := by
  rw [RereadsTo, unlessEmpty]
  simp only
  split
  · rfl
  · exact congrArg some h.symm

/-- A list that is absent when it is empty. -/
theorem rereadsTo_list [JsonForm.Lawful α] [Rereads α] (xs : List α) :
    (unlessEmpty name [] List.isEmpty).RereadsTo xs (Rereads.reread xs) := by
  cases xs with
  | nil => rfl
  | cons x rest => exact congrArg some (Rereads.toJson_reread (x :: rest))

/-- A list that is empty or sound is so after it was reread. -/
theorem nil_or_sound_reread [JsonForm.Lawful α] [Rereads α] {P : Number → Prop} [NumberRange P]
    {room : Nat} {xs : List α} (h : xs = [] ∨ Sound P room xs) :
    Rereads.reread xs = [] ∨ Sound P room (Rereads.reread xs) :=
  h.imp (fun h => by rw [h]; rfl) Rereads.sound_reread

/-- An optional member is reread if it is present. -/
theorem rereadsTo_optional [Rereads α] (x? : Option α) :
    (optional name).RereadsTo x? (x?.map Rereads.reread) := by
  cases x? with
  | none => rfl
  | some x => exact congrArg some (Rereads.toJson_reread x)

/-- An optional member of plain values stays as it is. -/
theorem rereadsTo_plain_optional {x? : Option α} (h : ∀ x : α, Plain x) :
    (optional name).RereadsTo x? x? := by
  cases x? with
  | none => rfl
  | some x => exact congrArg some (h x).symm

end Member

namespace Members

variable {ρ σ α β γ : Type}

/-- What members write for the second record is what they write for the first, reread. -/
def RereadsTo (ms : Members ρ β) (r r' : ρ) : Prop :=
  ms.write r' = Json.rereadMembers (ms.write r)

/-- No members at all write the same. -/
theorem RereadsTo.build {r r' : ρ} {x : β} : (build x : Members ρ β).RereadsTo r r' := rfl

/-- One more member is reread with the others. -/
theorem RereadsTo.and {ms : Members ρ (α → β)} {m : Member α} {field : ρ → α} {r r' : ρ}
    (h : ms.RereadsTo r r') (hm : m.RereadsTo (field r) (field r')) :
    (ms.and m field).RereadsTo r r' := by
  have hmember : (((m.write (field r')).map (m.name, ·)).toList) =
      Json.rereadMembers (((m.write (field r)).map (m.name, ·)).toList) := by
    rw [hm]
    cases m.write (field r) <;> rfl
  simp only [RereadsTo, Members.and, Json.rereadMembers_append, hmember]
  rw [h]

/-- A part is reread with the others. -/
theorem RereadsTo.andPart {ms : Members ρ (α → β)} {part : Members σ (γ → α)} {field : ρ → σ}
    {r r' : ρ} (h : ms.RereadsTo r r') (hpart : part.RereadsTo (field r) (field r')) :
    (ms.andPart part field).RereadsTo r r' := by
  simp only [RereadsTo, Members.andPart, Json.rereadMembers_append]
  rw [h, hpart]

/-- What is made of members does not matter. -/
theorem RereadsTo.through {ms : Members ρ α} {f : α → β} {r r' : ρ} (h : ms.RereadsTo r r') :
    (ms.through f).RereadsTo r r' := h

end Members

namespace RecordForm

variable {ρ : Type} {form : RecordForm ρ}

variable (form) in
/-- A record is reread by its fields. -/
theorem toJson_of_rereadsTo {r r' : ρ} (h : form.members.RereadsTo r r')
    (hrest : form.rest r' = (form.rest r).map Json.reread) :
    form.toJson r' = (form.toJson r).reread := by
  rw [toJson_eq, toJson_eq, Json.reread, Json.rereadMembers_append, h, hrest,
    Json.rereadMembers_eq (form.rest r).entries]
  rfl

/-- The rest of a record still fits when it is reread. -/
theorem RestFits.reread {P : Number → Prop} [NumberRange P] {room : Nat} {rest : KeyMap Json}
    (h : form.RestFits P room rest) : form.RestFits P room (rest.map Json.reread) :=
  List.forall_mem_map.mpr fun e he =>
    ⟨(h e he).1, Rereads.sound_reread (α := Json) (h e he).2⟩

end RecordForm

end ClusterSnapshot
