import ClusterSnapshot.Json.Record
import ClusterSnapshot.Proofs.Json.Free

/-!
# Values that survive being written

A value is *sound* if reading its own document gives it back. A form is *lawful* if everything that
it reads is sound. So are the plain forms, and options, lists and maps of what has a lawful form.
A form that writes what it did not have to read may need room for it: it is lawful from so much room
on.

## Main results

* `JsonForm.Lawful`: **what was read is sound**, with an instance for every form but records.
* `JsonForm.LawfulFrom.option`, `JsonForm.LawfulFrom.map`: options and maps of what is lawful from
  some room on.
* `JsonForm.sound_json_iff`: the free values are the sound ones.
-/

namespace ClusterSnapshot

namespace JsonForm

/-- Reading the value's own document gives it back as soon as so many brackets may be nested, and
its numbers have a property. -/
structure Sound {α : Type} [JsonForm α] (P : Number → Prop) (room : Nat) (x : α) : Prop where
  reads : ∀ room' ≥ room, ofDocument? room' (toJson x).document = some x
  numbers : (toJson x).document.AllNumbers P

/-- What is read from a document is sound, and only `null` is read as something written so. -/
class Lawful (α : Type) [JsonForm α] : Prop where
  sound : ∀ {P : Number → Prop} [NumberRange P] {room : Nat} {d : Document} {x : α},
    ofDocument? room d = some x → d.AllNumbers P → Sound P room x
  null_of_toJson : ∀ {room : Nat} {d : Document} {x : α},
    ofDocument? room d = some x → toJson x = .null → d = .null

/-- What is read from a document with at least so much room is sound, and only `null` is read as
something written so. -/
structure LawfulFrom (α : Type) [JsonForm α] (least : Nat) : Prop where
  sound : ∀ {P : Number → Prop} [NumberRange P] {room : Nat} {d : Document} {x : α},
    least ≤ room → ofDocument? room d = some x → d.AllNumbers P → Sound P room x
  null_of_toJson : ∀ {room : Nat} {d : Document} {x : α},
    ofDocument? room d = some x → toJson x = .null → d = .null

variable {α : Type} [JsonForm α] {P : Number → Prop} {room : Nat}

/-- What is lawful in any room is so in all that are large enough. -/
theorem LawfulFrom.of_lawful [Lawful α] {least : Nat} : LawfulFrom α least :=
  ⟨fun _ => Lawful.sound, Lawful.null_of_toJson⟩

/-- What is lawful from no room on is lawful. -/
theorem LawfulFrom.lawful (h : LawfulFrom α 0) : Lawful α :=
  ⟨h.sound (Nat.zero_le _), h.null_of_toJson⟩

/-- What is lawful from some room on is so from a larger one on. -/
theorem LawfulFrom.mono {least least' : Nat} (h : LawfulFrom α least) (hle : least ≤ least') :
    LawfulFrom α least' :=
  ⟨fun hroom => h.sound (hle.trans hroom), h.null_of_toJson⟩

/-- More room does no harm. -/
theorem Sound.mono {x : α} {room' : Nat} (h : Sound P room x) (hle : room ≤ room') :
    Sound P room' x :=
  ⟨fun r hr => h.reads r (by omega), h.numbers⟩

/-- A sound value is read from its own document. -/
theorem Sound.reads_self {x : α} (h : Sound P room x) :
    ofDocument? room (toJson x).document = some x :=
  h.reads room (le_refl room)

/-! ### Plain values -/

/-- A free value is sound if it fits and its numbers have the property. -/
theorem sound_json_iff {v : Json} :
    Sound P room v ↔ v.Fits room ∧ v.document.AllNumbers P := by
  constructor
  · intro h
    exact ⟨Json.fits_of_value? h.reads_self, h.numbers⟩
  · rintro ⟨hfits, hnumbers⟩
    exact ⟨fun r hr => (hfits.mono hr).value?_document, hnumbers⟩

instance : Lawful Json where
  sound h hd := sound_json_iff.mpr ⟨Json.fits_of_value? h, Json.allNumbers_of_value? h hd⟩
  null_of_toJson := by
    intro room d v h hv
    obtain rfl : v = .null := hv
    cases d with
    | null => rfl
    | bool b => cases h
    | number n? => cases n? <;> cases h
    | string s? => cases s? <;> cases h
    | array items =>
        cases room with
        | zero => cases h
        | succ room =>
            obtain ⟨vs, -, h⟩ := Option.map_eq_some_iff.mp h
            cases h
    | object members =>
        cases room with
        | zero => cases h
        | succ room =>
            obtain ⟨vs, -, h⟩ := Option.map_eq_some_iff.mp h
            cases h

/-- Every text is sound. -/
theorem sound_text (s : String) : Sound P room s := ⟨fun _ _ => rfl, trivial⟩

instance : Lawful String where
  sound _ _ := sound_text _
  null_of_toJson _ h := by cases h

/-- Every truth value is sound. -/
theorem sound_bool (b : Bool) : Sound P room b := ⟨fun _ _ => rfl, trivial⟩

instance : Lawful Bool where
  sound _ _ := sound_bool _
  null_of_toJson _ h := by cases h

/-- Every whole number of 32 bits is sound. -/
theorem sound_int32 [NumberRange P] (i : Int32) : Sound P room i := by
  have hlow := i.le_toInt
  have hhigh := i.toInt_lt
  refine ⟨fun _ _ => ?_, NumberRange.covers _ ⟨by omega, by omega⟩⟩
  have hrange : (-0x80000000 : Int) ≤ i.toInt ∧ i.toInt ≤ 0x7FFFFFFF := by omega
  simp only [toJson, ofDocument?, Json.whole, Json.document, wholeBetween?, hrange, and_self,
    ↓reduceIte, Option.map_some, Int32.ofInt_toInt]

instance : Lawful Int32 where
  sound _ _ := sound_int32 _
  null_of_toJson _ h := by cases h

/-- Every whole number of 64 bits is sound. -/
theorem sound_int64 [NumberRange P] (i : Int64) : Sound P room i := by
  have hlow := i.le_toInt
  have hhigh := i.toInt_lt
  refine ⟨fun _ _ => ?_, NumberRange.covers _ ⟨by omega, by omega⟩⟩
  have hrange : (-0x8000000000000000 : Int) ≤ i.toInt ∧ i.toInt ≤ 0x7FFFFFFFFFFFFFFF := by omega
  simp only [toJson, ofDocument?, Json.whole, Json.document, wholeBetween?, hrange, and_self,
    ↓reduceIte, Option.map_some, Int64.ofInt_toInt]

instance : Lawful Int64 where
  sound _ _ := sound_int64 _
  null_of_toJson _ h := by cases h

/-- Every natural of 64 bits is sound. -/
theorem sound_uint64 [NumberRange P] (n : UInt64) : Sound P room n := by
  have hlt := n.toNat_lt
  refine ⟨fun _ _ => ?_, NumberRange.covers _ ⟨by omega, by omega⟩⟩
  have hrange : (0 : Int) ≤ n.toNat ∧ (n.toNat : Int) ≤ 0xFFFFFFFFFFFFFFFF := by omega
  simp only [toJson, ofDocument?, Json.whole, Json.document, wholeBetween?, hrange, and_self,
    ↓reduceIte, Option.map_some, Int.toNat_natCast, UInt64.ofNat_toNat]

instance : Lawful UInt64 where
  sound _ _ := sound_uint64 _
  null_of_toJson _ h := by cases h

/-! ### Options, lists and maps -/

/-- What is not `null` is read as what is present. -/
theorem ofDocument?_option_some {d : Document} (hd : d ≠ .null) :
    (ofDocument? room d : Option (Option α)) = (ofDocument? room d).map some := by
  cases d <;> first | rfl | exact absurd rfl hd

/-- Only `null` has the document `null`. -/
theorem document_ne_null {v : Json} (hv : v ≠ .null) : v.document ≠ .null := by
  cases v <;> simp_all [Json.document]

/-- What is absent is sound. -/
theorem sound_none : Sound P room (none : Option α) := ⟨fun _ _ => rfl, trivial⟩

/-- What is present is sound, if it is not written as `null`. -/
theorem sound_some {x : α} (hx : toJson x ≠ .null) (h : Sound P room x) :
    Sound P room (some x) := by
  refine ⟨fun r hr => ?_, h.numbers⟩
  refine (ofDocument?_option_some (document_ne_null hx)).trans ?_
  rw [h.reads r hr, Option.map_some]

/-- Optional values are lawful with those that they hold. -/
theorem LawfulFrom.option {least : Nat} (hα : LawfulFrom α least) :
    LawfulFrom (Option α) least where
  sound := by
    intro P _ room d x? hroom h hd
    by_cases hnull : d = .null
    · subst hnull
      obtain rfl := Option.some.inj h
      exact sound_none
    · rw [ofDocument?_option_some hnull] at h
      obtain ⟨x, hx, rfl⟩ := Option.map_eq_some_iff.mp h
      exact sound_some (fun hx' => hnull (hα.null_of_toJson hx hx')) (hα.sound hroom hx hd)
  null_of_toJson := by
    intro room d x? h hx
    by_contra hnull
    rw [ofDocument?_option_some hnull] at h
    obtain ⟨x, hread, rfl⟩ := Option.map_eq_some_iff.mp h
    exact hnull (hα.null_of_toJson hread hx)

instance [Lawful α] : Lawful (Option α) := LawfulFrom.of_lawful.option.lawful

/-- A list is read back if each of its items is. -/
theorem mapM_eq_some_of_forall {β γ : Type} {f : β → Option γ} {g : γ → β} {xs : List γ}
    (h : ∀ x ∈ xs, f (g x) = some x) : (xs.map g).mapM f = some xs := by
  induction xs with
  | nil => rfl
  | cons x rest ih =>
      obtain ⟨hx, hrest⟩ := List.forall_mem_cons.mp h
      simp [hx, ih hrest]

/-- Every item of a list that was read was read from one of the originals. -/
theorem forall_of_mapM_eq_some {β γ : Type} {f : β → Option γ} {xs : List β} {ys : List γ}
    (h : xs.mapM f = some ys) : ∀ y ∈ ys, ∃ x ∈ xs, f x = some y := by
  induction xs generalizing ys with
  | nil =>
      obtain rfl : [] = ys := Option.some.inj h
      simp
  | cons x rest ih =>
      simp only [List.mapM_cons, Option.bind_eq_bind, Option.bind_eq_some_iff] at h
      obtain ⟨z, hz, zs, hzs, h⟩ := h
      obtain rfl : z :: zs = ys := Option.some.inj h
      intro y hy
      rcases List.mem_cons.mp hy with rfl | hy
      · exact ⟨x, by simp, hz⟩
      · obtain ⟨x', hx', hfx⟩ := ih hzs y hy
        exact ⟨x', List.mem_cons_of_mem x hx', hfx⟩

/-- A list of sound items is sound, with room for its bracket. -/
theorem sound_list {xs : List α} (h : ∀ x ∈ xs, Sound P room x) : Sound P (room + 1) xs := by
  constructor
  · intro r hr
    obtain ⟨r, rfl⟩ : ∃ n, r = n + 1 := ⟨r - 1, by omega⟩
    simp only [toJson, Json.list, Json.document, Json.documents_eq, ofDocument?, List.map_map]
    exact mapM_eq_some_of_forall fun x hx => (h x hx).reads r (by omega)
  · simp only [toJson, Json.list, Json.document, Json.documents_eq, List.map_map,
      Document.allNumbers_array, List.forall_mem_map]
    exact fun x hx => (h x hx).numbers

/-- The empty list is sound, with room for its bracket. -/
theorem sound_nil (h : 0 < room) : Sound P room ([] : List α) := by
  obtain ⟨r, rfl⟩ := Nat.exists_eq_succ_of_ne_zero h.ne'
  exact sound_list fun _ hx => absurd hx List.not_mem_nil

/-- The items of a list that was read are sound, with less room. -/
theorem forall_sound_of_list [NumberRange P] [Lawful α] {d : Document} {xs : List α}
    (h : ofDocument? room d = some xs) (hd : d.AllNumbers P) :
    ∃ r, room = r + 1 ∧ ∀ x ∈ xs, Sound P r x := by
  cases room with
  | zero => cases d <;> cases h
  | succ room =>
      cases d with
      | array items =>
          refine ⟨room, rfl, fun x hx => ?_⟩
          obtain ⟨d, hmem, hread⟩ := forall_of_mapM_eq_some h x hx
          exact Lawful.sound hread (Document.allNumbers_array.mp hd d hmem)
      | _ => cases h

instance [Lawful α] : Lawful (List α) where
  sound h hd := by
    obtain ⟨r, rfl, hall⟩ := forall_sound_of_list h hd
    exact sound_list hall
  null_of_toJson _ h := by cases h

end JsonForm

namespace Document

/-- Members with texts for keys are found as they are. -/
theorem keyed?_map (l : List (String × Document)) :
    keyed? (l.map fun e => (some e.1, e.2)) = some l := by
  rw [keyed?]
  exact JsonForm.mapM_eq_some_of_forall fun e _ => rfl

/-- The members whose keys are texts are members. -/
theorem mem_of_keyed? {members : List (Option String × Document)} {l : List (String × Document)}
    (h : keyed? members = some l) : ∀ e ∈ l, (some e.1, e.2) ∈ members := by
  intro e he
  obtain ⟨⟨k?, d⟩, hmem, hkey⟩ := JsonForm.forall_of_mapM_eq_some h e he
  obtain ⟨k, rfl, rfl⟩ := Option.map_eq_some_iff.mp hkey
  exact hmem

end Document

namespace JsonForm

variable {α : Type} [JsonForm α] {P : Number → Prop} {room : Nat}

/-- The members of the document of an object all have a name. -/
theorem document_object (members : List (String × Json)) :
    (Json.object members).document =
      .object ((members.map fun e => (e.1, e.2.document)).map fun e => (some e.1, e.2)) := by
  rw [Json.document, Json.memberDocuments_eq, List.map_map]
  rfl

/-- A map is read member by member. -/
theorem ofDocument?_keyMap {d : Document} {m : KeyMap α} (h : ofDocument? room d = some m) :
    ∃ r named entries, room = r + 1 ∧ (∃ members, d = .object members ∧
      Document.keyed? members = some named) ∧
      (named.mapM fun e => (ofDocument? r e.2).map (e.1, ·)) = some entries ∧
      m = KeyMap.ofEntries entries := by
  cases room with
  | zero => cases d <;> cases h
  | succ r =>
      cases d with
      | object members =>
          simp only [ofDocument?, Option.bind_eq_bind, Option.bind_eq_some_iff] at h
          obtain ⟨named, hnamed, entries, hentries, h⟩ := h
          exact ⟨r, named, entries, rfl, ⟨members, rfl, hnamed⟩, hentries, (Option.some.inj h).symm⟩
      | _ => cases h

/-- A map of sound values is sound, with room for its bracket. -/
theorem sound_map {m : KeyMap α} (h : ∀ e ∈ m.entries, Sound P room e.2) :
    Sound P (room + 1) m := by
  constructor
  · intro r hr
    obtain ⟨r, rfl⟩ : ∃ n, r = n + 1 := ⟨r - 1, by omega⟩
    have hentries : (m.entries.map fun e => (e.1, (toJson e.2).document)).mapM
        (fun e => (ofDocument? r e.2).map (e.1, ·)) = some m.entries :=
      mapM_eq_some_of_forall fun e he => by rw [(h e he).reads r (by omega), Option.map_some]
    have hkeyed := Document.keyed?_map (m.entries.map fun e => (e.1, (toJson e.2).document))
    rw [show toJson m = Json.object (m.entries.map fun e => (e.1, toJson e.2)) from rfl,
      document_object, List.map_map (l := m.entries)]
    refine (congrArg (Option.bind · _) hkeyed).trans ?_
    refine (congrArg (Option.bind · _) hentries).trans ?_
    exact congrArg some (KeyMap.ofEntries_entries m)
  · simp only [toJson, Json.map, Json.document, Json.memberDocuments_eq, List.map_map,
      Document.allNumbers_object, List.forall_mem_map]
    exact fun e he => (h e he).numbers

/-- The values of a map that was read are sound, if there was room enough for each. -/
theorem forall_sound_of_map [NumberRange P] {least : Nat} (hα : LawfulFrom α least) {d : Document}
    {m : KeyMap α} (h : ofDocument? room d = some m) (hroom : least < room) (hd : d.AllNumbers P) :
    ∃ r, room = r + 1 ∧ ∀ e ∈ m.entries, Sound P r e.2 := by
  obtain ⟨r, named, entries, rfl, ⟨members, rfl, hnamed⟩, hentries, rfl⟩ := ofDocument?_keyMap h
  refine ⟨r, rfl, fun e he => ?_⟩
  obtain ⟨x, hx, hread⟩ := forall_of_mapM_eq_some hentries e (KeyMap.mem_ofEntries he)
  obtain ⟨y, hy, rfl⟩ := Option.map_eq_some_iff.mp hread
  exact hα.sound (by omega) hy
    (Document.allNumbers_object.mp hd _ (Document.mem_of_keyed? hnamed x hx))

/-- Maps are lawful with the values that they hold, with room for a bracket. -/
theorem LawfulFrom.map {least : Nat} (hα : LawfulFrom α least) :
    LawfulFrom (KeyMap α) (least + 1) where
  sound hroom h hd := by
    obtain ⟨r, rfl, hall⟩ := forall_sound_of_map hα h hroom hd
    exact sound_map hall
  null_of_toJson _ h := by cases h

instance [Lawful α] : Lawful (KeyMap α) where
  sound := by
    intro P _ room d m h hd
    obtain ⟨r, _, _, rfl, -⟩ := ofDocument?_keyMap h
    exact LawfulFrom.of_lawful.map.sound (Nat.le_add_left 1 r) h hd
  null_of_toJson _ h := by cases h

end JsonForm

end ClusterSnapshot
