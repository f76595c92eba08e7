import ClusterSnapshot.Proofs.Json.Records

/-!
# How much room reading takes

Reading allows only so many brackets inside each other. A form *reads by depth* if room for the
brackets of a document is all the room it takes: with more of it the document is read just as well.
Every form is of that kind. A value that is sound with some room is therefore sound with as much as
its own brackets need.

## Main results

* `JsonForm.ReadsByDepth`: **more room than brackets makes no difference**, with an instance for
  every form but records.
* `RecordForm.readsByDepth`: records read by depth if their members do.
* `JsonForm.Sound.of_depth_le`: a sound value needs no more room than its brackets.
-/

namespace ClusterSnapshot

namespace Document

mutual

/-- How many brackets are open inside each other in a document. -/
def depth : Document → Nat
  | .array items => depthOfItems items + 1
  | .object members => depthOfMembers members + 1
  | _ => 0

/-- How many brackets are open inside each other in a list of items. -/
def depthOfItems : List Document → Nat
  | [] => 0
  | d :: rest => max (depth d) (depthOfItems rest)

/-- How many brackets are open inside each other in a list of members. -/
def depthOfMembers : List (Option String × Document) → Nat
  | [] => 0
  | (_, d) :: rest => max (depth d) (depthOfMembers rest)

end

/-- Items are nested as deep as the deepest of them. -/
theorem depthOfItems_le_iff {items : List Document} {room : Nat} :
    depthOfItems items ≤ room ↔ ∀ d ∈ items, d.depth ≤ room := by
  induction items with
  | nil => simp [depthOfItems]
  | cons d rest ih => simp [depthOfItems, ih]

/-- Members are nested as deep as the deepest of them. -/
theorem depthOfMembers_le_iff {members : List (Option String × Document)} {room : Nat} :
    depthOfMembers members ≤ room ↔ ∀ e ∈ members, e.2.depth ≤ room := by
  induction members with
  | nil => simp [depthOfMembers]
  | cons e rest ih => simp [depthOfMembers, ih]

/-- An array is one bracket around its items. -/
theorem depth_array_le_iff {items : List Document} {room : Nat} :
    depth (.array items) ≤ room + 1 ↔ ∀ d ∈ items, d.depth ≤ room := by
  rw [depth, Nat.add_le_add_iff_right, depthOfItems_le_iff]

/-- An object is one bracket around its members. -/
theorem depth_object_le_iff {members : List (Option String × Document)} {room : Nat} :
    depth (.object members) ≤ room + 1 ↔ ∀ e ∈ members, e.2.depth ≤ room := by
  rw [depth, Nat.add_le_add_iff_right, depthOfMembers_le_iff]

/-- An array needs room for its bracket. -/
theorem not_depth_array_le_zero {items : List Document} : ¬ depth (.array items) ≤ 0 :=
  Nat.not_succ_le_zero _

/-- An object needs room for its bracket. -/
theorem not_depth_object_le_zero {members : List (Option String × Document)} :
    ¬ depth (.object members) ≤ 0 :=
  Nat.not_succ_le_zero _

end Document

namespace JsonForm

open Document

/-- **Room for the brackets of a document is all that reading it takes.** -/
class ReadsByDepth (α : Type) [JsonForm α] : Prop where
  more : ∀ {room : Nat} {d : Document}, d.depth ≤ room →
    (ofDocument? (room + 1) d : Option α) = ofDocument? room d

variable {α : Type} [JsonForm α]

/-- As soon as there is room for the brackets, more room makes no difference. -/
theorem ofDocument?_of_depth_le [ReadsByDepth α] {room room' : Nat} {d : Document}
    (h : d.depth ≤ room) (hle : room ≤ room') :
    (ofDocument? room' d : Option α) = ofDocument? room d := by
  induction hle with
  | refl => rfl
  | step hle ih => rw [ReadsByDepth.more (h.trans hle), ih]

/-- **A sound value needs no more room than its brackets.** -/
theorem Sound.of_depth_le [ReadsByDepth α] {P : Number → Prop} {room room' : Nat} {x : α}
    (h : Sound P room x) (hdepth : (toJson x).document.depth ≤ room') : Sound P room' x := by
  refine ⟨fun r hr => ?_, h.numbers⟩
  rw [← ofDocument?_of_depth_le (hdepth.trans hr) (Nat.le_max_left r room)]
  exact h.reads _ (Nat.le_max_right r room)

/-! ### Plain values -/

instance : ReadsByDepth String := ⟨fun {_ d} _ => by cases d <;> rfl⟩

instance : ReadsByDepth Bool := ⟨fun {_ d} _ => by cases d <;> rfl⟩

instance : ReadsByDepth Int64 := ⟨fun _ => rfl⟩

end JsonForm

namespace Document

/-- Items that are read alike in two rooms are so as a list. -/
theorem values?_congr {room room' : Nat} {items : List Document}
    (h : ∀ d ∈ items, d.value? room = d.value? room') :
    values? room items = values? room' items := by
  induction items with
  | nil => rfl
  | cons d rest ih =>
      obtain ⟨hd, hrest⟩ := List.forall_mem_cons.mp h
      rw [values?, values?, hd, ih hrest]

/-- Members that are read alike in two rooms are so as a list. -/
theorem members?_congr {room room' : Nat} {members : List (Option String × Document)}
    (h : ∀ e ∈ members, e.2.value? room = e.2.value? room') :
    members? room members = members? room' members := by
  induction members with
  | nil => rfl
  | cons e rest ih =>
      obtain ⟨he, hrest⟩ := List.forall_mem_cons.mp h
      rw [members?, members?, he, ih hrest]

/-- A free value takes no more room than the brackets of its document. -/
theorem value?_more {room : Nat} {d : Document} (h : d.depth ≤ room) :
    d.value? (room + 1) = d.value? room := by
  induction room generalizing d with
  | zero =>
      cases d with
      | array items => exact absurd h not_depth_array_le_zero
      | object members => exact absurd h not_depth_object_le_zero
      | _ => rfl
  | succ room ih =>
      cases d with
      | array items =>
          rw [value?, value?, values?_congr fun d hd => ih (depth_array_le_iff.mp h d hd)]
      | object members =>
          rw [value?, value?, members?_congr fun e he => ih (depth_object_le_iff.mp h e he)]
      | _ => rfl

end Document

namespace JsonForm

open Document

instance : ReadsByDepth Json := ⟨value?_more⟩

/-! ### Options, lists and maps -/

variable {α : Type} [JsonForm α]

instance [ReadsByDepth α] : ReadsByDepth (Option α) where
  more := by
    intro room d h
    by_cases hnull : d = .null
    · subst hnull
      rfl
    · rw [ofDocument?_option_some hnull, ofDocument?_option_some hnull, ReadsByDepth.more h]

/-- Functions that agree on a list agree on it as a whole. -/
theorem mapM_congr {β γ : Type} {f g : β → Option γ} {xs : List β} (h : ∀ x ∈ xs, f x = g x) :
    xs.mapM f = xs.mapM g := by
  induction xs with
  | nil => rfl
  | cons x rest ih =>
      obtain ⟨hx, hrest⟩ := List.forall_mem_cons.mp h
      rw [List.mapM_cons, List.mapM_cons, hx, ih hrest]

instance [ReadsByDepth α] : ReadsByDepth (List α) where
  more := by
    intro room d h
    cases d with
    | array items =>
        cases room with
        | zero => exact absurd h not_depth_array_le_zero
        | succ room =>
            exact mapM_congr fun d hd => ReadsByDepth.more (depth_array_le_iff.mp h d hd)
    | _ => cases room <;> rfl

instance [ReadsByDepth α] : ReadsByDepth (KeyMap α) where
  more := by
    intro room d h
    cases d with
    | object members =>
        cases room with
        | zero => exact absurd h not_depth_object_le_zero
        | succ room =>
            simp only [ofDocument?, Option.bind_eq_bind]
            refine Option.bind_congr fun named hnamed => ?_
            refine congrArg (Option.bind · _) (mapM_congr fun e he => ?_)
            have hdepth := depth_object_le_iff.mp h _ (mem_of_keyed? hnamed e he)
            rw [ReadsByDepth.more hdepth]
    | _ => cases room <;> rfl

/-- A map is nested one bracket deeper than its values. -/
theorem depth_keyMap_le_iff {m : KeyMap α} {room : Nat} :
    (toJson m).document.depth ≤ room + 1 ↔ ∀ e ∈ m.entries, (toJson e.2).document.depth ≤ room := by
  simp only [toJson, Json.map, Json.document, Json.memberDocuments_eq, List.map_map,
    depth_object_le_iff, List.forall_mem_map]
  rfl

end JsonForm

/-! ### Members -/

/-- A member that reads by depth. -/
structure Member.ReadsByDepth {α : Type} (m : Member α) : Prop where
  more : ∀ {room : Nat} {d? : Option Document}, (∀ d ∈ d?, d.depth ≤ room) →
    m.read? (room + 1) d? = m.read? room d?

namespace Member

variable {α : Type} [JsonForm α] [JsonForm.ReadsByDepth α] {name : String}

/-- A member that is required reads by depth. -/
theorem readsByDepth_required : (required name : Member α).ReadsByDepth where
  more {room d?} h := by
    cases d? with
    | none => rfl
    | some d => exact JsonForm.ReadsByDepth.more (h d rfl)

/-- A member with a default reads by depth. -/
theorem readsByDepth_defaulted {default : α} : (defaulted name default).ReadsByDepth where
  more {room d?} h := by
    cases d? with
    | none => rfl
    | some d => exact JsonForm.ReadsByDepth.more (h d rfl)

/-- A member that is absent when it is empty reads by depth. -/
theorem readsByDepth_unlessEmpty {empty : α} {isEmpty : α → Bool} :
    (unlessEmpty name empty isEmpty).ReadsByDepth where
  more {room d?} h := by
    cases d? with
    | none => rfl
    | some d => exact JsonForm.ReadsByDepth.more (h d rfl)

/-- An optional member reads by depth. -/
theorem readsByDepth_optional : (optional name : Member (Option α)).ReadsByDepth where
  more {room d?} h := by
    cases d? with
    | none => rfl
    | some d => exact JsonForm.ReadsByDepth.more (α := Option α) (h d rfl)

end Member

/-- Members that read by depth. -/
structure Members.ReadsByDepth {ρ β : Type} (ms : Members ρ β) : Prop where
  more : ∀ {room : Nat} {find : String → Option Document},
    (∀ name, ∀ d ∈ find name, d.depth ≤ room) → ms.read? (room + 1) find = ms.read? room find

namespace Members

variable {ρ σ α β γ : Type}

/-- No members at all read by depth. -/
theorem readsByDepth_build {x : β} : (build x : Members ρ β).ReadsByDepth := ⟨fun _ => rfl⟩

/-- One more member that reads by depth. -/
theorem ReadsByDepth.and {ms : Members ρ (α → β)} {m : Member α} {field : ρ → α}
    (h : ms.ReadsByDepth) (hm : m.ReadsByDepth) : (ms.and m field).ReadsByDepth where
  more hfind := by simp only [Members.and, h.more hfind, hm.more (hfind m.name)]

/-- A part whose members read by depth. -/
theorem ReadsByDepth.andPart {ms : Members ρ (α → β)} {part : Members σ (γ → α)} {field : ρ → σ}
    (h : ms.ReadsByDepth) (hpart : part.ReadsByDepth) : (ms.andPart part field).ReadsByDepth where
  more hfind := by simp only [Members.andPart, h.more hfind, hpart.more hfind]

/-- What is made of members does not matter. -/
theorem ReadsByDepth.through {ms : Members ρ α} {f : α → β} (h : ms.ReadsByDepth) :
    (ms.through f).ReadsByDepth where
  more hfind := by simp only [Members.through, h.more hfind]

end Members

/-! ### Records -/

namespace RecordForm

open Document

variable {ρ : Type} {form : RecordForm ρ} {room : Nat}

/-- The named members of a document lie one bracket deeper. -/
theorem depth_of_named? {d : Document} {named : List (String × Document)}
    (h : form.named? d = some named) (hd : d.depth ≤ room) :
    ∃ r, room = r + 1 ∧ ∀ e ∈ named, e.2.depth ≤ r := by
  cases d with
  | object members =>
      cases room with
      | zero => exact absurd hd not_depth_object_le_zero
      | succ room =>
          simp only [named?, Option.bind_eq_bind, Option.bind_eq_some_iff] at h
          obtain ⟨l, hl, h⟩ := h
          split at h
          · obtain rfl := Option.some.inj h
            exact ⟨room, rfl, fun e he => depth_object_le_iff.mp hd _ (mem_of_keyed? hl e he)⟩
          · cases h
  | array items =>
      cases room with
      | zero => exact absurd hd not_depth_array_le_zero
      | succ room =>
          simp only [named?] at h
          split at h
          · cases h
          · obtain rfl := Option.some.inj h
            exact ⟨room, rfl, fun e he => depth_array_le_iff.mp hd _ (List.of_mem_zip he).2⟩
  | _ => cases h

/-- The rest of a record is read alike with more room than its brackets. -/
theorem restOf?_more {named : List (String × Document)} (h : ∀ e ∈ named, e.2.depth ≤ room) :
    form.restOf? (room + 1) named = form.restOf? room named := by
  rw [restOf?, restOf?]
  cases form.rest? with
  | none => rfl
  | some _ =>
      refine congrArg (Option.bind · _) (JsonForm.mapM_congr fun e he => ?_)
      exact congrArg (Option.map (e.1, ·)) (value?_more (h e (List.mem_filter.mp he).1))

/-- **Records read by depth if their members do.** -/
theorem readsByDepth (h : form.members.ReadsByDepth) :
    @JsonForm.ReadsByDepth ρ form.jsonForm := by
  refine @JsonForm.ReadsByDepth.mk ρ form.jsonForm fun {room} {d} hd => ?_
  change form.ofDocument? (room + 1) d = form.ofDocument? room d
  cases hnamed : form.named? d with
  | none => cases room <;> simp [ofDocument?, hnamed]
  | some named =>
      obtain ⟨r, rfl, hdepth⟩ := depth_of_named? hnamed hd
      have hfind : ∀ name, ∀ d ∈ KeyMap.valueAt? name named, d.depth ≤ r := fun name d hd =>
        hdepth _ (KeyMap.mem_of_valueAt?_eq_some hd)
      simp only [ofDocument?, hnamed, Option.bind_eq_bind, Option.bind_some, h.more hfind,
        restOf?_more hdepth]

end RecordForm

end ClusterSnapshot
