import ClusterSnapshot.Proofs.KeyMap
import ClusterSnapshot.Proofs.Object.Contents
import ClusterSnapshot.Store.Basic

/-!
# The objects of a store

A store keeps texts. Its objects are what these texts denote, by key. As long as every text can be
read, look-up, listing and removal are those of the map of objects, and so a store may be thought of
as such a map.

## Main results

* `Store.get_eq`, `Store.list_eq`: **what a store answers, by its objects**.
* `Store.objects_remove`: what a removal does to the objects.
-/

namespace ClusterSnapshot

/-- Without a namespace there is none to look in. -/
theorem Kind.scope_none (k : Kind) : k.scope none = none := by
  rw [scope]
  split <;> rfl

namespace Store

/-- The objects of a kind by key, so far as their texts can be read. -/
def objects (s : Store) (k : Kind) : KeyMap (Stored k) :=
  (s.tables.get k).filterMap JsonForm.ofText?

/-- Every text of an object can be read. -/
def Readable (s : Store) : Prop :=
  ∀ k key text, (s.tables.get k).find? key = some text →
    ∃ o : Stored k, JsonForm.ofText? text = some o

variable {s : Store}

/-- A text that denotes a value is decoded as it. -/
theorem decode_ok {α : Type} [JsonForm α] {text : String} {x : α}
    (h : JsonForm.ofText? text = some x) : (decode text : Except StoreError α) = .ok x := by
  rw [decode, h]

/-- The object at a key is what the text there denotes. -/
theorem find?_objects (s : Store) (k : Kind) (key : String) :
    (s.objects k).find? key = ((s.tables.get k).find? key).bind JsonForm.ofText? :=
  KeyMap.find?_filterMap _ _ _

/-- **A store answers a look-up from its objects.** -/
theorem get_eq (h : s.Readable) (k : Kind) (name : String) (ns? : Option String) :
    s.get k name ns? = .ok ((s.objects k).find? (objectKey (k.scope ns?) name)) := by
  rw [get, find?_objects]
  cases htext : (s.tables.get k).find? (objectKey (k.scope ns?) name) with
  | none => rfl
  | some text =>
      obtain ⟨o, ho⟩ := h k _ text htext
      simp only [Option.bind_some, ho, decode_ok ho]
      rfl

/-- Texts that can be read are decoded one by one. -/
theorem mapM_decode {α : Type} [JsonForm α] {l : List (String × String)}
    (h : ∀ e ∈ l, ∃ x : α, JsonForm.ofText? e.2 = some x) :
    l.mapM (fun e => (decode e.2 : Except StoreError α)) =
      .ok (l.filterMap fun e => JsonForm.ofText? e.2) := by
  induction l with
  | nil => rfl
  | cons e rest ih =>
      obtain ⟨⟨x, hx⟩, hrest⟩ := List.forall_mem_cons.mp h
      rw [List.mapM_cons, decode_ok hx, ih hrest, List.filterMap_cons]
      simp only [hx]
      rfl

/-- The objects of a list of entries are their texts read one by one. -/
theorem map_snd_filterMap {α β : Type} (f : α → Option β) (l : List (String × α)) :
    (l.filterMap fun e => (f e.2).map (e.1, ·)).map (·.2) = l.filterMap fun e => f e.2 := by
  rw [List.map_filterMap]
  congr 1
  funext e
  cases f e.2 <;> rfl

/-- The objects of a kind by increasing key, those of a namespace or all. -/
def listed (s : Store) (k : Kind) (ns? : Option String) : List (Stored k) :=
  match k.scope ns? with
  | some ns => ((s.objects k).entries.filter fun e => keyInNamespace ns e.1).map (·.2)
  | none => (s.objects k).values

/-- Without a namespace all objects of a kind are listed. -/
theorem listed_none (s : Store) (k : Kind) : s.listed k none = (s.objects k).values := by
  rw [listed, k.scope_none]

/-- **A store lists its objects in order of their keys.** -/
theorem list_eq (h : s.Readable) (k : Kind) (ns? : Option String) :
    s.list k ns? = .ok (s.listed k ns?) := by
  have hread : ∀ e ∈ (s.tables.get k).entries, ∃ o : Stored k, JsonForm.ofText? e.2 = some o :=
    fun e he => h k e.1 e.2 ((KeyMap.mem_entries_iff _).mp he)
  rw [list, listed]
  cases k.scope ns? with
  | none => exact (mapM_decode hread).trans (congrArg _ (map_snd_filterMap _ _).symm)
  | some ns =>
      refine (mapM_decode fun e he => hread e (List.mem_of_mem_filter he)).trans ?_
      rw [← map_snd_filterMap]
      congr 2
      simp only [objects, KeyMap.filterMap, List.filter_filterMap, List.filterMap_filter]
      congr 1
      funext e
      cases hread : (JsonForm.ofText? e.2 : Option (Stored k)) with
      | none => cases keyInNamespace ns e.1 <;> simp
      | some o => cases hk : keyInNamespace ns e.1 <;> simp [Option.filter, hk]

/-! ### Changing a table -/

/-- The store with another table for a kind. -/
def withTable (s : Store) (k : Kind) (table : KeyMap String) : Store :=
  { s with tables := s.tables.set k table }

/-- Another table leaves the objects of other kinds alone. -/
theorem objects_withTable_of_ne {j k : Kind} (h : k ≠ j) (table : KeyMap String) :
    (s.withTable k table).objects j = s.objects j := by
  simp only [objects, withTable]
  rw [ByKind.get_set_of_ne _ _ h]

/-- The objects of a kind are those of its table. -/
theorem objects_withTable (k : Kind) (table : KeyMap String) :
    (s.withTable k table).objects k = table.filterMap JsonForm.ofText? := by
  rw [objects, withTable, ByKind.get_set_self]

/-- To remove an object is to remove its text, and tells whether there was one. -/
theorem remove_eq (s : Store) (k : Kind) (name : String) (ns? : Option String) :
    s.remove k name ns? = ((s.tables.get k).contains (objectKey (k.scope ns?) name),
      s.withTable k ((s.tables.get k).erase (objectKey (k.scope ns?) name))) := rfl

/-- A removal takes the key out of the objects of its kind and leaves all others. -/
theorem objects_remove (s : Store) (k : Kind) (name : String) (ns? : Option String) :
    (s.remove k name ns?).2.objects k = (s.objects k).erase (objectKey (k.scope ns?) name) ∧
      ∀ j, k ≠ j → (s.remove k name ns?).2.objects j = s.objects j := by
  rw [remove_eq]
  exact ⟨(objects_withTable k _).trans (KeyMap.filterMap_erase _ _ _),
    fun j hj => objects_withTable_of_ne hj _⟩

end Store

end ClusterSnapshot
