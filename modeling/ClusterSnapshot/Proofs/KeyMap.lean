import ClusterSnapshot.KeyMap

/-!
# More about key maps

What the updates of a map do to its entries, and look-up in lists of entries put together.

## Main results

* `KeyMap.mem_ofEntries`: a map built from entries has no others.
* `KeyMap.mem_eraseAll`: what is left after erasing keys.
* `KeyMap.find?_filterMap`: the part of a map that a partial function leaves.
-/

namespace ClusterSnapshot

namespace KeyMap

universe u v

variable {α : Type u} {β : Type v}

/-- The first of two lists of entries comes first. -/
theorem valueAt?_append (k : String) (l₁ l₂ : List (String × α)) :
    valueAt? k (l₁ ++ l₂) = (valueAt? k l₁).or (valueAt? k l₂) := by
  induction l₁ with
  | nil => simp [valueAt?]
  | cons e rest ih =>
      obtain ⟨k', x⟩ := e
      simp only [List.cons_append, valueAt?]
      split <;> simp [ih]

/-- Nothing is at a key without an entry. -/
theorem valueAt?_eq_none {k : String} {l : List (String × α)} (h : k ∉ l.map (·.1)) :
    valueAt? k l = none := by
  cases hv : valueAt? k l with
  | none => rfl
  | some x => exact absurd (List.mem_map.mpr ⟨_, mem_of_valueAt?_eq_some hv, rfl⟩) h

/-- A map built from entries has no others. -/
theorem mem_ofEntries {l : List (String × α)} {e : String × α} (h : e ∈ (ofEntries l).entries) :
    e ∈ l := by
  suffices general : ∀ (l : List (String × α)) (m : KeyMap α),
      e ∈ (l.foldl (fun m e => m.insert e.1 e.2) m).entries → e ∈ m.entries ∨ e ∈ l by
    simpa [empty] using general l empty h
  intro l
  induction l with
  | nil => intro m h; exact .inl h
  | cons x rest ih =>
      intro m h
      rcases ih _ h with h | h
      · rcases mem_insertEntries h with rfl | h
        · exact .inr (by simp)
        · exact .inl h
      · exact .inr (List.mem_cons_of_mem x h)

/-- The entries after a removal are those with other keys. -/
theorem mem_erase {m : KeyMap α} {k : String} {e : String × α} :
    e ∈ (m.erase k).entries ↔ e ∈ m.entries ∧ e.1 ≠ k := by
  simp [erase]

/-- What is left after erasing keys. -/
theorem mem_eraseAll {m : KeyMap α} {ks : List String} {e : String × α} :
    e ∈ (m.eraseAll ks).entries ↔ e ∈ m.entries ∧ e.1 ∉ ks := by
  rw [eraseAll]
  induction ks generalizing m with
  | nil => simp
  | cons k ks ih =>
      rw [List.foldl_cons, ih, mem_erase, List.mem_cons, not_or, and_assoc]

/-- What is found after removals is what was found before, but for the keys that are gone. -/
theorem find?_eraseAll (m : KeyMap α) (ks : List String) (k : String) :
    (m.eraseAll ks).find? k = if k ∈ ks then none else m.find? k := by
  refine Option.ext fun x => ?_
  rw [← mem_entries_iff, mem_eraseAll, mem_entries_iff]
  split <;> simp [*]

/-! ### The part that a partial function leaves -/

/-- The map of the values that `f` gives, without the keys for which it gives none. -/
def filterMap (f : α → Option β) (m : KeyMap α) : KeyMap β :=
  ⟨m.entries.filterMap fun e => (f e.2).map (e.1, ·), by
    refine List.Pairwise.filterMap _ (fun a b hlt a' ha' b' hb' => ?_) m.sorted
    obtain ⟨_, -, rfl⟩ := Option.map_eq_some_iff.mp ha'
    obtain ⟨_, -, rfl⟩ := Option.map_eq_some_iff.mp hb'
    exact hlt⟩

/-- What is found in a map that was made of another is made of what is found there. -/
theorem find?_filterMap (f : α → Option β) (m : KeyMap α) (k : String) :
    (m.filterMap f).find? k = (m.find? k).bind f := by
  refine Option.ext fun y => ?_
  rw [← mem_entries_iff, Option.bind_eq_some_iff]
  simp only [filterMap, List.mem_filterMap, Option.map_eq_some_iff, Prod.mk.injEq]
  constructor
  · rintro ⟨e, he, z, hz, rfl, rfl⟩
    exact ⟨e.2, (mem_entries_iff m).mp he, hz⟩
  · rintro ⟨x, hx, hy⟩
    exact ⟨(k, x), (mem_entries_iff m).mpr hx, y, hy, rfl, rfl⟩

/-- To insert and then to convert is to convert and then to insert. -/
theorem filterMap_insert (f : α → Option β) (m : KeyMap α) (k : String) {x : α} {y : β}
    (h : f x = some y) : (m.insert k x).filterMap f = (m.filterMap f).insert k y := by
  refine ext_find? fun j => ?_
  rw [find?_filterMap, find?_insert, find?_insert, find?_filterMap]
  split
  · exact h
  · rfl

/-- To remove and then to convert is to convert and then to remove. -/
theorem filterMap_erase (f : α → Option β) (m : KeyMap α) (k : String) :
    (m.erase k).filterMap f = (m.filterMap f).erase k := by
  refine ext_find? fun j => ?_
  rw [find?_filterMap, find?_erase, find?_erase, find?_filterMap]
  split <;> rfl

/-- The values that are left, in order of their keys. -/
theorem values_filterMap (f : α → Option β) (m : KeyMap α) :
    (m.filterMap f).values = m.values.filterMap f := by
  simp only [values, filterMap]
  rw [List.map_filterMap, List.filterMap_map]
  congr 1
  funext e
  cases h : f e.2 <;> simp [h]

/-- The values that are kept, in order of their keys. -/
theorem values_filter (p : α → Bool) (m : KeyMap α) :
    (m.filterMap (Option.guard p)).values = m.values.filter p := by
  rw [values_filterMap, List.filterMap_eq_filter]

/-- To erase a key that is not there changes nothing. -/
theorem erase_of_not_contains {m : KeyMap α} {key : String}
    (h : m.contains key = false) : m.erase key = m := by
  refine ext_find? fun j => ?_
  rw [find?_erase]
  split
  · rename_i hj
    rw [← hj]
    exact (Option.isNone_iff_eq_none.mp (by simpa [contains] using h)).symm
  · rfl

/-- To erase keys that are not there changes nothing. -/
theorem eraseAll_eq_self {m : KeyMap α} {ks : List String} (h : ∀ e ∈ m.entries, e.1 ∉ ks) :
    m.eraseAll ks = m := by
  refine ext_find? fun k => Option.ext fun x => ?_
  rw [← mem_entries_iff, ← mem_entries_iff, mem_eraseAll]
  exact ⟨fun he => he.1, fun he => ⟨he, h _ he⟩⟩

/-- To remove keys once more changes nothing. -/
theorem eraseAll_eraseAll (m : KeyMap α) (ks : List String) :
    (m.eraseAll ks).eraseAll ks = m.eraseAll ks :=
  eraseAll_eq_self fun _ he => (mem_eraseAll.mp he).2

/-- A key that is inserted and then removed might as well not have been inserted. -/
theorem eraseAll_insert (m : KeyMap α) (ks : List String) (k : String) (x : α) :
    (m.insert k x).eraseAll ks = if k ∈ ks then m.eraseAll ks else (m.eraseAll ks).insert k x := by
  refine ext_find? fun j => ?_
  by_cases hk : k ∈ ks
  · rw [if_pos hk, find?_eraseAll, find?_eraseAll, find?_insert]
    by_cases hj : j ∈ ks
    · rw [if_pos hj, if_pos hj]
    · rw [if_neg hj, if_neg hj, if_neg fun heq : k = j => hj (heq ▸ hk)]
  · rw [if_neg hk, find?_eraseAll, find?_insert, find?_insert, find?_eraseAll]
    by_cases hkj : k = j
    · rw [if_pos hkj, if_pos hkj, if_neg (hkj ▸ hk)]
    · rw [if_neg hkj, if_neg hkj]

/-- To erase keys from a map is to build it without their entries. -/
theorem eraseAll_ofEntries (l : List (String × α)) (ks : List String) :
    (ofEntries l).eraseAll ks = ofEntries (l.filter fun e => e.1 ∉ ks) := by
  have hempty : (empty : KeyMap α).eraseAll ks = empty :=
    eraseAll_eq_self fun _ he => absurd he List.not_mem_nil
  suffices general : ∀ (l : List (String × α)) (m : KeyMap α),
      (l.foldl (fun m e => m.insert e.1 e.2) m).eraseAll ks =
        (l.filter fun e => e.1 ∉ ks).foldl (fun m e => m.insert e.1 e.2) (m.eraseAll ks) by
    rw [ofEntries, ofEntries, general, hempty]
  intro l
  induction l with
  | nil => exact fun m => rfl
  | cons e rest ih =>
      intro m
      rw [List.foldl_cons, ih, eraseAll_insert, List.filter_cons]
      by_cases he : e.1 ∈ ks
      · rw [if_pos he, if_neg (by simpa using he)]
      · rw [if_neg he, if_pos (by simpa using he), List.foldl_cons]

/-- The values of a map are those that are found. -/
theorem mem_values {m : KeyMap α} {x : α} : x ∈ m.values ↔ ∃ k, m.find? k = some x := by
  simp only [values, List.mem_map, Prod.exists, exists_eq_right, mem_entries_iff]

/-- Keys are listed once. -/
theorem nodup_keys (m : KeyMap α) : (m.entries.map (·.1)).Nodup := by
  rw [List.Nodup, List.pairwise_map]
  refine m.sorted.imp fun {a b} hlt heq => ?_
  rw [heq] at hlt
  exact String.lt_irrefl _ hlt

end KeyMap

end ClusterSnapshot
