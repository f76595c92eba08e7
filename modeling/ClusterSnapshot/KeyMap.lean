/-!
# Key maps

A `KeyMap α` is a finite map from texts to values of `α`, kept as the list of its entries in
strictly increasing order of keys (order of code points). Every place where the library shows a
map shows it in this order, so the order is part of the type, and two maps with the same look-ups
are equal.

## Main results

* `KeyMap.find?_insert`, `KeyMap.find?_erase`: the two updates seen through look-up.
* `KeyMap.ext_find?`: a map is determined by its look-ups.
* `KeyMap.ofEntries_entries`: building a map from its own entries gives it back.
-/

namespace ClusterSnapshot

universe u v

/-- Of two texts neither of which is smaller, neither differs from the other. -/
theorem text_lt_of_not_lt {a b : String} (h : ¬ a < b) (hne : a ≠ b) : b < a := by
  grind

/-- A finite map from texts to values, its entries listed by increasing key. -/
structure KeyMap (α : Type u) where
  /-- The entries, smallest key first. -/
  entries : List (String × α)
  /-- Keys increase strictly along the list. -/
  sorted : entries.Pairwise (fun a b => a.1 < b.1)

namespace KeyMap

variable {α : Type u} {β : Type v}

/-- Entries with the value at `k` set to `x`: in place if `k` occurs, else where it belongs. -/
def insertEntries (k : String) (x : α) : List (String × α) → List (String × α)
  | [] => [(k, x)]
  | (k', x') :: rest =>
    if k < k' then (k, x) :: (k', x') :: rest
    else if k = k' then (k, x) :: rest
    else (k', x') :: insertEntries k x rest

/-- The value of the first entry with key `k`. -/
def valueAt? (k : String) : List (String × α) → Option α
  | [] => none
  | (k', x) :: rest => if k' = k then some x else valueAt? k rest

/-- Every entry after an insertion is the new one or was there before. -/
theorem mem_insertEntries {k : String} {x : α} {l : List (String × α)} {e : String × α}
    (h : e ∈ insertEntries k x l) : e = (k, x) ∨ e ∈ l := by
  induction l with
  | nil => simpa [insertEntries] using h
  | cons hd tl ih =>
    obtain ⟨k', x'⟩ := hd
    rw [insertEntries] at h
    split at h
    · simpa using h
    · split at h
      · grind
      · grind

/-- An insertion leaves entries in order. -/
theorem pairwise_insertEntries {k : String} {x : α} {l : List (String × α)}
    (h : l.Pairwise (fun a b => a.1 < b.1)) :
    (insertEntries k x l).Pairwise (fun a b => a.1 < b.1) := by
  induction l with
  | nil => simp [insertEntries]
  | cons hd tl ih =>
    obtain ⟨k', x'⟩ := hd
    rw [List.pairwise_cons] at h
    obtain ⟨hhd, htl⟩ := h
    rw [insertEntries]
    split
    · rename_i hlt
      refine List.pairwise_cons.mpr ⟨fun e he => ?_, List.pairwise_cons.mpr ⟨hhd, htl⟩⟩
      rcases List.mem_cons.mp he with rfl | he
      · exact hlt
      · exact String.lt_trans hlt (hhd e he)
    · split
      · rename_i heq
        exact List.pairwise_cons.mpr ⟨fun e he => heq ▸ hhd e he, htl⟩
      · rename_i hlt hne
        refine List.pairwise_cons.mpr ⟨fun e he => ?_, ih htl⟩
        rcases mem_insertEntries he with rfl | he
        · exact text_lt_of_not_lt hlt hne
        · exact hhd e he

/-- After an insertion the new value is at its key, and all other keys are as before. -/
theorem valueAt?_insertEntries (k j : String) (x : α) (l : List (String × α)) :
    valueAt? j (insertEntries k x l) = if k = j then some x else valueAt? j l := by
  induction l with
  | nil => simp [insertEntries, valueAt?]
  | cons hd tl ih =>
    obtain ⟨k', x'⟩ := hd
    rw [insertEntries]
    split
    · simp [valueAt?]
    · split <;> grind [valueAt?]

/-- The map without entries. -/
def empty : KeyMap α := ⟨[], List.Pairwise.nil⟩

instance : EmptyCollection (KeyMap α) := ⟨empty⟩

instance : Inhabited (KeyMap α) := ⟨empty⟩

/-- The value at `k`, if there is one. -/
def find? (m : KeyMap α) (k : String) : Option α := valueAt? k m.entries

/-- Whether `k` has a value. -/
def contains (m : KeyMap α) (k : String) : Bool := (m.find? k).isSome

/-- The map with the value at `k` set to `x`. -/
def insert (m : KeyMap α) (k : String) (x : α) : KeyMap α :=
  ⟨insertEntries k x m.entries, pairwise_insertEntries m.sorted⟩

/-- The map without a value at `k`. -/
def erase (m : KeyMap α) (k : String) : KeyMap α :=
  ⟨m.entries.filter (fun e => e.1 ≠ k), m.sorted.filter _⟩

/-- The map without values at any of `ks`. -/
def eraseAll (m : KeyMap α) (ks : List String) : KeyMap α := ks.foldl erase m

/-- The map of a list of entries, in which the last entry of a key counts. -/
def ofEntries (l : List (String × α)) : KeyMap α := l.foldl (fun m e => m.insert e.1 e.2) empty

/-- The number of entries. -/
def size (m : KeyMap α) : Nat := m.entries.length

/-- Whether there is no entry. -/
def isEmpty (m : KeyMap α) : Bool := m.entries.isEmpty

/-- The values in order of their keys. -/
def values (m : KeyMap α) : List α := m.entries.map (·.2)

/-- The map with every value sent through `f`. -/
def map (f : α → β) (m : KeyMap α) : KeyMap β :=
  ⟨m.entries.map (fun e => (e.1, f e.2)),
    m.sorted.map _ (fun _ _ h => h)⟩

instance [DecidableEq α] : DecidableEq (KeyMap α) := fun m n =>
  decidable_of_iff (m.entries = n.entries) <| by cases m; cases n; simp

/-! ### Look-up after an update -/

/-- Maps with the same entries are the same. -/
theorem ext_entries {m n : KeyMap α} (h : m.entries = n.entries) : m = n := by
  cases m; cases n; simp_all

/-- Nothing is found in an empty map. -/
@[simp] theorem find?_empty (k : String) : (empty : KeyMap α).find? k = none := rfl

/-- What is found after an insertion is the new value, or what was found before. -/
theorem find?_insert (m : KeyMap α) (k j : String) (x : α) :
    (m.insert k x).find? j = if k = j then some x else m.find? j :=
  valueAt?_insertEntries k j x m.entries

/-- The value that was inserted is found. -/
@[simp] theorem find?_insert_self (m : KeyMap α) (k : String) (x : α) :
    (m.insert k x).find? k = some x := by
  simp [find?_insert]

/-- An insertion leaves other keys alone. -/
theorem find?_insert_of_ne (m : KeyMap α) {k j : String} (x : α) (h : k ≠ j) :
    (m.insert k x).find? j = m.find? j := by
  simp [find?_insert, h]

/-- Without the entries of a key, nothing is at that key, and all other keys are as before. -/
theorem valueAt?_filter (k j : String) (l : List (String × α)) :
    valueAt? j (l.filter (fun e => e.1 ≠ k)) = if k = j then none else valueAt? j l := by
  induction l with
  | nil => simp [valueAt?]
  | cons hd tl ih =>
    obtain ⟨k', x'⟩ := hd
    by_cases h : k' = k <;> grind [valueAt?]

/-- What is found after a removal is what was found before, but for the key that is gone. -/
theorem find?_erase (m : KeyMap α) (k j : String) :
    (m.erase k).find? j = if k = j then none else m.find? j :=
  valueAt?_filter k j m.entries

/-- The value of an entry is at its key, if entries are in order. -/
theorem valueAt?_eq_some_of_mem {l : List (String × α)}
    (h : l.Pairwise (fun a b => a.1 < b.1)) {k : String} {x : α} (hm : (k, x) ∈ l) :
    valueAt? k l = some x := by
  induction l with
  | nil => simp at hm
  | cons hd tl ih =>
    obtain ⟨k', x'⟩ := hd
    rw [List.pairwise_cons] at h
    rcases List.mem_cons.mp hm with heq | hmem
    · cases heq; simp [valueAt?]
    · have hlt : k' < k := h.1 (k, x) hmem
      have hne : k' ≠ k := fun he => String.lt_irrefl k (he ▸ hlt)
      simp [valueAt?, hne, ih h.2 hmem]

/-- The value at a key is that of an entry. -/
theorem mem_of_valueAt?_eq_some {l : List (String × α)} {k : String} {x : α}
    (h : valueAt? k l = some x) : (k, x) ∈ l := by
  induction l with
  | nil => simp [valueAt?] at h
  | cons hd tl ih =>
    obtain ⟨k', x'⟩ := hd
    rw [valueAt?] at h
    split at h
    · rename_i heq; cases h; simp [heq]
    · exact List.mem_cons_of_mem _ (ih h)

/-- An entry is listed exactly when its key is found with its value. -/
theorem mem_entries_iff (m : KeyMap α) {k : String} {x : α} :
    (k, x) ∈ m.entries ↔ m.find? k = some x :=
  ⟨valueAt?_eq_some_of_mem m.sorted, mem_of_valueAt?_eq_some⟩

/-! ### Building a map from entries -/

/-- An entry whose key comes after all others is inserted at the end. -/
theorem insertEntries_eq_append {k : String} {x : α} {l : List (String × α)}
    (h : ∀ e ∈ l, e.1 < k) : insertEntries k x l = l ++ [(k, x)] := by
  induction l with
  | nil => rfl
  | cons hd tl ih =>
    obtain ⟨k', x'⟩ := hd
    have hlt : k' < k := h (k', x') (by simp)
    have h₁ : ¬ k < k' := String.lt_asymm hlt
    have h₂ : k ≠ k' := fun he => String.lt_irrefl k (he ▸ hlt)
    simp [insertEntries, h₁, h₂, ih fun e he => h e (List.mem_cons_of_mem _ he)]

/-- Entries listed by increasing key are the entries of the map built from them. -/
theorem entries_ofEntries {l : List (String × α)} (h : l.Pairwise (fun a b => a.1 < b.1)) :
    (ofEntries l).entries = l := by
  suffices general : ∀ (l : List (String × α)) (m : KeyMap α),
      (m.entries ++ l).Pairwise (fun a b => a.1 < b.1) →
      (l.foldl (fun m e => m.insert e.1 e.2) m).entries = m.entries ++ l by
    simpa [ofEntries, empty] using general l empty (by simpa [empty] using h)
  intro l
  induction l with
  | nil => intro m _; simp
  | cons hd tl ih =>
    intro m hp
    have hlast : insertEntries hd.1 hd.2 m.entries = m.entries ++ [hd] :=
      insertEntries_eq_append fun e he => (List.pairwise_append.mp hp).2.2 e he hd (by simp)
    have hm : (m.insert hd.1 hd.2).entries = m.entries ++ [hd] := hlast
    rw [List.foldl_cons, ih _ (by rw [hm]; simpa using hp), hm]
    simp

/-- Building a map from the entries of a map gives that map. -/
theorem ofEntries_entries (m : KeyMap α) : ofEntries m.entries = m :=
  ext_entries (entries_ofEntries m.sorted)

/-! ### Extensionality -/

/-- Entries in order are the same if they have the same value at every key. -/
theorem eq_of_valueAt?_eq {l₁ l₂ : List (String × α)}
    (h₁ : l₁.Pairwise (fun a b => a.1 < b.1)) (h₂ : l₂.Pairwise (fun a b => a.1 < b.1))
    (h : ∀ k, valueAt? k l₁ = valueAt? k l₂) : l₁ = l₂ := by
  induction l₁ generalizing l₂ with
  | nil =>
    cases l₂ with
    | nil => rfl
    | cons hd tl => have := h hd.1; simp [valueAt?] at this
  | cons hd₁ tl₁ ih =>
    cases l₂ with
    | nil => have := h hd₁.1; simp [valueAt?] at this
    | cons hd₂ tl₂ =>
      have hm₁ : hd₁ ∈ hd₂ :: tl₂ :=
        mem_of_valueAt?_eq_some ((h hd₁.1).symm.trans (by simp [valueAt?]))
      have hm₂ : hd₂ ∈ hd₁ :: tl₁ :=
        mem_of_valueAt?_eq_some ((h hd₂.1).trans (by simp [valueAt?]))
      rw [List.pairwise_cons] at h₁ h₂
      have hhd : hd₁ = hd₂ := by
        rcases List.mem_cons.mp hm₁ with heq | hmem₁
        · exact heq
        · rcases List.mem_cons.mp hm₂ with heq | hmem₂
          · exact heq.symm
          · exact absurd (h₁.1 _ hmem₂) (String.lt_asymm (h₂.1 _ hmem₁))
      subst hhd
      refine congrArg (hd₁ :: ·) (ih h₁.2 h₂.2 fun k => ?_)
      have hk := h k
      by_cases hkey : hd₁.1 = k
      · subst hkey
        have none_of {tl : List (String × α)} (hlt : ∀ e ∈ tl, hd₁.1 < e.1) :
            valueAt? hd₁.1 tl = none := by
          cases hf : valueAt? hd₁.1 tl with
          | none => rfl
          | some x => exact absurd (hlt _ (mem_of_valueAt?_eq_some hf)) (String.lt_irrefl _)
        rw [none_of h₁.1, none_of h₂.1]
      · simpa [valueAt?, hkey] using hk

/-- **A map is determined by its look-ups.** -/
theorem ext_find? {m n : KeyMap α} (h : ∀ k, m.find? k = n.find? k) : m = n :=
  ext_entries (eq_of_valueAt?_eq m.sorted n.sorted h)

end KeyMap

end ClusterSnapshot
