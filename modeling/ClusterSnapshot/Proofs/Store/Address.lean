import ClusterSnapshot.Proofs.Store.Reachable

/-!
# Addresses and keys

An object is found by its address: its kind, its namespace if the kind has them, and its name. A
store writes the address as one text, the key, in which a slash parts namespace and name. Since both
may hold slashes themselves, two addresses can share a key. They do so only if one of the namespaces
is *beneath* the other, and the same goes for a key that seems to belong to a namespace.

## Main results

* `objectKey_eq_iff_of_apart`: **namespaces of which none is beneath the other share no key**.
* `keyInNamespace_iff_of_apart`: and they are not mistaken for each other by their keys.
* `Cluster.WellFormed.mem_listed`: the objects that a store lists are those whose key belongs there.
-/

namespace ClusterSnapshot

/-- Where an object is. -/
structure Address where
  kind : Kind
  ns? : Option String
  name : String
  deriving DecidableEq

namespace Address

/-- The address that a question about a kind, a name and a namespace is about. -/
def of (k : Kind) (name : String) (ns? : Option String) : Address := ⟨k, k.scope ns?, name⟩

/-- The key that an address is written as. -/
def key (a : Address) : String := objectKey a.ns? a.name

end Address

/-- Where a stored object says it is. -/
def Stored.address {k : Kind} (o : Stored k) : Address := ⟨k, o.metadata.ns?, o.metadata.name⟩

/-- Where an object is put that is handed in. -/
def Desired.address {k : Kind} (d : Desired k) : Address :=
  ⟨k, k.home d.metadata.ns?, d.metadata.name⟩

/-! ### Namespaces beneath each other -/

/-- Whether a namespace begins with another one and a slash. -/
def Beneath (ns ns' : String) : Prop := ns.toList ++ ['/'] <+: ns'.toList

instance (ns ns' : String) : Decidable (Beneath ns ns') :=
  inferInstanceAs (Decidable (ns.toList ++ ['/'] <+: ns'.toList))

/-- The key of a namespaced object is its namespace, a slash and its name. -/
theorem toList_objectKey (ns name : String) :
    (objectKey (some ns) name).toList = ns.toList ++ '/' :: name.toList := by
  simp [objectKey]

/-- A key counts as one of a namespace if it begins with it and a slash. -/
theorem keyInNamespace_eq_true {ns key : String} :
    Store.keyInNamespace ns key = true ↔ ns.toList ++ ['/'] <+: key.toList := by
  simp [Store.keyInNamespace]

/-- A key belongs to the namespace that it is made of. -/
theorem keyInNamespace_objectKey (ns name : String) :
    Store.keyInNamespace ns (objectKey (some ns) name) = true := by
  rw [keyInNamespace_eq_true, toList_objectKey]
  exact ⟨name.toList, by simp⟩

/-- Of two texts that begin alike up to a slash, either they are the same up to there, or one goes
on after the slash of the other. -/
theorem prefix_cases {a b rest : List Char} (h : a ++ ['/'] <+: b ++ '/' :: rest) :
    a = b ∨ a ++ ['/'] <+: b ∨ b ++ ['/'] <+: a := by
  have ha : a <+: b ++ '/' :: rest := (List.prefix_append a ['/']).trans h
  have hb : b <+: b ++ '/' :: rest := List.prefix_append b _
  have hb' : b ++ ['/'] <+: b ++ '/' :: rest := ⟨rest, by simp⟩
  rcases lt_trichotomy a.length b.length with hlt | heq | hgt
  · refine .inr (.inl (List.prefix_of_prefix_length_le h hb ?_))
    rw [List.length_append, List.length_singleton]
    exact hlt
  · exact .inl ((List.prefix_of_prefix_length_le ha hb heq.le).eq_of_length heq)
  · refine .inr (.inr (List.prefix_of_prefix_length_le hb' ha ?_))
    rw [List.length_append, List.length_singleton]
    exact hgt

/-- A key belongs to another namespace only if one of the two is beneath the other. -/
theorem eq_or_beneath_of_keyInNamespace {ns ns' name : String}
    (h : Store.keyInNamespace ns (objectKey (some ns') name) = true) :
    ns = ns' ∨ Beneath ns ns' ∨ Beneath ns' ns := by
  rw [keyInNamespace_eq_true, toList_objectKey] at h
  exact (prefix_cases h).imp_left String.toList_injective

/-- Whatever is beneath a namespace seems to belong to it. -/
theorem keyInNamespace_of_beneath {ns ns' : String} (h : Beneath ns ns') (name : String) :
    Store.keyInNamespace ns (objectKey (some ns') name) = true := by
  rw [keyInNamespace_eq_true, toList_objectKey]
  exact h.trans (List.prefix_append _ _)

example : Store.keyInNamespace "team" (objectKey (some "team/web") "x") = true := by decide

/-- **Namespaces of which none is beneath the other share no key.** -/
theorem objectKey_eq_iff_of_apart {ns ns' name name' : String} (h : ¬ Beneath ns ns')
    (h' : ¬ Beneath ns' ns) :
    objectKey (some ns) name = objectKey (some ns') name' ↔ ns = ns' ∧ name = name' := by
  constructor
  · intro heq
    have hkey := keyInNamespace_objectKey ns name
    rw [heq] at hkey
    obtain rfl : ns = ns' := by
      rcases eq_or_beneath_of_keyInNamespace hkey with heq | hb | hb
      · exact heq
      · exact absurd hb h
      · exact absurd hb h'
    have hlist := congrArg String.toList heq
    rw [toList_objectKey, toList_objectKey] at hlist
    exact ⟨rfl, String.toList_injective (List.cons.inj (List.append_cancel_left hlist)).2⟩
  · rintro ⟨rfl, rfl⟩
    rfl

/-- **Namespaces of which none is beneath the other are not mistaken for each other.** -/
theorem keyInNamespace_iff_of_apart {ns ns' : String} (h : ¬ Beneath ns ns')
    (h' : ¬ Beneath ns' ns) (name : String) :
    Store.keyInNamespace ns (objectKey (some ns') name) = true ↔ ns = ns' := by
  constructor
  · intro hkey
    rcases eq_or_beneath_of_keyInNamespace hkey with heq | hb | hb
    · exact heq
    · exact absurd hb h
    · exact absurd hb h'
  · rintro rfl
    exact keyInNamespace_objectKey ns name

/-! ### What well formed clusters hold -/

/-- A stored object is looked up where it says it is. -/
theorem Stored.Proper.address_eq {k : Kind} {c : Cluster} {o : Stored k} (h : o.Proper c) :
    Address.of k o.metadata.name o.metadata.ns? = o.address := by
  have hscope : k.scope o.metadata.ns? = o.metadata.ns? := by rw [← h.home, Kind.scope_home]
  rw [Address.of, hscope]
  rfl

namespace Cluster

variable {P : Number → Prop} {k : Kind} {c : Cluster}

/-- An object is written with the address that it is handed in for. -/
theorem address_putObject (c : Cluster) (d : Desired k) :
    (c.putObject d).address = d.address := by
  obtain ⟨uid?, creationTimestamp?, hput⟩ := c.putObject_stored d
  rw [hput]
  rfl

/-- The objects of a kind that a store lists are those found by a key that belongs there. -/
theorem mem_listed (s : Store) (ns? : Option String) {o : Stored k} :
    o ∈ s.listed k ns? ↔ ∃ key, (s.objects k).find? key = some o ∧
      ∀ ns ∈ k.scope ns?, Store.keyInNamespace ns key = true := by
  rw [Store.listed]
  cases k.scope ns? with
  | none =>
      simp only [KeyMap.values, List.mem_map, reduceCtorEq, Option.mem_def, false_implies,
        implies_true, and_true, Prod.exists, exists_eq_right, KeyMap.mem_entries_iff]
  | some ns =>
      simp only [List.mem_map, List.mem_filter, Option.mem_def, Option.some.injEq, forall_eq',
        Prod.exists, exists_eq_right, KeyMap.mem_entries_iff]

/-- In a well formed cluster an object is found by its own key only. -/
theorem WellFormed.key_of_find? (h : c.WellFormed P) {key : String} {o : Stored k}
    (ho : (c.store.objects k).find? key = some o) : o.address.key = key :=
  (h.of_find? ho).2.1

/-- **In a well formed cluster** the objects that a store lists are those found by their own key,
if it belongs there. -/
theorem WellFormed.mem_listed (h : c.WellFormed P) (ns? : Option String) {o : Stored k} :
    o ∈ c.store.listed k ns? ↔ (c.store.objects k).find? o.address.key = some o ∧
      ∀ ns ∈ k.scope ns?, Store.keyInNamespace ns o.address.key = true := by
  rw [Cluster.mem_listed]
  constructor
  · rintro ⟨key, ho, hns⟩
    obtain rfl := h.key_of_find? ho
    exact ⟨ho, hns⟩
  · exact fun ⟨ho, hns⟩ => ⟨_, ho, hns⟩

/-- No two objects of a well formed cluster that are listed have one key. -/
theorem WellFormed.nodup_listed (h : c.WellFormed P) (ns? : Option String) :
    ((c.store.listed k ns?).map fun o => o.address.key).Nodup := by
  have hkeys : ∀ l : List (String × Stored k), l.Sublist (c.store.objects k).entries →
      ((l.map (·.2)).map fun o => o.address.key).Nodup := by
    intro l hl
    have heq : (l.map (·.2)).map (fun o => o.address.key) = l.map (·.1) := by
      rw [List.map_map]
      refine List.map_congr_left fun e he => ?_
      exact h.key_of_find? ((KeyMap.mem_entries_iff _).mp (hl.subset he))
    rw [heq]
    exact (KeyMap.nodup_keys _).sublist (hl.map _)
  rw [Store.listed]
  cases k.scope ns? with
  | none => exact hkeys _ (List.Sublist.refl _)
  | some ns => exact hkeys _ List.filter_sublist

/-- An object that was handed in is at its address. -/
theorem find?_afterPut_self [NumberRange P] (c : Cluster) {d : Desired k}
    (hd : JsonForm.Sound P nestingLimit d) :
    ∃ o : Stored k, ((c.afterPut d).store.objects k).find? (Desired.storeKey d) = some o ∧
      o.address = d.address := by
  refine ⟨Object.reread (c.putObject d), ?_, c.address_putObject d⟩
  rw [(objects_afterPut hd).1]
  exact KeyMap.find?_insert_self _ _ _

/-- There is a cluster with an object at the address that it is handed in for. -/
theorem exists_reachable_holding [NumberRange P] {d : Desired k}
    (hd : JsonForm.Sound P nestingLimit d) (hrefusal : Desired.refusal? d = none) :
    ∃ c, Reachable P c ∧ ∃ o : Stored k,
      (c.store.objects k).find? o.address.key = some o ∧ o.address = d.address := by
  let c : Cluster := ⟨.empty, ⟨fun _ => "", 0⟩⟩
  have hfresh : Reachable P c := .fresh _
  obtain ⟨o, ho, haddress⟩ := c.find?_afterPut_self hd
  refine ⟨c.afterPut d, hfresh.afterPut hd hrefusal, o, ?_, haddress⟩
  rw [haddress]
  exact ho

end Cluster

end ClusterSnapshot
