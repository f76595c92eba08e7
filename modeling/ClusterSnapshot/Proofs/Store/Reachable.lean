import ClusterSnapshot.Proofs.Store.Objects

/-!
# Reachable clusters

A cluster is reachable if it comes from an empty one by creating, updating and removing objects and
by setting the scheduler's configuration, all of them values that survive being written, as does
whatever is read from a text. Every reachable cluster is well formed: each of its texts denotes an
object of its table, kept under its own key, with what a store assigns to it.

## Main results

* `Cluster.put_eq`, `Cluster.objects_afterPut`: **what creating or updating an object does**.
* `Reachable.wellFormed`: **every reachable cluster is well formed**.
-/

namespace ClusterSnapshot

open JsonForm (Sound Lawful Rereads)
open Scheduler (Configuration)

variable {P : Number → Prop} {k : Kind}

/-! ### Objects as a store writes them -/

/-- Versions that read alike are the same. -/
theorem toString_injective {m n : Nat} (h : toString m = toString n) : m = n := by
  have hdigits : Nat.toDigits 10 m = Nat.toDigits 10 n := String.ofList_injective h
  rw [← Nat.ofDigitChars_ten_toDigits (n := m), hdigits, Nat.ofDigitChars_ten_toDigits]

/-- The key of a stored object. -/
def Stored.key (o : Stored k) : String := objectKey o.metadata.ns? o.metadata.name

/-- An object as the store of a cluster writes it: with a name, in its home, and with all that the
store assigns. -/
structure Stored.Proper (o : Stored k) (c : Cluster) : Prop where
  apiVersion : o.apiVersion? = some k.apiVersion
  kind : o.kind? = some k.name
  name : o.metadata.name ≠ ""
  home : k.home o.metadata.ns? = o.metadata.ns?
  uid : ∃ i < c.uids.spent, o.metadata.uid? = some (c.uids.uid i)
  version : ∃ n, 0 < n ∧ n ≤ c.store.revision ∧ o.metadata.resourceVersion? = some (toString n)
  created : o.metadata.creationTimestamp? = none
  extra : ∀ e ∈ o.metadata.extra.entries, e.1 ∉ Metadata.serverPopulated

/-- A proper object is proper when it is reread. -/
theorem Stored.Proper.reread {o : Stored k} {c : Cluster} (h : o.Proper c) :
    (Object.reread o).Proper c where
  apiVersion := h.apiVersion
  kind := h.kind
  name := h.name
  home := h.home
  uid := h.uid
  version := h.version
  created := h.created
  extra := List.forall_mem_map.mpr h.extra

/-- Later on, the object still is as the store writes it. -/
theorem Stored.Proper.mono {o : Stored k} {c c' : Cluster} (h : o.Proper c)
    (huid : c'.uids.uid = c.uids.uid) (hspent : c.uids.spent ≤ c'.uids.spent)
    (hrevision : c.store.revision ≤ c'.store.revision) : o.Proper c' where
  apiVersion := h.apiVersion
  kind := h.kind
  name := h.name
  home := h.home
  uid := by
    obtain ⟨i, hi, huid'⟩ := h.uid
    exact ⟨i, by omega, by rw [huid, huid']⟩
  version := by
    obtain ⟨n, hpos, hn, hversion⟩ := h.version
    exact ⟨n, hpos, by omega, hversion⟩
  created := h.created
  extra := h.extra

namespace Kind

/-- The namespace that an object is put in is the one that it is looked for in. -/
theorem scope_home (k : Kind) (ns? : Option String) : k.scope (k.home ns?) = k.home ns? := by
  simp only [scope, home]
  cases k.isNamespaced <;> rfl

/-- The home of an object of a namespaced kind is a namespace. -/
theorem home_of_namespaced (h : k.isNamespaced = true) (ns? : Option String) :
    ∃ ns, ns ≠ "" ∧ k.home ns? = some ns := by
  simp only [home]
  simp only [h, ↓reduceIte]
  split
  · exact ⟨Reserved.defaultNamespace, by decide, rfl⟩
  · exact ⟨Reserved.defaultNamespace, by decide, rfl⟩
  · rename_i name hne
    exact ⟨name, fun hname => hne (by rw [hname]), rfl⟩

/-- An object of a kind without namespaces is put in none. -/
theorem home_of_not_namespaced (h : k.isNamespaced = false) (ns? : Option String) :
    k.home ns? = none := by
  simp [home, h]

/-- A namespace that is named is home. -/
theorem home_some {ns : String} (h : k.isNamespaced = true) (hns : ns ≠ "") :
    k.home (some ns) = some ns := by
  simp only [home]
  simp [h]

/-- An object stays in the namespace that it is put in. -/
theorem home_home (k : Kind) (ns? : Option String) : k.home (k.home ns?) = k.home ns? := by
  cases hk : k.isNamespaced with
  | false => rw [home_of_not_namespaced hk, home_of_not_namespaced hk]
  | true =>
      obtain ⟨ns, hns, hhome⟩ := home_of_namespaced hk ns?
      rw [hhome, home_some hk hns]

end Kind

/-- The object that is written for sound desired metadata is sound. -/
theorem Desired.sound_stored [NumberRange P] {d : Desired k} {room : Nat} (h : Sound P room d)
    (uid? : Option String) (revision : Nat) (creationTimestamp? : Option String) :
    Sound P room (Desired.stored d uid? revision creationTimestamp?) :=
  Object.sound_of_metadata Object.pos_of_sound_desired Object.pos_of_sound_metadata h _ _
    fun _ hm => DesiredMetadata.sound_assigned hm d.metadata.name _ uid? _ creationTimestamp?

namespace Cluster

/-! ### Well formed clusters -/

/-- Every text of an object denotes an object of its kind, kept under its own key as a store writes
it, and the configuration is the text of one. -/
structure WellFormed (P : Number → Prop) (c : Cluster) : Prop where
  entries : ∀ (k : Kind) (key text : String), (c.store.tables.get k).find? key = some text →
    ∃ o : Stored k, JsonForm.ofText? text = some o ∧ Sound P nestingLimit o ∧ o.key = key ∧
      o.Proper c
  config : ∀ text ∈ c.store.scheduler?, ∃ config : Configuration,
    text = JsonForm.text config ∧ Sound P nestingLimit config

variable {c : Cluster}

/-- A well formed cluster can be read. -/
theorem WellFormed.readable (h : c.WellFormed P) : c.store.Readable := by
  intro k key text htext
  obtain ⟨o, ho, -⟩ := h.entries k key text htext
  exact ⟨o, ho⟩

/-- What is found in a well formed cluster is sound, filed under its key, and proper. -/
theorem WellFormed.of_find? (h : c.WellFormed P) {key : String} {o : Stored k}
    (ho : (c.store.objects k).find? key = some o) :
    Sound P nestingLimit o ∧ o.key = key ∧ o.Proper c := by
  rw [Store.find?_objects, Option.bind_eq_some_iff] at ho
  obtain ⟨text, htext, hread⟩ := ho
  obtain ⟨o', hread', hparts⟩ := h.entries k key text htext
  obtain rfl : o' = o := Option.some.inj (hread'.symm.trans hread)
  exact hparts

/-- An object in a well formed cluster was not written later. -/
theorem WellFormed.version_le (h : c.WellFormed P) {key : String} {o : Stored k}
    (ho : (c.store.objects k).find? key = some o) {n : Nat}
    (hn : o.metadata.resourceVersion? = some (toString n)) : n ≤ c.store.revision := by
  obtain ⟨m, -, hm, hversion⟩ := (h.of_find? ho).2.2.version
  obtain rfl := toString_injective (Option.some.inj (hversion.symm.trans hn))
  exact hm

/-! ### Creating and updating -/

/-- The object that is written when `d` is handed in. -/
def putObject (c : Cluster) (d : Desired k) : Stored k :=
  match (c.store.objects k).find? (Desired.storeKey d) with
  | some o => Desired.stored d o.metadata.uid? (c.store.revision + 1) o.metadata.creationTimestamp?
  | none => Desired.stored d (some (c.uids.uid c.uids.spent)) (c.store.revision + 1) none

/-- The source of identities after `d` was handed in: an object that is there keeps its own. -/
def putUids (c : Cluster) (d : Desired k) : UidSource :=
  match (c.store.objects k).find? (Desired.storeKey d) with
  | some _ => c.uids
  | none => { c.uids with spent := c.uids.spent + 1 }

/-- The cluster after `d` was handed in. -/
def afterPut (c : Cluster) (d : Desired k) : Cluster where
  store :=
    { c.store.withTable k
        ((c.store.tables.get k).insert (Desired.storeKey d) (JsonForm.text (c.putObject d))) with
      revision := c.store.revision + 1 }
  uids := c.putUids d

/-- What is refused is answered with the refusal. -/
theorem put_of_refusal {d : Desired k} {e : StoreError} (h : Desired.refusal? d = some e) :
    c.put d = .error e := by
  simp only [put, h]
  rfl

/-- **Creating or updating an object succeeds** unless it is refused. -/
theorem put_eq (hc : c.store.Readable) {d : Desired k} (hd : Desired.refusal? d = none) :
    c.put d = .ok (c.putObject d, c.afterPut d) := by
  simp only [put, hd, afterPut, putObject, putUids, Store.find?_objects]
  cases htext : (c.store.tables.get k).find? (Desired.storeKey d) with
  | none => rfl
  | some text =>
      obtain ⟨o, ho⟩ := hc k _ text htext
      simp only [ho, Store.decode_ok ho, Option.bind_some]
      rfl

/-- What a put that succeeded has done. -/
theorem put_ok (hc : c.store.Readable) {d : Desired k} {o : Stored k} {c' : Cluster}
    (h : c.put d = .ok (o, c')) :
    Desired.refusal? d = none ∧ o = c.putObject d ∧ c' = c.afterPut d := by
  cases hrefusal : Desired.refusal? d with
  | some e =>
      rw [put_of_refusal hrefusal] at h
      cases h
  | none =>
      rw [put_eq hc hrefusal] at h
      cases h
      exact ⟨rfl, rfl, rfl⟩

/-- What is put is stored with the next version. -/
theorem putObject_stored (c : Cluster) (d : Desired k) :
    ∃ uid? creationTimestamp?,
      c.putObject d = Desired.stored d uid? (c.store.revision + 1) creationTimestamp? := by
  rw [putObject]
  split
  · exact ⟨_, _, rfl⟩
  · exact ⟨_, _, rfl⟩

/-- What is put is sound if the object is. -/
theorem sound_putObject [NumberRange P] {d : Desired k} {room : Nat} (h : Sound P room d) :
    Sound P room (c.putObject d) := by
  obtain ⟨uid?, creationTimestamp?, hput⟩ := c.putObject_stored d
  rw [hput]
  exact Desired.sound_stored h _ _ _

/-- What is put has the key of the object. -/
theorem key_putObject (c : Cluster) (d : Desired k) :
    (c.putObject d).key = Desired.storeKey d := by
  obtain ⟨uid?, creationTimestamp?, hput⟩ := c.putObject_stored d
  rw [hput]
  rfl

/-- **Handing an object in** puts it, reread, under its key and leaves all other objects. -/
theorem objects_afterPut [NumberRange P] {d : Desired k} (h : Sound P nestingLimit d) :
    (c.afterPut d).store.objects k =
        (c.store.objects k).insert (Desired.storeKey d) (Object.reread (c.putObject d)) ∧
      ∀ j, k ≠ j → (c.afterPut d).store.objects j = c.store.objects j := by
  constructor
  · refine (Store.objects_withTable k _).trans ?_
    exact KeyMap.filterMap_insert _ _ _ (JsonForm.ofText?_text (sound_putObject h))
  · exact fun j hj => Store.objects_withTable_of_ne hj _

/-- What is not refused has a name and no identity. -/
theorem refusal?_eq_none {d : Desired k} (h : Desired.refusal? d = none) :
    d.metadata.name ≠ "" ∧ d.metadata.uid? = none := by
  rw [Desired.refusal?] at h
  split at h
  · cases h
  · rename_i hname
    split at h
    · cases h
    · rename_i huid
      exact ⟨hname, by simpa using huid⟩

/-- What is written is as a store writes it. -/
theorem WellFormed.proper_putObject (hc : c.WellFormed P) {d : Desired k}
    (hd : Desired.refusal? d = none) : (c.putObject d).Proper (c.afterPut d) := by
  have hname := (refusal?_eq_none hd).1
  have hextra : ∀ e ∈ (d.metadata.extra.eraseAll Metadata.serverPopulated).entries,
      e.1 ∉ Metadata.serverPopulated := fun e he => (KeyMap.mem_eraseAll.mp he).2
  have hversion : ∃ n, 0 < n ∧ n ≤ c.store.revision + 1 ∧
      some (toString (c.store.revision + 1)) = some (toString n) :=
    ⟨c.store.revision + 1, Nat.succ_pos _, le_refl _, rfl⟩
  have hhome := Kind.home_home k d.metadata.ns?
  cases hfind : (c.store.objects k).find? (Desired.storeKey d) with
  | none =>
      simp only [putObject, hfind]
      refine ⟨rfl, rfl, hname, hhome, ⟨c.uids.spent, ?_, ?_⟩, hversion, rfl, hextra⟩
      · simp [afterPut, putUids, hfind]
      · simp only [afterPut, putUids, hfind]
        rfl
  | some o =>
      obtain ⟨-, -, hproper⟩ := hc.of_find? hfind
      obtain ⟨i, hi, huid⟩ := hproper.uid
      simp only [putObject, hfind]
      refine ⟨rfl, rfl, hname, hhome, ⟨i, ?_, ?_⟩, hversion, hproper.created, hextra⟩
      · simpa [afterPut, putUids, hfind] using hi
      · simp only [afterPut, putUids, hfind]
        exact huid

/-- To put an object leaves the source of identities alone. -/
theorem putUids_uid (c : Cluster) (d : Desired k) : (c.putUids d).uid = c.uids.uid := by
  rw [putUids]
  split <;> rfl

/-- To put an object takes no identity back. -/
theorem spent_le_putUids (c : Cluster) (d : Desired k) : c.uids.spent ≤ (c.putUids d).spent := by
  rw [putUids]
  split
  · exact le_refl _
  · exact Nat.le_succ _

/-- Handing a sound object in keeps a cluster well formed. -/
theorem WellFormed.afterPut [NumberRange P] (hc : c.WellFormed P) {d : Desired k}
    (hsound : Sound P nestingLimit d) (hd : Desired.refusal? d = none) :
    (c.afterPut d).WellFormed P := by
  refine ⟨fun j key text htext => ?_, hc.config⟩
  have hold : ∀ {text}, (c.store.tables.get j).find? key = some text →
      ∃ o : Stored j, JsonForm.ofText? text = some o ∧ Sound P nestingLimit o ∧ o.key = key ∧
        o.Proper (c.afterPut d) := by
    intro text htext
    obtain ⟨o, hread, ho, hkey, hproper⟩ := hc.entries j key text htext
    exact ⟨o, hread, ho, hkey, hproper.mono (c.putUids_uid d) (c.spent_le_putUids d)
      (Nat.le_succ _)⟩
  by_cases hj : k = j
  · subst hj
    simp only [Cluster.afterPut, Store.withTable, ByKind.get_set_self, KeyMap.find?_insert] at htext
    split at htext
    · rename_i hkey
      obtain rfl := Option.some.inj htext
      have hput := sound_putObject (c := c) hsound
      exact ⟨_, JsonForm.ofText?_text hput, Rereads.sound_reread hput,
        (c.key_putObject d).trans hkey, (hc.proper_putObject hd).reread⟩
    · exact hold htext
  · simp only [Cluster.afterPut, Store.withTable, ByKind.get_set_of_ne _ _ hj] at htext
    exact hold htext

/-! ### Removing objects and setting the configuration -/

/-- The cluster after a removal. -/
def afterRemove (c : Cluster) (k : Kind) (name : String) (ns? : Option String) : Cluster :=
  { c with store := (c.store.remove k name ns?).2 }

/-- A cluster stays well formed when an object is removed. -/
theorem WellFormed.afterRemove (hc : c.WellFormed P) (name : String) (ns? : Option String) :
    (c.afterRemove k name ns?).WellFormed P := by
  refine ⟨fun j key text htext => ?_, hc.config⟩
  have hmono : ∀ {j : Kind} {o : Stored j}, o.Proper c → o.Proper (c.afterRemove k name ns?) :=
    fun h => h.mono rfl (le_refl _) (le_refl _)
  by_cases hj : k = j
  · subst hj
    simp only [Cluster.afterRemove, Store.remove, ByKind.get_set_self, KeyMap.find?_erase] at htext
    split at htext
    · cases htext
    · obtain ⟨o, hread, ho, hkey, hproper⟩ := hc.entries k key text htext
      exact ⟨o, hread, ho, hkey, hmono hproper⟩
  · simp only [Cluster.afterRemove, Store.remove, ByKind.get_set_of_ne _ _ hj] at htext
    obtain ⟨o, hread, ho, hkey, hproper⟩ := hc.entries j key text htext
    exact ⟨o, hread, ho, hkey, hmono hproper⟩

/-- The cluster after the configuration was set. -/
def afterConfig (c : Cluster) (config : Configuration) : Cluster :=
  { c with store := c.store.setActiveConfig config }

/-- A cluster stays well formed when a sound configuration is set. -/
theorem WellFormed.afterConfig (hc : c.WellFormed P) {config : Configuration}
    (h : Sound P nestingLimit config) : (c.afterConfig config).WellFormed P := by
  refine ⟨fun j key text htext => ?_, fun text htext => ⟨config, ?_, h⟩⟩
  · obtain ⟨o, hread, ho, hkey, hproper⟩ := hc.entries j key text htext
    exact ⟨o, hread, ho, hkey, hproper.mono rfl (le_refl _) (le_refl _)⟩
  · exact (Option.some.inj htext).symm

end Cluster

/-! ### Reachable clusters -/

/-- The clusters that come from an empty one, whose objects and configurations survive being written
and have numbers with a property. -/
inductive Reachable (P : Number → Prop) : Cluster → Prop
  | fresh (uid : Nat → String) : Reachable P ⟨.empty, ⟨uid, 0⟩⟩
  | put {c c' : Cluster} {k : Kind} {d : Desired k} {o : Stored k} :
    Reachable P c → Sound P nestingLimit d → c.put d = .ok (o, c') → Reachable P c'
  | remove {c : Cluster} (k : Kind) (name : String) (ns? : Option String) :
    Reachable P c → Reachable P (c.afterRemove k name ns?)
  | setActiveConfig {c : Cluster} {config : Configuration} :
    Reachable P c → Sound P nestingLimit config → Reachable P (c.afterConfig config)

/-- **Every reachable cluster is well formed.** -/
theorem Reachable.wellFormed [NumberRange P] {c : Cluster} (h : Reachable P c) :
    c.WellFormed P := by
  induction h with
  | fresh uid =>
      refine ⟨fun k key text htext => ?_, fun text htext => ?_⟩
      · simp only [Store.empty, ByKind.get_ofFn] at htext
        cases htext
      · cases htext
  | put _ hd hput ih =>
      obtain ⟨hrefusal, -, rfl⟩ := Cluster.put_ok ih.readable hput
      exact ih.afterPut hd hrefusal
  | remove k name ns? _ ih => exact ih.afterRemove name ns?
  | setActiveConfig _ hconfig ih => exact ih.afterConfig hconfig

/-- An object that is not refused can be handed in to a reachable cluster. -/
theorem Reachable.afterPut [NumberRange P] {c : Cluster} (hc : Reachable P c) {d : Desired k}
    (hd : Sound P nestingLimit d) (hrefusal : Desired.refusal? d = none) :
    Reachable P (c.afterPut d) :=
  .put hc hd (Cluster.put_eq hc.wellFormed.readable hrefusal)

end ClusterSnapshot
