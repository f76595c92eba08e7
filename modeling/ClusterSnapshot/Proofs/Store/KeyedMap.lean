import ClusterSnapshot.Proofs.Store.Address
import Mathlib.Data.Set.Defs

/-!
# Stores as maps of addresses

A store is meant to be a map whose keys are addresses. It is one as long as all the namespaces in
use are kept apart, and only then. A namespace that is beneath another one spoils it, since objects
of the former are listed as if they were in the latter.

## Main results

* `Address.Within.eq_of_key_eq`: addresses in namespaces that are apart have keys of their own.
* `Built.kept`: what is known of a cluster after any sequence of writes and removals.
* `keyedMap_iff_apart`: **a store is a map of addresses if and only if the namespaces are apart**.
-/

namespace ClusterSnapshot

open JsonForm (Sound)
open Number (InRange)

variable {N : Set String} {k : Kind}

/-- Whether an address names a namespace out of `N`, or none at all if its kind has none. -/
def Address.Within (N : Set String) (a : Address) : Prop :=
  if a.kind.isNamespaced then ∃ ns ∈ N, ns ≠ "" ∧ a.ns? = some ns else a.ns? = none

/-- No namespace is beneath another one. -/
def Apart (N : Set String) : Prop := ∀ ns ∈ N, ns ≠ "" → ∀ ns' ∈ N, ¬ Beneath ns ns'

/-- A write: where an object was put, and the identity that it then had. -/
structure Write where
  address : Address
  uid? : Option String

/-- The clusters that come from an empty one by writes and removals in namespaces out of `N`, with
all writes so far. -/
inductive Built (N : Set String) : List Write → Cluster → Prop
  | fresh (uid : Nat → String) : Built N [] ⟨.empty, ⟨uid, 0⟩⟩
  | put {log : List Write} {c c' : Cluster} {k : Kind} {d : Desired k} {o : Stored k} :
    Built N log c → Sound InRange nestingLimit d →
    (Address.of k d.metadata.name d.metadata.ns?).Within N → c.put d = .ok (o, c') →
    Built N (⟨Address.of k d.metadata.name d.metadata.ns?, o.metadata.uid?⟩ :: log) c'
  | remove {log : List Write} {c : Cluster} {k : Kind} {name : String} {ns? : Option String} :
    Built N log c → name ≠ "" → (Address.of k name ns?).Within N →
    Built N log (c.afterRemove k name ns?)

/-- Whether an object is found at some address. -/
def Cluster.Live (N : Set String) (c : Cluster) (o : Stored k) : Prop :=
  ∃ name ns?, (Address.of k name ns?).Within N ∧ c.store.get k name ns? = .ok (some o)

/-- **A store is a map of addresses** in namespaces out of `N`. -/
structure KeyedMap (N : Set String) : Prop where
  /-- To put an object changes nothing at other addresses. -/
  get_put : ∀ {log c c' k} {d : Desired k} {o : Stored k}, Built N log c →
    Sound InRange nestingLimit d → (Address.of k d.metadata.name d.metadata.ns?).Within N →
    c.put d = .ok (o, c') → ∀ j name ns?, (Address.of j name ns?).Within N →
    Address.of j name ns? ≠ Address.of k d.metadata.name d.metadata.ns? →
    c'.store.get j name ns? = c.store.get j name ns?
  /-- To remove an object changes nothing at other addresses. -/
  get_remove : ∀ {log c k name ns?}, Built N log c → name ≠ "" →
    (Address.of k name ns?).Within N → ∀ j name' ns?', (Address.of j name' ns?').Within N →
    Address.of j name' ns?' ≠ Address.of k name ns? →
    (c.afterRemove k name ns?).store.get j name' ns?' = c.store.get j name' ns?'
  /-- What is found at an address says itself that it is there. -/
  address_of_get : ∀ {log c k name ns?} {o : Stored k}, Built N log c →
    (Address.of k name ns?).Within N → c.store.get k name ns? = .ok (some o) →
    o.address = Address.of k name ns?
  /-- An object that is put where none was before gets an identity that none had before. -/
  put_new : ∀ {log c k} {d : Desired k}, Built N log c → Sound InRange nestingLimit d →
    (Address.of k d.metadata.name d.metadata.ns?).Within N → d.metadata.name ≠ "" →
    d.metadata.uid? = none →
    (∀ w ∈ log, w.address ≠ Address.of k d.metadata.name d.metadata.ns?) →
    ∃ o c', c.put d = .ok (o, c') ∧ o.metadata.uid? = some (c.uids.uid c.uids.spent) ∧
      (Function.Injective c.uids.uid → ∀ w ∈ log, w.uid? ≠ o.metadata.uid?)
  /-- Every object is listed exactly once. -/
  list_all : ∀ {log c}, Built N log c → ∀ k, ∃ os : List (Stored k),
    c.store.list k none = .ok os ∧ (os.map Stored.address).Nodup ∧ ∀ o, o ∈ os ↔ c.Live N o
  /-- The objects of a namespace are those that say so themselves. -/
  list_namespace : ∀ {log c}, Built N log c → ∀ k, k.isNamespaced = true → ∀ ns ∈ N, ns ≠ "" →
    ∃ os : List (Stored k), c.store.list k (some ns) = .ok os ∧ (os.map Stored.address).Nodup ∧
      ∀ o, o ∈ os ↔ c.Live N o ∧ o.metadata.ns? = some ns

/-! ### Addresses within a set of namespaces -/

namespace Address

/-- A namespaced address within some namespaces is in one of them. -/
theorem Within.exists_ns {a : Address} (h : a.Within N) (hk : a.kind.isNamespaced = true) :
    ∃ ns ∈ N, ns ≠ "" ∧ a.ns? = some ns := by
  simpa [Within, hk] using h

/-- An address of another kind is in none. -/
theorem Within.ns?_eq_none {a : Address} (h : a.Within N) (hk : a.kind.isNamespaced = false) :
    a.ns? = none := by
  simpa [Within, hk] using h

/-- **Addresses in namespaces that are apart have keys of their own.** -/
theorem Within.eq_of_key_eq (hN : Apart N) {a b : Address} (ha : a.Within N) (hb : b.Within N)
    (hkind : a.kind = b.kind) (hkey : a.key = b.key) : a = b := by
  obtain ⟨k, ans?, aname⟩ := a
  obtain ⟨k', bns?, bname⟩ := b
  obtain rfl : k = k' := hkind
  cases hk : k.isNamespaced with
  | false =>
      obtain rfl : ans? = none := ha.ns?_eq_none hk
      obtain rfl : bns? = none := hb.ns?_eq_none hk
      obtain rfl : aname = bname := hkey
      rfl
  | true =>
      obtain ⟨ns, hns, hne, rfl⟩ : ∃ ns ∈ N, ns ≠ "" ∧ ans? = some ns := ha.exists_ns hk
      obtain ⟨ns', hns', hne', rfl⟩ : ∃ ns ∈ N, ns ≠ "" ∧ bns? = some ns := hb.exists_ns hk
      obtain ⟨rfl, rfl⟩ :=
        (objectKey_eq_iff_of_apart (hN ns hns hne ns' hns') (hN ns' hns' hne' ns hns)).mp hkey
      rfl

/-- An address that names its namespace is where an object is put. -/
theorem home_of_within {d : Desired k}
    (h : (of k d.metadata.name d.metadata.ns?).Within N) :
    d.address = of k d.metadata.name d.metadata.ns? := by
  have hns : k.home d.metadata.ns? = k.scope d.metadata.ns? := by
    cases hk : k.isNamespaced with
    | false => exact (Kind.home_of_not_namespaced hk _).trans (h.ns?_eq_none hk).symm
    | true =>
        obtain ⟨ns, -, hne, hns⟩ := h.exists_ns hk
        have hscope : k.scope d.metadata.ns? = d.metadata.ns? := by simp [Kind.scope, hk]
        have hgiven : d.metadata.ns? = some ns := hscope.symm.trans hns
        rw [hscope, hgiven, Kind.home_some hk hne]
  rw [Desired.address, hns]
  rfl

end Address

/-! ### What is known after writes and removals -/

namespace Cluster

/-- What is known of a cluster after some writes: its objects are within the namespaces and were
written, and identities are not used twice. -/
structure Kept (N : Set String) (log : List Write) (c : Cluster) : Prop where
  wellFormed : c.WellFormed InRange
  objects : ∀ {k : Kind} {key : String} {o : Stored k},
    (c.store.objects k).find? key = some o →
      o.address.Within N ∧ ∃ w ∈ log, w.address = o.address
  spent : ∀ w ∈ log, ∃ i < c.uids.spent, w.uid? = some (c.uids.uid i)

variable {log : List Write} {c : Cluster}

/-- An object that is put is among those that were written. -/
theorem Kept.afterPut (h : c.Kept N log) {d : Desired k} (hd : Sound InRange nestingLimit d)
    (hwithin : (Address.of k d.metadata.name d.metadata.ns?).Within N)
    (hrefusal : Desired.refusal? d = none) :
    (c.afterPut d).Kept N
      (⟨Address.of k d.metadata.name d.metadata.ns?, (c.putObject d).metadata.uid?⟩ :: log) := by
  have hhome := Address.home_of_within hwithin
  refine ⟨h.wellFormed.afterPut hd hrefusal, fun {j key o} ho => ?_, fun w hw => ?_⟩
  · by_cases hj : k = j
    · subst hj
      rw [(objects_afterPut hd).1, KeyMap.find?_insert] at ho
      split at ho
      · obtain rfl := Option.some.inj ho
        have haddress : (Object.reread (c.putObject d)).address = d.address := address_putObject c d
        rw [haddress, hhome]
        exact ⟨hwithin, _, List.mem_cons_self, rfl⟩
      · exact (h.objects ho).imp_right fun ⟨w, hw, haddress⟩ =>
          ⟨w, List.mem_cons_of_mem _ hw, haddress⟩
    · rw [(objects_afterPut hd).2 j hj] at ho
      exact (h.objects ho).imp_right fun ⟨w, hw, haddress⟩ =>
        ⟨w, List.mem_cons_of_mem _ hw, haddress⟩
  · rcases List.mem_cons.mp hw with rfl | hw
    · exact (h.wellFormed.proper_putObject hrefusal).uid
    · obtain ⟨i, hi, huid⟩ := h.spent w hw
      refine ⟨i, Nat.lt_of_lt_of_le hi (c.spent_le_putUids d), huid.trans ?_⟩
      exact congrArg (fun uid => some (uid i)) (c.putUids_uid d).symm

/-- A removal leaves less. -/
theorem Kept.afterRemove (h : c.Kept N log) (name : String) (ns? : Option String) :
    (c.afterRemove k name ns?).Kept N log := by
  obtain ⟨hself, hother⟩ := c.store.objects_remove k name ns?
  refine ⟨h.wellFormed.afterRemove name ns?, fun {j key o} ho => ?_, h.spent⟩
  have hbefore : (c.store.objects j).find? key = some o := by
    by_cases hj : k = j
    · subst hj
      rw [Cluster.afterRemove, hself, KeyMap.find?_erase] at ho
      split at ho
      · cases ho
      · exact ho
    · rwa [Cluster.afterRemove, hother j hj] at ho
  exact h.objects hbefore

end Cluster

/-- **What is known of a cluster** after any sequence of writes and removals. -/
theorem Built.kept {log : List Write} {c : Cluster} (h : Built N log c) : c.Kept N log := by
  induction h with
  | fresh uid =>
      refine ⟨(Reachable.fresh uid).wellFormed, fun {k key o} ho => ?_, by simp⟩
      simp [Store.find?_objects, Store.empty] at ho
      cases ho
  | put _ hd hwithin hput ih =>
      obtain ⟨hrefusal, rfl, rfl⟩ := Cluster.put_ok ih.wellFormed.readable hput
      exact ih.afterPut hd hwithin hrefusal
  | remove _ _ _ ih => exact ih.afterRemove _ _

/-! ### Maps of addresses -/

section

variable {log : List Write} {c : Cluster}

/-- An object that is found at an address is there. -/
theorem Cluster.Kept.address_of_get (hN : Apart N) (h : c.Kept N log) {name : String}
    {ns? : Option String} {o : Stored k} (hwithin : (Address.of k name ns?).Within N)
    (hget : c.store.get k name ns? = .ok (some o)) : o.address = Address.of k name ns? := by
  rw [Store.get_eq h.wellFormed.readable] at hget
  have ho := Except.ok.inj hget
  exact (h.objects ho).1.eq_of_key_eq hN hwithin rfl (h.wellFormed.key_of_find? ho)

/-- The objects that are found at some address are those that are found by their own key. -/
theorem Cluster.Kept.live_iff (hN : Apart N) (h : c.Kept N log) {o : Stored k} :
    c.Live N o ↔ (c.store.objects k).find? o.address.key = some o := by
  constructor
  · rintro ⟨name, ns?, hwithin, hget⟩
    rw [h.address_of_get hN hwithin hget]
    rw [Store.get_eq h.wellFormed.readable] at hget
    exact Except.ok.inj hget
  · intro ho
    have haddress := (h.wellFormed.of_find? ho).2.2.address_eq
    refine ⟨o.metadata.name, o.metadata.ns?, haddress ▸ (h.objects ho).1, ?_⟩
    rw [Store.get_eq h.wellFormed.readable]
    exact congrArg Except.ok ((congrArg _ (congrArg Address.key haddress)).trans ho)

/-- What is listed is listed once. -/
theorem Cluster.Kept.nodup_listed (h : c.Kept N log) (ns? : Option String) :
    ((c.store.listed k ns?).map Stored.address).Nodup := by
  refine List.Nodup.of_map Address.key ?_
  rw [List.map_map]
  exact h.wellFormed.nodup_listed ns?

/-- The objects of a namespace that are listed are those that say they are in it. -/
theorem Cluster.Kept.mem_listed_some (hN : Apart N) (h : c.Kept N log)
    (hk : k.isNamespaced = true) {ns : String} (hns : ns ∈ N) (hne : ns ≠ "") {o : Stored k} :
    o ∈ c.store.listed k (some ns) ↔
      (c.store.objects k).find? o.address.key = some o ∧ o.metadata.ns? = some ns := by
  have hscope : k.scope (some ns) = some ns := by simp [Kind.scope, hk]
  simp only [h.wellFormed.mem_listed, hscope, Option.mem_def, Option.some.injEq, forall_eq']
  refine and_congr_right fun ho => ?_
  obtain ⟨ns', hns', hne', hown⟩ := (h.objects ho).1.exists_ns hk
  have hkey : o.address.key = objectKey (some ns') o.metadata.name := by
    rw [Address.key, hown]
    rfl
  rw [hkey, keyInNamespace_iff_of_apart (hN ns hns hne ns' hns') (hN ns' hns' hne' ns hns)]
  have hown' : o.metadata.ns? = some ns' := hown
  rw [hown', Option.some.injEq, eq_comm]

/-- To put an object does not change what is found elsewhere. -/
theorem Cluster.Kept.get_afterPut (hN : Apart N) (h : c.Kept N log) {d : Desired k}
    (hd : Sound InRange nestingLimit d)
    (hwithin : (Address.of k d.metadata.name d.metadata.ns?).Within N)
    (hrefusal : Desired.refusal? d = none) {j : Kind} {name : String} {ns? : Option String}
    (hj : (Address.of j name ns?).Within N)
    (hne : Address.of j name ns? ≠ Address.of k d.metadata.name d.metadata.ns?) :
    (c.afterPut d).store.get j name ns? = c.store.get j name ns? := by
  rw [Store.get_eq h.wellFormed.readable,
    Store.get_eq (h.afterPut hd hwithin hrefusal).wellFormed.readable]
  by_cases hkj : k = j
  · subst hkj
    rw [(Cluster.objects_afterPut hd).1, KeyMap.find?_insert_of_ne]
    intro hkey
    have hhome := Address.home_of_within hwithin
    exact hne (hj.eq_of_key_eq hN hwithin rfl (hkey.symm.trans (congrArg Address.key hhome)))
  · rw [(Cluster.objects_afterPut hd).2 j hkj]

/-- To remove an object does not change what is found elsewhere. -/
theorem Cluster.Kept.get_afterRemove (hN : Apart N) (h : c.Kept N log) {name : String}
    {ns? : Option String} (hwithin : (Address.of k name ns?).Within N) {j : Kind} {name' : String}
    {ns?' : Option String} (hj : (Address.of j name' ns?').Within N)
    (hne : Address.of j name' ns?' ≠ Address.of k name ns?) :
    (c.afterRemove k name ns?).store.get j name' ns?' = c.store.get j name' ns?' := by
  have hafter : (c.afterRemove k name ns?).Kept N log := h.afterRemove name ns?
  rw [Store.get_eq h.wellFormed.readable, Store.get_eq hafter.wellFormed.readable]
  obtain ⟨hself, hother⟩ := c.store.objects_remove k name ns?
  by_cases hkj : k = j
  · subst hkj
    rw [Cluster.afterRemove, hself, KeyMap.find?_erase, if_neg]
    intro hkey
    exact hne (hj.eq_of_key_eq hN hwithin rfl hkey.symm)
  · rw [Cluster.afterRemove, hother j hkj]

/-- Where nothing was ever written there is nothing. -/
theorem Cluster.Kept.find?_of_new (hN : Apart N) (h : c.Kept N log) {d : Desired k}
    (hwithin : (Address.of k d.metadata.name d.metadata.ns?).Within N)
    (hnew : ∀ w ∈ log, w.address ≠ Address.of k d.metadata.name d.metadata.ns?) :
    (c.store.objects k).find? (Desired.storeKey d) = none := by
  rw [Option.eq_none_iff_forall_not_mem]
  intro o ho
  obtain ⟨hown, w, hw, haddress⟩ := h.objects ho
  have hhome := Address.home_of_within hwithin
  have hkey := h.wellFormed.key_of_find? ho
  exact hnew w hw (haddress.trans
    (hown.eq_of_key_eq hN hwithin rfl (hkey.trans (congrArg Address.key hhome))))

/-- With namespaces that are apart, a store is a map of addresses. -/
theorem Apart.keyedMap (hN : Apart N) : KeyedMap N where
  get_put := by
    intro log c c' k d o hc hd hwithin hput j name ns? hj hne
    obtain ⟨hrefusal, -, rfl⟩ := Cluster.put_ok hc.kept.wellFormed.readable hput
    exact hc.kept.get_afterPut hN hd hwithin hrefusal hj hne
  get_remove := by
    intro log c k name ns? hc _ hwithin j name' ns?' hj hne
    exact hc.kept.get_afterRemove hN hwithin hj hne
  address_of_get := fun hc hwithin hget => hc.kept.address_of_get hN hwithin hget
  put_new := by
    intro log c k d hc hd hwithin hname huid hnew
    have hkept := hc.kept
    have hrefusal : Desired.refusal? d = none := by simp [Desired.refusal?, hname, huid]
    have hput : (c.putObject d).metadata.uid? = some (c.uids.uid c.uids.spent) := by
      rw [Cluster.putObject, hkept.find?_of_new hN hwithin hnew]
      rfl
    refine ⟨_, _, Cluster.put_eq hkept.wellFormed.readable hrefusal, hput, fun hinj w hw heq => ?_⟩
    obtain ⟨i, hi, hspent⟩ := hkept.spent w hw
    rw [hspent, hput, Option.some.injEq] at heq
    exact absurd (hinj heq) hi.ne
  list_all := by
    intro log c hc k
    have hkept := hc.kept
    refine ⟨_, Store.list_eq hkept.wellFormed.readable k none, hkept.nodup_listed none, fun o => ?_⟩
    rw [hkept.wellFormed.mem_listed, hkept.live_iff hN, k.scope_none]
    simp
  list_namespace := by
    intro log c hc k hk ns hns hne
    have hkept := hc.kept
    refine ⟨_, Store.list_eq hkept.wellFormed.readable k (some ns), hkept.nodup_listed _,
      fun o => ?_⟩
    rw [hkept.mem_listed_some hN hk hns hne, hkept.live_iff hN]

/-- If a store is a map of addresses, the namespaces are apart: an object in a namespace that is
beneath another one would be listed there. -/
theorem KeyedMap.apart (h : KeyedMap N) : Apart N := by
  intro ns hns hne ns' hns' hbeneath
  have hne' : ns' ≠ "" := by
    rintro rfl
    simp [Beneath] at hbeneath
  let d : Desired .pod := .plain .pod "x" (some ns')
  let c : Cluster := ⟨.empty, ⟨fun _ => "", 0⟩⟩
  have hsound : Sound InRange nestingLimit d := Desired.sound_plain .pod _ _
  have hwithin : (Address.of .pod d.metadata.name d.metadata.ns?).Within N :=
    ⟨ns', hns', hne', rfl⟩
  have hempty : c.store.Readable := (Built.fresh (N := N) fun _ => "").kept.wellFormed.readable
  have hput : c.put d = .ok (c.putObject d, c.afterPut d) := Cluster.put_eq hempty rfl
  have hbuilt := Built.put (.fresh fun _ => "") hsound hwithin hput
  have hkept := hbuilt.kept
  obtain ⟨os, hos, -, hmem⟩ := h.list_namespace hbuilt .pod rfl ns hns hne
  rw [Store.list_eq hkept.wellFormed.readable] at hos
  obtain rfl := Except.ok.inj hos
  have hhome : Desired.address d = ⟨.pod, some ns', "x"⟩ :=
    (Address.home_of_within hwithin).trans rfl
  have haddress : (Object.reread (c.putObject d)).address = ⟨.pod, some ns', "x"⟩ :=
    (Cluster.address_putObject c d).trans hhome
  have hlisted : Object.reread (c.putObject d) ∈ (c.afterPut d).store.listed .pod (some ns) := by
    refine (hkept.wellFormed.mem_listed _).mpr ⟨?_, ?_⟩
    · rw [(Cluster.objects_afterPut hsound).1, haddress, ← hhome]
      exact KeyMap.find?_insert_self _ _ _
    · intro _ hscope
      obtain rfl := Option.some.inj hscope
      rw [haddress]
      exact keyInNamespace_of_beneath hbeneath _
  have hown : some ns' = some ns :=
    (congrArg Address.ns? haddress).symm.trans ((hmem _).mp hlisted).2
  rw [Option.some.inj hown] at hbeneath
  exact absurd hbeneath.length_le (by simp)

end

/-- **A store is a map of addresses if and only if the namespaces in use are apart.** -/
theorem keyedMap_iff_apart (N : Set String) : KeyedMap N ↔ Apart N :=
  ⟨KeyedMap.apart, Apart.keyedMap⟩

end ClusterSnapshot
