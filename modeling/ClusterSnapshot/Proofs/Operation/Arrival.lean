import ClusterSnapshot.Proofs.Operation.Reserved

/-!
# Objects that a replay loses

A replay that succeeds may still lose objects that are not reserved. It passes over nodes, volumes
and storage classes that come with a reserved namespace, although they have no namespace at all. And
of two objects whose addresses share a key, only the last is left.

## Main results

* `Replay.arrived_iff`: an object arrives if and only if the last admitted object with its key has
  its address.
* `Replay.lost_iff`: **a strict replay that succeeds loses objects in these two ways only**.
-/

namespace ClusterSnapshot

open Number (InRange)

variable {P : Number → Prop} {k : Kind}

/-- Whether an object of a replay is found at its own address after the replay, and was written by
it. -/
def Arrived (before after : Cluster) (d : Desired k) : Prop :=
  ∃ o : Stored k,
    after.store.get k d.metadata.name (k.home d.metadata.ns?) = .ok (some o) ∧
      o.address = Desired.address d ∧
      ∃ n, before.store.revision < n ∧ o.metadata.resourceVersion? = some (toString n)

/-- Whether an object that has no namespace is passed over for the one that it comes with, and
nothing else is brought in with its key. -/
def Replay.PassesOver (s : Replay) (d : Desired k) : Prop :=
  (k = .node ∨ k = .volume ∨ k = .storageClass) ∧
    d.metadata.ns?.any Reserved.isIgnoredNamespace = true ∧
    lastAt? k (Desired.storeKey d) s.admitted = none

/-- Whether the last object that is brought in with the key of an object has another address. -/
def Replay.Overwrites (s : Replay) (d : Desired k) : Prop :=
  ∃ d', lastAt? k (Desired.storeKey d) s.admitted = some d' ∧
    Desired.address d' ≠ Desired.address d

/-- An object that is not reserved is admitted, unless it has no namespace and comes with a reserved
one. -/
theorem isExcluded_of_not_reserved {d : Desired k}
    (h : (Desired.address d).isReserved = false) (hexcluded : Desired.isExcluded d = true) :
    (k = .node ∨ k = .volume ∨ k = .storageClass) ∧
      d.metadata.ns?.any Reserved.isIgnoredNamespace = true := by
  have hhome : k.isNamespaced = true → False := by
    intro hk
    rw [Desired.isExcluded, isExcluded_of_namespaced hk] at hexcluded
    obtain ⟨ns, hns, hignored⟩ := (Option.any_eq_true _ _).mp hexcluded
    have hne : ns ≠ "" := by
      rintro rfl
      exact absurd hignored (by decide)
    have haddress : (Desired.address d).ns? = some ns := by
      rw [Desired.address, hns, Kind.home_some hk hne]
    rw [Address.isReserved_of_namespaced hk, haddress, Option.any_some, hignored] at h
    cases h
  cases k with
  | pod | claim => exact absurd rfl hhome
  | ns | priorityClass => exact absurd (h.symm.trans hexcluded) (by decide)
  | node => exact ⟨.inl rfl, hexcluded⟩
  | volume => exact ⟨.inr (.inl rfl), hexcluded⟩
  | storageClass => exact ⟨.inr (.inr rfl), hexcluded⟩

section

variable {s : Replay} {c : Cluster} {name : String} {external : Bool} {limit : Nat}
  {options : Options} {d : Desired k}

/-- An object arrives if and only if the last object that is brought in with its key has its
address. -/
theorem Replay.arrived_iff (hs : s.AllSound InRange) (hc : Reachable InRange c)
    (hok : ((Cluster.operator name external limit).replayInto s options c).1 = .ok ()) :
    Arrived c ((Cluster.operator name external limit).replayInto s options c).2 d ↔
      ∃ d', lastAt? k (Desired.storeKey d) s.admitted = some d' ∧
        Desired.address d' = Desired.address d := by
  have hbrought := Operator.broughtIn_replayInto name external limit s options c
  rw [hok] at hbrought
  obtain ⟨-, hafter⟩ := hbrought.of_ok
  have hsound : ∀ i ∈ s.admitted, JsonForm.Sound InRange nestingLimit i.2 :=
    fun i hi => Replay.sound_of_mem_admitted hs hi
  have hconfigured := hc.wellFormed.configured hs.config external options
  have hall := hconfigured.find?_bringInAll hsound k (Desired.storeKey d)
  rw [hafter, Arrived]
  simp only [Store.get_eq (hconfigured.bringInAll hsound).readable, Kind.scope_home,
    Except.ok.injEq]
  change (∃ o, KeyMap.find? _ (Desired.storeKey d) = some o ∧ _) ↔ _
  cases hlast : lastAt? k (Desired.storeKey d) s.admitted with
  | none =>
      rw [hlast] at hall
      constructor
      · rintro ⟨o, ho, -, n, hn, hversion⟩
        rw [hall, Cluster.objects_configured] at ho
        exact absurd (hc.wellFormed.version_le ho hversion) (by omega)
      · rintro ⟨d', hd', -⟩
        cases hd'
  | some d' =>
      rw [hlast] at hall
      obtain ⟨o, hwritten, hfind⟩ := hall
      constructor
      · rintro ⟨o', ho', haddress, -⟩
        obtain rfl : o = o' := Option.some.inj (hfind.symm.trans ho')
        exact ⟨d', rfl, hwritten.address_eq.symm.trans haddress⟩
      · rintro ⟨_, hd', haddress⟩
        obtain rfl := Option.some.inj hd'
        obtain ⟨n, hn, hversion⟩ := hwritten.version
        rw [(c.configured_eq external options s.schedulerConfig?).2] at hn
        exact ⟨o, hfind, hwritten.address_eq.trans haddress, n, hn, hversion⟩

/-- **A strict replay that succeeds loses an object** that is not reserved if and only if it
passes over it for a namespace that it does not have, or overwrites it with an object at another
address. -/
theorem Replay.lost_iff (hs : s.AllSound InRange) (hc : Reachable InRange c)
    (hstrict : options.ignoreErrors = false)
    (hok : ((Cluster.operator name external limit).replayInto s options c).1 = .ok ())
    (hd : d ∈ s.objects.get k) (hreserved : (Desired.address d).isReserved = false) :
    ¬ Arrived c ((Cluster.operator name external limit).replayInto s options c).2 d ↔
      s.PassesOver d ∨ s.Overwrites d := by
  rw [Replay.arrived_iff hs hc hok]
  cases hlast : lastAt? k (Desired.storeKey d) s.admitted with
  | some d' => simp [Replay.PassesOver, Replay.Overwrites, hlast]
  | none =>
      have hexcluded : Desired.isExcluded d = true := by
        by_contra hadmitted
        rw [Bool.not_eq_true] at hadmitted
        obtain ⟨d₁, hd₁⟩ := Desired.exists_admitted hadmitted
        have hmem := Replay.mem_admitted.mpr ⟨d, hd, hd₁⟩
        have hbrought := Operator.broughtIn_replayInto name external limit s options c
        rw [hok] at hbrought
        have hrefusal := Cluster.refusal?_of_accepts hstrict hbrought.of_ok.1 _ hmem
        obtain ⟨d', hd'⟩ := exists_lastAt? hmem
          (congrArg Address.key (Desired.address_of_admitted? hd₁)) hrefusal
        exact absurd (hlast.symm.trans hd') (by simp)
      obtain ⟨hkind, hns⟩ := isExcluded_of_not_reserved hreserved hexcluded
      simp [Replay.PassesOver, Replay.Overwrites, hlast, hkind, hns]

/-- A node that comes with the default namespace is lost. -/
theorem Replay.not_arrived_node :
    let c : Cluster := ⟨.empty, ⟨toString, 0⟩⟩
    let d : Desired .node := .plain .node "worker" (some "default")
    let replayed := (Cluster.operator "target" false 4).replayInto (Replay.single d) .strict c
    replayed.1 = .ok () ∧ (Desired.address d).isReserved = false ∧ ¬ Arrived c replayed.2 d := by
  intro c d replayed
  have hs : (Replay.single d).AllSound InRange :=
    Replay.allSound_single (Desired.sound_plain .node "worker" (some "default"))
  have hbrought :=
    Operator.broughtIn_replayInto "target" false 4 (Replay.single d) .strict c
  have hok : replayed.1 = .ok () := (hbrought.of_accepts trivial).1
  have hmem : d ∈ (Replay.single d).objects.get .node := List.mem_singleton_self d
  refine ⟨hok, rfl, ?_⟩
  exact (Replay.lost_iff hs (.fresh _) rfl hok hmem rfl).mpr (.inl ⟨.inl rfl, rfl, rfl⟩)

end

end ClusterSnapshot
