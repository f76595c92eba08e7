import ClusterSnapshot.Proofs.Operation.BringingIn

/-!
# Reserved objects and replays

A replay must leave the reserved objects of a cluster alone. Whether an object of a replay is
reserved is decided by the namespace that it comes with, but where it is put is decided later. The
two do not agree for an object without a namespace, which is put into the default one, and for one
in a namespace beneath the default one, which can have the key of an object there.

## Main results

* `Replay.KeepsOut.isReserved_eq_false`: without such objects, nothing is put at a reserved key.
* `Replay.keeps_reserved`: then every replay leaves the reserved objects as they are.
* `Replay.keepsReserved_iff`: **a replay never touches reserved objects if and only if it holds no
  such object**.
-/

namespace ClusterSnapshot

open JsonForm (Sound)
open Number (InRange)
open Reserved (isIgnoredNamespace isSystemNamespace isSystemPriorityClass defaultNamespace)

variable {k : Kind}

/-! ### Reserved addresses -/

/-- Whether what is at an address belongs to the cluster itself: a namespace and a priority class
go by their name, a pod and a claim by their namespace. -/
def Address.isReserved (a : Address) : Bool :=
  match a.kind with
  | .pod | .claim => a.ns?.any isIgnoredNamespace
  | .ns => isIgnoredNamespace a.name
  | .priorityClass => isSystemPriorityClass a.name
  | .node | .volume | .storageClass => false

/-- A namespaced object is excluded with its namespace. -/
theorem isExcluded_of_namespaced (h : k.isNamespaced = true) (name : String)
    (ns? : Option String) : Reserved.isExcluded k name ns? = ns?.any isIgnoredNamespace := by
  cases k with
  | pod | claim => rfl
  | node | volume | storageClass | priorityClass | ns => cases h

/-- The address of a namespaced object is reserved with its namespace. -/
theorem Address.isReserved_of_namespaced {a : Address} (h : a.kind.isNamespaced = true) :
    a.isReserved = a.ns?.any isIgnoredNamespace := by
  obtain ⟨k, ns?, name⟩ := a
  cases k with
  | pod | claim => rfl
  | node | volume | storageClass | priorityClass | ns => cases h

/-- The namespaces of the system are told by how they begin. -/
theorem isSystemNamespace_iff {ns : String} :
    isSystemNamespace ns = true ↔ "kube-".toList <+: ns.toList := by
  simp [isSystemNamespace, Reserved.startsWith, Reserved.systemNamespaceStart]

/-- The namespaces that are ignored are those of the system and the default one. -/
theorem isIgnoredNamespace_iff {ns : String} :
    isIgnoredNamespace ns = true ↔ "kube-".toList <+: ns.toList ∨ ns = defaultNamespace := by
  simp [isIgnoredNamespace, isSystemNamespace_iff]

/-- A namespace beneath a reserved one is reserved itself, unless that is the default one. -/
theorem isIgnored_of_beneath {r ns : String} (hr : isIgnoredNamespace r = true)
    (h : Beneath r ns) : isIgnoredNamespace ns = true ∨ r = defaultNamespace := by
  rcases isIgnoredNamespace_iff.mp hr with hstart | hdefault
  · exact .inl (isIgnoredNamespace_iff.mpr
      (.inl (hstart.trans ((List.prefix_append _ _).trans h))))
  · exact .inr hdefault

/-- A namespace that a reserved one is beneath is reserved itself. -/
theorem isIgnored_of_beneath' {r ns : String} (hr : isIgnoredNamespace r = true)
    (h : Beneath ns r) : isIgnoredNamespace ns = true := by
  have hslash : ∀ l : List Char, '/' ∉ l → ¬ ns.toList ++ ['/'] <+: l :=
    fun l hl hpre => hl (hpre.subset (by simp))
  rcases isIgnoredNamespace_iff.mp hr with hstart | rfl
  · rcases List.prefix_or_prefix_of_prefix hstart h with hle | hle
    · rcases List.prefix_concat_iff.mp hle with heq | hle
      · exact absurd ⟨[], by rw [List.append_nil, heq]⟩ (hslash "kube-".toList (by decide))
      · exact isIgnoredNamespace_iff.mpr (.inl hle)
    · exact absurd hle (hslash _ (by decide))
  · exact absurd h (hslash _ (by decide))

/-- A namespace with a key in common with a reserved one is reserved, or beneath the default one. -/
theorem isIgnored_of_key_eq {r ns n n' : String} (hr : isIgnoredNamespace r = true)
    (h : objectKey (some r) n = objectKey (some ns) n') :
    isIgnoredNamespace ns = true ∨ Beneath defaultNamespace ns := by
  have hkey := keyInNamespace_objectKey r n
  rw [h] at hkey
  rcases eq_or_beneath_of_keyInNamespace hkey with rfl | hb | hb
  · exact .inl hr
  · rcases isIgnored_of_beneath hr hb with hns | rfl
    · exact .inl hns
    · exact .inr hb
  · exact .inl (isIgnored_of_beneath' hr hb)

/-! ### Replays that keep out -/

/-- Whether every admitted object of a replay that goes into a namespace names it, and one that is
not beneath the default namespace. Objects without a name are refused anyway. -/
def Replay.KeepsOut (s : Replay) : Prop :=
  ∀ k : Kind, k.isNamespaced = true → ∀ d ∈ s.objects.get k, Desired.isExcluded d = false →
    d.metadata.name ≠ "" →
      ∃ ns, d.metadata.ns? = some ns ∧ ns ≠ "" ∧ ¬ Beneath defaultNamespace ns

/-- An object that keeps out is not put where a reserved object is. -/
theorem Replay.KeepsOut.isReserved_eq_false {s : Replay} (hs : s.KeepsOut) {d : Desired k}
    (hd : d ∈ s.objects.get k) (hexcluded : Desired.isExcluded d = false)
    (hname : d.metadata.name ≠ "") {a : Address} (hkind : a.kind = k)
    (hhome : k.home a.ns? = a.ns?) (hkey : a.key = d.address.key) : a.isReserved = false := by
  obtain ⟨k', ns?, n⟩ := a
  obtain rfl : k' = k := hkind
  have hnamed : k'.isNamespaced = false → n = d.metadata.name := by
    intro hk
    have hnone : ns? = none := hhome.symm.trans (Kind.home_of_not_namespaced hk _)
    have hkey' : objectKey ns? n = objectKey (k'.home d.metadata.ns?) d.metadata.name := hkey
    rw [hnone, Kind.home_of_not_namespaced hk] at hkey'
    exact hkey'
  have hspaced : k'.isNamespaced = true → ns?.any isIgnoredNamespace = false := by
    intro hk
    obtain ⟨ns, hns, hne, hbeneath⟩ := hs k' hk d hd hexcluded hname
    obtain ⟨r, hr, hown⟩ := Kind.home_of_namespaced hk ns?
    obtain rfl : ns? = some r := hhome.symm.trans hown
    rw [Option.any_some, Bool.eq_false_iff]
    intro hreserved
    have hkey' : objectKey (some r) n = objectKey (some ns) d.metadata.name := by
      have hd' : d.address.key = objectKey (k'.home d.metadata.ns?) d.metadata.name := rfl
      rw [hns, Kind.home_some hk hne] at hd'
      exact hkey.trans hd'
    rcases isIgnored_of_key_eq hreserved hkey' with hns' | hns'
    · have hgiven : Desired.isExcluded d = isIgnoredNamespace ns := by
        rw [Desired.isExcluded, hns, isExcluded_of_namespaced hk, Option.any_some]
      rw [hgiven, hns'] at hexcluded
      cases hexcluded
    · exact hbeneath hns'
  cases k' with
  | pod | claim => exact hspaced rfl
  | node | volume | storageClass => rfl
  | ns | priorityClass =>
      rw [← hexcluded, Desired.isExcluded, ← hnamed rfl]
      rfl

/-! ### The reserved objects of a cluster -/

/-- The reserved objects of a kind, as a cluster lists them. -/
def Cluster.reserved (c : Cluster) (k : Kind) : Except StoreError (List (Stored k)) :=
  (c.store.list k none).map fun os => os.filter fun o => o.address.isReserved

variable {P : Number → Prop} {c : Cluster}

/-- The reserved objects of a kind are those at reserved addresses. -/
theorem Cluster.WellFormed.reserved_eq (h : c.WellFormed P) (k : Kind) :
    c.reserved k = .ok ((c.store.objects k).filterMap
      (Option.guard fun o => o.address.isReserved)).values := by
  rw [Cluster.reserved, Store.list_eq h.readable, KeyMap.values_filter, Store.listed_none]
  rfl

/-- The reserved objects are those that are found by their own key and say that they are
reserved. -/
theorem Cluster.WellFormed.mem_reserved (h : c.WellFormed P) {k : Kind} {os : List (Stored k)}
    (hos : c.reserved k = .ok os) {o : Stored k} :
    o ∈ os ↔ (c.store.objects k).find? o.address.key = some o ∧ o.address.isReserved = true := by
  rw [h.reserved_eq] at hos
  obtain rfl := Except.ok.inj hos
  simp only [KeyMap.mem_values, KeyMap.find?_filterMap, Option.bind_eq_some_iff,
    Option.guard_eq_some_iff]
  constructor
  · rintro ⟨key, _, ho, rfl, hreserved⟩
    rw [h.key_of_find? ho]
    exact ⟨ho, hreserved⟩
  · exact fun ⟨ho, hreserved⟩ => ⟨_, o, ho, rfl, hreserved⟩

/-- The reserved objects of a kind by key. -/
def Cluster.reservedMap (c : Cluster) (k : Kind) : KeyMap (Stored k) :=
  (c.store.objects k).filterMap (Option.guard fun o => o.address.isReserved)

/-- An object that keeps out is brought in without a change to the reserved objects. -/
theorem Replay.KeepsOut.bringIn [NumberRange P] {s : Replay} (hs : s.AllSound P)
    (hout : s.KeepsOut) (hc : c.WellFormed P) {i : Item} (hi : i ∈ s.admitted) (k : Kind) :
    (c.bringIn i).reservedMap k = c.reservedMap k := by
  refine KeyMap.ext_find? fun key => ?_
  rw [Cluster.reservedMap, Cluster.reservedMap, KeyMap.find?_filterMap, KeyMap.find?_filterMap]
  have hfind := hc.find?_bringIn (Replay.sound_of_mem_admitted hs hi) k key
  cases hat : i.at? k key with
  | none =>
      rw [hat] at hfind
      simp only at hfind
      rw [hfind]
  | some d' =>
      rw [hat] at hfind
      obtain ⟨o, ho, hafter⟩ := hfind
      obtain ⟨rfl, rfl, hrefusal⟩ := Item.of_at?_eq_some hat
      obtain ⟨d, hd, hadmitted⟩ := Replay.mem_admitted.mp hi
      have haddress := Desired.address_of_admitted? hadmitted
      -- Neither what was at the key nor what is there now is reserved.
      have hfree : ∀ o : Stored k, k.home o.metadata.ns? = o.metadata.ns? →
          o.address.key = (Desired.address d').key →
            (some o).bind (Option.guard fun o => o.address.isReserved) = none := by
        intro o hhome hkey
        rw [haddress] at hkey
        have hreserved := hout.isReserved_eq_false hd (Desired.admitted?_eq_some hadmitted).1
          ((Desired.refusal?_of_admitted? hadmitted).mp hrefusal) rfl hhome hkey
        simp [Option.guard, hreserved]
      have hhome : k.home o.metadata.ns? = o.metadata.ns? := by
        have hns : o.metadata.ns? = k.home d'.metadata.ns? := congrArg Address.ns? ho.address_eq
        rw [hns, Kind.home_home]
      rw [hafter, hfree o hhome (by rw [ho.address_eq])]
      cases hbefore : (c.store.objects k).find? (Desired.storeKey d') with
      | none => rfl
      | some o' =>
          obtain ⟨-, hkey, hproper⟩ := hc.of_find? hbefore
          exact (hfree o' hproper.home hkey).symm

/-- **A replay that keeps out** leaves the reserved objects as they are, whether or not it
succeeds. -/
theorem Replay.keeps_reserved [NumberRange P] {s : Replay} (hs : s.AllSound P) (hout : s.KeepsOut)
    (hc : c.WellFormed P) (name : String) (external : Bool) (limit : Nat) (options : Options)
    (k : Kind) :
    ((Cluster.operator name external limit).replayInto s options c).2.reserved k =
      c.reserved k := by
  have hbrought := Operator.broughtIn_replayInto name external limit s options c
  obtain ⟨hafter, hsame⟩ := hbrought.keeps (I := fun c' => c'.WellFormed P ∧
    ∀ k, c'.reservedMap k = c.reservedMap k) (fun i hi c' hc' =>
      ⟨hc'.1.bringIn (Replay.sound_of_mem_admitted hs hi), fun k =>
        (hout.bringIn hs hc'.1 hi k).trans (hc'.2 k)⟩)
    ⟨hc.configured hs.config external options, fun k => by
      rw [Cluster.reservedMap, Cluster.objects_configured]
      rfl⟩
  rw [hafter.reserved_eq, hc.reserved_eq]
  exact congrArg (fun m : KeyMap (Stored k) => Except.ok m.values) (hsame k)

/-! ### Replays that do not keep out -/

/-- Whether a replay never touches the reserved objects of a cluster. -/
def Replay.KeepsReserved (s : Replay) : Prop :=
  ∀ c, Reachable InRange c → ∀ (name : String) (external : Bool) (limit : Nat) (options : Options)
    (k : Kind), ((Cluster.operator name external limit).replayInto s options c).2.reserved k =
      c.reserved k

/-- An object without a namespace, or in one that is beneath the default one, has the key of some
object in the default namespace. -/
theorem exists_default_key (hk : k.isNamespaced = true) {d : Desired k}
    (hname : d.metadata.name ≠ "")
    (h : ¬ ∃ ns, d.metadata.ns? = some ns ∧ ns ≠ "" ∧ ¬ Beneath defaultNamespace ns) :
    ∃ n, n ≠ "" ∧ Desired.storeKey d = objectKey (some defaultNamespace) n := by
  have hdefault : k.home d.metadata.ns? = some defaultNamespace ∨
      ∃ ns, k.home d.metadata.ns? = some ns ∧ Beneath defaultNamespace ns := by
    cases hns : d.metadata.ns? with
    | none => exact .inl (by simp [Kind.home, hk])
    | some ns =>
        by_cases hne : ns = ""
        · exact .inl (by simp [Kind.home, hk, hne])
        · refine .inr ⟨ns, Kind.home_some hk hne, ?_⟩
          by_contra hbeneath
          exact h ⟨ns, hns, hne, hbeneath⟩
  rcases hdefault with hhome | ⟨ns, hhome, rest, hrest⟩
  · exact ⟨d.metadata.name, hname, by rw [Desired.storeKey, hhome]⟩
  · refine ⟨String.ofList (rest ++ '/' :: d.metadata.name.toList), ?_, ?_⟩
    · intro hempty
      simpa using congrArg String.toList hempty
    · rw [Desired.storeKey, hhome]
      refine String.toList_injective ?_
      rw [toList_objectKey, toList_objectKey, ← hrest]
      simp

/-- A lenient replay writes something at the key of every object that it admits. -/
theorem Replay.writes_of_lenient [NumberRange P] {s : Replay} (hs : s.AllSound P) {c : Cluster}
    (hc : c.WellFormed P) {d : Desired k} (hd : d ∈ s.objects.get k)
    (hexcluded : Desired.isExcluded d = false) (hname : d.metadata.name ≠ "") (name : String)
    (external : Bool) (limit : Nat) :
    ((Cluster.operator name external limit).replayInto s .lenient c).2.WellFormed P ∧
      ∃ o n, (((Cluster.operator name external limit).replayInto s .lenient c).2.store.objects
          k).find? (Desired.storeKey d) = some o ∧
        c.store.revision < n ∧ o.metadata.resourceVersion? = some (toString n) := by
  have hbrought := Operator.broughtIn_replayInto name external limit s .lenient c
  obtain ⟨-, hafter⟩ := hbrought.of_accepts (Cluster.accepts_of_lenient rfl _ _)
  have hsound : ∀ i ∈ s.admitted, Sound P nestingLimit i.2 :=
    fun i hi => Replay.sound_of_mem_admitted hs hi
  have hconfigured := hc.configured hs.config external .lenient
  obtain ⟨d₁, hadmitted⟩ := Desired.exists_admitted hexcluded
  have hall := hconfigured.find?_bringInAll hsound k (Desired.storeKey d)
  obtain ⟨d', hd'⟩ := exists_lastAt? (Replay.mem_admitted.mpr ⟨d, hd, hadmitted⟩)
    (congrArg Address.key (Desired.address_of_admitted? hadmitted))
    ((Desired.refusal?_of_admitted? hadmitted).mpr hname)
  change lastAt? k (Desired.storeKey d) s.admitted = some d' at hd'
  rw [hd'] at hall
  obtain ⟨o, hwritten, hfind⟩ := hall
  obtain ⟨n, hn, hversion⟩ := hwritten.version
  rw [(c.configured_eq external .lenient s.schedulerConfig?).2] at hn
  rw [hafter]
  exact ⟨hconfigured.bringInAll hsound, o, n, hfind, hn, hversion⟩

/-- A replay that does not keep out touches a reserved object of some cluster. -/
theorem Replay.KeepsReserved.keepsOut {s : Replay} (hs : s.AllSound InRange)
    (h : s.KeepsReserved) : s.KeepsOut := by
  intro k hk d hd hexcluded hname
  by_contra hno
  obtain ⟨n, hn, hkey⟩ := exists_default_key hk hname hno
  -- Some cluster has an object in the default namespace with the key of `d`.
  have hrefusal : Desired.refusal? (Desired.plain k n (some defaultNamespace)) = none := by
    change (if n = "" then _ else _) = none
    rw [if_neg hn]
    rfl
  obtain ⟨c, hreach, o, ho, haddress⟩ :=
    Cluster.exists_reachable_holding (Desired.sound_plain (P := InRange) k n _) hrefusal
  have hown : o.address = ⟨k, some defaultNamespace, n⟩ := by
    have hhome := Kind.home_some hk (by decide : defaultNamespace ≠ "")
    change _ = (⟨k, k.home (some defaultNamespace), n⟩ : Address) at haddress
    rw [haddress, hhome]
  have hreserved : o.address.isReserved = true := by
    rw [hown, Address.isReserved_of_namespaced hk]
    rfl
  -- A replay writes something else there, so the object is not as it was.
  have hc := hreach.wellFormed
  obtain ⟨hafter, o', m, hfind, hm, hversion⟩ :=
    Replay.writes_of_lenient hs hc hd hexcluded hname "" true 1
  have hsame := h _ hreach "" true 1 .lenient k
  have hlisted := (hc.mem_reserved (hc.reserved_eq k)).mpr ⟨ho, hreserved⟩
  have hkept := ((hafter.mem_reserved (hsame.trans (hc.reserved_eq k))).mp hlisted).1
  rw [hown] at hkept
  obtain rfl : o' = o := Option.some.inj (hfind.symm.trans ((congrArg _ hkey).trans hkept))
  have hle := hc.version_le ho hversion
  omega

/-- **A replay never touches reserved objects if and only if it keeps out.** -/
theorem Replay.keepsReserved_iff (s : Replay) (hs : s.AllSound InRange) :
    s.KeepsReserved ↔ s.KeepsOut :=
  ⟨fun h => h.keepsOut hs, fun hout _ hc name external limit options k =>
    s.keeps_reserved hs hout hc.wellFormed name external limit options k⟩

/-- A pod that comes without a namespace is put where reserved pods are. -/
theorem Replay.not_keepsReserved_pod :
    ¬ (Replay.single (Desired.plain .pod "web" none)).KeepsReserved := by
  have hs : (Replay.single (Desired.plain .pod "web" none)).AllSound InRange :=
    Replay.allSound_single (Desired.sound_plain .pod "web" none)
  rw [Replay.keepsReserved_iff _ hs]
  intro hout
  obtain ⟨ns, hns, -⟩ :=
    hout .pod rfl _ (List.mem_singleton_self _) (by decide) (by decide)
  cases hns

end ClusterSnapshot
