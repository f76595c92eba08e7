import ClusterSnapshot.Proofs.Operation.Overlay

/-!
# Volumes and their claims

A bound volume refers to its claim by name, and by an identity that means something in one cluster
only. A replay therefore looks the claim up before it hands the volume in. By then all claims have
been brought in, and none is touched afterwards. So whatever the order in the snapshot, in the end
every volume that was replayed refers to the claim that is there.

## Main results

* `Cluster.RefersTo`: the reference that a volume is to have in a cluster.
* `Replay.bound_of_overlays`: a volume and its claim that were both brought in.
* `Replay.volumes_refer`: **after a replay every volume refers to its claim as it is then**.
-/

namespace ClusterSnapshot

open JsonForm (Sound)
open Number (InRange)

variable {P : Number → Prop} {k : Kind}

/-- The reference of a volume to its claim, bound or not. -/
def Object.claimRef? {M : Type} (volume : Object .volume M) : Option ObjectReference :=
  volume.volumeBody.spec.claimRef?

/-- **The reference to a claim** that a volume is to have in a cluster when it was `d` before. -/
inductive Cluster.RefersTo (c : Cluster) (d : Desired .volume) : Option ObjectReference → Prop
  /-- A volume that is not bound or refers to no claim is left as it is. -/
  | free : d.isBound = false ∨ d.claimRef? = none → RefersTo c d d.claimRef?
  /-- A claim that is not fully named has no identity. -/
  | unnamed {ref : ObjectReference} : d.isBound = true → d.claimRef? = some ref →
    ref.name? = none ∨ ref.ns? = none → RefersTo c d (some { ref with uid? := none })
  /-- Nor has a claim that is not there. -/
  | missing {ref : ObjectReference} {name ns : String} : d.isBound = true →
    d.claimRef? = some ref → ref.name? = some name → ref.ns? = some ns →
    c.store.get .claim name (some ns) = .ok none → RefersTo c d (some { ref with uid? := none })
  /-- Else it is the identity of the claim. -/
  | found {ref : ObjectReference} {name ns uid : String} {claim : Stored .claim} :
    d.isBound = true → d.claimRef? = some ref → ref.name? = some name → ref.ns? = some ns →
    c.store.get .claim name (some ns) = .ok (some claim) → claim.metadata.uid? = some uid →
    RefersTo c d (some { ref with uid? := some uid })

namespace Cluster

variable {c : Cluster} {ref : ObjectReference}

/-- If the claim is there, a bound volume refers to no other. -/
theorem RefersTo.eq_of_found {d : Desired .volume} {ref? : Option ObjectReference}
    (h : c.RefersTo d ref?) (hbound : d.isBound = true) (href : d.claimRef? = some ref)
    {name ns : String} (hname : ref.name? = some name) (hns : ref.ns? = some ns)
    {claim : Stored .claim} (hget : c.store.get .claim name (some ns) = .ok (some claim)) :
    ∃ uid, claim.metadata.uid? = some uid ∧ ref? = some { ref with uid? := some uid } := by
  cases h with
  | free hfree =>
      rcases hfree with hfree | hfree
      · rw [hbound] at hfree
        cases hfree
      · rw [href] at hfree
        cases hfree
  | unnamed _ href' hunnamed =>
      obtain rfl := Option.some.inj (href.symm.trans href')
      simp [hname, hns] at hunnamed
  | missing _ href' hname' hns' hmissing =>
      obtain rfl := Option.some.inj (href.symm.trans href')
      obtain rfl := Option.some.inj (hname.symm.trans hname')
      obtain rfl := Option.some.inj (hns.symm.trans hns')
      rw [hget] at hmissing
      cases hmissing
  | found _ href' hname' hns' hfound huid =>
      obtain rfl := Option.some.inj (href.symm.trans href')
      obtain rfl := Option.some.inj (hname.symm.trans hname')
      obtain rfl := Option.some.inj (hns.symm.trans hns')
      rw [hget] at hfound
      cases hfound
      exact ⟨_, huid, rfl⟩

/-- A claim that is not fully named has no identity. -/
theorem claimUid?_of_unnamed (h : ref.name? = none ∨ ref.ns? = none) : c.claimUid? ref = none := by
  rw [claimUid?]
  rcases h with h | h <;> rw [h]
  cases ref.name? <;> rfl

/-- A claim that is fully named has the identity with which it is found, if it is there. -/
theorem claimUid?_of_get {name ns : String} {claim? : Option (Stored .claim)}
    (hname : ref.name? = some name) (hns : ref.ns? = some ns)
    (hget : c.store.get .claim name (some ns) = .ok claim?) :
    c.claimUid? ref = claim?.bind (·.metadata.uid?) := by
  simp only [claimUid?, hname, hns, serveGet, hget]
  cases claim? <;> rfl

/-- A well formed cluster gives a bound volume the reference that it is to have. -/
theorem WellFormed.refersTo_claimUid? (hc : c.WellFormed P) {d : Desired .volume}
    (hbound : d.isBound = true) (href : d.claimRef? = some ref) :
    c.RefersTo d (some { ref with uid? := c.claimUid? ref }) := by
  by_cases hnamed : ref.name? = none ∨ ref.ns? = none
  · rw [claimUid?_of_unnamed hnamed]
    exact .unnamed hbound href hnamed
  · obtain ⟨hname, hns⟩ := not_or.mp hnamed
    obtain ⟨name, hname⟩ := Option.ne_none_iff_exists'.mp hname
    obtain ⟨ns, hns⟩ := Option.ne_none_iff_exists'.mp hns
    have hget := Store.get_eq hc.readable .claim name (some ns)
    cases hfind : (c.store.objects .claim).find? (objectKey (Kind.scope .claim (some ns)) name) with
    | none =>
        rw [hfind] at hget
        rw [claimUid?_of_get hname hns hget]
        exact .missing hbound href hname hns hget
    | some claim =>
        obtain ⟨-, -, hproper⟩ := hc.of_find? hfind
        obtain ⟨i, -, huid⟩ := hproper.uid
        rw [hfind] at hget
        rw [claimUid?_of_get hname hns hget, Option.bind_some, huid]
        exact .found hbound href hname hns hget huid

/-- **A volume that a well formed cluster prepares** refers to its claim as it is there. -/
theorem WellFormed.refersTo_prepared (hc : c.WellFormed P) (d : Desired .volume) :
    c.RefersTo d (c.prepared .volume d).claimRef? := by
  have hboundRef : d.boundRef? = if d.isBound then d.claimRef? else none := rfl
  have hprepared : (c.prepared .volume d).claimRef? =
      (d.boundRef?.map fun ref => { ref with uid? := c.claimUid? ref }).or d.claimRef? := by
    change (c.rebound d).volumeBody.spec.claimRef? = _
    rw [c.body_rebound]
    cases d.boundRef? <;> rfl
  rw [hprepared, hboundRef]
  cases hbound : d.isBound with
  | false => exact .free (.inl hbound)
  | true =>
      simp only [↓reduceIte]
      cases href : d.claimRef? with
      | none =>
          have hfree : c.RefersTo d d.claimRef? := .free (.inr href)
          rwa [href] at hfree
      | some ref => exact hc.refersTo_claimUid? hbound href

end Cluster

/-- A volume that is bound to a claim. -/
def Desired.boundVolume (name : String) (ref : ObjectReference) : Desired .volume :=
  ⟨none, none, ⟨some name, none, none, ∅, ∅, ∅⟩,
    (⟨⟨some ref, none, ∅⟩, some ⟨some boundPhase, ∅⟩⟩ : VolumeBody)⟩

/-- A volume that is bound to a claim is sound. -/
theorem Desired.sound_boundVolume [NumberRange P] {room : Nat} (name : String)
    (ref : ObjectReference) : Sound P (room + 3) (Desired.boundVolume name ref) := by
  have hnone : ∀ {α : Type} {Q : String × α → Prop}, ∀ e ∈ (∅ : KeyMap α).entries, Q e :=
    fun e he => absurd he List.not_mem_nil
  refine (Object.sound_iff (Object.pos_of_sound_desired _)).mpr ⟨?_, ?_, hnone⟩
  · exact DesiredMetadata.sound_iff.mpr ⟨.inl rfl, .inl rfl, hnone⟩
  · refine VolumeBody.Fields.fits ⟨VolumeSpec.sound_iff.mpr ⟨.inr (Nat.succ_pos room), hnone⟩, ?_⟩
    exact JsonForm.sound_some (fun h => by cases h) (VolumeStatus.sound_iff.mpr hnone)

namespace Replay

variable {s : Replay}

/-- An object that is not reserved and has a name is the last one at its key or is followed by
one. -/
theorem exists_lastNamed? {d : Desired k} (hd : d ∈ s.objects.get k)
    (hexcluded : Desired.isExcluded d = false) (hname : d.metadata.name ≠ "") :
    ∃ last, s.lastNamed? k (Desired.storeKey d) = some last := by
  have hmem : d ∈ (s.objects.get k).filter fun d' => !Desired.isExcluded d' &&
      d'.metadata.name != "" && Desired.storeKey d' == Desired.storeKey d :=
    List.mem_filter.mpr ⟨hd, by simp [hexcluded, hname]⟩
  exact ⟨_, List.getLast?_eq_some_getLast (List.ne_nil_of_mem hmem)⟩

/-- What is left of the last object at a key is found under its name. -/
theorem get_of_overlays {before after : Cluster} {external : Bool} {options : Options}
    (h : s.Overlays external options before after) (hafter : after.WellFormed P)
    {last : Desired k} (name : String) (ns? : Option String)
    (hlast : s.lastNamed? k (objectKey (Kind.scope k ns?) name) = some last) :
    ∃ o, Stored.WrittenFor before after last o ∧
      after.store.get k name ns? = .ok (some (Object.reread o)) := by
  have hleft := h.left k (objectKey (Kind.scope k ns?) name)
  rw [hlast] at hleft
  obtain ⟨o, hwritten, -, hfind⟩ := hleft
  exact ⟨o, hwritten, (Store.get_eq hafter.readable _ _ _).trans (congrArg Except.ok hfind)⟩

/-- What is left of the volumes of a replay, if all were brought in. -/
theorem refersTo_of_overlays {before after : Cluster} {external : Bool} {options : Options}
    (h : s.Overlays external options before after) (hafter : after.WellFormed P)
    {last : Desired .volume} {name : String} (hlast : s.lastNamed? .volume name = some last)
    (ns? : Option String) :
    ∃ o, Stored.WrittenFor before after last o ∧
      after.store.get .volume name ns? = .ok (some (Object.reread o)) ∧
      after.RefersTo last (Object.reread o).claimRef? := by
  obtain ⟨o, hwritten, hget⟩ := get_of_overlays h hafter name ns? hlast
  have hbody : o.volumeBody = (after.prepared .volume last).volumeBody := hwritten.body
  have href : (Object.reread o).claimRef? = o.volumeBody.spec.claimRef? := rfl
  refine ⟨o, hwritten, hget, ?_⟩
  rw [href, hbody]
  exact hafter.refersTo_prepared last

/-- What is left of a bound volume and its claim, if both were brought in: the volume refers to the
claim that is found. -/
theorem bound_of_overlays {before after : Cluster} {external : Bool} {options : Options}
    (h : s.Overlays external options before after) (hafter : after.WellFormed P)
    {volume : Desired .volume} {claim : Desired .claim} {ref : ObjectReference}
    {name claimName ns : String} (hvolume : s.lastNamed? .volume name = some volume)
    (hclaim : s.lastNamed? .claim (objectKey (Kind.scope .claim (some ns)) claimName) = some claim)
    (hbound : volume.isBound = true) (href : volume.claimRef? = some ref)
    (hname : ref.name? = some claimName) (hns : ref.ns? = some ns) :
    ∃ (o : Stored .volume) (o' : Stored .claim) (uid : String),
      after.store.get .volume name none = .ok (some o) ∧
      after.store.get .claim claimName (some ns) = .ok (some o') ∧
      o'.metadata.uid? = some uid ∧ o.claimRef? = some { ref with uid? := some uid } := by
  obtain ⟨o, -, hget, hrefers⟩ := refersTo_of_overlays h hafter hvolume none
  obtain ⟨o', -, hget'⟩ := get_of_overlays h hafter claimName (some ns) hclaim
  obtain ⟨uid, huid, hclaimRef⟩ := hrefers.eq_of_found hbound href hname hns hget'
  exact ⟨_, _, uid, hget, hget', huid, hclaimRef⟩

/-- **After a replay every volume refers to its claim as it is then.** If the replay succeeds, as it
does with lenient options, then for every volume that is not reserved and has a name, what is found
under that name was written for the last such volume of the snapshot, and its claim is the one that
the cluster then has. -/
theorem volumes_refer {c : Cluster} (hs : s.AllSound InRange) (hc : Reachable InRange c)
    (name : String) (external : Bool) (limit : Nat) (options : Options) :
    let replayed := (Cluster.operator name external limit).replayInto s options c
    (options.ignoreErrors = true → replayed.1 = .ok ()) ∧
      (replayed.1 = .ok () → ∀ d ∈ s.objects.volume, Desired.isExcluded d = false →
        d.metadata.name ≠ "" → ∃ last o, s.lastNamed? .volume d.metadata.name = some last ∧
          Stored.WrittenFor c replayed.2 last o ∧
          replayed.2.store.get .volume d.metadata.name none = .ok (some (Object.reread o)) ∧
          replayed.2.RefersTo last (Object.reread o).claimRef?) := by
  intro replayed
  refine ⟨fun hlenient => ?_, fun hok d hd hexcluded hname => ?_⟩
  · have hbrought := Operator.broughtIn_replayInto name external limit s options c
    exact (hbrought.of_accepts (Cluster.accepts_of_lenient hlenient _ _)).1
  · obtain ⟨hoverlays, hafter⟩ := overlays_of_ok hs hc hok
    obtain ⟨last, hlast⟩ := exists_lastNamed? hd hexcluded hname
    obtain ⟨o, ho⟩ := refersTo_of_overlays hoverlays hafter hlast none
    exact ⟨last, o, hlast, ho⟩

/-- A volume that is listed before its claim, whose identity it has from another cluster. -/
theorem volumes_refer_disk :
    let c : Cluster := ⟨.empty, ⟨toString, 0⟩⟩
    let disk : Desired .volume :=
      .boundVolume "disk" ⟨none, none, some "data", some "team", some "stale", none⟩
    let s : Replay := { Replay.single disk with
      objects := (Replay.single disk).objects.set .claim
        [Desired.plain .claim "data" (some "team")] }
    let replayed := (Cluster.operator "target" false 4).replayInto s .lenient c
    s.AllSound InRange ∧ Reachable InRange c ∧ replayed.1 = .ok () ∧
      ∃ (volume : Stored .volume) (claim : Stored .claim) (uid : String),
        replayed.2.store.get .volume "disk" none = .ok (some volume) ∧
        replayed.2.store.get .claim "data" (some "team") = .ok (some claim) ∧
        claim.metadata.uid? = some uid ∧
        volume.claimRef? = some ⟨none, none, some "data", some "team", some uid, none⟩ := by
  intro c disk s replayed
  have hs : s.AllSound InRange := by
    refine ⟨fun k d hd => ?_, fun _ hc => by cases hc⟩
    cases k with
    | volume =>
        obtain rfl := List.mem_singleton.mp hd
        exact Desired.sound_boundVolume _ _
    | claim =>
        obtain rfl := List.mem_singleton.mp hd
        exact Desired.sound_plain .claim "data" (some "team")
    | pod | node | storageClass | priorityClass | ns => cases hd
  have hc : Reachable InRange c := .fresh _
  obtain ⟨hlenient, hrefer⟩ := volumes_refer hs hc "target" false 4 .lenient
  have hok : replayed.1 = .ok () := hlenient rfl
  obtain ⟨last, o, hlast, -, hvolume, hrefers⟩ :=
    hrefer hok disk (List.mem_singleton.mpr rfl) rfl (by decide)
  obtain rfl : disk = last := Option.some.inj (Eq.trans rfl hlast)
  -- The claim was brought in by the same replay, so it is found.
  obtain ⟨hoverlays, hafter⟩ := overlays_of_ok hs hc hok
  have hthere : s.lastNamed? .claim "team/data" =
      some (Desired.plain .claim "data" (some "team")) := rfl
  obtain ⟨o', -, hget⟩ := get_of_overlays hoverlays hafter "data" (some "team") hthere
  refine ⟨hs, hc, hok, Object.reread o, Object.reread o', ?_⟩
  obtain ⟨uid, huid, hclaimRef⟩ := hrefers.eq_of_found rfl rfl rfl rfl hget
  exact ⟨uid, hvolume, hget, huid, hclaimRef⟩

end Replay

end ClusterSnapshot
