import ClusterSnapshot.Proofs.Operation.Portable
import ClusterSnapshot.Proofs.Operation.Submission

/-!
# Replays as overlays

A replay into a cluster that is not refused writes its objects over those of the cluster: at every
key the last object counts, nothing of the object that was there is merged into it but for the
identity, and what has a key of its own stays exactly as it was.

## Main results

* `Cluster.WellFormed.text_bringInAll`: the text that is left at every key when objects were brought
  in.
* `Cluster.WellFormed.identified_bringInAll`: what has an identity keeps it, the rest gets fresh
  ones.
* `Replay.overlay`: **a replay is an overlay**.
-/

namespace ClusterSnapshot

open JsonForm (Sound Rereads)
open Number (InRange)

variable {P : Number → Prop} {k : Kind}

namespace Cluster

variable {c : Cluster} {items : List Item}

/-! ### Claims of volumes -/

/-- What volumes are prepared with are the claims of the cluster. -/
theorem prepared_congr {c c' : Cluster}
    (h : c.store.tables.get .claim = c'.store.tables.get .claim) (d : Desired k) :
    c.prepared k d = c'.prepared k d := by
  have hclaim : ∀ ref, c.claimUid? ref = c'.claimUid? ref := by
    intro ref
    simp only [claimUid?, serveGet, Store.get, h]
  cases k with
  | volume =>
      simp only [prepared, rebound, hclaim]
  | pod | node | claim | storageClass | priorityClass | ns => rfl

/-- The body that a volume is handed in with. -/
theorem body_rebound (c : Cluster) (volume : Desired .volume) :
    (c.rebound volume).volumeBody =
      match volume.boundRef? with
      | some ref => volume.volumeBody.withClaimRef { ref with uid? := c.claimUid? ref }
      | none => volume.volumeBody := by
  have href : volume.boundRef? =
      if volume.volumeBody.isBound then volume.volumeBody.spec.claimRef? else none := rfl
  rw [rebound_eq]
  cases hclaim : volume.boundRef? with
  | none => rfl
  | some ref =>
      rw [hclaim] at href
      split at href
      · rw [Object.volumeBody_withClaimUid, ← href]
        rfl
      · cases href

/-- What is prepared of a body depends on nothing else of the object. -/
theorem body_prepared_congr (c : Cluster) {d d' : Desired k} (h : d.body = d'.body) :
    (c.prepared k d).body = (c.prepared k d').body := by
  cases k with
  | volume =>
      have hsame : d.volumeBody = d'.volumeBody := h
      have href : d.boundRef? = d'.boundRef? :=
        congrArg (fun b : VolumeBody => if b.isBound then b.spec.claimRef? else none) h
      refine (c.body_rebound d).trans (Eq.trans ?_ (c.body_rebound d').symm)
      rw [hsame, href]
  | pod | node | claim | storageClass | priorityClass | ns => exact h

/-- Only volumes are prepared. -/
theorem prepared_of_ne (c : Cluster) (hk : k ≠ .volume) (d : Desired k) : c.prepared k d = d := by
  cases k <;> first | rfl | exact absurd rfl hk

/-- To bring in an object leaves the tables of other kinds alone. -/
theorem WellFormed.tables_bringIn (hc : c.WellFormed P) (i : Item) (hk : i.1 ≠ k) :
    (c.bringIn i).store.tables.get k = c.store.tables.get k := by
  obtain ⟨j, d⟩ := i
  cases hrefusal : Desired.refusal? d with
  | some e => rw [bringIn_of_refusal hrefusal]
  | none =>
      rw [bringIn_eq hc.readable hrefusal]
      exact ByKind.get_set_of_ne _ _ hk

/-- Unless a claim is brought in, volumes are prepared as before. -/
theorem WellFormed.prepared_bringIn (hc : c.WellFormed P) (i : Item)
    (hi : k = .volume → i.1 ≠ .claim) (d : Desired k) :
    (c.bringIn i).prepared k d = c.prepared k d := by
  by_cases hk : k = .volume
  · exact prepared_congr (hc.tables_bringIn i (hi hk)) d
  · rw [prepared_of_ne _ hk, prepared_of_ne _ hk]

/-! ### Texts -/

/-- Whether an object is written for `d` between two clusters, and volumes as the later one has
their claims. -/
def WrittenBetween (c c' : Cluster) (d : Desired k) (o : Stored k) : Prop :=
  ∃ uid? n, c.store.revision < n ∧ n ≤ c'.store.revision ∧
    o = Desired.stored (c'.prepared k d) uid? n none

/-- What was written stays so when another object is brought in, unless a volume is followed by a
claim. -/
theorem WrittenBetween.bringIn {c' : Cluster} {d : Desired k} {o : Stored k}
    (h : WrittenBetween c c' d o) (hc' : c'.WellFormed P) {i : Item}
    (hi : k = .volume → i.1 = .volume) : WrittenBetween c (c'.bringIn i) d o := by
  obtain ⟨uid?, n, hlt, hle, ho⟩ := h
  refine ⟨uid?, n, hlt, hle.trans (hc'.revision_le_bringIn i), ?_⟩
  rw [hc'.prepared_bringIn i fun hk => by rw [hi hk]; decide, ho]

/-- The text that one object leaves at a key. -/
theorem WellFormed.text_bringIn [NumberRange P] (hc : c.WellFormed P) {i : Item}
    (hi : Sound P nestingLimit i.2) (k : Kind) (key : String) :
    match i.at? k key with
    | some d => ∃ o, Sound P nestingLimit o ∧ WrittenBetween c (c.bringIn i) d o ∧
        ((c.bringIn i).store.tables.get k).find? key = some (JsonForm.text o)
    | none => ((c.bringIn i).store.tables.get k).find? key = (c.store.tables.get k).find? key := by
  obtain ⟨j, d⟩ := i
  by_cases hj : j = k
  · subst hj
    rw [Item.at?_mk]
    cases hrefusal : Desired.refusal? d with
    | some e => simp [bringIn_of_refusal hrefusal]
    | none =>
        have htable : ((c.bringIn ⟨j, d⟩).store.tables.get j) = (c.store.tables.get j).insert
            (Desired.storeKey d) (JsonForm.text (c.putObject (c.prepared j d))) := by
          rw [bringIn_eq hc.readable hrefusal, ← c.storeKey_prepared d]
          exact ByKind.get_set_self _ _ _
        rw [htable]
        by_cases hkey : Desired.storeKey d = key
        · simp only [hkey, Option.isNone_none, and_self, ↓reduceIte]
          obtain ⟨uid?, hput⟩ := hc.putObject_stored (c.prepared j d)
          have hrevision : (c.bringIn ⟨j, d⟩).store.revision = c.store.revision + 1 := by
            rw [bringIn_eq hc.readable hrefusal]
            rfl
          have hprepared : (c.bringIn ⟨j, d⟩).prepared j d = c.prepared j d :=
            hc.prepared_bringIn _ (fun hvolume hclaim => by cases hvolume.symm.trans hclaim) d
          refine ⟨c.putObject (c.prepared j d), sound_putObject (sound_prepared hi),
            ⟨uid?, c.store.revision + 1, Nat.lt_succ_self _, hrevision.ge, ?_⟩,
            KeyMap.find?_insert_self _ _ _⟩
          rw [hprepared, hput]
        · simp only [hkey, false_and, ↓reduceIte]
          exact KeyMap.find?_insert_of_ne _ _ hkey
  · rw [Item.at?_of_ne hj]
    simp only
    rw [hc.tables_bringIn _ hj]

/-- **The text that is left at every key** is that of the last object there. Volumes are brought in
last. -/
theorem WellFormed.text_bringInAll [NumberRange P] (hc : c.WellFormed P)
    (hitems : ∀ i ∈ items, Sound P nestingLimit i.2)
    (horder : items.Pairwise fun i j => i.1 = .volume → j.1 = .volume) (k : Kind) (key : String) :
    match lastAt? k key items with
    | some d => ∃ o, Sound P nestingLimit o ∧
        WrittenBetween c (items.foldl Cluster.bringIn c) d o ∧
        ((items.foldl Cluster.bringIn c).store.tables.get k).find? key = some (JsonForm.text o)
    | none => ((items.foldl Cluster.bringIn c).store.tables.get k).find? key =
        (c.store.tables.get k).find? key := by
  induction items using List.reverseRecOn with
  | nil => rfl
  | append_singleton items i ih =>
      obtain ⟨hbefore, -, hlast⟩ := List.pairwise_append.mp horder
      have hsound : ∀ i ∈ items, Sound P nestingLimit i.2 :=
        fun i hi => hitems i (List.mem_append_left _ hi)
      have hi : Sound P nestingLimit i.2 := hitems i (by simp)
      have hc' := hc.bringInAll hsound
      have hstep := hc'.text_bringIn hi k key
      have hrest := ih hsound hbefore
      rw [lastAt?_concat, List.foldl_append, List.foldl_cons, List.foldl_nil]
      cases hat : i.at? k key with
      | some d =>
          rw [hat] at hstep
          obtain ⟨o, ho, ⟨uid?, n, hlt, hle, hstored⟩, htext⟩ := hstep
          have hfirst := (hc.revision_le_bringInAll hsound).trans_lt hlt
          exact ⟨o, ho, ⟨uid?, n, hfirst, hle, hstored⟩, htext⟩
      | none =>
          rw [hat] at hstep
          simp only at hstep
          rw [Option.none_or, hstep]
          cases hd : lastAt? k key items with
          | none =>
              rw [hd] at hrest
              exact hrest
          | some d =>
              rw [hd] at hrest
              obtain ⟨o, ho, hwritten, htext⟩ := hrest
              have hvolume : k = .volume → i.1 = .volume :=
                hlast _ (mem_of_lastAt? hd).1 i (by simp)
              exact ⟨o, ho, hwritten.bringIn hc' hvolume, htext⟩

/-! ### Identities -/

/-- The identity that the object at a key has, if there is one. -/
def identity? (c : Cluster) (k : Kind) (key : String) : Option (Option String) :=
  ((c.store.objects k).find? key).map (·.metadata.uid?)

/-- What is found under a name has the identity that is there. -/
theorem identity?_of_get (hc : c.store.Readable) {name : String} {ns? : Option String}
    {o : Stored k} (h : c.store.get k name ns? = .ok (some o)) :
    c.identity? k (objectKey (Kind.scope k ns?) name) = some o.metadata.uid? := by
  rw [Store.get_eq hc] at h
  rw [identity?, Except.ok.inj h, Option.map_some]

/-- Whether each object of a cluster has kept its identity in a later one, and the new ones there
have fresh identities, each its own. -/
structure Identified (c c' : Cluster) (index : Kind → String → Nat) : Prop where
  source : c'.uids.uid = c.uids.uid
  spent : c.uids.spent ≤ c'.uids.spent
  kept : ∀ k key uid?, c.identity? k key = some uid? → c'.identity? k key = some uid?
  fresh : ∀ k key uid?, c.identity? k key = none → c'.identity? k key = some uid? →
    uid? = some (c.uids.uid (index k key)) ∧ c.uids.spent ≤ index k key ∧
      index k key < c'.uids.spent
  distinct : ∀ k key k' key', c.identity? k key = none → (c'.identity? k key).isSome →
    c.identity? k' key' = none → (c'.identity? k' key').isSome →
      index k key = index k' key' → k = k' ∧ key = key'

/-- A cluster has kept all its identities and has no new ones. -/
theorem identified_self (c : Cluster) : c.Identified c fun _ _ => 0 where
  source := rfl
  spent := le_refl _
  kept _ _ _ h := h
  fresh _ _ _ hnone hsome := by
    rw [hnone] at hsome
    cases hsome
  distinct _ _ _ _ hnone hsome := by
    rw [hnone] at hsome
    cases hsome

/-- Nothing but identities matters of the cluster that was there before. -/
theorem Identified.of_same {c₀ c' : Cluster} {index : Kind → String → Nat}
    (h : c.Identified c' index) (huids : c.uids = c₀.uids)
    (hidentity : ∀ k key, c.identity? k key = c₀.identity? k key) : c₀.Identified c' index where
  source := huids ▸ h.source
  spent := huids ▸ h.spent
  kept := by simpa only [hidentity] using h.kept
  fresh := by simpa only [hidentity, huids] using h.fresh
  distinct := by simpa only [hidentity] using h.distinct

/-- To hand in an object gives it the identity of the one that is there, or else a fresh one. -/
theorem identity?_afterPut [NumberRange P] {d : Desired k} (h : Sound P nestingLimit d) (j : Kind)
    (key : String) :
    (c.afterPut d).identity? j key =
      if j = k ∧ key = Desired.storeKey d then
        some ((c.identity? k (Desired.storeKey d)).getD (some (c.uids.uid c.uids.spent)))
      else c.identity? j key := by
  obtain ⟨hsame, hother⟩ := objects_afterPut (c := c) h
  by_cases hj : j = k
  · subst hj
    simp only [identity?, hsame, true_and, KeyMap.find?_insert, eq_comm (a := key)]
    split
    · simp only [putObject]
      cases (c.store.objects j).find? (Desired.storeKey d) <;> rfl
    · rfl
  · simp only [identity?, hj, false_and, ↓reduceIte, hother j (Ne.symm hj)]

/-- An object that is new takes a fresh identity. -/
theorem spent_afterPut (c : Cluster) (d : Desired k) :
    (c.afterPut d).uids.spent =
      if (c.identity? k (Desired.storeKey d)).isSome then c.uids.spent else c.uids.spent + 1 := by
  change (c.putUids d).spent = _
  rw [putUids, identity?]
  cases hfind : (c.store.objects k).find? (Desired.storeKey d) <;> rfl

/-- A further object with the next fresh identity. -/
theorem Identified.add {c' c'' : Cluster} {index : Kind → String → Nat}
    (h : c.Identified c' index) {key : String} (hthere : c'.identity? k key = none)
    (hidentity : ∀ j key', c''.identity? j key' =
      if j = k ∧ key' = key then some (some (c'.uids.uid c'.uids.spent)) else c'.identity? j key')
    (hsource : c''.uids.uid = c'.uids.uid) (hspent : c''.uids.spent = c'.uids.spent + 1) :
    c.Identified c'' fun j key' => if j = k ∧ key' = key then c'.uids.spent else index j key' := by
  have hnew : c.identity? k key = none := by
    rw [Option.eq_none_iff_forall_ne_some]
    intro uid? hsome
    rw [h.kept _ _ _ hsome] at hthere
    cases hthere
  have hlt : ∀ j key', c.identity? j key' = none → (c'.identity? j key').isSome →
      index j key' < c'.uids.spent := by
    intro j key' hnone hsome
    obtain ⟨uid?, huid⟩ := Option.isSome_iff_exists.mp hsome
    exact (h.fresh j key' uid? hnone huid).2.2
  refine ⟨hsource.trans h.source, by rw [hspent]; exact h.spent.trans (Nat.le_succ _), ?_, ?_, ?_⟩
  · intro j key' uid? hsome
    rw [hidentity, if_neg]
    · exact h.kept j key' uid? hsome
    · rintro ⟨rfl, rfl⟩
      rw [hnew] at hsome
      cases hsome
  · intro j key' uid? hnone hsome
    rw [hidentity] at hsome
    split at hsome
    · rename_i heq
      rw [if_pos heq, hspent, ← h.source]
      exact ⟨(Option.some.inj hsome).symm, h.spent, Nat.lt_succ_self _⟩
    · rename_i hne
      rw [if_neg hne, hspent]
      obtain ⟨huid, hle, hlt⟩ := h.fresh j key' uid? hnone hsome
      exact ⟨huid, hle, hlt.trans (Nat.lt_succ_self _)⟩
  · intro j key₁ j' key₂ hnone hsome hnone' hsome' heq
    rw [hidentity] at hsome hsome'
    split at hsome <;> split at hsome' <;> rename_i hat hat'
    · exact ⟨hat.1.trans hat'.1.symm, hat.2.trans hat'.2.symm⟩
    · rw [if_pos hat, if_neg hat'] at heq
      exact absurd (hlt j' key₂ hnone' hsome') (by omega)
    · rw [if_neg hat, if_pos hat'] at heq
      exact absurd (hlt j key₁ hnone hsome) (by omega)
    · rw [if_neg hat, if_neg hat'] at heq
      exact h.distinct j key₁ j' key₂ hnone hsome hnone' hsome' heq

/-- To hand in another object keeps identities and adds at most one that is fresh. -/
theorem Identified.afterPut [NumberRange P] {c' : Cluster} {index : Kind → String → Nat}
    (h : c.Identified c' index) {d : Desired k} (hd : Sound P nestingLimit d) :
    ∃ index', c.Identified (c'.afterPut d) index' := by
  have hidentity := identity?_afterPut (c := c') hd
  have hspent := c'.spent_afterPut d
  cases hthere : c'.identity? k (Desired.storeKey d) with
  | some uid? =>
      -- The identity that is there is kept, so that nothing changes.
      have hsame : ∀ j key, (c'.afterPut d).identity? j key = c'.identity? j key := by
        intro j key
        rw [hidentity, hthere]
        split
        · rename_i heq
          rw [heq.1, heq.2, hthere]
          rfl
        · rfl
      rw [hthere] at hspent
      refine ⟨index, (c'.putUids_uid d).trans h.source, hspent ▸ h.spent, ?_, ?_, ?_⟩
      · simpa only [hsame] using h.kept
      · simpa only [hsame, hspent, Option.isSome_some, ↓reduceIte] using h.fresh
      · simpa only [hsame] using h.distinct
  | none =>
      rw [hthere] at hidentity hspent
      exact ⟨_, h.add hthere hidentity (c'.putUids_uid d) hspent⟩

/-- **What has an identity keeps it**, and the rest gets fresh ones. -/
theorem WellFormed.identified_bringInAll [NumberRange P] (hc : c.WellFormed P)
    (hitems : ∀ i ∈ items, Sound P nestingLimit i.2) :
    ∃ index, c.Identified (items.foldl Cluster.bringIn c) index := by
  induction items using List.reverseRecOn with
  | nil => exact ⟨_, c.identified_self⟩
  | append_singleton items i ih =>
      have hsound : ∀ i ∈ items, Sound P nestingLimit i.2 :=
        fun i hi => hitems i (List.mem_append_left _ hi)
      obtain ⟨index, hindex⟩ := ih hsound
      rw [List.foldl_append, List.foldl_cons, List.foldl_nil]
      obtain ⟨k, d⟩ := i
      cases hrefusal : Desired.refusal? d with
      | some e =>
          rw [bringIn_of_refusal hrefusal]
          exact ⟨index, hindex⟩
      | none =>
          rw [bringIn_eq (hc.bringInAll hsound).readable hrefusal]
          exact hindex.afterPut (sound_prepared (hitems ⟨k, d⟩ (by simp)))

/-! ### Versions -/

/-- Every object that is not refused is a write. -/
theorem WellFormed.revision_bringInAll [NumberRange P] (hc : c.WellFormed P)
    (hitems : ∀ i ∈ items, Sound P nestingLimit i.2) :
    (items.foldl Cluster.bringIn c).store.revision =
      c.store.revision + items.countP fun i => (Desired.refusal? i.2).isNone := by
  induction items generalizing c with
  | nil => rfl
  | cons i rest ih =>
      obtain ⟨hi, hrest⟩ := List.forall_mem_cons.mp hitems
      rw [List.foldl_cons, ih (hc.bringIn hi) hrest, List.countP_cons]
      obtain ⟨k, d⟩ := i
      cases hrefusal : Desired.refusal? d with
      | some e =>
          rw [bringIn_of_refusal hrefusal]
          rfl
      | none =>
          rw [bringIn_eq hc.readable hrefusal]
          change c.store.revision + 1 + _ = c.store.revision + (_ + 1)
          omega

end Cluster

/-! ### What a replay leaves -/

/-- The last object of a kind with a key that is not reserved and has a name. -/
def Replay.lastNamed? (s : Replay) (k : Kind) (key : String) : Option (Desired k) :=
  ((s.objects.get k).filter fun d =>
    !Desired.isExcluded d && d.metadata.name != "" && Desired.storeKey d == key).getLast?

/-- Whether every object that is not reserved has a name. -/
def Replay.AllNamed (s : Replay) : Prop := ∀ i ∈ s.unreserved, i.2.metadata.name ≠ ""

/-- Whether an object is what a replay writes for `d`: all that `d` says, and besides its identity
only what a write assigns. A bound volume refers to its claim as it is after the replay. -/
structure Stored.WrittenFor (before after : Cluster) (d : Desired k) (o : Stored k) : Prop where
  apiVersion : o.apiVersion? = some k.apiVersion
  kind : o.kind? = some k.name
  name : o.metadata.name = d.metadata.name
  home : o.metadata.ns? = k.home d.metadata.ns?
  labels : o.metadata.labels = d.metadata.labels
  annotations : o.metadata.annotations = d.metadata.annotations
  extra : ∀ key, o.metadata.extra.find? key =
    if key ∈ Metadata.serverPopulated then none else d.metadata.extra.find? key
  created : o.metadata.creationTimestamp? = none
  version : ∃ n, before.store.revision < n ∧ n ≤ after.store.revision ∧
    o.metadata.resourceVersion? = some (toString n)
  body : o.body = (after.prepared k d).body

/-- **An overlay**: what a replay leaves of the cluster that was there before. -/
structure Replay.Overlays (s : Replay) (external : Bool) (options : Options)
    (before after : Cluster) : Prop where
  /-- At every key the last object is left, or the very same text as before. -/
  left : ∀ k key, match s.lastNamed? k key with
    | some d => ∃ o, Stored.WrittenFor before after d o ∧
        (after.store.tables.get k).find? key = some (JsonForm.text o) ∧
        (after.store.objects k).find? key = some o.reread
    | none => (after.store.tables.get k).find? key = (before.store.tables.get k).find? key
  identified : ∃ index, before.Identified after index
  revision : after.store.revision =
    before.store.revision + s.unreserved.countP fun i => i.2.metadata.name != ""
  scheduler : after.store.scheduler? =
    if options.ignoreSchedulerConfig || external then before.store.scheduler?
    else some (JsonForm.text (s.schedulerConfig?.getD .default))

namespace Replay

variable {s : Replay}

/-- Volumes are brought in last. -/
theorem pairwise_admitted (s : Replay) :
    s.admitted.Pairwise fun i j => i.1 = .volume → j.1 = .volume := by
  have horder : replayOrder.Pairwise fun j k => j = .volume → k = .volume := by decide
  rw [admitted, List.pairwise_flatMap]
  refine ⟨fun k _ => ?_, horder.imp fun hjk i hi i' hi' hvolume => ?_⟩
  · refine List.pairwise_iff_getElem.mpr fun m n hm hn _ hvolume => ?_
    rwa [fst_of_mem_admittedOf (List.getElem_mem hn), ← fst_of_mem_admittedOf (List.getElem_mem hm)]
  · rw [fst_of_mem_admittedOf hi']
    exact hjk ((fst_of_mem_admittedOf hi).symm.trans hvolume)

/-- An object is admitted for the key that it has. -/
theorem at?_admitted? (key : String) (d : Desired k) :
    ((Desired.admitted? d).bind fun d' => Item.at? k key ⟨k, d'⟩) =
      if !Desired.isExcluded d && d.metadata.name != "" && Desired.storeKey d == key then
        Desired.admitted? d
      else none := by
  cases hexcluded : Desired.isExcluded d with
  | true => simp [Desired.admitted?, hexcluded]
  | false =>
      obtain ⟨d', hd'⟩ := Desired.exists_admitted hexcluded
      have hkey : Desired.storeKey d' = Desired.storeKey d :=
        congrArg Address.key (Desired.address_of_admitted? hd')
      have hname := Desired.refusal?_of_admitted? hd'
      rw [hd', Option.bind_some, Item.at?_mk, hkey]
      simp only [Option.isNone_iff_eq_none, hname]
      simp [and_comm]

/-- The objects of other kinds have other keys. -/
theorem filterMap_at?_admittedOf {j : Kind} (h : j ≠ k) (s : Replay) (key : String) :
    (s.admittedOf j).filterMap (Item.at? k key) = [] := by
  refine List.filterMap_eq_nil_iff.mpr fun i hi => ?_
  obtain ⟨d, -, rfl⟩ := List.mem_map.mp hi
  exact Item.at?_of_ne h key d

/-- **The last object that is brought in under a key** is admitted for the last one with a name. -/
theorem lastAt?_admitted (s : Replay) (k : Kind) (key : String) :
    lastAt? k key s.admitted = (s.lastNamed? k key).bind Desired.admitted? := by
  have hkind : s.admitted.filterMap (Item.at? k key) =
      (s.admittedOf k).filterMap (Item.at? k key) := by
    rw [admitted, List.filterMap_flatMap]
    cases k <;> simp [replayOrder, Operator.clusterKinds, filterMap_at?_admittedOf]
  have hof : (s.admittedOf k).filterMap (Item.at? k key) =
      ((s.objects.get k).filter fun d => !Desired.isExcluded d && d.metadata.name != "" &&
        Desired.storeKey d == key).filterMap Desired.admitted? := by
    rw [admittedOf, List.filterMap_map, List.filterMap_filterMap, List.filterMap_filter]
    exact congrArg (fun f => (s.objects.get k).filterMap f) (funext (at?_admitted? key))
  have hadmitted : ∀ d ∈ (s.objects.get k).filter (fun d => !Desired.isExcluded d &&
      d.metadata.name != "" && Desired.storeKey d == key), ∃ d', Desired.admitted? d = some d' := by
    intro d hd
    have hexcluded := (List.mem_filter.mp hd).2
    simp only [Bool.and_eq_true, Bool.not_eq_true'] at hexcluded
    exact Desired.exists_admitted hexcluded.1.1
  rw [lastAt?, hkind, hof, lastNamed?]
  rcases List.eq_nil_or_concat' ((s.objects.get k).filter fun d => !Desired.isExcluded d &&
    d.metadata.name != "" && Desired.storeKey d == key) with hnil | ⟨ds, d, hconcat⟩
  · rw [hnil]
    rfl
  · obtain ⟨d', hd'⟩ := hadmitted d (by simp [hconcat])
    rw [hconcat, List.filterMap_append]
    simp [hd']

/-- The objects that are not refused are those with a name. -/
theorem refusal?_of_admits {i i' : Item} (h : Item.Admits i i') :
    Desired.refusal? i'.2 = none ↔ i.2.metadata.name ≠ "" := by
  obtain ⟨hadmitted⟩ := h
  exact Desired.refusal?_of_admitted? hadmitted

/-- As many objects are not refused as have a name. -/
theorem countP_of_admits {items items' : List Item} (h : List.Forall₂ Item.Admits items items') :
    items'.countP (fun i => (Desired.refusal? i.2).isNone) =
      items.countP fun i => i.2.metadata.name != "" := by
  induction h with
  | nil => rfl
  | cons hi _ ih =>
      rw [List.countP_cons, List.countP_cons, ih]
      have hsame := refusal?_of_admits hi
      simp only [Option.isNone_iff_eq_none, hsame, bne_iff_ne]

/-- No object is refused if and only if each has a name. -/
theorem forall_of_admits {items items' : List Item} (h : List.Forall₂ Item.Admits items items') :
    (∀ i ∈ items', Desired.refusal? i.2 = none) ↔ ∀ i ∈ items, i.2.metadata.name ≠ "" := by
  induction h with
  | nil => simp
  | cons hi _ ih => rw [List.forall_mem_cons, List.forall_mem_cons, ih, refusal?_of_admits hi]

/-- What was written for an object that is admitted was written for the object that it is admitted
for. -/
theorem writtenFor_of_admitted? {before after : Cluster} {d d' : Desired k} {o : Stored k}
    (hd' : Desired.admitted? d = some d') (h : Cluster.WrittenBetween before after d' o) :
    Stored.WrittenFor before after d o := by
  obtain ⟨uid?, n, hlt, hle, rfl⟩ := h
  obtain ⟨has, hbody⟩ := Desired.handedInAs_of_admitted? hd'
  have hname : d'.metadata.name = d.metadata.name := congrArg (·.getD "") has.name
  have hmetadata : (Desired.stored (after.prepared k d') uid? n none).metadata =
      ⟨d'.metadata.name, k.home d'.metadata.ns?, uid?, some (toString n), none, d'.metadata.labels,
        d'.metadata.annotations, d'.metadata.extra.eraseAll Metadata.serverPopulated⟩ := by
    rw [← after.prepared_metadata d']
    rfl
  refine ⟨rfl, rfl, ?_, ?_, ?_, ?_, ?_, rfl, ⟨n, hlt, hle, rfl⟩, ?_⟩
  · rw [hmetadata, hname]
  · rw [hmetadata, has.ns]
  · rw [hmetadata, has.labels]
  · rw [hmetadata, has.annotations]
  · intro key
    rw [hmetadata, KeyMap.find?_eraseAll, has.extra]
    split <;> rfl
  · exact Cluster.body_prepared_congr after hbody

/-- The configuration that a replay leaves. -/
theorem scheduler?_configured (c : Cluster) (external : Bool) (options : Options)
    (config? : Option Scheduler.Configuration) :
    (c.configured external options config?).store.scheduler? =
      if options.ignoreSchedulerConfig || external then c.store.scheduler?
      else some (JsonForm.text (config?.getD .default)) := by
  rw [Cluster.configured, Cluster.restarted]
  cases options.ignoreSchedulerConfig <;> cases external <;> rfl

/-- To restart the scheduler leaves identities alone. -/
theorem uids_configured (c : Cluster) (external : Bool) (options : Options)
    (config? : Option Scheduler.Configuration) :
    (c.configured external options config?).uids = c.uids := by
  rw [Cluster.configured, Cluster.restarted]
  split
  · rfl
  · split <;> rfl

/-- What is left when the objects of a replay were brought in. -/
theorem overlays_bringInAll [NumberRange P] (hs : s.AllSound P) {c : Cluster} (hc : c.WellFormed P)
    (external : Bool) (options : Options) :
    s.Overlays external options c
      (s.admitted.foldl Cluster.bringIn (c.configured external options s.schedulerConfig?)) := by
  have hitems : ∀ i ∈ s.admitted, Sound P nestingLimit i.2 :=
    fun i hi => Replay.sound_of_mem_admitted hs hi
  have hconfigured := hc.configured hs.config external options
  obtain ⟨htables, hrevision⟩ := c.configured_eq external options s.schedulerConfig?
  have huids := uids_configured c external options s.schedulerConfig?
  refine ⟨fun k key => ?_, ?_, ?_, ?_⟩
  · have htext := hconfigured.text_bringInAll hitems s.pairwise_admitted k key
    have hlast := s.lastAt?_admitted k key
    cases hd : s.lastNamed? k key with
    | none =>
        rw [hd, Option.bind_none] at hlast
        rw [hlast, htables] at htext
        exact htext
    | some d =>
        have hexcluded : Desired.isExcluded d = false := by
          have hmem := (List.mem_filter.mp (List.mem_of_getLast? hd)).2
          simp only [Bool.and_eq_true, Bool.not_eq_true'] at hmem
          exact hmem.1.1
        obtain ⟨d', hd'⟩ := Desired.exists_admitted hexcluded
        rw [hd, Option.bind_some, hd'] at hlast
        rw [hlast] at htext
        obtain ⟨o, ho, hwritten, htext⟩ := htext
        refine ⟨o, writtenFor_of_admitted? hd' ?_, htext, ?_⟩
        · simpa only [Cluster.WrittenBetween, hrevision] using hwritten
        · rw [Store.find?_objects, htext, Option.bind_some, JsonForm.ofText?_text ho]
          rfl
  · obtain ⟨index, h⟩ := hconfigured.identified_bringInAll hitems
    have hidentity : ∀ k key, (c.configured external options s.schedulerConfig?).identity? k key =
        c.identity? k key := by
      intro k key
      rw [Cluster.identity?, Cluster.objects_configured]
      rfl
    exact ⟨index, h.of_same huids hidentity⟩
  · rw [hconfigured.revision_bringInAll hitems, hrevision, countP_of_admits s.admits]
  · rw [hconfigured.scheduler?_bringInAll hitems, scheduler?_configured]

/-- A replay that succeeds leaves an overlay, and a well formed cluster. -/
theorem overlays_of_ok {c : Cluster} (hs : s.AllSound InRange) (hc : Reachable InRange c)
    {name : String} {external : Bool} {limit : Nat} {options : Options}
    (hok : ((Cluster.operator name external limit).replayInto s options c).1 = .ok ()) :
    let replayed := (Cluster.operator name external limit).replayInto s options c
    s.Overlays external options c replayed.2 ∧ replayed.2.WellFormed InRange := by
  intro replayed
  have hbrought := Operator.broughtIn_replayInto name external limit s options c
  rw [hok] at hbrought
  rw [hbrought.of_ok.2]
  refine ⟨overlays_bringInAll hs hc.wellFormed external options, ?_⟩
  exact (hc.wellFormed.configured hs.config external options).bringInAll
    fun i hi => Replay.sound_of_mem_admitted hs hi

/-- **A replay is an overlay.** With lenient options it always succeeds, with strict options if and
only if every object that is not reserved has a name. If it succeeds, it leaves at every key the
last object with a name and that key, nothing of it merged with what was there, or what was there
before; identities are kept, new ones are fresh, and every such object is one write. -/
theorem overlay {c : Cluster} (hs : s.AllSound InRange) (hc : Reachable InRange c)
    (name : String) (external : Bool) (limit : Nat) (options : Options) :
    let replayed := (Cluster.operator name external limit).replayInto s options c
    (replayed.1 = .ok () ↔ options.ignoreErrors = true ∨ s.AllNamed) ∧
      (replayed.1 = .ok () → s.Overlays external options c replayed.2) := by
  intro replayed
  have hbrought := Operator.broughtIn_replayInto name external limit s options c
  have hitems : ∀ i ∈ s.admitted, Sound InRange nestingLimit i.2 :=
    fun i hi => Replay.sound_of_mem_admitted hs hi
  have hconfigured := hc.wellFormed.configured hs.config external options
  refine ⟨⟨fun hok => ?_, fun h => ?_⟩, fun hok => (overlays_of_ok hs hc hok).1⟩
  · rw [or_iff_not_imp_left, Bool.not_eq_true]
    intro hstrict
    change BroughtIn _ _ _ replayed.1 _ at hbrought
    rw [hok] at hbrought
    exact (forall_of_admits s.admits).mp (Cluster.refusal?_of_accepts hstrict hbrought.of_ok.1)
  · refine (hbrought.of_accepts ?_).1
    rcases h with hlenient | hnamed
    · exact Cluster.accepts_of_lenient hlenient _ _
    · exact hconfigured.accepts options fun i hi =>
        ⟨hitems i hi, (forall_of_admits s.admits).mpr hnamed i hi⟩

/-- A replay that names a node twice into a cluster that has this node and another one: the last
item counts, with the identity that the node has, and the other node stays exactly as it is. -/
theorem overlay_nodes :
    let worker (tier : String) : Desired .node :=
      .labelled .node "worker" none ((∅ : KeyMap String).insert "tier" tier)
    let c : Cluster := (Cluster.afterPut ⟨.empty, ⟨toString, 0⟩⟩ (worker "old")).afterPut
      (Desired.plain .node "spare" none)
    let s := Replay.ofKind [worker "first", worker "last"]
    let replayed := (Cluster.operator "target" false 4).replayInto s .strict c
    s.AllSound InRange ∧ Reachable InRange c ∧ replayed.1 = .ok () ∧
      s.Overlays false .strict c replayed.2 ∧ replayed.2.store.revision = 4 ∧
      (∃ o, replayed.2.store.get .node "worker" none = .ok (some o) ∧
        o.metadata.labels = (∅ : KeyMap String).insert "tier" "last" ∧
        o.metadata.uid? = some (toString 0)) ∧
      ∃ text, (c.store.tables.get .node).find? "spare" = some text ∧
        (replayed.2.store.tables.get .node).find? "spare" = some text := by
  intro worker c s replayed
  have hworker : ∀ tier, Sound InRange nestingLimit (worker tier) := fun tier =>
    Desired.sound_labelled .node "worker" none (.inr (by decide))
  have hspare : Sound InRange nestingLimit (Desired.plain .node "spare" none) :=
    Desired.sound_plain .node "spare" none
  have hs : s.AllSound InRange :=
    allSound_ofKind (List.forall_mem_cons.mpr
      ⟨hworker _, List.forall_mem_singleton.mpr (hworker _)⟩)
  have hfresh : Reachable InRange ⟨.empty, ⟨toString, 0⟩⟩ := .fresh _
  have hfirst : Reachable InRange (Cluster.afterPut ⟨.empty, ⟨toString, 0⟩⟩ (worker "old")) :=
    hfresh.afterPut (hworker "old") rfl
  have hc : Reachable InRange c := hfirst.afterPut hspare rfl
  obtain ⟨hiff, hoverlays⟩ := overlay hs hc "target" false 4 .strict
  have hnamed : s.AllNamed := by
    have hunreserved : s.unreserved = [⟨.node, worker "first"⟩, ⟨.node, worker "last"⟩] := rfl
    rw [Replay.AllNamed, hunreserved, List.forall_mem_cons, List.forall_mem_singleton]
    exact ⟨by decide, by decide⟩
  have hok : replayed.1 = .ok () := hiff.mpr (.inr hnamed)
  have hleft := hoverlays hok
  refine ⟨hs, hc, hok, hleft, hleft.revision, ?_, ?_⟩
  · have hlast : s.lastNamed? .node "worker" = some (worker "last") := rfl
    have hthere := hleft.left .node "worker"
    rw [hlast] at hthere
    obtain ⟨o, hwritten, -, hfind⟩ := hthere
    have hafter := (overlays_of_ok hs hc hok).2
    refine ⟨o.reread, ?_, hwritten.labels, ?_⟩
    · rw [Store.get_eq hafter.readable]
      exact congrArg Except.ok hfind
    · obtain ⟨index, hidentified⟩ := hleft.identified
      have hold : c.identity? .node "worker" = some (some (toString 0)) := by
        rw [Cluster.identity?_afterPut hspare, if_neg (by decide),
          Cluster.identity?_afterPut (hworker "old"), if_pos ⟨rfl, rfl⟩]
        rfl
      have hkept := hidentified.kept .node "worker" _ hold
      rw [Cluster.identity?, hfind] at hkept
      exact Option.some.inj hkept
  · have hnone : s.lastNamed? .node "spare" = none := rfl
    have hkept := hleft.left .node "spare"
    rw [hnone] at hkept
    have hthere : (c.store.tables.get .node).find? "spare" = some _ :=
      KeyMap.find?_insert_self _ _ _
    exact ⟨_, hthere, hkept.trans hthere⟩

end Replay

end ClusterSnapshot
