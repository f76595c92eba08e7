import ClusterSnapshot.Proofs.Object.Contents
import ClusterSnapshot.Proofs.Operation.Replay
import ClusterSnapshot.Proofs.Store.Address

/-!
# What bringing in objects leaves

When objects are brought into a well formed cluster one after the other, each key of a table holds
in the end what was written for the last object with that key, or what it held before if there is
none.

## Main results

* `Cluster.WellFormed.bringInAll`: the cluster stays well formed.
* `Cluster.WellFormed.find?_bringInAll`: **the last object of a key is what is left at the key**.
* `Cluster.Written.address_eq`, `Cluster.Written.version`: what is known of an object that was
  brought in.
-/

namespace ClusterSnapshot

open JsonForm (Sound Lawful Rereads)

variable {P : Number → Prop} {k : Kind}

/-! ### Objects as they are handed in -/

/-- Another identity for the claim of a volume is as good as the first. -/
theorem Object.sound_withClaimUid [NumberRange P] {volume : Desired .volume} {room : Nat}
    (h : Sound P room volume) (uid? : Option String) :
    Sound P room (volume.withClaimUid uid?) := by
  obtain ⟨r, rfl⟩ := exists_room pos_of_sound_desired h
  obtain ⟨hmetadata, hbody, hextra⟩ := (sound_iff (pos_of_sound_desired _)).mp h
  exact (sound_iff (pos_of_sound_desired _)).mpr
    ⟨hmetadata, VolumeBody.fits_withClaim (Nat.succ_pos r) hbody _, hextra⟩

/-- The object of an item if it is of a kind, has a key there, and is not refused. -/
def Item.at? (k : Kind) (key : String) (i : Item) : Option (Desired k) :=
  if h : i.1 = k then
    if Desired.storeKey (h ▸ i.2) = key ∧ (Desired.refusal? (h ▸ i.2)).isNone then some (h ▸ i.2)
    else none
  else none

/-- An item is at no key of another kind. -/
theorem Item.at?_of_ne {j : Kind} (h : j ≠ k) (key : String) (d : Desired j) :
    Item.at? k key ⟨j, d⟩ = none := by
  simp [Item.at?, h]

/-- An item is at its own key, unless it is refused. -/
theorem Item.at?_mk (key : String) (d : Desired k) :
    Item.at? k key ⟨k, d⟩ =
      if Desired.storeKey d = key ∧ (Desired.refusal? d).isNone then some d else none := by
  simp [Item.at?]

/-- An item with an object of a kind at a key is that object. -/
theorem Item.of_at?_eq_some {key : String} {i : Item} {d : Desired k} (h : i.at? k key = some d) :
    i = ⟨k, d⟩ ∧ Desired.storeKey d = key ∧ Desired.refusal? d = none := by
  obtain ⟨j, d'⟩ := i
  by_cases hj : j = k
  · subst hj
    rw [Item.at?_mk] at h
    split at h
    · rename_i hkey
      obtain rfl := Option.some.inj h
      exact ⟨rfl, hkey.1, by simpa using hkey.2⟩
    · cases h
  · rw [Item.at?_of_ne hj] at h
    cases h

/-- The last object of a kind that is brought in under a key. -/
def lastAt? (k : Kind) (key : String) (items : List Item) : Option (Desired k) :=
  (items.filterMap (Item.at? k key)).getLast?

/-- The last of more items is the new one, if it is there. -/
theorem lastAt?_concat (k : Kind) (key : String) (items : List Item) (i : Item) :
    lastAt? k key (items ++ [i]) = (i.at? k key).or (lastAt? k key items) := by
  simp only [lastAt?]
  rw [List.filterMap_append]
  cases h : i.at? k key <;> simp [h]

/-- An object that is brought in under a key is the last one or is followed by one. -/
theorem exists_lastAt? {key : String} {items : List Item} {d : Desired k}
    (hd : (⟨k, d⟩ : Item) ∈ items) (hkey : Desired.storeKey d = key)
    (hrefusal : Desired.refusal? d = none) : ∃ d', lastAt? k key items = some d' := by
  have hmem : d ∈ items.filterMap (Item.at? k key) :=
    List.mem_filterMap.mpr ⟨_, hd, by simp [Item.at?_mk, hkey, hrefusal]⟩
  exact ⟨_, List.getLast?_eq_some_getLast (List.ne_nil_of_mem hmem)⟩

/-- The last object of a key is one of those that are brought in. -/
theorem mem_of_lastAt? {key : String} {items : List Item} {d : Desired k}
    (h : lastAt? k key items = some d) :
    (⟨k, d⟩ : Item) ∈ items ∧ Desired.storeKey d = key ∧ Desired.refusal? d = none := by
  obtain ⟨i, hi, hat⟩ := List.mem_filterMap.mp (List.mem_of_getLast? h)
  obtain ⟨rfl, hkey, hrefusal⟩ := Item.of_at?_eq_some hat
  exact ⟨hi, hkey, hrefusal⟩

namespace Cluster

variable {c : Cluster}

/-- A volume is handed in as it is, or with another identity for its claim. -/
theorem rebound_cases (c : Cluster) (volume : Desired .volume) :
    c.rebound volume = volume ∨
      (VolumeBody.isBound volume.body = true ∧
        ∃ uid?, c.rebound volume = volume.withClaimUid uid?) := by
  cases hbound : VolumeBody.isBound volume.body with
  | false => exact .inl (by simp [rebound, hbound])
  | true =>
      cases hclaim : VolumeSpec.claimRef? (VolumeBody.spec volume.body) with
      | none => exact .inl (by simp [rebound, hbound, hclaim])
      | some ref => exact .inr ⟨rfl, c.claimUid? ref, by simp [rebound, hbound, hclaim]⟩

/-- An object is handed in as it is, unless it is a bound volume. -/
theorem prepared_cases (c : Cluster) (d : Desired k) :
    c.prepared k d = d ∨ ∃ h : k = .volume, VolumeBody.isBound (h ▸ d).body = true ∧
      ∃ uid?, c.prepared k d = h ▸ (Object.withClaimUid (h ▸ d) uid?) := by
  cases k with
  | volume => exact (c.rebound_cases d).imp_right fun h => ⟨rfl, h⟩
  | pod | node | claim | storageClass | priorityClass | ns => exact .inl rfl

/-- To prepare an object leaves its metadata alone. -/
theorem prepared_metadata (c : Cluster) (d : Desired k) :
    (c.prepared k d).metadata = d.metadata := by
  rcases c.prepared_cases d with h | ⟨rfl, -, uid?, h⟩
  · rw [h]
  · rw [h]
    rfl

/-- A sound object is sound as it is handed in. -/
theorem sound_prepared [NumberRange P] {d : Desired k} {room : Nat} (h : Sound P room d) :
    Sound P room (c.prepared k d) := by
  rcases c.prepared_cases d with hd | ⟨rfl, -, uid?, hd⟩
  · rwa [hd]
  · rw [hd]
    exact Object.sound_withClaimUid h uid?

/-- To prepare an object leaves its key alone. -/
theorem storeKey_prepared (c : Cluster) (d : Desired k) :
    Desired.storeKey (c.prepared k d) = Desired.storeKey d := by
  rw [Desired.storeKey, c.prepared_metadata]
  rfl

/-- What is refused is refused as it is handed in, and nothing else. -/
theorem refusal?_prepared (c : Cluster) (d : Desired k) :
    Desired.refusal? (c.prepared k d) = Desired.refusal? d := by
  rw [Desired.refusal?, c.storeKey_prepared, c.prepared_metadata]
  rfl

/-! ### Bringing in one object -/

/-- An object that is refused changes nothing. -/
theorem bringIn_of_refusal {d : Desired k} {e : StoreError} (h : Desired.refusal? d = some e) :
    c.bringIn ⟨k, d⟩ = c := by
  rw [← c.refusal?_prepared] at h
  rw [bringIn, handIn, serveApply, put_of_refusal h]

/-- An object that is not refused is put. -/
theorem bringIn_eq (hc : c.store.Readable) {d : Desired k} (h : Desired.refusal? d = none) :
    c.bringIn ⟨k, d⟩ = c.afterPut (c.prepared k d) := by
  rw [← c.refusal?_prepared] at h
  rw [bringIn, handIn, serveApply, put_eq hc h]

/-- What comes of bringing in an object that is not refused. -/
theorem bringingIn_fst (hc : c.WellFormed P) (options : Options) {d : Desired k}
    (h : Desired.refusal? d = none) : (bringingIn options ⟨k, d⟩ c).1 = .ok () := by
  rw [← c.refusal?_prepared] at h
  change outcome options (c.prepared k d) c = _
  rw [outcome, serveApply, put_eq hc.readable h]

/-- With strict options an object that is refused makes for a failure. -/
theorem refusal?_of_bringingIn {options : Options} (hstrict : options.ignoreErrors = false)
    {d : Desired k} (h : (bringingIn options ⟨k, d⟩ c).1 = .ok ()) : Desired.refusal? d = none := by
  rw [← c.refusal?_prepared, Option.eq_none_iff_forall_not_mem]
  intro e he
  change outcome options (c.prepared k d) c = _ at h
  rw [outcome, serveApply] at h
  rw [put_of_refusal he] at h
  simp [hstrict] at h

/-- To bring in a sound object keeps a cluster well formed. -/
theorem WellFormed.bringIn [NumberRange P] (hc : c.WellFormed P) {i : Item}
    (hi : Sound P nestingLimit i.2) : (c.bringIn i).WellFormed P := by
  obtain ⟨k, d⟩ := i
  cases hrefusal : Desired.refusal? d with
  | some e =>
      rw [bringIn_of_refusal hrefusal]
      exact hc
  | none =>
      rw [bringIn_eq hc.readable hrefusal]
      exact hc.afterPut (sound_prepared hi) ((c.refusal?_prepared d).trans hrefusal)

/-- To bring in an object takes no version back. -/
theorem WellFormed.revision_le_bringIn (hc : c.WellFormed P) (i : Item) :
    c.store.revision ≤ (c.bringIn i).store.revision := by
  obtain ⟨k, d⟩ := i
  cases hrefusal : Desired.refusal? d with
  | some e => rw [bringIn_of_refusal hrefusal]
  | none =>
      rw [bringIn_eq hc.readable hrefusal]
      exact Nat.le_succ _

/-- To bring in an object leaves the scheduler alone. -/
theorem WellFormed.scheduler?_bringIn (hc : c.WellFormed P) (i : Item) :
    (c.bringIn i).store.scheduler? = c.store.scheduler? := by
  obtain ⟨k, d⟩ := i
  cases hrefusal : Desired.refusal? d with
  | some e => rw [bringIn_of_refusal hrefusal]
  | none =>
      rw [bringIn_eq hc.readable hrefusal]
      rfl

/-! ### Bringing in one object after the other -/

/-- What is written when an object is brought in, at some time not before the cluster is as it
is. -/
def Written (P : Number → Prop) (c : Cluster) (d : Desired k) (o : Stored k) : Prop :=
  ∃ c' : Cluster, c'.WellFormed P ∧ c.store.revision ≤ c'.store.revision ∧
    Desired.refusal? d = none ∧ o = Object.reread (c'.putObject (c'.prepared k d))

variable {items : List Item}

/-- To bring in sound objects keeps a cluster well formed. -/
theorem WellFormed.bringInAll [NumberRange P] (hc : c.WellFormed P)
    (hitems : ∀ i ∈ items, Sound P nestingLimit i.2) :
    (items.foldl Cluster.bringIn c).WellFormed P :=
  List.foldlRecOn _ _ hc fun _ hc i hi => hc.bringIn (hitems i hi)

/-- To bring in objects takes no version back. -/
theorem WellFormed.revision_le_bringInAll [NumberRange P] (hc : c.WellFormed P)
    (hitems : ∀ i ∈ items, Sound P nestingLimit i.2) :
    c.store.revision ≤ (items.foldl Cluster.bringIn c).store.revision := by
  induction items generalizing c with
  | nil => exact le_refl _
  | cons i rest ih =>
      obtain ⟨hi, hrest⟩ := List.forall_mem_cons.mp hitems
      exact (hc.revision_le_bringIn i).trans (ih (hc.bringIn hi) hrest)

/-- To bring in objects leaves the scheduler alone. -/
theorem WellFormed.scheduler?_bringInAll [NumberRange P] (hc : c.WellFormed P)
    (hitems : ∀ i ∈ items, Sound P nestingLimit i.2) :
    (items.foldl Cluster.bringIn c).store.scheduler? = c.store.scheduler? := by
  induction items generalizing c with
  | nil => rfl
  | cons i rest ih =>
      obtain ⟨hi, hrest⟩ := List.forall_mem_cons.mp hitems
      exact (ih (hc.bringIn hi) hrest).trans (hc.scheduler?_bringIn i)

/-- What one object that is brought in does to a table. -/
theorem WellFormed.find?_bringIn [NumberRange P] (hc : c.WellFormed P) {i : Item}
    (hi : Sound P nestingLimit i.2) (k : Kind) (key : String) :
    match i.at? k key with
    | some d => ∃ o, Written P c d o ∧ ((c.bringIn i).store.objects k).find? key = some o
    | none => ((c.bringIn i).store.objects k).find? key = (c.store.objects k).find? key := by
  obtain ⟨j, d⟩ := i
  by_cases hj : j = k
  · subst hj
    rw [Item.at?_mk]
    cases hrefusal : Desired.refusal? d with
    | some e => simp [bringIn_of_refusal hrefusal]
    | none =>
        rw [bringIn_eq hc.readable hrefusal, (objects_afterPut (sound_prepared hi)).1,
          c.storeKey_prepared]
        by_cases hkey : Desired.storeKey d = key
        · simp only [hkey, Option.isNone_none, and_self, ↓reduceIte]
          exact ⟨_, ⟨c, hc, le_refl _, hrefusal, rfl⟩, KeyMap.find?_insert_self _ _ _⟩
        · simp only [hkey, false_and, ↓reduceIte]
          exact KeyMap.find?_insert_of_ne _ _ hkey
  · rw [Item.at?_of_ne hj]
    cases hrefusal : Desired.refusal? d with
    | some e => simp [bringIn_of_refusal hrefusal]
    | none =>
        rw [bringIn_eq hc.readable hrefusal]
        simp only [(objects_afterPut (sound_prepared hi)).2 k hj]

/-- What was written later was not written before. -/
theorem Written.mono {c' : Cluster} {d : Desired k} {o : Stored k} (h : Written P c' d o)
    (hle : c.store.revision ≤ c'.store.revision) : Written P c d o := by
  obtain ⟨c'', hc, hrevision, hrest⟩ := h
  exact ⟨c'', hc, hle.trans hrevision, hrest⟩

/-- **The last object of a key is what is left at the key.** -/
theorem WellFormed.find?_bringInAll [NumberRange P] (hc : c.WellFormed P)
    (hitems : ∀ i ∈ items, Sound P nestingLimit i.2) (k : Kind) (key : String) :
    match lastAt? k key items with
    | some d => ∃ o, Written P c d o ∧
        ((items.foldl Cluster.bringIn c).store.objects k).find? key = some o
    | none => ((items.foldl Cluster.bringIn c).store.objects k).find? key =
        (c.store.objects k).find? key := by
  induction items using List.reverseRecOn with
  | nil => rfl
  | append_singleton items i ih =>
      have hbefore : ∀ i ∈ items, Sound P nestingLimit i.2 :=
        fun i hi => hitems i (List.mem_append_left _ hi)
      have hi : Sound P nestingLimit i.2 := hitems i (by simp)
      have hlast := (hc.bringInAll hbefore).find?_bringIn hi k key
      rw [lastAt?_concat, List.foldl_append, List.foldl_cons, List.foldl_nil]
      cases hat : i.at? k key with
      | some d =>
          rw [hat] at hlast
          obtain ⟨o, ho, hfind⟩ := hlast
          exact ⟨o, ho.mono (hc.revision_le_bringInAll hbefore), hfind⟩
      | none =>
          rw [hat] at hlast
          simp only at hlast
          rw [Option.none_or, hlast]
          exact ih hbefore

/-- With strict options nothing that is refused is accepted. -/
theorem refusal?_of_accepts {options : Options} (hstrict : options.ignoreErrors = false)
    (h : c.Accepts options items) : ∀ i ∈ items, Desired.refusal? i.2 = none := by
  induction items generalizing c with
  | nil => simp
  | cons i rest ih =>
      obtain ⟨hi, hrest⟩ := h
      exact List.forall_mem_cons.mpr ⟨refusal?_of_bringingIn hstrict hi, ih hrest⟩

/-- Objects that are not refused are all accepted. -/
theorem WellFormed.accepts [NumberRange P] (hc : c.WellFormed P) (options : Options)
    (hitems : ∀ i ∈ items, Sound P nestingLimit i.2 ∧ Desired.refusal? i.2 = none) :
    c.Accepts options items := by
  induction items generalizing c with
  | nil => trivial
  | cons i rest ih =>
      obtain ⟨⟨hi, hrefusal⟩, hrest⟩ := List.forall_mem_cons.mp hitems
      exact ⟨bringingIn_fst hc options hrefusal, ih (hc.bringIn hi) hrest⟩

/-! ### What is known of an object that was brought in -/

variable {d : Desired k} {o : Stored k}

/-- An object that was brought in says that it is where it was put. -/
theorem Written.address_eq (h : Written P c d o) : o.address = d.address := by
  obtain ⟨c', -, -, -, rfl⟩ := h
  refine (c'.address_putObject (c'.prepared k d)).trans ?_
  rw [Desired.address, c'.prepared_metadata]
  rfl

/-- An object that was brought in has a version of its own. -/
theorem Written.version (h : Written P c d o) :
    ∃ n, c.store.revision < n ∧ o.metadata.resourceVersion? = some (toString n) := by
  obtain ⟨c', -, hle, -, rfl⟩ := h
  obtain ⟨uid?, creationTimestamp?, hput⟩ := c'.putObject_stored (c'.prepared k d)
  refine ⟨c'.store.revision + 1, by omega, ?_⟩
  change (c'.putObject (c'.prepared k d)).metadata.resourceVersion? = _
  rw [hput]
  rfl

end Cluster

/-! ### The objects of a replay -/

namespace Desired

/-- An admitted object is the one that was to be replayed, without what only a store assigns. -/
theorem admitted?_eq_some {d d' : Desired k} (h : admitted? d = some d') :
    Desired.isExcluded d = false ∧
      d' = d.mapMetadata fun m => { m.stripServerPopulated with uid? := none } := by
  rw [admitted?] at h
  split at h
  · cases h
  · rename_i hexcluded
    exact ⟨by simpa using hexcluded, (Option.some.inj h).symm⟩

/-- An object that is not reserved is admitted. -/
theorem exists_admitted {d : Desired k} (h : Desired.isExcluded d = false) :
    ∃ d', admitted? d = some d' := by
  rw [admitted?, h]
  exact ⟨_, rfl⟩

/-- An object is admitted with its address. -/
theorem address_of_admitted? {d d' : Desired k} (h : admitted? d = some d') :
    d'.address = d.address := by
  rw [(admitted?_eq_some h).2]
  rfl

/-- An admitted object is refused only if it has no name. -/
theorem refusal?_of_admitted? {d d' : Desired k} (h : admitted? d = some d') :
    refusal? d' = none ↔ d.metadata.name ≠ "" := by
  rw [(admitted?_eq_some h).2, refusal?]
  change (if d.metadata.name = "" then _ else _) = none ↔ _
  split <;> simp_all [Object.mapMetadata]

/-- A sound object is sound as it is admitted. -/
theorem sound_of_admitted? [NumberRange P] {d d' : Desired k} {room : Nat}
    (h : admitted? d = some d') (hd : Sound P room d) : Sound P room d' := by
  rw [(admitted?_eq_some h).2]
  exact Object.sound_of_metadata Object.pos_of_sound_desired Object.pos_of_sound_desired hd _ _
    fun _ hm => DesiredMetadata.sound_stripped hm none

end Desired

/-- The admitted objects of a replay come from its objects. -/
theorem Replay.mem_admitted {s : Replay} {d' : Desired k} :
    (⟨k, d'⟩ : Item) ∈ s.admitted ↔ ∃ d ∈ s.objects.get k, Desired.admitted? d = some d' := by
  have horder : k ∈ replayOrder := by cases k <;> decide
  simp only [Replay.admitted, Replay.admittedOf, List.mem_flatMap, List.mem_map,
    List.mem_filterMap]
  constructor
  · rintro ⟨j, -, d₁, ⟨d, hd, hadmitted⟩, heq⟩
    cases heq
    exact ⟨d, hd, hadmitted⟩
  · rintro ⟨d, hd, hadmitted⟩
    exact ⟨k, horder, d', ⟨d, hd, hadmitted⟩, rfl⟩

/-- The objects that a sound replay admits are sound. -/
theorem Replay.sound_of_mem_admitted [NumberRange P] {s : Replay} (hs : s.AllSound P) {i : Item}
    (hi : i ∈ s.admitted) : Sound P nestingLimit i.2 := by
  obtain ⟨d, hd, hadmitted⟩ := Replay.mem_admitted.mp hi
  exact Desired.sound_of_admitted? hadmitted (hs.objects _ d hd)

/-- A replay of objects of one kind. -/
def Replay.ofKind (ds : List (Desired k)) : Replay := ⟨(ByKind.ofFn fun _ => []).set k ds, none⟩

/-- A replay of sound objects of one kind is sound. -/
theorem Replay.allSound_ofKind {ds : List (Desired k)} (h : ∀ d ∈ ds, Sound P nestingLimit d) :
    (Replay.ofKind ds).AllSound P := by
  have hnone : (⟨.ofFn fun _ => [], none⟩ : Replay).AllSound P := by
    refine ⟨fun j d hd => ?_, fun _ hconfig => by cases hconfig⟩
    rw [ByKind.get_ofFn] at hd
    cases hd
  exact hnone.setObjects h

/-- A replay of a single object. -/
def Replay.single (d : Desired k) : Replay := ⟨(ByKind.ofFn fun _ => []).set k [d], none⟩

/-- A replay of a single sound object is sound. -/
theorem Replay.allSound_single {d : Desired k} (h : Sound P nestingLimit d) :
    (Replay.single d).AllSound P :=
  allSound_ofKind (List.forall_mem_singleton.mpr h)

/-! ### Replays into a cluster -/

/-- An operator on a cluster. -/
def Cluster.operator (name : String) (external : Bool) (limit : Nat) : Operator Cluster :=
  ⟨Cluster.server name external, limit, id⟩

/-- What a replay into a cluster answers, and the cluster afterwards. -/
def Operator.replayInto (op : Operator Cluster) (s : Replay) (options : Options) (c : Cluster) :
    Except OperationError Unit × Cluster :=
  ((op.replay s options (Run.start c)).1, (op.replay s options (Run.start c)).2.state)

/-- A replay into a cluster brings in what it admits, after the scheduler was restarted. -/
theorem Operator.broughtIn_replayInto (name : String) (external : Bool) (limit : Nat) (s : Replay)
    (options : Options) (c : Cluster) :
    BroughtIn options (c.configured external options s.schedulerConfig?) s.admitted
      ((Cluster.operator name external limit).replayInto s options c).1
      ((Cluster.operator name external limit).replayInto s options c).2 := by
  have hself : (Cluster.operator name external limit).server.Shows id
      (Cluster.server name external) := Server.shows_self _
  exact Operator.brings_replay hself s (Run.start c)

namespace Cluster

variable {c : Cluster}

/-- To restart the scheduler leaves the objects and the versions alone. -/
theorem configured_eq (c : Cluster) (external : Bool) (options : Options)
    (config? : Option Scheduler.Configuration) :
    (c.configured external options config?).store.tables = c.store.tables ∧
      (c.configured external options config?).store.revision = c.store.revision := by
  rw [configured, restarted]
  split
  · exact ⟨rfl, rfl⟩
  · split <;> exact ⟨rfl, rfl⟩

/-- To restart the scheduler leaves all objects alone. -/
theorem objects_configured (c : Cluster) (external : Bool) (options : Options)
    (config? : Option Scheduler.Configuration) (k : Kind) :
    (c.configured external options config?).store.objects k = c.store.objects k := by
  rw [Store.objects, (c.configured_eq external options config?).1]
  rfl

/-- To restart the scheduler keeps a cluster well formed, if the configuration is sound. -/
theorem WellFormed.configured [NumberRange P] (hc : c.WellFormed P)
    {config? : Option Scheduler.Configuration}
    (hconfig : ∀ config ∈ config?, Sound P nestingLimit config) (external : Bool)
    (options : Options) : (c.configured external options config?).WellFormed P := by
  rw [Cluster.configured, restarted]
  split
  · exact hc
  · split
    · exact hc
    · refine hc.afterConfig ?_
      cases config? with
      | none => exact Scheduler.Configuration.sound_default
      | some config => exact hconfig config rfl

end Cluster

end ClusterSnapshot
