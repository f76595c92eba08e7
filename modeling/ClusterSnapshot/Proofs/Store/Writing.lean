import ClusterSnapshot.Proofs.Store.Address
import ClusterSnapshot.Proofs.Store.Serving

/-!
# Objects that are written

An object that is handed in is either refused, and then nothing changes, or it is kept as it was
handed in: in its home, under the version and the name of its kind, without what only a store
assigns, and with the identity and the time of creation of the object that was there before. Whoever
looks in its home finds it. Whoever looks where it was handed in for finds it if that is its home;
an object of a namespaced kind that names no namespace is found in the default one only.

## Main results

* `Cluster.WellFormed.finds_iff`: to find an object, to serve it and to remove it is one question.
* `Cluster.put_or_refuse`: **what is written is kept as handed in**, and what is refused changes
  nothing.
* `Cluster.finds_of_put`: **where an object is found** that was written.
-/

namespace ClusterSnapshot

open JsonForm (Sound Rereads)
open Number (InRange IsWhole64)

variable {k : Kind} {P : Number → Prop}

/-! ### What is handed in -/

namespace Desired

variable {d : Desired k}

/-- The object has a name. -/
def IsNamed (d : Desired k) : Prop := ∃ name, name ≠ "" ∧ d.metadata.name? = some name

/-- An object is named if its name is not empty. -/
theorem isNamed_iff : d.IsNamed ↔ d.metadata.name ≠ "" := by
  rw [IsNamed, DesiredMetadata.name]
  cases d.metadata.name? with
  | none => simp
  | some name => simp

/-- A named object has a name. -/
theorem IsNamed.name?_eq (h : d.IsNamed) : d.metadata.name? = some d.metadata.name := by
  obtain ⟨name, -, hname⟩ := h
  rw [DesiredMetadata.name, hname]
  rfl

/-- The object names the namespace that it is kept in, if its kind has namespaces. -/
def NamesHome (d : Desired k) : Prop :=
  k.isNamespaced = true → ∃ ns, ns ≠ "" ∧ d.metadata.ns? = some ns

/-- The object as a store keeps it, but for what the store assigns: under the version and the name
of its kind, in its home, and without the members that only a store assigns. -/
def settled (d : Desired k) : Desired k :=
  (Object.stampType d).mapMetadata fun m => { m.stripServerPopulated with ns? := k.home m.ns? }

/-- The object without an identity. -/
def withoutUid (d : Desired k) : Desired k := d.mapMetadata fun m => { m with uid? := none }

/-- An object without a name is refused for that. -/
theorem refusal?_of_unnamed (h : ¬ d.IsNamed) :
    Desired.refusal? d = some (.invalid (k.name ++ ": metadata.name is required")) := by
  have hname : d.metadata.name = "" := not_not.mp (mt isNamed_iff.mpr h)
  rw [refusal?, if_pos hname]

/-- A named object that comes with an identity is refused for that. -/
theorem refusal?_of_uid (h : d.IsNamed) (huid : d.metadata.uid?.isSome) :
    Desired.refusal? d = some (.uidConflict (k.name ++ " " ++ Desired.storeKey d)) := by
  rw [refusal?, if_neg (isNamed_iff.mp h), if_pos huid]

/-- A named object without an identity is not refused. -/
theorem refusal?_of_named (h : d.IsNamed) (huid : d.metadata.uid? = none) :
    Desired.refusal? d = none := by
  rw [refusal?, if_neg (isNamed_iff.mp h), huid]
  rfl

/-- What a user could have written for a stored object is what was handed in. -/
theorem toDesired_stored (h : d.IsNamed) (huid : d.metadata.uid? = none)
    (uid? creationTimestamp? : Option String) (revision : Nat) :
    withoutUid (Stored.toDesired (Desired.stored d uid? revision creationTimestamp?)) =
      settled d := by
  have hextra := KeyMap.eraseAll_eraseAll d.metadata.extra Metadata.serverPopulated
  refine (Object.mk.injEq ..).mpr ⟨rfl, rfl, ?_, rfl⟩
  exact (DesiredMetadata.mk.injEq ..).mpr ⟨h.name?_eq.symm, rfl, huid.symm, rfl, rfl, hextra⟩

/-- Who names the home of an object asks for its key. -/
theorem NamesHome.scope_eq (h : d.NamesHome) : k.scope d.metadata.ns? = k.home d.metadata.ns? := by
  cases hk : k.isNamespaced with
  | false => rw [Kind.home_of_not_namespaced hk, Kind.scope, hk]; rfl
  | true =>
      obtain ⟨ns, hne, hns⟩ := h hk
      rw [hns, Kind.home_some hk hne, Kind.scope, hk]
      rfl

/-- Who names no namespace does not ask for the key of an object in the default one. -/
theorem key_ne_of_not_namesHome (h : ¬ d.NamesHome) :
    objectKey (k.scope d.metadata.ns?) d.metadata.name ≠ Desired.storeKey d := by
  obtain ⟨hk, hns⟩ := Classical.not_imp.mp h
  have hns' : d.metadata.ns? = none ∨ d.metadata.ns? = some "" := by
    cases hd : d.metadata.ns? with
    | none => exact .inl rfl
    | some ns =>
        obtain rfl : ns = "" := not_not.mp fun hne => hns ⟨ns, hne, hd⟩
        exact .inr rfl
  intro heq
  have hlength := congrArg (fun key => key.toList.length) heq
  rcases hns' with hns' | hns'
  · simp [storeKey, hns', Kind.home, Kind.scope, hk, objectKey, Reserved.defaultNamespace]
      at hlength
    omega
  · simp [storeKey, hns', Kind.home, Kind.scope, hk, objectKey, Reserved.defaultNamespace]
      at hlength

/-- A pod with a specification. -/
def ofSpec (name? ns? uid? : Option String) (spec : Json) : Desired .pod :=
  ⟨none, none, ⟨name?, ns?, uid?, ∅, ∅, ∅⟩, (⟨some spec, none⟩ : Payload)⟩

/-- A pod with a sound specification is sound. -/
theorem sound_ofSpec [NumberRange P] {room : Nat} {spec : Json} (hspec : Sound P (room + 1) spec)
    (hne : spec ≠ .null) (name? ns? uid? : Option String) :
    Sound P (room + 2) (ofSpec name? ns? uid? spec) := by
  refine (Object.sound_iff (Object.pos_of_sound_desired _)).mpr ⟨?_, ?_, fun _ he => ?_⟩
  · exact DesiredMetadata.sound_iff.mpr
      ⟨.inl rfl, .inl rfl, fun _ he => absurd he List.not_mem_nil⟩
  · exact Payload.Fields.fits ⟨JsonForm.sound_some hne hspec, JsonForm.sound_none⟩
  · exact absurd he List.not_mem_nil

end Desired

namespace Cluster

variable {c : Cluster}

/-! ### Finding an object -/

/-- An object is found at an address: who looks there gets it, and who removes it there finds
nothing there any more. -/
structure Finds (c : Cluster) (k : Kind) (name : String) (ns? : Option String) (o : Stored k) :
    Prop where
  got : c.store.get k name ns? = .ok (some o)
  served : c.serveGet k name ns? = .ok o
  removed : (c.store.remove k name ns?).1 = true
  deleted : c.serveDelete k name ns? = (.ok (), c.afterRemove k name ns?)
  gone : (c.afterRemove k name ns?).store.get k name ns? = .ok none
  missed : (c.afterRemove k name ns?).serveGet k name ns? = .error (missing k name ns?)
  deletedOnce : (c.afterRemove k name ns?).serveDelete k name ns? =
    (.error (missing k name ns?), c.afterRemove k name ns?)

/-- A look-up is served as the objects say. -/
theorem serveGet_eq (hc : c.store.Readable) (name : String) (ns? : Option String) :
    c.serveGet k name ns? = ((c.store.objects k).find? (objectKey (k.scope ns?) name)).elim
      (.error (missing k name ns?)) .ok := by
  rw [serveGet, Store.get_eq hc]
  cases (c.store.objects k).find? (objectKey (k.scope ns?) name) <;> rfl

/-- There is a text under a key if there is an object. -/
theorem contains_eq (hc : c.store.Readable) (key : String) :
    (c.store.tables.get k).contains key = ((c.store.objects k).find? key).isSome := by
  rw [KeyMap.contains, Store.find?_objects]
  cases htext : (c.store.tables.get k).find? key with
  | none => rfl
  | some text =>
      obtain ⟨o, ho⟩ := hc k key text htext
      rw [Option.bind_some, ho]
      rfl

/-- A removal is served as the objects say. -/
theorem serveDelete_eq (hc : c.store.Readable) (name : String) (ns? : Option String) :
    c.serveDelete k name ns? = (((c.store.objects k).find? (objectKey (k.scope ns?) name)).elim
      (.error (missing k name ns?)) fun _ => .ok (), c.afterRemove k name ns?) := by
  refine Prod.ext ?_ (c.serveDelete_snd k name ns?)
  rw [serveDelete_fst, contains_eq hc]
  cases (c.store.objects k).find? (objectKey (k.scope ns?) name) <;> rfl

/-- What was removed is not there any more. -/
theorem find?_objects_afterRemove (c : Cluster) (k : Kind) (name : String) (ns? : Option String) :
    ((c.afterRemove k name ns?).store.objects k).find? (objectKey (k.scope ns?) name) = none := by
  rw [afterRemove, (Store.objects_remove ..).1, KeyMap.find?_erase, if_pos rfl]

/-- To remove an object once more changes nothing. -/
theorem afterRemove_afterRemove (c : Cluster) (k : Kind) (name : String) (ns? : Option String) :
    (c.afterRemove k name ns?).afterRemove k name ns? = c.afterRemove k name ns? := by
  refine afterRemove_of_not_contains ?_
  simp [afterRemove, Store.remove, KeyMap.contains, KeyMap.find?_erase]

/-- **To find an object, to serve it and to remove it is one question**: whether it is kept under
the key of the address. -/
theorem WellFormed.finds_iff (hc : c.WellFormed P) {name : String} {ns? : Option String}
    {o : Stored k} :
    c.Finds k name ns? o ↔ (c.store.objects k).find? (objectKey (k.scope ns?) name) = some o := by
  have hread := hc.readable
  constructor
  · intro h
    have hgot := h.got
    rw [Store.get_eq hread] at hgot
    exact Except.ok.inj hgot
  · intro ho
    have hafter := (hc.afterRemove name ns? (k := k)).readable
    have hnone := c.find?_objects_afterRemove k name ns?
    refine ⟨?_, ?_, ?_, ?_, ?_, ?_, ?_⟩
    · rw [Store.get_eq hread, ho]
    · rw [serveGet_eq hread, ho]
      rfl
    · rw [Store.remove_eq, contains_eq hread, ho]
      rfl
    · rw [serveDelete_eq hread, ho]
      rfl
    · rw [Store.get_eq hafter, hnone]
    · rw [serveGet_eq hafter, hnone]
      rfl
    · rw [serveDelete_eq hafter, hnone, afterRemove_afterRemove]
      rfl

/-! ### What is written -/

/-- A cluster that refuses an object stays as it is. -/
def Refuses (c : Cluster) (d : Desired k) (e : StoreError) : Prop :=
  c.put d = .error e ∧ c.serveApply d = (.error (.ofStore e), c)

/-- An object that is refused leaves the cluster as it is. -/
theorem refuses_of_refusal {d : Desired k} {e : StoreError} (h : Desired.refusal? d = some e) :
    c.Refuses d e := by
  have hput := put_of_refusal (c := c) h
  exact ⟨hput, by rw [serveApply, hput]⟩

/-- **An object is written** that is handed in: what is answered is what is found and listed, it is
as it was handed in, it has the identity and the time of creation of the object that was there
before, and nothing else changes. -/
structure Writes (c : Cluster) (d : Desired k) (o : Stored k) (c' : Cluster) : Prop where
  put : c.put d = .ok (o, c')
  served : c.serveApply d = (.ok o, c')
  key : o.key = Desired.storeKey d
  found : c'.store.get k o.metadata.name o.metadata.ns? = .ok (some o)
  listed : ∀ ns?, ns? = none ∨ ns? = o.metadata.ns? → ∃ before after : List (Stored k),
    c'.store.list k ns? = .ok (before ++ o :: after) ∧ ∀ other ∈ before ++ after, other.key ≠ o.key
  desired : (Stored.toDesired o).withoutUid = d.settled
  extra : o.metadata.extra = d.metadata.extra.eraseAll Metadata.serverPopulated
  /-- Of what was there before, only the identity and the time of creation are left. -/
  identity : ∃ before? : Option (Stored k),
    c.store.get k o.metadata.name o.metadata.ns? = .ok before? ∧
    o.metadata.uid? = before?.elim (some (c.uids.uid c.uids.spent)) (·.metadata.uid?) ∧
    o.metadata.creationTimestamp? = before?.bind (·.metadata.creationTimestamp?)
  version : o.metadata.resourceVersion? = some (toString c'.store.revision)
  revision : c'.store.revision = c.store.revision + 1
  others : ∀ j key, (j, key) ≠ (k, o.key) →
    (c'.store.tables.get j).find? key = (c.store.tables.get j).find? key
  scheduler : c'.store.scheduler? = c.store.scheduler?

/-- An object that is written has its identity and its time of creation from the one before. -/
theorem putObject_eq (c : Cluster) (d : Desired k) :
    let before? := (c.store.objects k).find? (Desired.storeKey d)
    c.putObject d = Desired.stored d
      (before?.elim (some (c.uids.uid c.uids.spent)) (·.metadata.uid?)) (c.store.revision + 1)
      (before?.bind (·.metadata.creationTimestamp?)) := by
  rw [putObject]
  cases (c.store.objects k).find? (Desired.storeKey d) <;> rfl

/-- The key of an object that is written is that of its home. -/
theorem key_of_home (c : Cluster) (d : Desired k) :
    objectKey (k.scope (c.putObject d).metadata.ns?) (c.putObject d).metadata.name =
      Desired.storeKey d := by
  rw [putObject_eq]
  exact congrArg (objectKey · _) (k.scope_home _)

/-- All other texts are left as they are. -/
theorem find?_afterPut_of_ne (c : Cluster) (d : Desired k) {j : Kind} {key : String}
    (h : (j, key) ≠ (k, Desired.storeKey d)) :
    ((c.afterPut d).store.tables.get j).find? key = (c.store.tables.get j).find? key := by
  by_cases hj : k = j
  · subst hj
    have hkey : Desired.storeKey d ≠ key := fun heq => h (by rw [heq])
    simp only [afterPut, Store.withTable, ByKind.get_set_self, KeyMap.find?_insert_of_ne _ _ hkey]
  · simp only [afterPut, Store.withTable, ByKind.get_set_of_ne _ _ hj]

/-- An object of a well formed cluster is listed once, among all and in its namespace. -/
theorem WellFormed.listed_once (hc : c.WellFormed P) {o : Stored k}
    (ho : (c.store.objects k).find? o.key = some o) {ns? : Option String}
    (hns : ns? = none ∨ ns? = o.metadata.ns?) :
    ∃ before after : List (Stored k), c.store.list k ns? = .ok (before ++ o :: after) ∧
      ∀ other ∈ before ++ after, other.key ≠ o.key := by
  have hmem : o ∈ c.store.listed k ns? := by
    refine (hc.mem_listed ns?).mpr ⟨ho, fun ns hscope => ?_⟩
    have hns' : o.metadata.ns? = some ns := by
      rcases hns with rfl | rfl
      · rw [k.scope_none] at hscope
        cases hscope
      · rw [← (hc.of_find? ho).2.2.home, Kind.scope_home, (hc.of_find? ho).2.2.home] at hscope
        exact hscope
    have hkey : o.address.key = objectKey (some ns) o.metadata.name := by rw [← hns']; rfl
    rw [hkey]
    exact keyInNamespace_objectKey ns _
  obtain ⟨before, after, hlisted⟩ := List.append_of_mem hmem
  refine ⟨before, after, by rw [Store.list_eq hc.readable, hlisted], fun other hother heq => ?_⟩
  have hnodup := hc.nodup_listed (k := k) ns?
  rw [hlisted, List.map_append, List.map_cons, List.nodup_middle] at hnodup
  refine (List.nodup_cons.mp hnodup).1 ?_
  rw [← List.map_append]
  exact List.mem_map.mpr ⟨other, hother, heq⟩

/-- What is put into a reachable cluster is written. -/
theorem writes_putObject (hc : Reachable InRange c) {d : Desired k}
    (hd : Sound IsWhole64 nestingLimit d) (hnamed : d.IsNamed) (huid : d.metadata.uid? = none) :
    c.Writes d (c.putObject d) (c.afterPut d) := by
  have hrefusal := Desired.refusal?_of_named hnamed huid
  have hwell := hc.wellFormed
  have hput := put_eq hwell.readable hrefusal
  have hwell' : (c.afterPut d).WellFormed InRange :=
    hwell.afterPut (hd.mono_numbers fun _ hn => hn.inRange) hrefusal
  have hkey := c.key_of_home d
  have hfind : ((c.afterPut d).store.objects k).find? (Desired.storeKey d) =
      some (c.putObject d) := by
    have hwhole : Object.reread (c.putObject d) = c.putObject d :=
      JsonForm.reread_eq_self (sound_putObject hd)
    rw [(objects_afterPut hd).1, KeyMap.find?_insert_self, hwhole]
  refine ⟨hput, by rw [serveApply, hput], c.key_putObject d, ?_, fun ns? hns => ?_, ?_, ?_, ?_, ?_,
    rfl, fun j key hne => ?_, rfl⟩
  · rw [Store.get_eq hwell'.readable, hkey, hfind]
  · exact hwell'.listed_once (by rw [key_putObject, hfind]) hns
  · rw [putObject_eq]
    exact Desired.toDesired_stored hnamed huid _ _ _
  · rw [putObject_eq]
    rfl
  · refine ⟨_, by rw [Store.get_eq hwell.readable, hkey], ?_, ?_⟩
    · rw [putObject_eq]
      rfl
    · rw [putObject_eq]
      rfl
  · rw [putObject_eq]
    rfl
  · rw [key_putObject] at hne
    exact c.find?_afterPut_of_ne d hne

/-- **What is written is kept as handed in**, and what is refused changes nothing. -/
theorem put_or_refuse (hc : Reachable InRange c) {d : Desired k}
    (hd : Sound IsWhole64 nestingLimit d) :
    (¬ d.IsNamed → c.Refuses d (.invalid (k.name ++ ": metadata.name is required"))) ∧
    (d.IsNamed → d.metadata.uid?.isSome →
      c.Refuses d (.uidConflict (k.name ++ " " ++ Desired.storeKey d))) ∧
    (d.IsNamed → d.metadata.uid? = none → ∃ o c', c.Writes d o c') :=
  ⟨fun h => refuses_of_refusal (Desired.refusal?_of_unnamed h),
    fun h huid => refuses_of_refusal (Desired.refusal?_of_uid h huid),
    fun h huid => ⟨_, _, writes_putObject hc hd h huid⟩⟩

/-- A pod that is there is replaced. Without a name it would be refused, and with an identity. -/
theorem put_or_refuse_pod :
    let c := Cluster.afterPut ⟨.empty, ⟨toString, 0⟩⟩ (Desired.plain .pod "web" (some "team"))
    let d := Desired.ofSpec (some "web") (some "team") none (.number (.whole 7))
    let unnamed := Desired.ofSpec none (some "team") (some "7") (.number (.whole 7))
    let known := Desired.ofSpec (some "web") (some "team") (some "7") (.number (.whole 7))
    Reachable InRange c ∧ (∃ o c', c.Writes d o c') ∧
      c.Refuses unnamed (.invalid "Pod: metadata.name is required") ∧
      c.Refuses known (.uidConflict "Pod team/web") := by
  intro c d unnamed known
  have hfresh : Reachable InRange ⟨.empty, ⟨toString, 0⟩⟩ := .fresh toString
  have hc : Reachable InRange c :=
    hfresh.afterPut (Desired.sound_plain .pod "web" (some "team")) rfl
  have hsound (name? uid? : Option String) : Sound IsWhole64 nestingLimit
      (Desired.ofSpec name? (some "team") uid? (.number (.whole 7))) := by
    have hspec : Sound IsWhole64 (nestingLimit - 1) (Json.number (.whole 7)) :=
      JsonForm.sound_json_iff.mpr ⟨trivial, by decide⟩
    exact Desired.sound_ofSpec hspec nofun _ _ _
  refine ⟨hc, ?_, ?_, ?_⟩
  · exact (put_or_refuse hc (hsound _ _)).2.2 ⟨"web", by decide, rfl⟩ rfl
  · refine (put_or_refuse hc (hsound _ _)).1 fun ⟨name, _, hname⟩ => ?_
    cases hname
  · exact (put_or_refuse hc (hsound _ _)).2.1 ⟨"web", by decide, rfl⟩ rfl

/-! ### Where it is found -/

/-- **Where an object is found** that was written: in its home, and where it was handed in for if
it names its home. Else nothing changes there. -/
theorem finds_of_put (hc : Reachable InRange c) {d : Desired k} (hd : Sound InRange nestingLimit d)
    {o : Stored k} {c' : Cluster} (hput : c.put d = .ok (o, c')) :
    c'.Finds k d.metadata.name (k.home d.metadata.ns?) (Object.reread o) ∧
      (c'.Finds k d.metadata.name d.metadata.ns? (Object.reread o) ↔ d.NamesHome) ∧
      (¬ d.NamesHome → c'.store.get k d.metadata.name d.metadata.ns? =
        c.store.get k d.metadata.name d.metadata.ns?) ∧
      (Sound IsWhole64 nestingLimit d → Object.reread o = o) := by
  have hwell' := (Reachable.put hc hd hput).wellFormed
  obtain ⟨-, rfl, rfl⟩ := put_ok hc.wellFormed.readable hput
  have hfind : ((c.afterPut d).store.objects k).find? (Desired.storeKey d) =
      some (Object.reread (c.putObject d)) := by
    rw [(objects_afterPut hd).1, KeyMap.find?_insert_self]
  have hother : ¬ d.NamesHome →
      ((c.afterPut d).store.objects k).find? (objectKey (k.scope d.metadata.ns?) d.metadata.name) =
        (c.store.objects k).find? (objectKey (k.scope d.metadata.ns?) d.metadata.name) := by
    intro h
    have hne := Desired.key_ne_of_not_namesHome h
    rw [(objects_afterPut hd).1, KeyMap.find?_insert_of_ne _ _ hne.symm]
  refine ⟨?_, ⟨fun h => ?_, fun h => ?_⟩, fun h => ?_, fun hwhole => ?_⟩
  · rw [hwell'.finds_iff, k.scope_home]
    exact hfind
  · -- what is found elsewhere is kept under the key there, and so is another object
    rw [hwell'.finds_iff] at h
    by_contra hhome
    obtain ⟨-, hkey, -⟩ := hwell'.of_find? h
    have hhere : (Object.reread (c.putObject d)).key = Desired.storeKey d := c.key_putObject d
    exact Desired.key_ne_of_not_namesHome hhome (hkey.symm.trans hhere)
  · rw [hwell'.finds_iff, h.scope_eq]
    exact hfind
  · rw [Store.get_eq hwell'.readable, Store.get_eq hc.wellFormed.readable, hother h]
  · exact JsonForm.reread_eq_self (sound_putObject hwhole)

/-- A pod that names its namespace is found there; one that names none is found in the default one
only. -/
theorem finds_of_put_pod :
    let c : Cluster := ⟨.empty, ⟨toString, 0⟩⟩
    let d (ns? : Option String) := Desired.plain .pod "web" ns?
    Reachable InRange c ∧ (∀ ns?, Sound InRange nestingLimit (d ns?)) ∧
      (∀ ns?, c.put (d ns?) = .ok (c.putObject (d ns?), c.afterPut (d ns?))) ∧
      (c.afterPut (d (some "team"))).Finds .pod "web" (some "team")
        (Object.reread (c.putObject (d (some "team")))) ∧
      (c.afterPut (d none)).Finds .pod "web" (some "default")
        (Object.reread (c.putObject (d none))) ∧
      ¬ (c.afterPut (d none)).Finds .pod "web" none (Object.reread (c.putObject (d none))) := by
  intro c d
  have hc : Reachable InRange c := .fresh toString
  have hd (ns? : Option String) : Sound InRange nestingLimit (d ns?) := Desired.sound_plain ..
  have hput (ns? : Option String) : c.put (d ns?) = _ := put_eq hc.wellFormed.readable rfl
  refine ⟨hc, hd, hput, ?_, ?_, ?_⟩
  · exact (finds_of_put hc (hd (some "team")) (hput (some "team"))).1
  · exact (finds_of_put hc (hd none) (hput none)).1
  · intro hfinds
    obtain ⟨_, _, hns⟩ := (finds_of_put hc (hd none) (hput none)).2.1.mp hfinds rfl
    cases hns

/-- Without a namespace, a pod is not found where it was handed in for. With a real number in it, it
is not found as it was answered. -/
theorem not_finds_of_put :
    let c : Cluster := ⟨.empty, ⟨toString, 0⟩⟩
    let d := Desired.plain .pod "web" none
    let x := Desired.ofSpec (some "web") (some "team") none
      (.number (.real ⟨false, 7436265140089273, 906⟩))
    (Reachable InRange c ∧ Sound InRange nestingLimit d ∧ Sound InRange nestingLimit x) ∧
      (c.put d = .ok (c.putObject d, c.afterPut d) ∧
        (c.afterPut d).store.get .pod "web" none = .ok none ∧
        ((c.afterPut d).store.remove .pod "web" none).1 = false) ∧
      c.put x = .ok (c.putObject x, c.afterPut x) ∧
        ∃ o, (c.afterPut x).store.get .pod "web" (some "team") = .ok (some o) ∧
          o ≠ c.putObject x := by
  intro c d x
  have hc : Reachable InRange c := .fresh toString
  have hd : Sound InRange nestingLimit d := Desired.sound_plain .pod "web" none
  have hx : Sound InRange nestingLimit x := by
    have hspec : Sound InRange (nestingLimit - 1)
        (Json.number (.real ⟨false, 7436265140089273, 906⟩)) :=
      JsonForm.sound_json_iff.mpr ⟨trivial, by decide, by decide, by decide⟩
    exact Desired.sound_ofSpec hspec nofun _ _ _
  have hempty : c.store.objects .pod = ∅ := rfl
  have hputd : c.put d = _ := put_eq hc.wellFormed.readable rfl
  have hputx : c.put x = _ := put_eq hc.wellFormed.readable rfl
  have hreadd := (Reachable.put hc hd hputd).wellFormed.readable
  have hreadx := (Reachable.put hc hx hputx).wellFormed.readable
  have hnone : ((c.afterPut d).store.objects .pod).find? "web" = none := by
    rw [(objects_afterPut hd).1, KeyMap.find?_insert_of_ne _ _ (by decide), hempty]
    rfl
  refine ⟨⟨hc, hd, hx⟩, ⟨hputd, ?_, ?_⟩, hputx, Object.reread (c.putObject x), ?_, ?_⟩
  · exact (Store.get_eq hreadd ..).trans (congrArg Except.ok hnone)
  · have hcontains := contains_eq hreadd (k := .pod) "web"
    rw [hnone] at hcontains
    exact hcontains
  · rw [Store.get_eq hreadx, (objects_afterPut hx).1]
    exact congrArg Except.ok (KeyMap.find?_insert_self _ _ _)
  · -- the number is read as its neighbour
    intro heq
    have hup : Binary64.reread ⟨false, 7436265140089273, 906⟩ = ⟨false, 7436265140089274, 906⟩ := by
      decide +kernel
    have hspec : some (Json.number (.real (Binary64.reread ⟨false, 7436265140089273, 906⟩))) =
        some (Json.number (.real ⟨false, 7436265140089273, 906⟩)) :=
      congrArg (fun o : Stored .pod => Payload.spec? o.body) heq
    have hsame := Number.real.inj (Json.number.inj (Option.some.inj hspec))
    rw [hup] at hsame
    revert hsame
    decide

end Cluster

end ClusterSnapshot
