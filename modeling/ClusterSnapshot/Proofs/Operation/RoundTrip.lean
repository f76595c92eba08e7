import ClusterSnapshot.Operation.Copy
import ClusterSnapshot.Proofs.Operation.Portable

/-!
# Backup and restore

What is captured of a cluster, replayed into one without objects of a user, and captured again there
is the same, as far as it is portable. The same holds of a copy, of whatever state the two clusters
are parts.

## Main results

* `Cluster.WellFormed.portable_userObjects`: **the objects that were carried over are listed as
  before**.
* `Cluster.round_trip`: **capture, replay and capture again**, and copying.
-/

namespace ClusterSnapshot

open JsonForm (Sound)
open Number (InRange IsWhole64)
open Scheduler (Configuration)

variable {k : Kind} {P : Number → Prop}

/-! ### Copying -/

/-- What is reported after an attempt changes neither what it answers nor the state. -/
theorem Attempt.bind_report {σ : Type} (a : Attempt σ Unit) (e : Event) (p : Progress σ) :
    ((a >>= fun _ => Attempt.report e) p).1 = (a p).1 ∧
      ((a >>= fun _ => Attempt.report e) p).2.state = (a p).2.state := by
  rw [Attempt.bind_apply]
  cases hresult : (a p).1 with
  | ok _ => exact ⟨rfl, rfl⟩
  | error _ => exact ⟨rfl, rfl⟩

/-- To decorate pods with nothing changes no snapshot. -/
theorem Snapshot.set_pod_id (s : Snapshot) :
    ({ s with objects := s.objects.set .pod ((s.objects.get .pod).map id) } : Snapshot) = s := by
  rw [List.map_id]
  rfl

/-- What a copy answers, and the state afterwards. -/
def Operator.copyInto {σ : Type} (op : Operator σ) (source : Server σ) (options : Options) (s : σ) :
    Except OperationError Unit × σ :=
  ((op.copyFrom source options (Run.start s)).1, (op.copyFrom source options (Run.start s)).2.state)

/-- **A copy replays** what a capture of the other cluster brings. -/
theorem Operator.copyInto_apply {σ : Type} (op : Operator σ) {source : Server σ} {c : Cluster}
    {s : σ} {config : Configuration} (hreads : source.Reads false c s) (hc : c.WellFormed P)
    (hconfig : c.store.activeConfig = .ok config) (options : Options) :
    ∃ p : Progress σ, p.state = s ∧
      (op.copyInto source options s).1 =
        (op.replay (Snapshot.toReplay (c.userPart (some config))) options p).1 ∧
      (op.copyInto source options s).2 =
        (op.replay (Snapshot.toReplay (c.userPart (some config))) options p).2.state := by
  let reader := (Operator.new source).withMaxConcurrency op.maxConcurrency
  have hreads' : reader.server.Reads false c s := hreads
  have hstart : (Run.start s).state = s := rfl
  obtain ⟨hcaptured, hstate⟩ := reader.capture_apply hreads' hc hconfig options hstart
  have hsnapshot : (reader.capture options (Run.start s)).1 = .ok (c.userPart (some config)) :=
    hcaptured.trans (congrArg Except.ok (Snapshot.set_pod_id (c.userPart (some config))))
  refine ⟨(reader.capture options (Run.start s)).2, hstate, ?_⟩
  have hcopy : op.copyFrom source options (Run.start s) = _ :=
    Attempt.bind_apply (reader.capture options) _ _
  rw [Operator.copyInto, hcopy, hsnapshot]
  exact Attempt.bind_report _ _ _

namespace Cluster

variable {c d : Cluster} {config : Configuration}

/-! ### The objects of the user -/

/-- The objects of the user, as far as they are portable, by key. -/
def portableMap (c : Cluster) (k : Kind) : KeyMap (Stored k) :=
  (c.store.objects k).filterMap fun o =>
    (Option.guard (fun o => !Stored.isExcluded o) o).map Stored.portable

/-- An object of the user is in the map as far as it is portable. -/
theorem find?_portableMap_of_user {key : String} {o : Stored k}
    (ho : (c.store.objects k).find? key = some o) (h : Stored.isExcluded o = false) :
    (c.portableMap k).find? key = some o.portable := by
  rw [portableMap, KeyMap.find?_filterMap, ho]
  simp [Option.guard, h]

/-- Nothing is in the map at a key without an object of the user. -/
theorem find?_portableMap_eq_none {key : String}
    (h : ∀ o, (c.store.objects k).find? key = some o → Stored.isExcluded o = true) :
    (c.portableMap k).find? key = none := by
  rw [portableMap, KeyMap.find?_filterMap]
  cases ho : (c.store.objects k).find? key with
  | none => rfl
  | some o => simp [Option.guard, h o ho]

/-- The objects of the user, as far as they are portable, are the values of the map. -/
theorem map_portable_userObjects (c : Cluster) (k : Kind) :
    (c.userObjects k).map Stored.portable = (c.portableMap k).values := by
  rw [portableMap, KeyMap.values_filterMap, ← List.map_filterMap, List.filterMap_eq_filter,
    userObjects, Store.listed_none]

/-- The objects of the user are those under their key that are not excluded. -/
theorem WellFormed.mem_userObjects (hc : c.WellFormed P) {o : Stored k} :
    o ∈ c.userObjects k ↔
      (c.store.objects k).find? o.address.key = some o ∧ Stored.isExcluded o = false := by
  rw [userObjects, List.mem_filter, hc.mem_listed, k.scope_none]
  simp

/-- What a captured cluster hands in for its key. -/
theorem WellFormed.mem_admitted (hc : c.WellFormed P) (config? : Option Configuration)
    {x : Desired k} :
    (⟨k, x⟩ : Item) ∈ (Snapshot.toReplay (c.userPart config?)).admitted ↔
      ∃ o : Stored k, (c.store.objects k).find? o.address.key = some o ∧
        Stored.isExcluded o = false ∧ x = o.carried := by
  rw [Replay.mem_admitted]
  simp only [Snapshot.toReplay, userPart, ByKind.get_ofFn, List.mem_map, hc.mem_userObjects]
  constructor
  · rintro ⟨_, ⟨o, ⟨ho, hexcluded⟩, rfl⟩, hadmitted⟩
    rw [Stored.admitted?_toDesired hexcluded] at hadmitted
    exact ⟨o, ho, hexcluded, (Option.some.inj hadmitted).symm⟩
  · rintro ⟨o, ho, hexcluded, rfl⟩
    exact ⟨_, ⟨o, ⟨ho, hexcluded⟩, rfl⟩, Stored.admitted?_toDesired hexcluded⟩

/-- What is captured of a well formed cluster is sound. -/
theorem WellFormed.allSound [NumberRange P] (hc : c.WellFormed P)
    (hconfig : Sound P nestingLimit config) :
    (Snapshot.toReplay (c.userPart (some config))).AllSound P := by
  refine ⟨fun k x hx => ?_, fun _ h => ?_⟩
  · simp only [Snapshot.toReplay, userPart, ByKind.get_ofFn, List.mem_map, hc.mem_userObjects]
      at hx
    obtain ⟨o, ⟨ho, -⟩, rfl⟩ := hx
    exact Stored.sound_toDesired (hc.of_find? ho).1
  · obtain rfl := Option.some.inj h
    exact hconfig

/-! ### Carrying objects over -/

/-- The cluster that a captured one is carried over to. -/
def carriedTo (c d : Cluster) (config : Configuration) : Cluster :=
  (Snapshot.toReplay (c.userPart (some config))).admitted.foldl bringIn (d.afterConfig config)

/-- What is admitted of it is sound and not refused. -/
theorem WellFormed.sound_admitted (hc : c.WellFormed IsWhole64)
    (hconfig : Sound IsWhole64 nestingLimit config) :
    ∀ i ∈ (Snapshot.toReplay (c.userPart (some config))).admitted,
      Sound IsWhole64 nestingLimit i.2 ∧ Desired.refusal? i.2 = none := by
  intro i hi
  obtain ⟨k, x⟩ := i
  have hsound := Replay.sound_of_mem_admitted (hc.allSound hconfig) hi
  obtain ⟨o, ho, -, rfl⟩ := (hc.mem_admitted _).mp hi
  exact ⟨hsound, (hc.of_find? ho).2.2.refusal?_carried⟩

/-- Values with whole numbers have numbers in range. -/
theorem inRange_of_whole {α : Type} [JsonForm α] {room : Nat} {x : α} (h : Sound IsWhole64 room x) :
    Sound InRange room x :=
  h.mono_numbers fun _ hn => hn.inRange

/-- The cluster that is carried over to accepts all objects. -/
theorem WellFormed.accepts_carried (hc : c.WellFormed IsWhole64) (hd : d.WellFormed InRange)
    (hconfig : Sound IsWhole64 nestingLimit config) (options : Options) :
    (d.afterConfig config).Accepts options
      (Snapshot.toReplay (c.userPart (some config))).admitted :=
  (hd.afterConfig (inRange_of_whole hconfig)).accepts options fun i hi =>
    (hc.sound_admitted hconfig i hi).imp_left inRange_of_whole

/-- A cluster that something is carried over to stays well formed. -/
theorem WellFormed.carriedTo (hc : c.WellFormed IsWhole64) (hd : d.WellFormed InRange)
    (hconfig : Sound IsWhole64 nestingLimit config) :
    (carriedTo c d config).WellFormed InRange :=
  (hd.afterConfig (inRange_of_whole hconfig)).bringInAll fun i hi =>
    inRange_of_whole (hc.sound_admitted hconfig i hi).1

/-- The configuration is the one that was carried over. -/
theorem WellFormed.activeConfig_carriedTo (hc : c.WellFormed IsWhole64)
    (hd : d.WellFormed InRange) (hconfig : Sound IsWhole64 nestingLimit config) :
    (Cluster.carriedTo c d config).store.activeConfig = .ok config := by
  have hscheduler : (Cluster.carriedTo c d config).store.scheduler? =
      some (JsonForm.text config) :=
    (hd.afterConfig (inRange_of_whole hconfig)).scheduler?_bringInAll fun i hi =>
      inRange_of_whole (hc.sound_admitted hconfig i hi).1
  rw [Store.activeConfig, hscheduler]
  exact Store.decode_ok (JsonForm.ofText?_text_whole hconfig)

/-- What is brought in for a captured object is the same, as far as it is portable. -/
theorem Written.portable_eq {c' : Cluster} {o o' : Stored k} (hc : c.WellFormed IsWhole64)
    (ho : (c.store.objects k).find? o.address.key = some o)
    (hexcluded : Stored.isExcluded o = false) (h : Written InRange c' o.carried o') :
    o'.portable = o.portable ∧ Stored.isExcluded o' = false := by
  obtain ⟨hsound, -, hproper⟩ := hc.of_find? ho
  have haddress := h.address_eq.trans hproper.address_carried
  constructor
  · obtain ⟨c'', hc'', -, -, rfl⟩ := h
    have hput : Sound IsWhole64 nestingLimit (c''.putObject (c''.prepared k o.carried)) :=
      sound_putObject (sound_prepared (Stored.sound_carried hsound hexcluded))
    have hreread : Object.reread (c''.putObject (c''.prepared k o.carried)) = _ :=
      JsonForm.reread_eq_self hput
    rw [hreread]
    exact hc''.portable_putObject hproper
  · have hname : o'.metadata.name = o.metadata.name := congrArg Address.name haddress
    have hns : o'.metadata.ns? = o.metadata.ns? := congrArg Address.ns? haddress
    rw [← hexcluded, Stored.isExcluded, Stored.isExcluded, hname, hns]

/-- A key that nothing is carried over to is not the key of an object of the user. -/
theorem WellFormed.isExcluded_of_lastAt?_eq_none (hc : c.WellFormed P)
    {config? : Option Configuration} {key : String}
    (h : lastAt? k key (Snapshot.toReplay (c.userPart config?)).admitted = none)
    {o : Stored k} (ho : (c.store.objects k).find? key = some o) : Stored.isExcluded o = true := by
  have hproper := (hc.of_find? ho).2.2
  have hown : o.address.key = key := hc.key_of_find? ho
  refine Bool.eq_true_of_not_eq_false fun hexcluded => ?_
  have hmem := (hc.mem_admitted config?).mpr ⟨o, hown ▸ ho, hexcluded, rfl⟩
  obtain ⟨x, hx⟩ := exists_lastAt? hmem
    ((congrArg Address.key hproper.address_carried).trans hown) hproper.refusal?_carried
  rw [h] at hx
  cases hx

/-- A cluster without objects of a user has only reserved ones. -/
theorem WellFormed.isExcluded_of_empty (hd : d.WellFormed P) (hempty : d.userObjects k = [])
    {key : String} {o : Stored k} (ho : (d.store.objects k).find? key = some o) :
    Stored.isExcluded o = true := by
  refine Bool.eq_true_of_not_eq_false fun hexcluded => ?_
  have hmem : o ∈ d.userObjects k :=
    hd.mem_userObjects.mpr ⟨(hd.key_of_find? ho).symm ▸ ho, hexcluded⟩
  rw [hempty] at hmem
  cases hmem

/-- **Key by key, the objects of the user are those that were carried over.** -/
theorem WellFormed.portableMap_carriedTo (hc : c.WellFormed IsWhole64) (hd : d.WellFormed InRange)
    (hconfig : Sound IsWhole64 nestingLimit config) (hempty : ∀ k, d.userObjects k = [])
    (k : Kind) :
    (Cluster.carriedTo c d config).portableMap k = c.portableMap k := by
  refine KeyMap.ext_find? fun key => ?_
  have hall := (hd.afterConfig (inRange_of_whole hconfig)).find?_bringInAll
    (fun i hi => inRange_of_whole (hc.sound_admitted hconfig i hi).1) k key
  cases hlast : lastAt? k key (Snapshot.toReplay (c.userPart (some config))).admitted with
  | some x =>
      rw [hlast] at hall
      obtain ⟨o', hwritten, hfind⟩ := hall
      obtain ⟨hmem, hkey, -⟩ := mem_of_lastAt? hlast
      obtain ⟨o, ho, hexcluded, rfl⟩ := (hc.mem_admitted _).mp hmem
      have hown : o.address.key = key :=
        (congrArg Address.key (hc.of_find? ho).2.2.address_carried).symm.trans hkey
      obtain ⟨hportable, hexcluded'⟩ := hwritten.portable_eq hc ho hexcluded
      have hbefore : (c.portableMap k).find? key = some o.portable :=
        find?_portableMap_of_user (hown ▸ ho) hexcluded
      rw [hbefore, ← hportable]
      exact find?_portableMap_of_user hfind hexcluded'
  | none =>
      rw [hlast] at hall
      have hbefore : (c.portableMap k).find? key = none :=
        find?_portableMap_eq_none fun o ho => hc.isExcluded_of_lastAt?_eq_none hlast ho
      rw [hbefore]
      refine find?_portableMap_eq_none fun o ho => ?_
      exact hd.isExcluded_of_empty (hempty k) (hall.symm.trans ho)

/-- **The objects that were carried over are listed as before.** -/
theorem WellFormed.portable_userObjects (hc : c.WellFormed IsWhole64) (hd : d.WellFormed InRange)
    (hconfig : Sound IsWhole64 nestingLimit config) (hempty : ∀ k, d.userObjects k = [])
    (k : Kind) :
    ((Cluster.carriedTo c d config).userObjects k).map Stored.portable =
      (c.userObjects k).map Stored.portable := by
  rw [map_portable_userObjects, map_portable_userObjects,
    hc.portableMap_carriedTo hd hconfig hempty]

/-! ### Capture, replay and capture again -/

/-- A well formed cluster has a configuration, and it survives being written. -/
theorem WellFormed.exists_activeConfig (hc : c.WellFormed IsWhole64) :
    ∃ config, c.store.activeConfig = .ok config ∧ Sound IsWhole64 nestingLimit config := by
  cases hscheduler : c.store.scheduler? with
  | none =>
      refine ⟨.default, ?_, Configuration.sound_default⟩
      rw [Store.activeConfig, hscheduler]
  | some text =>
      obtain ⟨config, rfl, hconfig⟩ := hc.config text hscheduler
      refine ⟨config, ?_, hconfig⟩
      rw [Store.activeConfig, hscheduler]
      exact Store.decode_ok (JsonForm.ofText?_text_whole hconfig)

/-- Whether a strict capture of the cluster brings a snapshot, however many tasks there may be at a
time. -/
def Captures (c : Cluster) (s : Snapshot) : Prop :=
  ∀ (name : String) (limit : Nat),
    ((operator name false limit).capture .strict (Run.start c)).1 = .ok s

/-- Whether an attempt has succeeded and left a cluster of which the same is captured, as far as it
is portable. -/
def Restores {σ : Type} (s : Snapshot) (view : σ → Cluster)
    (done : Except OperationError Unit × σ) : Prop :=
  done.1 = .ok () ∧ ∃ s', (view done.2).Captures s' ∧ s'.portable = s.portable

/-- The user's part of a well formed cluster is what a capture brings. -/
theorem WellFormed.captures (hc : c.WellFormed P) (hconfig : c.store.activeConfig = .ok config) :
    c.Captures (c.userPart (some config)) := by
  intro name limit
  have hreads : (operator name false limit).server.Reads false c c := c.reads_self name false
  rw [(Operator.capture_apply hreads hc hconfig .strict rfl).1]
  exact congrArg Except.ok (Snapshot.set_pod_id (c.userPart (some config)))

/-- To bring in what was captured of a cluster restores it. -/
theorem WellFormed.restores (hc : c.WellFormed IsWhole64) (hd : d.WellFormed InRange)
    (hconfig : Sound IsWhole64 nestingLimit config) (hempty : ∀ k, d.userObjects k = [])
    {σ : Type} {view : σ → Cluster} {done : Except OperationError Unit × σ}
    (h : BroughtIn .strict (d.afterConfig config)
      (Snapshot.toReplay (c.userPart (some config))).admitted done.1 (view done.2)) :
    Restores (c.userPart (some config)) view done := by
  obtain ⟨hresult, hafter⟩ := h.of_accepts (hc.accepts_carried hd hconfig .strict)
  refine ⟨hresult, (Cluster.carriedTo c d config).userPart (some config), ?_, ?_⟩
  · rw [hafter]
    exact (hc.carriedTo hd hconfig).captures (hc.activeConfig_carriedTo hd hconfig)
  · simp only [Snapshot.portable, userPart, ByKind.get_ofFn,
      hc.portable_userObjects hd hconfig hempty]

/-- A strict replay of what was captured sets its configuration. -/
theorem configured_captured (c d : Cluster) (config : Configuration) :
    d.configured false .strict (Snapshot.toReplay (c.userPart (some config))).schedulerConfig? =
      d.afterConfig config := rfl

/-- **Capture, replay and capture again** brings the same, as far as it is portable, if the second
cluster held no objects of a user. So does a capture after a copy, of whatever state the two
clusters are parts, and whatever is done to captured pods there. -/
theorem round_trip (hc : Reachable IsWhole64 c) (hd : Reachable InRange d)
    (hempty : ∀ k, d.userObjects k = []) :
    ∃ s, c.Captures s ∧
      (∀ (name : String) (limit : Nat),
        Restores s id ((operator name false limit).replayInto s.toReplay .strict d)) ∧
      ∀ {σ : Type} (source target : Part σ Cluster), source.Lawful → target.Lawful →
        ∀ both : σ, source.get both = c → target.get both = d →
        ∀ (name name' : String) (limit : Nat) (decorate : Stored .pod → Stored .pod),
          Restores s target.get (Operator.copyInto
            ⟨(server name' false).within target, limit, decorate⟩
            ((server name false).within source) .strict both) := by
  have hc := hc.wellFormed
  have hd := hd.wellFormed
  obtain ⟨config, hactive, hconfig⟩ := hc.exists_activeConfig
  refine ⟨_, hc.captures hactive, fun name limit => ?_, ?_⟩
  · have hbrought := Operator.broughtIn_replayInto name false limit
      (Snapshot.toReplay (c.userPart (some config))) .strict d
    rw [configured_captured] at hbrought
    exact hc.restores hd hconfig hempty hbrought
  · intro σ source target hsource htarget both hsourceOf htargetOf name name' limit decorate
    have hreads : ((server name false).within source).Reads false c both := by
      rw [← hsourceOf]
      exact reads_within hsource name false both
    let op : Operator σ := ⟨(server name' false).within target, limit, decorate⟩
    have hshows : op.server.Shows target.get (server name' false) :=
      Server.shows_within htarget _
    obtain ⟨q, hstate, hresult, hafter⟩ := op.copyInto_apply hreads hc hactive .strict
    have hbrought : BroughtIn .strict _ _ _ _ :=
      Operator.brings_replay hshows (Snapshot.toReplay (c.userPart (some config))) q
    rw [hstate, htargetOf, configured_captured, ← hresult, ← hafter] at hbrought
    exact hc.restores hd hconfig hempty hbrought

/-- A pod of a user is restored in a fresh cluster, and copied to it. -/
theorem round_trip_pod :
    let c : Cluster := ⟨.empty, ⟨fun n => "source-" ++ toString n, 0⟩⟩
    let d : Cluster := ⟨.empty, ⟨fun n => "target-" ++ toString n, 0⟩⟩
    let web := c.afterPut (Desired.plain .pod "web" (some "team"))
    let first : Part (Cluster × Cluster) Cluster := ⟨Prod.fst, fun c both => (c, both.2)⟩
    let second : Part (Cluster × Cluster) Cluster := ⟨Prod.snd, fun d both => (both.1, d)⟩
    ∃ s, web.Captures s ∧
      Restores s id ((operator "target" false 4).replayInto s.toReplay .strict d) ∧
      Restores s second.get (Operator.copyInto ⟨(server "target" false).within second, 4, id⟩
        ((server "source" false).within first) .strict (web, d)) := by
  intro c d web first second
  have hfresh : Reachable IsWhole64 c := .fresh _
  have hweb : Reachable IsWhole64 web :=
    hfresh.afterPut (Desired.sound_plain .pod "web" (some "team")) (by decide)
  have hempty : ∀ k, d.userObjects k = [] := by
    intro k
    cases k <;> rfl
  have hfirst : first.Lawful := ⟨fun _ _ => rfl, fun _ => rfl⟩
  have hsecond : second.Lawful := ⟨fun _ _ => rfl, fun _ => rfl⟩
  obtain ⟨s, hcaptures, hrestores, hcopies⟩ := round_trip hweb (.fresh _) hempty
  exact ⟨s, hcaptures, hrestores "target" 4,
    hcopies first second hfirst hsecond (web, d) rfl rfl "source" "target" 4 id⟩

end Cluster

end ClusterSnapshot
