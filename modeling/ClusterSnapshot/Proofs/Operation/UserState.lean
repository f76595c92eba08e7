import ClusterSnapshot.Extender.DecisionLog
import ClusterSnapshot.Proofs.Operation.RoundTrip
import ClusterSnapshot.Proofs.Store.Serving

/-!
# A capture holds exactly the state of the user

Whatever the clusters behind a server answer and whichever requests fail, a capture that succeeds
holds of each kind what was listed and is not reserved, in order, with the pods decorated, and the
configuration if it was to be had. What is reserved never comes into a snapshot, one kind does not
matter to another, and neither does the number of tasks.

## Main results

* `Operator.Captures`: what a capture holds, by the answers to its questions.
* `Snapshot.OfUser`: a snapshot without reserved objects.
* `Operator.captures_exactly`: **a capture holds exactly the state of the user**.
-/

namespace ClusterSnapshot

open Scheduler (Configuration)

variable {σ : Type} {k : Kind}

/-! ### What a capture holds -/

namespace Operator

variable (op : Operator σ) (options : Options)

/-- What is done to an object that is captured: pods are decorated. -/
def finish : (k : Kind) → Stored k → Stored k
  | .pod, o => op.decorate o
  | .node, o | .volume, o | .claim, o | .storageClass, o | .priorityClass, o | .ns, o => o

/-- **What a capture holds of a kind**, by how the question for its objects was answered. -/
inductive Listed (k : Kind) : Except RequestError (List (Stored k)) → List (Stored k) → Prop
  /-- The objects that are not reserved, in order. -/
  | listed {items : List (Stored k)} :
    Listed k (.ok items) ((items.filter fun o => !Stored.isExcluded o).map (op.finish k))
  /-- Nothing if they could not be listed, which lenient options allow. -/
  | passedOver {e : RequestError} : options.ignoreErrors = true → Listed k (.error e) []

/-- **The configuration that a capture holds**, by how the question for it was answered. -/
inductive Configured (options : Options) :
    Except RequestError Configuration → Option Configuration → Prop
  | given {config : Configuration} : Configured options (.ok config) (some config)
  /-- None if the scheduler is run by somebody else. -/
  | disabled : Configured options (.error .disabled) none
  /-- None if it could not be had, which lenient options allow. -/
  | passedOver {e : RequestError} : options.ignoreErrors = true →
    Configured options (.error e) none

/-- **What a capture holds** that begins in a state. -/
structure Captures (c : σ) (s : Snapshot) : Prop where
  objects : ∀ k, op.Listed options k (op.server.listAnswer k c) (s.objects.get k)
  config : Configured options (op.server.configAnswer c) s.schedulerConfig?

end Operator

/-- A name that does not begin with a text. -/
def StartsApart (start name : String) : Prop := ∀ rest, name ≠ start ++ rest

/-- A namespace that is neither the default one nor one of the system. -/
structure UserNamespace (name : String) : Prop where
  notDefault : name ≠ "default"
  notSystem : StartsApart "kube-" name

/-- **A snapshot without reserved objects.** Namespaces and priority classes are in no namespace. -/
structure Snapshot.OfUser (s : Snapshot) : Prop where
  namespaces : ∀ o ∈ s.objects.ns, UserNamespace o.metadata.name
  priorityClasses : ∀ o ∈ s.objects.priorityClass, StartsApart "system-" o.metadata.name
  inside : ∀ k, k ≠ .ns → k ≠ .priorityClass → ∀ o ∈ s.objects.get k, ∀ ns ∈ o.metadata.ns?,
    UserNamespace ns

/-! ### Reserved names -/

/-- A text starts with its beginning. -/
theorem startsWith_append (start rest : String) :
    Reserved.startsWith (start ++ rest) start = true := by
  simp [Reserved.startsWith]

/-- A name that fails the test does not begin with the text. -/
theorem startsApart_of_startsWith {name start : String}
    (h : Reserved.startsWith name start = false) : StartsApart start name := by
  rintro rest rfl
  rw [startsWith_append] at h
  cases h

/-- A namespace that is not ignored is one of the user. -/
theorem userNamespace_of_not_ignored {name : String}
    (h : Reserved.isIgnoredNamespace name = false) : UserNamespace name := by
  rw [Reserved.isIgnoredNamespace, Bool.or_eq_false_iff, beq_eq_false_iff_ne] at h
  exact ⟨h.2, startsApart_of_startsWith h.1⟩

/-- A snapshot is the user's if no object is reserved. -/
theorem Snapshot.ofUser_of_not_excluded {s : Snapshot}
    (h : ∀ k, ∀ o ∈ s.objects.get k, Stored.isExcluded o = false) : s.OfUser := by
  refine ⟨fun o ho => userNamespace_of_not_ignored (h .ns o ho),
    fun o ho => startsApart_of_startsWith (h .priorityClass o ho),
    fun k hns hclass o ho ns hmem => ?_⟩
  have hinside : o.metadata.ns?.any Reserved.isIgnoredNamespace = false := by
    have hexcluded := h k o ho
    rw [Stored.isExcluded] at hexcluded
    cases k with
    | pod | node | volume | claim | storageClass => exact hexcluded
    | ns => exact absurd rfl hns
    | priorityClass => exact absurd rfl hclass
  rw [Option.mem_def.mp hmem] at hinside
  exact userNamespace_of_not_ignored hinside

/-! ### Answers and what is held -/

namespace Operator

variable {op : Operator σ} {options : Options}

/-- What is held of a kind is what is listed, unless that ends the capture. -/
theorem listed_iff {α : Type} {answer : Except RequestError (List (Stored k))}
    (f : List (Stored k) → α) {items : List (Stored k)} :
    op.Listed options k answer items ↔
      (Ending.ofExcept ((options.listed k answer).map f)).failure? = none ∧
        items = (userOnly answer).map (op.finish k) := by
  constructor
  · rintro (_ | hlenient)
    · exact ⟨rfl, rfl⟩
    · refine ⟨?_, rfl⟩
      rw [Options.listed, if_pos hlenient]
      rfl
  · rintro ⟨hnone, rfl⟩
    cases answer with
    | ok items => exact .listed
    | error e =>
        cases hlenient : options.ignoreErrors with
        | true => exact .passedOver hlenient
        | false =>
            simp [Options.listed, hlenient, Ending.ofExcept, Except.map, Ending.failure?] at hnone

/-- The configuration that is held is the one that was given, unless that ends the capture. -/
theorem configured_iff {α : Type} {answer : Except RequestError Configuration}
    (f : Option Configuration → α) {config? : Option Configuration} :
    Configured options answer config? ↔
      (Ending.ofExcept ((options.configured answer).map f)).failure? = none ∧
        config? = answer.toOption := by
  constructor
  · rintro (_ | _ | hlenient)
    · exact ⟨rfl, rfl⟩
    · exact ⟨rfl, rfl⟩
    · rename_i e
      refine ⟨?_, rfl⟩
      cases e <;> simp [Options.configured, hlenient, Ending.ofExcept, Except.map, Ending.failure?]
  · rintro ⟨hnone, rfl⟩
    rcases answer with e | config
    · cases hlenient : options.ignoreErrors with
      | true => exact .passedOver hlenient
      | false =>
          cases e with
          | disabled => exact .disabled
          | notFound what | backend message =>
              simp [Options.configured, hlenient, Ending.ofExcept, Except.map, Ending.failure?]
                at hnone
    · exact .given

/-- Every kind of a decorated snapshot is finished. -/
theorem get_decorated (op : Operator σ) (s : Snapshot) (k : Kind) :
    (op.decorated s).objects.get k = (s.objects.get k).map (op.finish k) := by
  cases k with
  | pod => rfl
  | node | volume | claim | storageClass | priorityClass | ns => exact (List.map_id _).symm

/-- What a capture holds is all that was listed of the user, if no task fails. -/
theorem captures_iff (op : Operator σ) (options : Options) (c : σ) (s : Snapshot) :
    op.Captures options c s ↔
      TaskGroup.firstFailure? (op.server.fetchings options c) = none ∧
        s = op.decorated (op.server.userPart c) := by
  have hobjects : (∀ k, s.objects.get k = (op.server.userObjects c k).map (op.finish k)) ↔
      s.objects = (op.decorated (op.server.userPart c)).objects := by
    constructor
    · intro h
      refine ByKind.ext_get fun k => ?_
      rw [h, get_decorated, Server.userPart, ByKind.get_ofFn]
    · intro h k
      rw [h, get_decorated, Server.userPart, ByKind.get_ofFn]
  have hsame : s = op.decorated (op.server.userPart c) ↔
      s.objects = (op.decorated (op.server.userPart c)).objects ∧
        s.schedulerConfig? = (op.server.configAnswer c).toOption := by
    constructor
    · rintro rfl
      exact ⟨rfl, rfl⟩
    · rintro ⟨h, h'⟩
      obtain ⟨objects, config?⟩ := s
      obtain rfl : objects = _ := h
      obtain rfl : config? = _ := h'
      rfl
  have hnone : TaskGroup.firstFailure? (op.server.fetchings options c) = none ↔
      (∀ k, (Ending.ofExcept ((options.listed k (op.server.listAnswer k c)).map
          (Fetched.objects k))).failure? = none) ∧
        (Ending.ofExcept ((options.configured (op.server.configAnswer c)).map
          Fetched.config)).failure? = none := by
    rw [TaskGroup.firstFailure?, List.findSome?_eq_none_iff, Server.fetchings]
    simp only [List.forall_mem_append, List.forall_mem_map, List.forall_mem_singleton, Kind.mem_all,
      forall_const]
  rw [hnone, hsame, ← hobjects]
  constructor
  · rintro ⟨hlisted, hconfig⟩
    have hconfig := (configured_iff Fetched.config).mp hconfig
    have hlisted := fun k => (listed_iff (Fetched.objects k)).mp (hlisted k)
    exact ⟨⟨fun k => (hlisted k).1, hconfig.1⟩, fun k => (hlisted k).2, hconfig.2⟩
  · rintro ⟨⟨hlisted, hconfig⟩, hitems, hgiven⟩
    exact ⟨fun k => (listed_iff _).mpr ⟨hlisted k, hitems k⟩,
      (configured_iff _).mpr ⟨hconfig, hgiven⟩⟩

/-! ### What a capture does -/

/-- What is listed of the user is not reserved. -/
theorem not_excluded_of_mem_userObjects {server : Server σ} {c : σ} {o : Stored k}
    (h : o ∈ server.userObjects c k) : Stored.isExcluded o = false := by
  simpa using (List.mem_filter.mp h).2

/-- Before its pods are decorated a captured snapshot holds what is the user's. -/
theorem ofUser_undecorated (op : Operator σ) (c : σ) :
    Snapshot.OfUser { op.decorated (op.server.userPart c) with
      objects := (op.decorated (op.server.userPart c)).objects.set .pod
        (op.server.userObjects c .pod) } := by
  refine Snapshot.ofUser_of_not_excluded fun k o ho => ?_
  have hlisted : o ∈ op.server.userObjects c k := by
    cases k with
    | pod | node | volume | claim | storageClass | priorityClass | ns => exact ho
  exact not_excluded_of_mem_userObjects hlisted

/-- So it does after, if pods stay in their namespaces. -/
theorem ofUser_decorated (op : Operator σ) (c : σ)
    (hns : ∀ pod, (op.decorate pod).metadata.ns? = pod.metadata.ns?) :
    (op.decorated (op.server.userPart c)).OfUser := by
  have hfinish : ∀ (k : Kind) (o : Stored k),
      Stored.isExcluded (op.finish k o) = Stored.isExcluded o := by
    intro k o
    cases k with
    | pod => exact congrArg (fun ns? : Option String => ns?.any Reserved.isIgnoredNamespace) (hns o)
    | node | volume | claim | storageClass | priorityClass | ns => rfl
  refine Snapshot.ofUser_of_not_excluded fun k o ho => ?_
  rw [get_decorated, Server.userPart, ByKind.get_ofFn] at ho
  obtain ⟨o, hlisted, rfl⟩ := List.mem_map.mp ho
  rw [hfinish]
  exact not_excluded_of_mem_userObjects hlisted

/-- A capture succeeds with what it is to hold, and else ends with the first failure. -/
theorem capture_fst (op : Operator σ) (options : Options) (p : Progress σ) :
    (op.capture options p).1 =
      ((TaskGroup.firstFailure? (op.server.fetchings options p.state)).elim
        (.ok (op.decorated (op.server.userPart p.state))) .error) := by
  have hcaptured := op.captured_capture options p
  generalize op.capture options p = done at hcaptured
  cases hcaptured with
  | done _ hnone => rw [hnone]; rfl
  | stopped _ _ _ hfailure => rw [hfailure]; rfl

/-- A capture succeeds with a snapshot that holds what it is to hold, and with no other. -/
theorem capture_eq_ok_iff (op : Operator σ) (options : Options) (p : Progress σ) (s : Snapshot) :
    (op.capture options p).1 = .ok s ↔ op.Captures options p.state s := by
  rw [captures_iff, capture_fst]
  cases TaskGroup.firstFailure? (op.server.fetchings options p.state) with
  | none =>
      simp only [Option.elim_none, Except.ok.injEq, true_and]
      exact eq_comm
  | some e => simp

/-- A capture that succeeds asks for all that it is to ask for. -/
theorem see_of_capture_ok {op : Operator σ} {options : Options} {p : Progress σ} {s : Snapshot}
    (h : (op.capture options p).1 = .ok s) :
    Sight.record.see (op.capture options p).2 =
      op.server.making captureRequests (Sight.record.see p) := by
  have hcaptured := op.captured_capture options p
  generalize op.capture options p = done at h hcaptured
  cases hcaptured with
  | done hsee _ => exact hsee
  | stopped => cases h

/-- **A capture holds exactly the state of the user**, whatever is answered and whichever requests
fail. It succeeds with what it is to hold and with nothing else. It has then asked for the objects
of each kind once and for the configuration once. Before their decoration all its objects are the
user's, and after it too if pods stay in their namespaces. What it holds of a kind goes by the
answer for that kind alone, and the number of tasks does not matter to how it ends. -/
theorem captures_exactly (op : Operator σ) (options : Options) (p : Progress σ) :
    (∀ s, (op.capture options p).1 = .ok s ↔ op.Captures options p.state s) ∧
      (∀ limit, (Operator.capture { op with maxConcurrency := limit } options p).1 =
        (op.capture options p).1) ∧
      ∀ s, (op.capture options p).1 = .ok s →
        Sight.record.see (op.capture options p).2 =
          op.server.making captureRequests (Sight.record.see p) ∧
        (∃ pods, s.objects.pod = pods.map op.decorate ∧
          Snapshot.OfUser { s with objects := s.objects.set .pod pods }) ∧
        ((∀ pod, (op.decorate pod).metadata.ns? = pod.metadata.ns?) → s.OfUser) ∧
        ∀ (server : Server σ) (options' : Options) (p' : Progress σ) (s' : Snapshot) (k : Kind),
          (Operator.capture { op with server } options' p').1 = .ok s' →
          server.listAnswer k p'.state = op.server.listAnswer k p.state →
          s'.objects.get k = s.objects.get k := by
  refine ⟨op.capture_eq_ok_iff options p, fun limit => ?_, fun s hs => ?_⟩
  · rw [capture_fst, capture_fst]
    rfl
  · obtain ⟨-, rfl⟩ := (op.captures_iff _ _ _).mp ((op.capture_eq_ok_iff options p _).mp hs)
    refine ⟨see_of_capture_ok hs, ⟨op.server.userObjects p.state .pod, rfl,
      op.ofUser_undecorated p.state⟩, op.ofUser_decorated p.state, ?_⟩
    intro server options' p' s' k hs' hanswer
    obtain ⟨-, rfl⟩ := (captures_iff _ _ _ _).mp ((capture_eq_ok_iff _ options' p' _).mp hs')
    rw [get_decorated, get_decorated, Server.userPart, Server.userPart, ByKind.get_ofFn,
      ByKind.get_ofFn, Server.userObjects, Server.userObjects, hanswer]
    rfl

end Operator

/-- A pod that is decorated from a log of decisions stays where it is. -/
theorem Extender.DecisionLog.ns?_decorate (log : DecisionLog) (pod : Stored .pod) :
    (log.decorate pod).metadata.ns? = pod.metadata.ns? := by
  rw [decorate]
  split <;> rfl

/-- A cluster with a pod of the system and one of the user, the nodes of which cannot be listed. Of
its pods the one of the user is captured, decorated, and with lenient options the rest is left
out. -/
theorem Operator.captures_exactly_pods :
    let fresh : Cluster := ⟨.empty, ⟨toString, 0⟩⟩
    let system := fresh.afterPut (Desired.plain .pod "proxy" (some "kube-system"))
    let c := system.afterPut (Desired.plain .pod "web" (some "team"))
    let log : Extender.DecisionLog :=
      Extender.DecisionLog.empty.record ⟨"team", "web"⟩ "ranker" ⟨.bind, ⟨"no room"⟩⟩
    let op : Operator Cluster :=
      ⟨Cluster.faultyServer "source" true [⟨"list", some .node, none, .backend "lost"⟩], 3,
        log.decorate⟩
    ∃ s, (op.capture .lenient (Run.start c)).1 = .ok s ∧ op.Captures .lenient c s ∧ s.OfUser ∧
      s.objects.node = [] ∧ s.schedulerConfig? = none ∧
      s.objects.pod = (c.userObjects .pod).map log.decorate ∧
      ∃ o ∈ c.userObjects .pod, o.address = ⟨.pod, some "team", "web"⟩ := by
  intro fresh system c log op
  have hfresh : Reachable Number.InRange fresh := .fresh _
  have hsystem : Reachable Number.InRange system :=
    hfresh.afterPut (Desired.sound_plain .pod "proxy" (some "kube-system")) (by decide)
  have hweb : JsonForm.Sound Number.InRange nestingLimit (Desired.plain .pod "web" (some "team")) :=
    Desired.sound_plain .pod "web" (some "team")
  have hc : Reachable Number.InRange c := hsystem.afterPut hweb (by decide)
  obtain ⟨o, hfind, haddress⟩ := system.find?_afterPut_self hweb
  have hthere : ∃ o ∈ c.userObjects .pod, o.address = ⟨.pod, some "team", "web"⟩ := by
    have hkey := hc.wellFormed.key_of_find? hfind
    have hexcluded : Stored.isExcluded o = false := by
      have hns : o.metadata.ns? = some "team" := congrArg Address.ns? haddress
      rw [Stored.isExcluded, hns]
      rfl
    exact ⟨o, hc.wellFormed.mem_userObjects.mpr ⟨hkey ▸ hfind, hexcluded⟩, haddress⟩
  have hlist : c.serveList .pod none = .ok (c.store.listed .pod none) := by
    rw [Cluster.serveList, Store.list_eq hc.wellFormed.readable]
    rfl
  clear_value c
  -- With lenient options a capture succeeds.
  obtain ⟨s, hs⟩ : ∃ s, (op.capture .lenient (Run.start c)).1 = .ok s := by
    have hcaptured := op.captured_capture .lenient (Run.start c)
    generalize op.capture .lenient (Run.start c) = done at hcaptured
    cases hcaptured with
    | done => exact ⟨_, rfl⟩
    | stopped hstrict => cases hstrict
  obtain ⟨hiff, -, hall⟩ := captures_exactly op .lenient (Run.start c)
  obtain ⟨-, -, huser, -⟩ := hall s hs
  have hcaptures := (hiff s).mp hs
  have hpod := (listed_iff (Fetched.objects .pod)).mp (hcaptures.objects .pod)
  have hnode := (listed_iff (Fetched.objects .node)).mp (hcaptures.objects .node)
  have hgiven := (configured_iff Fetched.config).mp hcaptures.config
  have hanswer : op.server.listAnswer .pod c = .ok (c.store.listed .pod none) := hlist
  refine ⟨s, hs, hcaptures, huser (log.ns?_decorate), hnode.2, hgiven.2, ?_, hthere⟩
  exact hpod.2.trans (by rw [Run.start, hanswer]; rfl)

end ClusterSnapshot
