import ClusterSnapshot.Proofs.Operation.Removal
import ClusterSnapshot.Proofs.Operation.RoundTrip

/-!
# What a clearing leaves

A clearing removes the objects of the user, each by one request, and nothing else. In a well formed
cluster no list fails and every object is there when its turn comes, so nothing ends the clearing,
and in the end all have been removed that were there in the beginning, in the order of the kinds.

## Main results

* `Operator.clear_apply`: **the removals of a clearing**.
* `Operator.cleared_clear`: **what a clearing leaves and what it asks for**.
-/

namespace ClusterSnapshot

open Number (InRange)

variable {σ : Type} {k : Kind} {P : Number → Prop}

/-! ### Removals -/

/-- The key at which a removal looks. -/
def Address.target (a : Address) : String := objectKey (a.kind.scope a.ns?) a.name

/-- The addresses of the objects of a kind that are not reserved. -/
def Cluster.userAddresses (c : Cluster) (k : Kind) : List Address :=
  (c.userObjects k).map Stored.address

/-- The cluster after objects were removed one after the other. -/
def Cluster.removeAll (c : Cluster) (addresses : List Address) : Cluster :=
  addresses.foldl (fun c a => c.afterRemove a.kind a.name a.ns?) c

/-- The addresses of all objects that are not reserved, in the order of a clearing. -/
def Cluster.clearingAddresses (c : Cluster) : List Address := clearingOrder.flatMap c.userAddresses

namespace Cluster

variable {c : Cluster} {name : String} {external : Bool}

/-- To ask for removals one after the other removes what is there. -/
theorem after_removals (c : Cluster) (addresses : List Address) :
    (Cluster.server name external).after (addresses.map Address.removal) c =
      c.removeAll addresses := by
  rw [Server.after, removeAll, List.foldl_map]
  congr 1
  funext c a
  exact c.serveDelete_snd a.kind a.name a.ns?

/-- Removals keep a cluster well formed. -/
theorem WellFormed.removeAll (hc : c.WellFormed P) (addresses : List Address) :
    (c.removeAll addresses).WellFormed P :=
  List.foldlRecOn _ _ hc fun _ hc a _ => hc.afterRemove a.name a.ns?

/-- What one removal does to the texts of a kind. -/
theorem find?_afterRemove (c : Cluster) (a : Address) (k : Kind) (key : String) :
    ((c.afterRemove a.kind a.name a.ns?).store.tables.get k).find? key =
      if a.kind = k ∧ a.target = key then none
      else (c.store.tables.get k).find? key := by
  by_cases hk : a.kind = k
  · subst hk
    simp only [Cluster.afterRemove, Store.remove, ByKind.get_set_self, KeyMap.find?_erase, true_and]
    rfl
  · simp only [Cluster.afterRemove, Store.remove, ByKind.get_set_of_ne _ _ hk, hk, false_and,
      ↓reduceIte]

/-- What removals do to the texts of a kind. -/
theorem find?_removeAll (c : Cluster) (addresses : List Address) (k : Kind) (key : String) :
    ((c.removeAll addresses).store.tables.get k).find? key =
      if ∃ a ∈ addresses, a.kind = k ∧ a.target = key then none
      else (c.store.tables.get k).find? key := by
  induction addresses generalizing c with
  | nil => simp [removeAll]
  | cons a rest ih =>
      change (((c.afterRemove a.kind a.name a.ns?).removeAll rest).store.tables.get k).find? key = _
      rw [ih, find?_afterRemove]
      simp only [List.mem_cons, exists_eq_or_imp]
      by_cases ha : a.kind = k ∧ a.target = key
      · rw [if_pos ha, ite_self, if_pos (Or.inl ha)]
      · simp only [ha, false_or, ↓reduceIte]

/-- Removals leave all alone but the objects. -/
theorem removeAll_eq (c : Cluster) (addresses : List Address) :
    (c.removeAll addresses).store.revision = c.store.revision ∧
      (c.removeAll addresses).store.scheduler? = c.store.scheduler? ∧
      (c.removeAll addresses).uids = c.uids := by
  induction addresses generalizing c with
  | nil => exact ⟨rfl, rfl, rfl⟩
  | cons a rest ih => exact ih (c.afterRemove a.kind a.name a.ns?)

/-- The addresses of a kind are of that kind. -/
theorem kind_of_mem_userAddresses {a : Address} (h : a ∈ c.userAddresses k) : a.kind = k := by
  obtain ⟨o, -, rfl⟩ := List.mem_map.mp h
  rfl

/-- The objects of a user are those that are not reserved. -/
theorem WellFormed.mem_userAddresses (hc : c.WellFormed P) {a : Address} :
    a ∈ c.userAddresses k ↔ ∃ (o : Stored k) (key : String),
      (c.store.objects k).find? key = some o ∧ Stored.isExcluded o = false ∧ o.address = a := by
  rw [userAddresses, List.mem_map]
  simp only [hc.mem_userObjects]
  constructor
  · rintro ⟨o, ⟨ho, hexcluded⟩, rfl⟩
    exact ⟨o, _, ho, hexcluded, rfl⟩
  · rintro ⟨o, key, ho, hexcluded, rfl⟩
    obtain rfl := hc.key_of_find? ho
    exact ⟨o, ⟨ho, hexcluded⟩, rfl⟩

/-! ### Removing all objects of the user -/

/-- A removal looks where the object says that it is. -/
theorem WellFormed.target_of_find? (hc : c.WellFormed P) {key : String} {o : Stored k}
    (ho : (c.store.objects k).find? key = some o) : o.address.target = key := by
  obtain ⟨-, hkey, hproper⟩ := hc.of_find? ho
  exact (congrArg Address.key hproper.address_eq).trans hkey

/-- No two removals look at the same place. -/
theorem WellFormed.pairwise_userAddresses (hc : c.WellFormed P) {kinds : List Kind}
    (hkinds : kinds.Nodup) :
    (kinds.flatMap c.userAddresses).Pairwise fun a b =>
      ¬ (a.kind = b.kind ∧ a.target = b.target) := by
  rw [List.pairwise_flatMap]
  refine ⟨fun k _ => ?_, hkinds.imp fun hjk a ha b hb hab => ?_⟩
  · have hkeys : (c.userObjects k).Pairwise fun o o' => o.address.key ≠ o'.address.key := by
      have hlisted := List.pairwise_map.mp (hc.nodup_listed (k := k) none)
      exact hlisted.sublist List.filter_sublist
    rw [userAddresses, List.pairwise_map]
    refine hkeys.imp_of_mem fun {o o'} ho ho' hne hab => hne ?_
    rw [← hc.target_of_find? (hc.mem_userObjects.mp ho).1,
      ← hc.target_of_find? (hc.mem_userObjects.mp ho').1]
    exact hab.2
  · rw [kind_of_mem_userAddresses ha, kind_of_mem_userAddresses hb] at hab
    exact hjk hab.1

/-- Removals of what is there succeed, each at a place of its own. -/
theorem granted_removals {addresses : List Address}
    (hpairwise : addresses.Pairwise fun a b => ¬ (a.kind = b.kind ∧ a.target = b.target))
    (hthere : ∀ a ∈ addresses, (c.store.tables.get a.kind).contains a.target = true) :
    ∀ call ∈ (Cluster.server name external).calls (addresses.map Address.removal) c,
      call.failure? = none := by
  induction addresses generalizing c with
  | nil => exact fun call hcall => absurd hcall List.not_mem_nil
  | cons a rest ih =>
      obtain ⟨hapart, hrest⟩ := List.pairwise_cons.mp hpairwise
      obtain ⟨ha, hlater⟩ := List.forall_mem_cons.mp hthere
      have hserved : (Cluster.server name external).serve a.removal c =
          (.ok (), c.afterRemove a.kind a.name a.ns?) :=
        Prod.ext ((c.serveDelete_fst _ _ _).trans (if_pos ha)) (c.serveDelete_snd _ _ _)
      refine List.forall_mem_cons.mpr ⟨?_, ?_⟩
      · rw [Server.call, hserved]
      · rw [hserved]
        refine ih hrest fun b hb => ?_
        rw [KeyMap.contains, find?_afterRemove, if_neg (hapart b hb)]
        exact hlater b hb

end Cluster

/-! ### The clearing of a well formed cluster -/

namespace Cluster

variable {c : Cluster} {name : String} {external : Bool}

/-- The addresses of all objects of the user. -/
theorem WellFormed.mem_clearing (hc : c.WellFormed P) {a : Address} :
    a ∈ c.clearingAddresses ↔
      ∃ (k : Kind) (o : Stored k) (key : String), (c.store.objects k).find? key = some o ∧
        Stored.isExcluded o = false ∧ o.address = a := by
  have horder : ∀ k : Kind, k ∈ clearingOrder := by
    intro k
    cases k <;> decide
  simp only [clearingAddresses, List.mem_flatMap, horder, true_and, hc.mem_userAddresses]

/-- What is to be removed is there. -/
theorem WellFormed.contains_target (hc : c.WellFormed P) {a : Address}
    (ha : a ∈ c.clearingAddresses) : (c.store.tables.get a.kind).contains a.target = true := by
  obtain ⟨k, o, key, ho, -, rfl⟩ := hc.mem_clearing.mp ha
  rw [hc.target_of_find? ho, KeyMap.contains]
  rw [Store.find?_objects] at ho
  exact Option.isSome_of_isSome_bind (Option.isSome_of_eq_some ho)

/-- Every removal of a clearing succeeds. -/
theorem WellFormed.granted_clearing (hc : c.WellFormed P) (name : String) (external : Bool) :
    ∀ call ∈ (Cluster.server name external).calls (c.clearingAddresses.map Address.removal) c,
      call.failure? = none :=
  granted_removals (hc.pairwise_userAddresses (by decide)) fun _ ha => hc.contains_target ha

/-- What a server answers a list with. -/
theorem WellFormed.serve_list (hc : c.WellFormed P) (name : String) (external : Bool) (k : Kind) :
    ((Cluster.server name external).serve (.list k none) c).1 = .ok (c.store.listed k none) := by
  change c.serveList k none = _
  rw [serveList, Store.list_eq hc.readable]
  rfl

/-- A server lists what is there. -/
theorem WellFormed.userAddresses_server (hc : c.WellFormed P) (name : String) (external : Bool)
    (k : Kind) : (Cluster.server name external).userAddresses c k = c.userAddresses k := by
  rw [Server.userAddresses, hc.serve_list]
  rfl

/-- No list ends the clearing. -/
theorem WellFormed.not_halted_lists (hc : c.WellFormed P) (name : String) (external : Bool)
    (kinds : List Kind) :
    ¬ Halted ((Cluster.server name external).calls (kinds.map (Request.list · none)) c) := by
  induction kinds with
  | nil => rintro ⟨call, hcall, -⟩; cases hcall
  | cons k rest ih =>
      rw [(apart_server name external).calls_lists_cons, ← List.singleton_append, halted_append]
      rintro (⟨call, hcall, hstops⟩ | hrest)
      · rw [List.mem_singleton.mp hcall, Server.call, hc.serve_list] at hstops
        cases hstops
      · exact ih hrest

end Cluster

namespace Operator

/-- **The removals of a clearing.** It succeeds, it removes all objects of the user one after the
other, and then it restarts the scheduler. -/
theorem clear_apply (name : String) (external : Bool) (limit : Nat) (options : Options)
    {c : Cluster} (hc : c.WellFormed P) :
    ((Cluster.operator name external limit).clear options (Run.start c)).1 = .ok () ∧
      ((Cluster.operator name external limit).clear options (Run.start c)).2.state =
        (c.removeAll c.clearingAddresses).restarted external none ∧
      ((Cluster.operator name external limit).clear options (Run.start c)).2.calls.filter
          (fun call => call.request.removed?.isSome) =
        (Cluster.server name external).calls
          (c.clearingAddresses.map Address.removal) c := by
  have hapart := Cluster.apart_server name external
  have haddresses : clearingOrder.flatMap ((Cluster.server name external).userAddresses c) =
      c.clearingAddresses :=
    List.flatMap_congr fun k _ => hc.userAddresses_server name external k
  have hclearing : (Cluster.server name external).clearing clearingOrder
      (Sight.sorted.see (Run.start c)) = (c.removeAll c.clearingAddresses,
        (Cluster.server name external).calls (c.clearingAddresses.map Address.removal) c,
        (Cluster.server name external).calls (clearingOrder.map (Request.list · none)) c) := by
    rw [Server.clearing]
    change (_, [] ++ _, [] ++ _) = _
    simp only [Run.start, haddresses, Cluster.after_removals, List.nil_append]
  have hfollows := (Cluster.operator name external limit).follows_clear hapart options (Run.start c)
  generalize (Cluster.operator name external limit).clear options (Run.start c) = done at hfollows
  cases hfollows with
  | @through q hsee =>
      rw [Function.comp_apply] at hsee
      change _ = (Cluster.server name external).askingAside (.restart none)
        ((Cluster.server name external).clearing _ _) at hsee
      rw [hclearing] at hsee
      refine ⟨rfl, (congrArg Prod.fst hsee).trans ?_,
        congrArg (fun seen : Cluster × SortedCalls => seen.2.1) hsee⟩
      cases external <;> rfl
  | stopped _ _ hhalts =>
      change ((Cluster.server name external).askingAside (.restart none)
        ((Cluster.server name external).clearing _ _)).2.Halts at hhalts
      rw [hclearing] at hhalts
      rcases hhalts with ⟨call, hcall, hstops⟩ | hhalts
      · rw [Call.stops?_of_granted (hc.granted_clearing name external call hcall)] at hstops
        cases hstops
      · rcases halted_append.mp hhalts with hlists | ⟨call, hcall, hstops⟩
        · exact absurd hlists (hc.not_halted_lists name external _)
        · rw [List.mem_singleton.mp hcall] at hstops
          cases external <;> cases hstops

end Operator

/-! ### What a clearing does -/

/-- The objects that a list of calls removes. -/
def removedBy (calls : List Call) : List Address :=
  calls.filterMap fun call => call.request.removed?

/-- What is removed by the calls that remove something. -/
theorem removedBy_filter (calls : List Call) :
    removedBy (calls.filter fun call => call.request.removed?.isSome) = removedBy calls := by
  rw [removedBy, removedBy, List.filterMap_filter]
  congr 1
  funext call
  cases call.request.removed? <;> rfl

/-- What was asked to be removed is what was removed. -/
theorem removedBy_removals (server : Server σ) (addresses : List Address) (s : σ) :
    removedBy (server.calls (addresses.map Address.removal) s) = addresses := by
  have hmap : removedBy (server.calls (addresses.map Address.removal) s) =
      ((server.calls (addresses.map Address.removal) s).map Call.request).filterMap
        Request.removed? := by
    rw [List.filterMap_map]
    rfl
  rw [hmap, Server.map_request_calls, List.filterMap_map]
  exact List.filterMap_some

/-- **What a clearing does** to a cluster, and the calls by which it does so. -/
structure Cluster.Cleared (before : Cluster) (external : Bool) (after : Cluster)
    (calls : List Call) : Prop where
  /-- What is reserved is left with the very same text, and nothing else is left. -/
  left : ∀ k key, (after.store.tables.get k).find? key =
    if ((before.store.objects k).find? key).any Stored.isExcluded then
      (before.store.tables.get k).find? key
    else none
  /-- What is not reserved is removed. -/
  asked : ∀ a, a ∈ removedBy calls ↔
    ∃ (k : Kind) (o : Stored k) (key : String), (before.store.objects k).find? key = some o ∧
      Stored.isExcluded o = false ∧ o.address = a
  once : (removedBy calls).Nodup
  ordered : (removedBy calls).Pairwise fun a b =>
    clearingOrder.idxOf a.kind ≤ clearingOrder.idxOf b.kind
  granted : ∀ call ∈ calls, call.request.removed?.isSome = true → call.failure? = none
  revision : after.store.revision = before.store.revision
  uids : after.uids = before.uids
  scheduler : after.store.scheduler? =
    if external then before.store.scheduler?
    else some (JsonForm.text Scheduler.Configuration.default)

namespace Cluster

variable {c : Cluster}

/-- The addresses of later kinds come later. -/
theorem ordered_clearing (c : Cluster) : c.clearingAddresses.Pairwise fun a b =>
    clearingOrder.idxOf a.kind ≤ clearingOrder.idxOf b.kind := by
  have horder : clearingOrder.Pairwise fun j k =>
      clearingOrder.idxOf j ≤ clearingOrder.idxOf k := by
    decide
  rw [clearingAddresses, List.pairwise_flatMap]
  refine ⟨fun k _ => List.pairwise_of_forall_mem_list fun a ha b hb => ?_,
    horder.imp fun hjk a ha b hb => ?_⟩
  · rw [kind_of_mem_userAddresses ha, kind_of_mem_userAddresses hb]
  · rw [kind_of_mem_userAddresses ha, kind_of_mem_userAddresses hb]
    exact hjk

/-- To restart the scheduler changes nothing but its configuration. -/
theorem restarted_eq (c : Cluster) (external : Bool) (config? : Option Scheduler.Configuration) :
    (c.restarted external config?).store.tables = c.store.tables ∧
      (c.restarted external config?).store.revision = c.store.revision ∧
      (c.restarted external config?).uids = c.uids ∧
      (c.restarted external config?).store.scheduler? = if external then c.store.scheduler?
        else some (JsonForm.text (config?.getD .default)) := by
  rw [restarted]
  cases external <;> exact ⟨rfl, rfl, rfl, rfl⟩

/-- A key is looked at if an object of the user is there. -/
theorem WellFormed.exists_target_iff (hc : c.WellFormed P) (k : Kind) (key : String) :
    (∃ a ∈ c.clearingAddresses, a.kind = k ∧ a.target = key) ↔
      ∃ o, (c.store.objects k).find? key = some o ∧ Stored.isExcluded o = false := by
  constructor
  · rintro ⟨a, ha, rfl, rfl⟩
    obtain ⟨j, o, key', ho, hexcluded, rfl⟩ := hc.mem_clearing.mp ha
    exact ⟨o, (hc.target_of_find? ho).symm ▸ ho, hexcluded⟩
  · rintro ⟨o, ho, hexcluded⟩
    exact ⟨o.address, hc.mem_clearing.mpr ⟨k, o, key, ho, hexcluded, rfl⟩, rfl,
      hc.target_of_find? ho⟩

/-- What is left when all objects of the user were removed. -/
theorem WellFormed.find?_clearing (hc : c.WellFormed P) (k : Kind) (key : String) :
    ((c.removeAll c.clearingAddresses).store.tables.get k).find? key =
      if ((c.store.objects k).find? key).any Stored.isExcluded then
        (c.store.tables.get k).find? key
      else none := by
  rw [find?_removeAll]
  simp only [hc.exists_target_iff]
  cases hfind : (c.store.objects k).find? key with
  | some o => cases hexcluded : Stored.isExcluded o <;> simp [hexcluded]
  | none =>
      have htext : (c.store.tables.get k).find? key = none := by
        rw [Option.eq_none_iff_forall_ne_some]
        intro text htext
        obtain ⟨o, ho⟩ := hc.readable k key text htext
        rw [Store.find?_objects, htext, Option.bind_some, ho] at hfind
        cases hfind
      simp [htext]

end Cluster

/-- **A clearing removes exactly the objects of the user.** Whatever the names of the objects and
the number of tasks, it succeeds. What is reserved is left as it is, every other object is removed
by one request, volumes first and namespaces last, and the scheduler has its default configuration,
unless somebody else runs it. -/
theorem Operator.cleared_clear {c : Cluster} (hc : Reachable InRange c) (name : String)
    (external : Bool) (limit : Nat) (options : Options) :
    let cleared := (Cluster.operator name external limit).clear options (Run.start c)
    cleared.1 = .ok () ∧ c.Cleared external cleared.2.state cleared.2.calls := by
  intro cleared
  obtain ⟨hok, hstate, hcalls⟩ := clear_apply name external limit options hc.wellFormed
  have hwellFormed := hc.wellFormed
  have hremoved : removedBy cleared.2.calls = c.clearingAddresses := by
    rw [← removedBy_filter, hcalls, removedBy_removals]
  have horder : clearingOrder.Nodup := by decide
  have hpairwise := hwellFormed.pairwise_userAddresses horder
  obtain ⟨htables, hrevision, huids, hscheduler⟩ :=
    (c.removeAll c.clearingAddresses).restarted_eq external none
  obtain ⟨hrevision', hscheduler', huids'⟩ := c.removeAll_eq c.clearingAddresses
  rw [← hstate] at htables hrevision huids hscheduler
  refine ⟨hok, fun k key => ?_, fun a => ?_, ?_, ?_, fun call hcall hremoval => ?_,
    hrevision.trans hrevision', huids.trans huids', ?_⟩
  · rw [htables]
    exact hwellFormed.find?_clearing k key
  · rw [hremoved]
    exact hwellFormed.mem_clearing
  · rw [hremoved]
    exact hpairwise.imp fun {a b} hab heq => hab (by rw [heq]; exact ⟨rfl, rfl⟩)
  · rw [hremoved]
    exact c.ordered_clearing
  · have hmem : call ∈ cleared.2.calls.filter fun call => call.request.removed?.isSome :=
      List.mem_filter.mpr ⟨hcall, hremoval⟩
    rw [hcalls] at hmem
    exact Cluster.granted_removals hpairwise (fun a ha => hwellFormed.contains_target ha) call hmem
  · rw [hscheduler, hscheduler']
    rfl

/-- A cluster with a pod of the system and one of the user, which is removed. -/
theorem Operator.cleared_clear_pods :
    let fresh : Cluster := ⟨.empty, ⟨toString, 0⟩⟩
    let system := fresh.afterPut (Desired.plain .pod "proxy" (some "kube-system"))
    let c := system.afterPut (Desired.plain .pod "web" (some "team"))
    let cleared := (Cluster.operator "target" false 4).clear .strict (Run.start c)
    Reachable InRange c ∧ cleared.1 = .ok () ∧ c.Cleared false cleared.2.state cleared.2.calls ∧
      ⟨.pod, some "team", "web"⟩ ∈ removedBy cleared.2.calls := by
  intro fresh system c cleared
  have hfresh : Reachable InRange fresh := .fresh _
  have hsystem : Reachable InRange system :=
    hfresh.afterPut (Desired.sound_plain .pod "proxy" (some "kube-system")) (by decide)
  have hweb : JsonForm.Sound InRange nestingLimit (Desired.plain .pod "web" (some "team")) :=
    Desired.sound_plain .pod "web" (some "team")
  have hc : Reachable InRange c := hsystem.afterPut hweb (by decide)
  obtain ⟨hok, hcleared⟩ := cleared_clear hc "target" false 4 .strict
  obtain ⟨o, hfind, haddress⟩ := system.find?_afterPut_self hweb
  have hexcluded : Stored.isExcluded o = false := by
    have hname : o.metadata.name = "web" := congrArg Address.name haddress
    have hns : o.metadata.ns? = some "team" := congrArg Address.ns? haddress
    rw [Stored.isExcluded, hname, hns]
    rfl
  exact ⟨hc, hok, hcleared, (hcleared.asked _).mpr ⟨.pod, o, _, hfind, hexcluded, haddress⟩⟩

end ClusterSnapshot
