import ClusterSnapshot.Proofs.Operation.Lifetime
import ClusterSnapshot.Proofs.Store.History

/-!
# Operations in the history of stores

Objects are written and removed in several stores, whole snapshots are replayed into them, they are
cleared, copied into each other, and opened again. All of this comes down to requests, made one
after the other to one store at a time, and so to moments of a chronicle.

## Main results

* `World.WellFormed.step_served`: **what a request does is one step**.
* `History.chronicled`: **what happens is a chronicle** that ends in the stores as they are.
* `History.identity_laws`: **the laws of identities and versions hold at every moment**.
-/

namespace ClusterSnapshot

open JsonForm (Sound)
open Number (InRange)
open Scheduler (Configuration)

variable {ι : Type} {k : Kind} {P : Number → Prop}

/-! ### One of the stores -/

/-- A store stays well formed when identities are taken elsewhere. -/
theorem Cluster.WellFormed.withUids {s : Store} {uids uids' : UidSource}
    (h : (⟨s, uids⟩ : Cluster).WellFormed P) (huid : uids'.uid = uids.uid)
    (hspent : uids.spent ≤ uids'.spent) : (⟨s, uids'⟩ : Cluster).WellFormed P := by
  refine ⟨fun k key text htext => ?_, h.config⟩
  obtain ⟨o, hread, hsound, hkey, hproper⟩ := h.entries k key text htext
  exact ⟨o, hread, hsound, hkey, hproper.mono huid hspent (le_refl _)⟩

namespace World

/-- One of the stores, with the source of identities. -/
def cluster (w : World ι) (i : ι) : Cluster := ⟨w.stores i, w.uids⟩

/-- All stores are well formed. -/
def WellFormed (P : Number → Prop) (w : World ι) : Prop := ∀ i, (w.cluster i).WellFormed P

/-- In a well formed world every store can be read. -/
theorem WellFormed.readable {w : World ι} (h : w.WellFormed P) : w.Readable :=
  fun i => (h i).readable

variable [DecidableEq ι]

/-- The stores with another one in place of one of them, and with the source of identities that
comes with it. -/
def withCluster (w : World ι) (i : ι) (c : Cluster) : World ι :=
  ⟨Function.update w.stores i c.store, c.uids⟩

/-- One of the stores as a part of all of them. -/
def part (i : ι) : Part (World ι) Cluster := ⟨(·.cluster i), fun c w => w.withCluster i c⟩

variable {w : World ι} {i : ι} {c : Cluster}

/-- The store of a new cluster is there. -/
theorem stores_withCluster (w : World ι) (i : ι) (c : Cluster) :
    (w.withCluster i c).stores i = c.store :=
  Function.update_self _ _ _

/-- All other stores are as they were. -/
theorem stores_withCluster_of_ne {j : ι} (h : j ≠ i) : (w.withCluster i c).stores j = w.stores j :=
  Function.update_of_ne h _ _

/-- Each cluster is a lawful part of the world. -/
theorem lawful_part (i : ι) : (part i).Lawful where
  get_set c w := congrArg (Cluster.mk · c.uids) (w.stores_withCluster i c)
  set_get w := congrArg (World.mk · w.uids) (Function.update_eq_self i w.stores)

/-- To put a cluster in its own place changes nothing. -/
theorem withCluster_cluster (w : World ι) (i : ι) : w.withCluster i (w.cluster i) = w :=
  (lawful_part i).set_get w

/-- A world stays well formed with another cluster that is well formed. -/
theorem WellFormed.withCluster (h : w.WellFormed P) (hc : c.WellFormed P)
    (huid : c.uids.uid = w.uids.uid) (hspent : w.uids.spent ≤ c.uids.spent) :
    (w.withCluster i c).WellFormed P := by
  intro j
  by_cases hj : j = i
  · subst hj
    have hget : (w.withCluster j c).cluster j = c := (lawful_part j).get_set c w
    rw [hget]
    exact hc
  · rw [cluster, stores_withCluster_of_ne hj]
    exact (h j).withUids huid hspent

/-! ### Steps -/

/-- What is at a place with another cluster is what that cluster has, in its store. -/
theorem metadata?_withCluster (x : Place ι) :
    (w.withCluster i c).metadata? x =
      if x.store = i then c.store.metadata? x.kind x.key else w.metadata? x := by
  rw [metadata?]
  split
  · rename_i hx
    rw [hx, stores_withCluster]
  · rename_i hx
    rw [stores_withCluster_of_ne hx]
    rfl

/-- A change of one store at one place leaves all other places. -/
theorem metadata?_withCluster_of_ne {x y : Place ι} (hy : y ≠ x)
    (hself : ∀ key ≠ x.key, (c.store.objects x.kind).find? key =
      ((w.stores x.store).objects x.kind).find? key)
    (hothers : ∀ k, x.kind ≠ k → c.store.objects k = (w.stores x.store).objects k) :
    (w.withCluster x.store c).metadata? y = w.metadata? y := by
  rw [metadata?_withCluster]
  split
  · obtain ⟨j, k, key⟩ := y
    rename_i hj
    obtain rfl : j = x.store := hj
    rw [metadata?, Store.metadata?, Store.metadata?]
    by_cases hk : x.kind = k
    · subst hk
      rw [hself key fun heq => hy (heq ▸ rfl)]
    · rw [hothers k hk]
  · rfl

/-- A change of one store that leaves its objects is no change of any object. -/
theorem step_nothing (hobjects : ∀ k, c.store.objects k = (w.stores i).objects k)
    (hrevision : c.store.revision = (w.stores i).revision) (huids : c.uids = w.uids) :
    w.Step .nothing (w.withCluster i c) := by
  refine .nothing (fun x => ?_) (fun j => ?_) huids
  · rw [metadata?_withCluster]
    split
    · rename_i hx
      subst hx
      rw [Store.metadata?, hobjects]
      rfl
    · rfl
  · by_cases hj : j = i
    · subst hj
      rw [stores_withCluster, hrevision]
    · rw [stores_withCluster_of_ne hj]

/-- To remove an object is a step. -/
theorem step_removed (w : World ι) (i : ι) (k : Kind) (name : String) (ns? : Option String) :
    w.Step (.removed ⟨i, k, objectKey (k.scope ns?) name⟩)
      (w.withCluster i ((w.cluster i).afterRemove k name ns?)) := by
  obtain ⟨hself, hothers⟩ := Store.objects_remove (w.stores i) k name ns?
  refine .removed ?_ (fun y hy => metadata?_withCluster_of_ne hy (fun key hkey => ?_) hothers)
    (fun j => ?_) rfl
  · rw [metadata?_withCluster, if_pos rfl, Store.metadata?]
    change Option.map _ (((w.stores i).remove k name ns?).2.objects k |>.find? _) = none
    rw [hself, KeyMap.find?_erase, if_pos rfl, Option.map_none]
  · exact (congrArg (KeyMap.find? · key) hself).trans
      ((KeyMap.find?_erase _ _ _).trans (if_neg hkey.symm))
  · by_cases hj : j = i
    · subst hj
      rw [stores_withCluster]
      rfl
    · rw [stores_withCluster_of_ne hj]

/-- To hand an object in is to write it. -/
theorem writes_afterPut [NumberRange P] (w : World ι) (i : ι) {d : Desired k}
    (hd : Sound P nestingLimit d) :
    w.Writes ⟨i, k, Desired.storeKey d⟩ (w.withCluster i ((w.cluster i).afterPut d))
      (Object.reread ((w.cluster i).putObject d)).metadata := by
  obtain ⟨hself, hothers⟩ := Cluster.objects_afterPut (c := w.cluster i) hd
  refine ⟨?_, ?_, ?_, fun j hj => ?_, fun y hy =>
    metadata?_withCluster_of_ne hy (fun key hkey => ?_) hothers⟩
  · rw [metadata?_withCluster, if_pos rfl, Store.metadata?, hself, KeyMap.find?_insert_self,
      Option.map_some]
  · obtain ⟨uid?, creationTimestamp?, hput⟩ := (w.cluster i).putObject_stored d
    rw [stores_withCluster, hput]
    rfl
  · rw [stores_withCluster]
    rfl
  · rw [stores_withCluster_of_ne hj]
  · exact (congrArg (KeyMap.find? · key) hself).trans (KeyMap.find?_insert_of_ne _ _ hkey.symm)

/-- To hand an object in is a step: a new one takes the next identity, another one keeps its own. -/
theorem step_put [NumberRange P] (w : World ι) (i : ι) {d : Desired k}
    (hd : Sound P nestingLimit d) :
    w.Step (.wrote ⟨i, k, Desired.storeKey d⟩) (w.withCluster i ((w.cluster i).afterPut d)) := by
  have hwrites := w.writes_afterPut i hd
  have huid : (Object.reread ((w.cluster i).putObject d)).metadata.uid? =
      ((w.cluster i).putObject d).metadata.uid? := rfl
  have hbefore : w.metadata? ⟨i, k, Desired.storeKey d⟩ =
      (((w.cluster i).store.objects k).find? (Desired.storeKey d)).map (·.metadata) := rfl
  have huids : (w.withCluster i ((w.cluster i).afterPut d)).uids = (w.cluster i).putUids d := rfl
  cases hfind : ((w.cluster i).store.objects k).find? (Desired.storeKey d) with
  | none =>
      rw [hfind] at hbefore
      refine .created hbefore hwrites ?_ ?_
      · rw [huid]
        simp only [Cluster.putObject, hfind]
        rfl
      · rw [huids]
        simp only [Cluster.putUids, hfind]
        rfl
  | some o =>
      rw [hfind] at hbefore
      refine .updated hbefore hwrites ?_ ?_
      · rw [huid]
        simp only [Cluster.putObject, hfind]
        rfl
      · rw [huids]
        simp only [Cluster.putUids, hfind]
        rfl

end World

/-- What a call has done to the objects of a store. -/
def Call.deed (i : ι) (call : Call) : Deed ι :=
  match call.request, call.failure? with
  | .apply k d, none => .wrote ⟨i, k, Desired.storeKey d⟩
  | .delete k name ns?, none => .removed ⟨i, k, objectKey (k.scope ns?) name⟩
  | _, _ => .nothing

/-- A call that only reads is no deed. -/
theorem Call.deed_of_reads {call : Call} (h : call.request.Reads) (i : ι) :
    call.deed i = .nothing := by
  obtain ⟨cluster, r, failure?⟩ := call
  cases r with
  | list k ns? | get k name ns? | getConfig => rfl
  | apply k d | delete k name ns? | restart config? => cases h

/-- A call that fails is no deed. -/
theorem Call.deed_of_failure (cluster : String) (r : Request) (e : RequestError) (i : ι) :
    Call.deed i ⟨cluster, r, some e⟩ = .nothing := by
  cases r <;> rfl

/-- **What a request does is one step**, and leaves all stores well formed. -/
theorem World.WellFormed.step_served [DecidableEq ι] [NumberRange P] {w : World ι} {i : ι}
    (h : w.WellFormed P) {call : Call} {c : Cluster}
    (hserved : (w.cluster i).Served call.request call.failure? c)
    (hr : call.request.HandsInSound P) :
    (w.withCluster i c).WellFormed P ∧ w.Step (call.deed i) (w.withCluster i c) := by
  obtain ⟨cluster, r, failure?⟩ := call
  have hsame : (w.withCluster i (w.cluster i)).WellFormed P ∧
      w.Step .nothing (w.withCluster i (w.cluster i)) :=
    ⟨(w.withCluster_cluster i).symm ▸ h, step_nothing (fun _ => rfl) rfl rfl⟩
  cases hserved with
  | @put k d hrefusal =>
      refine ⟨h.withCluster ((h i).afterPut hr hrefusal) ?_ ?_, w.step_put i hr⟩
      · exact (w.cluster i).putUids_uid d
      · exact (w.cluster i).spent_le_putUids d
  | @removed k name ns? =>
      exact ⟨h.withCluster ((h i).afterRemove name ns?) rfl (le_refl _),
        w.step_removed i k name ns?⟩
  | restarted =>
      exact ⟨h.withCluster ((h i).afterConfig (Request.sound_of_restart hr)) rfl (le_refl _),
        step_nothing (fun _ => rfl) rfl rfl⟩
  | read hreads =>
      rw [Call.deed_of_reads hreads]
      exact hsame
  | failed =>
      rw [Call.deed_of_failure]
      exact hsame

/-! ### Requests one after the other -/

/-- The moments at which calls were made to one of the stores, one after the other. -/
def Server.moments (server : Server (World ι)) (i : ι) : List Call → World ι → List (Moment ι)
  | [], _ => []
  | call :: rest, w =>
    let w' := (server.serve call.request w).2
    ⟨call.deed i, w'⟩ :: server.moments i rest w'

/-- The moments of further calls come after those of the first. -/
theorem Server.moments_append (server : Server (World ι)) (i : ι) (calls calls' : List Call)
    (w : World ι) :
    server.moments i (calls ++ calls') w = server.moments i calls w ++
      server.moments i calls' (server.after (calls.map Call.request) w) := by
  induction calls generalizing w with
  | nil => rfl
  | cons call rest ih =>
      rw [List.cons_append, moments, ih, moments, List.cons_append]
      rfl

variable [DecidableEq ι]

/-- The server of one of the stores, some requests to which fail as a script says. -/
def World.server (i : ι) (name : String) (external : Bool) (faults : List Fault) :
    Server (World ι) :=
  (Cluster.faultyServer name external faults).within (World.part i)

/-- What has happened so far is a chronicle that ends in well formed stores. -/
structure Chronicled (P : Number → Prop) (w₀ : World ι) (past : List (Moment ι)) (w : World ι) :
    Prop where
  chronicle : Chronicle w₀ past
  now_eq : now w₀ past = w
  wellFormed : w.WellFormed P

namespace Chronicled

variable [NumberRange P] {w₀ w : World ι} {past : List (Moment ι)} {i : ι}

omit [DecidableEq ι] [NumberRange P] in
/-- One more step is chronicled. -/
theorem snoc (h : Chronicled P w₀ past w) {deed : Deed ι} {w' : World ι} (hstep : w.Step deed w')
    (hw' : w'.WellFormed P) : Chronicled P w₀ (past ++ [⟨deed, w'⟩]) w' := by
  refine ⟨h.chronicle.snoc ?_ hw'.readable, now_concat _ _ _, hw'⟩
  rw [h.now_eq]
  exact hstep

/-- One more call that is served is chronicled. -/
theorem served (h : Chronicled P w₀ past w) (call : Call) {c : Cluster}
    (hserved : (w.cluster i).Served call.request call.failure? c)
    (hr : call.request.HandsInSound P) :
    Chronicled P w₀ (past ++ [⟨call.deed i, w.withCluster i c⟩]) (w.withCluster i c) := by
  obtain ⟨hwellFormed, hstep⟩ := h.wellFormed.step_served hserved hr
  exact h.snoc hstep hwellFormed

end Chronicled

/-- After the calls that were made to one of the stores since some moment, what has happened is a
chronicle that ends in the stores as they are. -/
structure ChronicledSince (P : Number → Prop) (w₀ : World ι) (past : List (Moment ι))
    (server : Server (World ι)) (i : ι) (w : World ι) (t : World ι × List Call) : Prop where
  chronicled : Chronicled P w₀ (past ++ server.moments i t.2 w) t.1
  after_eq : server.after (t.2.map Call.request) w = t.1

namespace Chronicled

variable {w₀ w : World ι} {past : List (Moment ι)} {i : ι} {name : String} {external : Bool}
  {faults : List Fault}

omit [DecidableEq ι] in
/-- What was chronicled before is so when nothing was called since. -/
theorem since (h : Chronicled P w₀ past w) (server : Server (World ι)) (i : ι) :
    ChronicledSince P w₀ past server i w (w, []) :=
  ⟨by rwa [Server.moments, List.append_nil], rfl⟩

/-- Calls that only read leave everything as it is. -/
theorem since_reads (h : Chronicled P w₀ past w) {calls : List Call}
    (hcalls : ∀ call ∈ calls, call.request.Reads) :
    ChronicledSince P w₀ past (World.server i name external faults) i w (w, calls) := by
  have hserve : ∀ {r : Request}, r.Reads →
      ((World.server i name external faults).serve r w).2 = w := by
    intro r hr
    change w.withCluster i ((Cluster.faultyServer name external faults).serve r (w.cluster i)).2 = w
    rw [Cluster.serve_of_reads hr, w.withCluster_cluster]
  induction calls generalizing past with
  | nil => exact h.since _ i
  | cons call rest ih =>
      obtain ⟨hcall, hrest⟩ := List.forall_mem_cons.mp hcalls
      have hnothing : w.Step (call.deed i) w := by
        rw [Call.deed_of_reads hcall]
        exact .nothing (fun _ => rfl) (fun _ => rfl) rfl
      obtain ⟨hchronicled, hafter⟩ := ih (h.snoc hnothing h.wellFormed) hrest
      refine ⟨?_, ?_⟩
      · rw [Server.moments, hserve hcall, List.append_cons]
        exact hchronicled
      · rw [List.map_cons, Server.after, List.foldl_cons, hserve hcall]
        exact hafter

end Chronicled

/-- A well formed cluster keeps the configuration that was set last, whatever it was. -/
theorem Cluster.WellFormed.exists_upkept {c : Cluster} (h : c.WellFormed P) :
    ∃ last?, c.Upkept P last? := by
  cases hscheduler : c.store.scheduler? with
  | none => exact ⟨none, h, hscheduler, fun _ hc => by cases hc⟩
  | some text =>
      obtain ⟨config, rfl, hsound⟩ := h.config text hscheduler
      exact ⟨some config, h, hscheduler, fun _ hc => by cases hc; exact hsound⟩

/-- **The server of one of the stores** continues the chronicle. -/
theorem World.keeps_chronicled [NumberRange P] {server : Server (World ι)} {i : ι} {name : String}
    {external : Bool} {faults : List Fault} (hserver : server = World.server i name external faults)
    (w₀ w : World ι) (past : List (Moment ι)) :
    server.Keeps (ChronicledSince P w₀ past server i w) (Request.HandsInSound P)
      (Request.AnswersSound P) where
  serves r hr t ht := by
    subst hserver
    have hreadable := (ht.chronicled.wellFormed i).readable
    have hserved := Cluster.served_faulty hreadable name external faults r
    have hnext := ht.chronicled.served ((World.server i name external faults).call r t.1) hserved hr
    refine ⟨?_, ?_⟩
    · change Chronicled P w₀ (past ++ (World.server i name external faults).moments i
        (t.2 ++ [(World.server i name external faults).call r t.1]) w) _
      rw [Server.moments_append, ht.after_eq, ← List.append_assoc]
      exact hnext
    · change (World.server i name external faults).after
        ((t.2 ++ [(World.server i name external faults).call r t.1]).map Call.request) w = _
      rw [List.map_append, Server.after_append, ht.after_eq]
      rfl
  answers r _ t ht x hx := by
    subst hserver
    obtain ⟨last?, hupkept⟩ := (ht.chronicled.wellFormed i).exists_upkept
    exact hupkept.answersSound_faulty name external faults hx

/-! ### Histories -/

/-- **The histories of stores** that take their identities from one source: what has happened, and
the stores as they are. What is handed in survives being written and has numbers with a property. -/
inductive History (P : Number → Prop) (uid : Nat → String) : List (Moment ι) → World ι → Prop
  | fresh : History P uid [] (World.fresh uid)
  | put {past : List (Moment ι)} {w : World ι} (i : ι) {k : Kind} {d : Desired k} {o : Stored k}
    {c : Cluster} : History P uid past w → Sound P nestingLimit d →
    (w.cluster i).put d = .ok (o, c) →
    History P uid (past ++ [⟨.wrote ⟨i, k, Desired.storeKey d⟩, w.withCluster i c⟩])
      (w.withCluster i c)
  /-- An object that is refused is not written. -/
  | refused {past : List (Moment ι)} {w : World ι} (i : ι) {k : Kind} {d : Desired k}
    {e : StoreError} : History P uid past w → (w.cluster i).put d = .error e →
    History P uid (past ++ [⟨.nothing, w⟩]) w
  | remove {past : List (Moment ι)} {w : World ι} (i : ι) (k : Kind) (name : String)
    (ns? : Option String) : History P uid past w →
    History P uid
      (past ++ [⟨.removed ⟨i, k, objectKey (k.scope ns?) name⟩,
        w.withCluster i ((w.cluster i).afterRemove k name ns?)⟩])
      (w.withCluster i ((w.cluster i).afterRemove k name ns?))
  | setActiveConfig {past : List (Moment ι)} {w : World ι} (i : ι) {config : Configuration} :
    History P uid past w → Sound P nestingLimit config →
    History P uid (past ++ [⟨.nothing, w.withCluster i ((w.cluster i).afterConfig config)⟩])
      (w.withCluster i ((w.cluster i).afterConfig config))
  /-- A request is made, which may be made to fail. -/
  | request {past : List (Moment ι)} {w : World ι} (i : ι) (name : String) (external : Bool)
    (faults : List Fault) {r : Request} : History P uid past w → r.HandsInSound P →
    History P uid
      (past ++ (World.server i name external faults).moments i
        [(World.server i name external faults).call r w] w)
      ((World.server i name external faults).serve r w).2
  | replay {past : List (Moment ι)} {w : World ι} (i : ι) {name : String} {external : Bool}
    {faults : List Fault} (op : Operator (World ι)) (options : Options) {s : Replay} :
    History P uid past w → op.server = World.server i name external faults → s.AllSound P →
    History P uid (past ++ op.server.moments i (op.replay s options (Run.start w)).2.calls w)
      (op.replay s options (Run.start w)).2.state
  | clear {past : List (Moment ι)} {w : World ι} (i : ι) {name : String} {external : Bool}
    {faults : List Fault} (op : Operator (World ι)) (options : Options) :
    History P uid past w → op.server = World.server i name external faults →
    History P uid (past ++ op.server.moments i (op.clear options (Run.start w)).2.calls w)
      (op.clear options (Run.start w)).2.state
  /-- One of the stores is copied into another one. As the one is only read, all calls can be gone
  through at the other one. -/
  | copy {past : List (Moment ι)} {w : World ι} (i j : ι) {name name' : String}
    {external external' : Bool} {faults faults' : List Fault} (op : Operator (World ι))
    (options : Options) : History P uid past w → op.server = World.server i name external faults →
    History P uid
      (past ++ op.server.moments i
        (op.copyFrom (World.server j name' external' faults') options (Run.start w)).2.calls w)
      (op.copyFrom (World.server j name' external' faults') options (Run.start w)).2.state
  /-- One of the stores is opened again, its writes being counted in 64 bits. -/
  | reopen {past : List (Moment ι)} {w : World ι} (i : ι) {s : Store} : History P uid past w →
    (w.stores i).revision < UInt64.size → Store.ofText? (w.stores i).text = some s →
    History P uid (past ++ [⟨.nothing, w.withCluster i ⟨s, w.uids⟩⟩]) (w.withCluster i ⟨s, w.uids⟩)

namespace History

variable {uid : Nat → String} {past : List (Moment ι)} {w : World ι}

omit [DecidableEq ι] in
/-- A fresh world is well formed. -/
theorem wellFormed_fresh [NumberRange P] (uid : Nat → String) :
    (World.fresh uid : World ι).WellFormed P := fun _ => (Reachable.fresh uid).wellFormed

/-- **What happens is a chronicle** that ends in the stores as they are. -/
theorem chronicled [NumberRange P] (h : History P uid past w) :
    Chronicled P (World.fresh uid) past w := by
  induction h with
  | fresh => exact ⟨.nil, rfl, wellFormed_fresh uid⟩
  | @put past w i k d o c _ hd hput ih =>
      obtain ⟨hrefusal, -, rfl⟩ := Cluster.put_ok (ih.wellFormed i).readable hput
      exact ih.served ⟨"", .apply k d, none⟩ (.put hrefusal) hd
  | refused i _ _ ih =>
      exact ih.snoc (.nothing (fun _ => rfl) (fun _ => rfl) rfl) ih.wellFormed
  | @remove past w i k name ns? _ ih =>
      exact ih.served ⟨"", .delete k name ns?, none⟩ .removed trivial
  | @setActiveConfig past w i config _ hconfig ih =>
      exact ih.served ⟨"", .restart (some config), none⟩ .restarted
        (fun _ hc => by cases hc; exact hconfig)
  | @request past w i name external faults r _ hr ih =>
      have hsince := ih.since (World.server i name external faults) i
      exact ((World.keeps_chronicled rfl _ w past).serves r hr _ hsince).chronicled
  | @replay past w i name external faults op options s _ hop hs ih =>
      have hkeeps := World.keeps_chronicled (P := P) hop (World.fresh uid) w past
      have hreplay := op.keeps_replay hkeeps (fun _ hr => hr) hs options
      exact (hreplay.apply (p := Run.start w) (ih.since _ i)).2.chronicled
  | @clear past w i name external faults op options _ hop ih =>
      have hkeeps := World.keeps_chronicled (P := P) hop (World.fresh uid) w past
      have hclear := op.keeps_clear hkeeps (fun _ hr => hr.handsInSound) options
      exact (hclear.apply (p := Run.start w) (ih.since _ i)).2.chronicled
  | @copy past w i j name name' external external' faults faults' op options _ hop ih =>
      obtain ⟨other?, hsource⟩ := (ih.wellFormed j).exists_upkept
      have hread : (World.server j name' external' faults').Keeps _ Request.Reads _ :=
        Cluster.keeps_read (World.lawful_part j) hsource name' external' faults'
      have hwrite := World.keeps_chronicled (P := P) hop (World.fresh uid) w past
      have hstep : ∀ t : World ι × List Call, (t.1 = w ∧ ∀ call ∈ t.2, call.request.Reads) →
          ChronicledSince P (World.fresh uid) past op.server i w t := by
        rintro ⟨_, calls⟩ ⟨rfl, hcalls⟩
        rw [hop]
        exact ih.since_reads hcalls
      have hcopied := op.keeps_copyFrom (p := Run.start w) hread hwrite hstep options
        ⟨rfl, fun _ hcall => absurd hcall List.not_mem_nil⟩
      generalize (op.copyFrom (World.server j name' external' faults') options (Run.start w)).2 = q
        at hcopied ⊢
      exact hcopied.chronicled
  | @reopen past w i s _ hcount hread ih =>
      rw [Store.ofText?_text hcount] at hread
      obtain rfl := Option.some.inj hread
      have hsame : w.withCluster i ⟨w.stores i, w.uids⟩ = w := w.withCluster_cluster i
      rw [hsame]
      exact ih.snoc (.nothing (fun _ => rfl) (fun _ => rfl) rfl) ih.wellFormed

/-- An object that is not refused can be written at any moment. -/
theorem exists_put [NumberRange P] (h : History P uid past w) (i : ι) {d : Desired k}
    (hd : Sound P nestingLimit d) (hrefusal : Desired.refusal? d = none) :
    ∃ w', History P uid (past ++ [⟨.wrote ⟨i, k, Desired.storeKey d⟩, w'⟩]) w' :=
  ⟨_, h.put i hd (Cluster.put_eq (h.chronicled.wellFormed i).readable hrefusal)⟩

/-- **The laws of identities and versions hold at every moment** of a history, if no identity of the
source comes twice. -/
theorem identity_laws (h : History InRange uid past w) (huid : Function.Injective uid) :
    now (World.fresh uid) past = w ∧ ∀ before, before <+: past → Chronicle.Laws uid before := by
  refine ⟨h.chronicled.now_eq, ?_⟩
  rintro before ⟨after, rfl⟩
  exact h.chronicled.chronicle.of_append.laws huid

/-- Of two stores, a pod is created in both, then removed from one of them and created again. -/
theorem identity_laws_pod :
    let x : Place Bool := ⟨true, .pod, "team/web"⟩
    let y : Place Bool := ⟨false, .pod, "team/web"⟩
    ∃ past w, History InRange toString past w ∧
      Function.Injective (toString : Nat → String) ∧
      past.map (·.deed) = [.wrote x, .wrote y, .removed x, .wrote x] ∧
      (now (World.fresh toString) past = w ∧
        ∀ before, before <+: past → Chronicle.Laws toString before) ∧
      (w.stores true).revision = 2 := by
  intro x y
  have hsound : Sound InRange nestingLimit (Desired.plain .pod "web" (some "team")) :=
    Desired.sound_plain .pod "web" (some "team")
  have huid : Function.Injective (toString : Nat → String) := fun _ _ h => toString_injective h
  have hfresh : History (ι := Bool) InRange toString [] (World.fresh toString) := .fresh
  obtain ⟨w₁, h₁⟩ := hfresh.exists_put true hsound rfl
  obtain ⟨w₂, h₂⟩ := h₁.exists_put false hsound rfl
  have h₃ := h₂.remove true .pod "web" (some "team")
  obtain ⟨w₄, h₄⟩ := h₃.exists_put true hsound rfl
  have hlaws := identity_laws h₄ huid
  refine ⟨_, w₄, h₄, huid, rfl, hlaws, ?_⟩
  have hcounted := (hlaws.2 _ (List.prefix_refl _)).counted true
  rw [hlaws.1] at hcounted
  exact hcounted

end History

end ClusterSnapshot
