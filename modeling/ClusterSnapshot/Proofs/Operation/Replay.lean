import ClusterSnapshot.Operation.Replay
import ClusterSnapshot.Proofs.Operation.Basic

/-!
# What a replay does

A replay brings the admitted objects of a snapshot into a cluster, kind after kind. Tasks, turns and
stages do not matter for the cluster that it leaves: it is as if the objects were handed in one
after the other, up to some point if one was refused and to the end otherwise.

## Main results

* `Cluster.bringIn`: what it means for a cluster to bring in one object.
* `Operator.brings_replay`: **a replay brings in its objects in order**.
* `BroughtIn.of_accepts`, `BroughtIn.of_ok`: when it succeeds, and what it then leaves.
* `BroughtIn.keeps`: what it keeps even if it fails.
-/

namespace ClusterSnapshot

open Scheduler (Configuration)

/-- An object of some kind that is to be. -/
abbrev Item := (k : Kind) × Desired k

variable {σ : Type} {k : Kind}

/-! ### Bringing in objects -/

/-- The reference of a bound volume to its claim. -/
def Object.boundRef? {M : Type} (volume : Object .volume M) : Option ObjectReference :=
  let body : VolumeBody := volume.body
  if body.isBound then body.spec.claimRef? else none

namespace Cluster

/-- The cluster after its scheduler was restarted, if it is to be. -/
def configured (c : Cluster) (external : Bool) (options : Options)
    (config? : Option Configuration) : Cluster :=
  if options.ignoreSchedulerConfig then c else c.restarted external config?

/-- The cluster after an object was handed in, whether or not it was accepted. -/
def handIn (c : Cluster) (d : Desired k) : Cluster := (c.serveApply d).2

/-- The claim as which a volume refers to it in this cluster. -/
def claimUid? (c : Cluster) (ref : ObjectReference) : Option String :=
  match ref.name?, ref.ns? with
  | some name, some ns => (c.serveGet .claim name (some ns)).toOption.bind (·.metadata.uid?)
  | _, _ => none

/-- The volume as it is handed in: if it was bound, it refers to its claim as it is here. -/
def rebound (c : Cluster) (volume : Desired .volume) : Desired .volume :=
  let body : VolumeBody := volume.body
  if body.isBound then
    match body.spec.claimRef? with
    | some ref => volume.withClaimUid (c.claimUid? ref)
    | none => volume
  else volume

/-- A volume is rebound if it refers to a claim that it is bound to. -/
theorem rebound_eq (c : Cluster) (volume : Desired .volume) :
    c.rebound volume =
      match volume.boundRef? with
      | some ref => volume.withClaimUid (c.claimUid? ref)
      | none => volume := by
  rw [rebound, Object.boundRef?]
  split <;> rfl

/-- The object as it is handed in. -/
def prepared (c : Cluster) : (k : Kind) → Desired k → Desired k
  | .volume, d => c.rebound d
  | .pod, d | .node, d | .claim, d | .storageClass, d | .priorityClass, d | .ns, d => d

/-- The cluster after an object was brought in, if it was accepted. -/
def bringIn (c : Cluster) (i : Item) : Cluster := c.handIn (c.prepared i.1 i.2)

/-- What comes of handing in an object. -/
def outcome (options : Options) (d : Desired k) (c : Cluster) : Except OperationError Unit :=
  match (c.serveApply d).1 with
  | .ok _ => .ok ()
  | .error e => if options.ignoreErrors then .ok () else .error (.apply k d.metadata.name e)

/-- To hand in an object, as an act. -/
def handingIn (options : Options) (d : Desired k) : Act Cluster (Except OperationError Unit) :=
  fun c => (outcome options d c, c.handIn d)

/-- To bring in an object, as an act. -/
def bringingIn (options : Options) (i : Item) : Act Cluster (Except OperationError Unit) :=
  fun c => (outcome options (c.prepared i.1 i.2) c, c.bringIn i)

/-- Whether objects that are brought in one after the other are all accepted. -/
def Accepts (options : Options) (c : Cluster) : List Item → Prop
  | [] => True
  | i :: rest => (bringingIn options i c).1 = .ok () ∧ Accepts options (c.bringIn i) rest

/-- The act of the task that brings in an object. -/
def task (options : Options) (i : Item) : Act Cluster (Ending Unit) :=
  Ending.ofExcept <$> bringingIn options i

variable {options : Options}

/-- Items are accepted if the first ones are, and then the others. -/
theorem accepts_append {c : Cluster} {items items' : List Item} :
    c.Accepts options (items ++ items') ↔
      c.Accepts options items ∧ (items.foldl bringIn c).Accepts options items' := by
  induction items generalizing c with
  | nil => simp [Accepts]
  | cons i rest ih => simp [Accepts, ih, and_assoc]

/-- Lenient options accept everything. -/
theorem accepts_of_lenient (h : options.ignoreErrors = true) (c : Cluster) (items : List Item) :
    c.Accepts options items := by
  induction items generalizing c with
  | nil => trivial
  | cons i rest ih =>
      refine ⟨?_, ih _⟩
      change outcome options _ c = _
      rw [outcome]
      split
      · rfl
      · rw [if_pos h]

/-- The task of an item ends with an answer. -/
theorem answers_task (i : Item) : TaskGroup.Answers (task options i) := by
  intro c
  change (Ending.ofExcept (outcome options (c.prepared i.1 i.2) c)).lateFailure? = none
  cases outcome options (c.prepared i.1 i.2) c <;> rfl

/-- The tasks of items in order bring them in. -/
theorem inOrder_tasks (c : Cluster) (items : List Item) :
    (inOrder (items.map (task options)) c).2 = items.foldl bringIn c := by
  induction items generalizing c with
  | nil => rfl
  | cons i rest ih => exact ih (c.bringIn i)

/-- No task of an item fails if and only if the items are accepted. -/
theorem firstFailure?_tasks {c : Cluster} {items : List Item} :
    TaskGroup.firstFailure? (inOrder (items.map (task options)) c).1 = none ↔
      c.Accepts options items := by
  induction items generalizing c with
  | nil => simp [inOrder, TaskGroup.firstFailure?, Accepts]
  | cons i rest ih =>
      change TaskGroup.firstFailure? (Ending.ofExcept (bringingIn options i c).1 ::
        (inOrder (rest.map (task options)) (c.bringIn i)).1) = none ↔ _
      rw [Accepts, ← ih]
      cases (bringingIn options i c).1 with
      | ok x => simp [TaskGroup.firstFailure?, Ending.ofExcept, Ending.failure?]
      | error e => simp [TaskGroup.firstFailure?, Ending.ofExcept, Ending.failure?]

end Cluster

/-- The objects of a kind that are admitted, in order. -/
def Replay.admittedOf (s : Replay) (k : Kind) : List Item :=
  ((s.objects.get k).filterMap Desired.admitted?).map (Sigma.mk k)

/-- The items of a kind are of that kind. -/
theorem Replay.fst_of_mem_admittedOf {s : Replay} {i : Item} (h : i ∈ s.admittedOf k) :
    i.1 = k := by
  obtain ⟨d, -, rfl⟩ := List.mem_map.mp h
  rfl

/-- The kinds in the order in which their objects are brought in. -/
def replayOrder : List Kind := [.ns] ++ Operator.clusterKinds ++ [.volume]

/-- All objects that are admitted, in the order in which they are brought in. -/
def Replay.admitted (s : Replay) : List Item := replayOrder.flatMap s.admittedOf

/-! ### Attempts that bring in objects -/

/-- What an attempt has done that was to bring in some objects: all of them, and then it has
succeeded, or those up to some point. -/
inductive BroughtIn (options : Options) (c : Cluster) :
    List Item → Except OperationError Unit → Cluster → Prop
  | done {items : List Item} : c.Accepts options items →
    BroughtIn options c items (.ok ()) (items.foldl Cluster.bringIn c)
  | failed {ran dropped : List Item} (e : OperationError) : ¬ c.Accepts options ran →
    BroughtIn options c (ran ++ dropped) (.error e) (ran.foldl Cluster.bringIn c)

namespace BroughtIn

variable {options : Options} {c c' : Cluster} {items : List Item}
  {result : Except OperationError Unit}

/-- If all is accepted, the attempt succeeds with all objects brought in. -/
theorem of_accepts (h : BroughtIn options c items result c') (haccepts : c.Accepts options items) :
    result = .ok () ∧ c' = items.foldl Cluster.bringIn c := by
  cases h with
  | done _ => exact ⟨rfl, rfl⟩
  | failed _ hrefused => exact absurd (Cluster.accepts_append.mp haccepts).1 hrefused

/-- If the attempt succeeds, all was accepted and brought in. -/
theorem of_ok (h : BroughtIn options c items (.ok ()) c') :
    c.Accepts options items ∧ c' = items.foldl Cluster.bringIn c := by
  cases h with
  | done haccepts => exact ⟨haccepts, rfl⟩

/-- What is kept by bringing in each object is kept by the attempt, whether or not it succeeds. -/
theorem keeps (h : BroughtIn options c items result c') {I : Cluster → Prop}
    (hstep : ∀ i ∈ items, ∀ c, I c → I (c.bringIn i)) (hc : I c) : I c' := by
  cases h with
  | done _ => exact List.foldlRecOn _ _ hc fun c hc i hi => hstep i hi c hc
  | failed _ _ =>
      refine List.foldlRecOn _ _ hc fun c hc i hi => hstep i ?_ c hc
      exact List.mem_append_left _ hi

end BroughtIn

/-- An attempt that brings objects into the cluster that is seen of its state. -/
def Attempt.BringsIn (view : σ → Cluster) (options : Options) (a : Attempt σ Unit)
    (items : List Item) : Prop :=
  ∀ p, BroughtIn options (view p.state) items (a p).1 (view (a p).2.state)

namespace Attempt

variable {view : σ → Cluster} {options : Options}

/-- To report brings nothing in. -/
theorem bringsIn_report (e : Event) : BringsIn view options (Attempt.report e) [] :=
  fun _ => .done trivial

/-- **One attempt after the other** brings in the objects of both. -/
theorem BringsIn.seq {a b : Attempt σ Unit} {items items' : List Item}
    (ha : BringsIn view options a items) (hb : BringsIn view options b items') :
    BringsIn view options (a >>= fun _ => b) (items ++ items') := by
  intro p
  rw [bind_apply]
  have hfirst := ha p
  rcases hq : a p with ⟨result, q⟩
  rw [hq] at hfirst
  generalize hc : view q.state = c at hfirst
  cases hfirst with
  | done haccepts =>
      have hsecond := hb q
      rw [hc] at hsecond
      simp only
      generalize (b q).1 = result, view (b q).2.state = c' at hsecond
      cases hsecond with
      | done haccepts' =>
          rw [← List.foldl_append]
          exact .done (Cluster.accepts_append.mpr ⟨haccepts, haccepts'⟩)
      | failed e hrefused =>
          rw [← List.foldl_append, ← List.append_assoc]
          exact .failed e fun h => hrefused (Cluster.accepts_append.mp h).2
  | failed e hrefused =>
      simp only [hc]
      rw [List.append_assoc]
      exact .failed e hrefused

/-- Other words for a failure bring in the same. -/
theorem BringsIn.mapError {a : Attempt σ Unit} {items : List Item}
    (h : BringsIn view options a items) (f : OperationError → OperationError) :
    BringsIn view options (a.mapError f) items := by
  intro p
  have hp := h p
  change BroughtIn options _ items (Except.mapError f (a p).1) (view (a p).2.state)
  generalize (a p).1 = result, view (a p).2.state = c at hp
  cases hp with
  | done haccepts => exact .done haccepts
  | failed e hrefused => exact .failed (f e) hrefused

/-- A group whose tasks bring in objects brings them in. -/
theorem bringsIn_group (limit : Nat) {tasks : List (Run σ (Ending Unit))} {items : List Item}
    (htasks : List.Forall₂ (Run.Acts (.state view)) tasks (items.map (Cluster.task options))) :
    BringsIn view options (ExceptT.mk (TaskGroup.carryOut limit tasks) >>= fun _ => pure ())
      items := by
  intro p
  have hgroup := TaskGroup.carriedOut_carryOut limit htasks
    (List.forall_mem_map.mpr fun i _ => Cluster.answers_task i) p
  rw [bind_apply]
  simp only [ExceptT.mk]
  generalize (TaskGroup.carryOut limit tasks p).1 = result,
    (TaskGroup.carryOut limit tasks p).2 = q at hgroup
  generalize hfs : items.map (Cluster.task options) = fs at hgroup
  cases hgroup with
  | done hstate hnone _ _ =>
      rw [← hfs, Cluster.firstFailure?_tasks] at hnone
      rw [← hfs, Cluster.inOrder_tasks] at hstate
      change view q.state = _ at hstate
      change BroughtIn options _ _ (.ok ()) (view q.state)
      rw [hstate]
      exact .done hnone
  | @failed ran dropped e _ hstate hfailure _ =>
      obtain ⟨items', items'', rfl, rfl, -⟩ := List.map_eq_append_iff.mp hfs
      rw [Cluster.inOrder_tasks] at hstate
      change view q.state = _ at hstate
      simp only [hstate]
      refine .failed e fun haccepts => ?_
      rw [Cluster.firstFailure?_tasks.mpr haccepts] at hfailure
      cases hfailure

end Attempt

namespace Operator

variable {view : σ → Cluster} {options : Options} {server : Server σ} {name : String}
  {external : Bool}

/-- **Handing in an object** acts as the cluster serves it. -/
theorem acts_applyOne (h : server.Shows view (Cluster.server name external)) (d : Desired k) :
    Run.Acts (.state view) (applyOne server options d).run (Cluster.handingIn options d) := by
  refine Attempt.acts_request_bind h (.apply k d) fun c answer c' hserve p hp => ?_
  have hput : c.serveApply d = (answer, c') := hserve
  subst hp
  rw [Cluster.handingIn, Cluster.outcome, Cluster.handIn, hput]
  cases answer with
  | ok o => rfl
  | error e =>
      simp only
      split <;> rfl

/-- A run that leaves the cluster alone and gives what is always there. -/
theorem acts_const {α : Type} {r : Run σ α} {x : α} {f : Cluster → α} (hf : ∀ c, f c = x)
    (hr : ∀ p, (r p).1 = x ∧ (r p).2.state = p.state) :
    Run.Acts (.state view) r fun c => (f c, c) := by
  intro p
  change (f (view p.state), view p.state) = ((r p).1, view (r p).2.state)
  rw [(hr p).1, (hr p).2, hf]

/-- What it is to rebind a volume: nothing if it refers to no claim, to report an error if the claim
is not fully named, and otherwise to ask for the claim and report an error if it cannot be had. -/
inductive Rebinding (server : Server σ) (volume : Desired .volume) :
    Run σ (Desired .volume) → Prop
  | unbound : volume.boundRef? = none → Rebinding server volume (pure volume)
  | unnamed {ref : ObjectReference} {event : Event} : volume.boundRef? = some ref →
    ref.name? = none ∨ ref.ns? = none → event.level = .error →
    Rebinding server volume (do
      Run.report event
      return volume.withClaimUid none)
  | named {ref : ObjectReference} {claim ns : String} {missing : RequestError → Event} :
    volume.boundRef? = some ref → ref.name? = some claim → ref.ns? = some ns →
    (∀ e, (missing e).level = .error) →
    Rebinding server volume (do
      let answer : Except RequestError (Stored .claim) ←
        Run.request server (.get .claim claim (some ns))
      match answer with
      | .ok claim => return volume.withClaimUid claim.metadata.uid?
      | .error e =>
        Run.report (missing e)
        return volume.withClaimUid none)

/-- To look up the claim of a volume is to rebind it. -/
theorem rebinding_rebindClaim (server : Server σ) (volume : Desired .volume) :
    Rebinding server volume (rebindClaim server volume) := by
  have hboundRef : volume.boundRef? = if VolumeBody.isBound volume.body then
      VolumeSpec.claimRef? (VolumeBody.spec volume.body) else none := rfl
  rw [rebindClaim]
  cases hbound : VolumeBody.isBound volume.body with
  | false =>
      rw [hbound] at hboundRef
      exact .unbound hboundRef
  | true =>
      rw [hbound] at hboundRef
      cases hclaim : VolumeSpec.claimRef? (VolumeBody.spec volume.body) with
      | none =>
          exact .unbound (hboundRef.trans hclaim)
      | some ref =>
          have href := hboundRef.trans hclaim
          simp only [Bool.not_true, Bool.false_eq_true, ↓reduceIte]
          cases hname : ref.name? with
          | none => exact .unnamed href (.inl hname) rfl
          | some claim =>
              cases hns : ref.ns? with
              | none => exact .unnamed href (.inr hns) rfl
              | some ns => exact .named href hname hns fun _ => rfl

/-- A volume is prepared as the cluster has its claim. -/
theorem acts_rebindClaim (h : server.Shows view (Cluster.server name external))
    (volume : Desired .volume) :
    Run.Acts (.state view) (rebindClaim server volume) fun c => (c.rebound volume, c) := by
  have hrebinding := rebinding_rebindClaim server volume
  simp only [Cluster.rebound_eq]
  generalize rebindClaim server volume = r at hrebinding ⊢
  cases hrebinding with
  | unbound href =>
      simp only [href]
      exact acts_const (fun _ => rfl) fun _ => ⟨rfl, rfl⟩
  | @unnamed ref event href hunnamed =>
      have huid : ∀ c : Cluster, c.claimUid? ref = none := by
        intro c
        rw [Cluster.claimUid?]
        rcases hunnamed with h | h <;> rw [h]
        cases ref.name? <;> rfl
      simp only [href, huid]
      exact acts_const (fun _ => rfl) fun _ => ⟨rfl, rfl⟩
  | @named ref claim ns missing href hname hns =>
      simp only [href, Cluster.claimUid?, hname, hns]
      refine Run.acts_request_bind h (.get .claim claim (some ns)) ?_
      intro c answer c' hserve p hp
      obtain ⟨hanswer, rfl⟩ := Prod.mk.inj hserve
      have hget : c.serveGet .claim claim (some ns) = answer := hanswer
      subst hp
      simp only [hget]
      cases answer with
      | ok o => rfl
      | error e => rfl

/-! ### Stages -/

/-- The tasks that hand in objects bring them in, if they are no volumes. -/
theorem acts_applyTasks (h : server.Shows view (Cluster.server name external))
    (hk : k ≠ .volume) (s : Replay) :
    List.Forall₂ (Run.Acts (.state view)) (applyTasks server options (s.objects.get k))
      ((s.admittedOf k).map (Cluster.task options)) := by
  rw [Replay.admittedOf, List.map_map, applyTasks, List.forall₂_map_left_iff,
    List.forall₂_map_right_iff]
  refine List.forall₂_same.mpr fun d _ => ?_
  have hact : Cluster.bringingIn options ⟨k, d⟩ = Cluster.handingIn options d := by
    cases k <;> first | rfl | exact absurd rfl hk
  change Run.Acts (.state view) _ (Ending.ofExcept <$> Cluster.bringingIn options ⟨k, d⟩)
  rw [hact]
  exact (acts_applyOne h d).map Ending.ofExcept

/-- The tasks that hand in volumes bring them in. -/
theorem acts_volumeTasks (h : server.Shows view (Cluster.server name external)) (s : Replay) :
    List.Forall₂ (Run.Acts (.state view)) (volumeTasks server options s.objects.volume)
      ((s.admittedOf .volume).map (Cluster.task options)) := by
  rw [Replay.admittedOf, List.map_map, volumeTasks, List.forall₂_map_left_iff,
    List.forall₂_map_right_iff]
  refine List.forall₂_same.mpr fun d _ => ?_
  have hact : Run.Acts (.state view)
      (rebindClaim server d >>= fun d => (applyOne server options d).run) (Cluster.bringingIn
        options ⟨.volume, d⟩) :=
    (acts_rebindClaim h d).bind fun d => acts_applyOne h d
  exact hact.map Ending.ofExcept

/-- The tasks of kinds other than volumes bring in what is admitted of them. -/
theorem acts_clusterTasks (h : server.Shows view (Cluster.server name external)) (s : Replay)
    {kinds : List Kind} (hkinds : .volume ∉ kinds) :
    List.Forall₂ (Run.Acts (.state view))
      (kinds.flatMap fun k => applyTasks server options (s.objects.get k))
      ((kinds.flatMap s.admittedOf).map (Cluster.task options)) := by
  induction kinds with
  | nil => exact .nil
  | cons k rest ih =>
      obtain ⟨hk, hrest⟩ := not_or.mp (mt List.mem_cons.mpr hkinds)
      rw [List.flatMap_cons, List.flatMap_cons, List.map_append]
      exact List.rel_append (acts_applyTasks h (Ne.symm hk) s) (ih hrest)

variable {op : Operator σ}

/-- A stage brings in what its tasks bring in. -/
theorem bringsIn_replayStage (stage : Stage) {tasks : List (Run σ (Ending Unit))}
    {items : List Item}
    (htasks : List.Forall₂ (Run.Acts (.state view)) tasks (items.map (Cluster.task options))) :
    (op.replayStage stage tasks).BringsIn view options items := by
  refine Attempt.BringsIn.mapError ?_ (.replayStage stage)
  exact Attempt.bringsIn_group op.maxConcurrency htasks

/-- The first stage of a replay succeeds. -/
theorem replayConfig_apply (h : op.server.Shows view (Cluster.server name external)) (s : Replay)
    (p : Progress σ) :
    (op.replayConfig s options p).1 = .ok () ∧
      view (op.replayConfig s options p).2.state =
        (view p.state).configured external options s.schedulerConfig? := by
  rw [replayConfig, Cluster.configured]
  by_cases hignore : options.ignoreSchedulerConfig = true
  · simp only [hignore, ↓reduceIte]
    exact ⟨rfl, rfl⟩
  · simp only [hignore, Bool.false_eq_true, ↓reduceIte]
    have hact : Run.Acts (.state view)
        (restartScheduler op.server options s.schedulerConfig?).run _ :=
      acts_restartScheduler h _
    refine ⟨?_, hact.snd p⟩
    change Except.mapError _ (restartScheduler op.server options s.schedulerConfig? p).1 = _
    exact congrArg (Except.mapError _) (hact.fst p)

/-- **A replay brings in its objects in order**, after it has set the scheduler's configuration. -/
theorem brings_replay (h : op.server.Shows view (Cluster.server name external)) (s : Replay)
    (p : Progress σ) :
    BroughtIn options ((view p.state).configured external options s.schedulerConfig?) s.admitted
      (op.replay s options p).1 (view (op.replay s options p).2.state) := by
  have hconfig : (op.replayConfig s options p).1 = .ok () ∧ _ := replayConfig_apply h s p
  obtain ⟨hok, hview⟩ := hconfig
  have hns : (op.replayStage .namespaces (applyTasks op.server options s.objects.ns)).BringsIn view
      options (s.admittedOf .ns) :=
    bringsIn_replayStage .namespaces (acts_applyTasks h (by decide) s)
  have hcluster : (op.replayStage .cluster (clusterKinds.flatMap fun k =>
      applyTasks op.server options (s.objects.get k))).BringsIn view options
        (clusterKinds.flatMap s.admittedOf) :=
    bringsIn_replayStage .cluster (acts_clusterTasks h s (by decide))
  have hvolumes : (op.replayStage .volumes (volumeTasks op.server options
      s.objects.volume)).BringsIn view options (s.admittedOf .volume) :=
    bringsIn_replayStage .volumes (acts_volumeTasks h s)
  have hall := hns.seq (hcluster.seq (hvolumes.seq (Attempt.bringsIn_report .replayed)))
  have hitems : s.admitted = s.admittedOf .ns ++
      (clusterKinds.flatMap s.admittedOf ++ (s.admittedOf .volume ++ [])) := by
    simp [Replay.admitted, replayOrder]
  rw [hitems, ← hview]
  have hbind : op.replay s options p = _ := Attempt.bind_apply (op.replayConfig s options) _ p
  rw [hbind, hok]
  exact hall _

end Operator

end ClusterSnapshot
