import ClusterSnapshot.Operation.Clearing
import ClusterSnapshot.Operation.Copy
import ClusterSnapshot.Proofs.Operation.BringingIn

/-!
# What operations keep

Whatever an operation does, it does by requests. So it keeps every invariant of the state and the
calls that the server keeps, as long as the server keeps it with sound objects and configurations:
an operation hands in nothing else if it was given nothing else. This holds whether or not the
operation succeeds, and whatever else the server answers.

## Main results

* `TaskGroup.Keeps.spawnAll`, `TaskGroup.Keeps.wait`: what tasks keep, a group of them keeps.
* `Operator.keeps_replay`, `Operator.keeps_clear`, `Operator.keeps_capture`: **what operations
  keep**.
-/

namespace ClusterSnapshot

open JsonForm (Sound)
open Scheduler (Configuration)

variable {σ α β : Type} {k : Kind} {P : Number → Prop} {J : σ × List Call → Prop}

/-! ### Attempts -/

namespace Attempt

/-- An attempt that keeps an invariant, and gives something with some property if it succeeds. -/
abbrev Keeps (J : σ × List Call → Prop) (a : Attempt σ α) (Q : α → Prop) : Prop :=
  Run.Keeps J a.run fun result => ∀ x, result = .ok x → Q x

variable {a : Attempt σ α} {Q : α → Prop} {Q' : β → Prop}

/-- What an attempt gives and keeps from a progress. -/
theorem Keeps.apply (h : Keeps J a Q) {p : Progress σ} (hp : J (Sight.record.see p)) :
    (∀ x, (a p).1 = .ok x → Q x) ∧ J (Sight.record.see (a p).2) := h p hp

/-- What follows an attempt keeps what the attempt has kept. -/
theorem Keeps.bind (h : Keeps J a Q) {f : α → Attempt σ β} (hf : ∀ x, Q x → Keeps J (f x) Q') :
    Keeps J (a >>= f) Q' := by
  intro p hp
  obtain ⟨hresult, hstate⟩ := h.apply hp
  change (∀ x, ((a >>= f) p).1 = .ok x → Q' x) ∧ J (Sight.record.see ((a >>= f) p).2)
  rw [bind_apply]
  cases hanswer : (a p).1 with
  | ok x => exact hf x (hresult x hanswer) _ hstate
  | error e => exact ⟨fun _ hx => (nomatch hx), hstate⟩

/-- To give a result keeps everything. -/
theorem keeps_pure {x : α} (h : Q x) : Keeps J (pure x) Q := by
  refine fun _ hp => ⟨fun y hy => ?_, hp⟩
  obtain rfl : x = y := Except.ok.inj hy
  exact h

/-- To fail keeps everything. -/
theorem keeps_throw (e : OperationError) : Keeps J (throw e : Attempt σ α) Q :=
  fun _ hp => ⟨fun _ hx => (nomatch hx), hp⟩

/-- To convert a result keeps what was kept. -/
theorem Keeps.map (h : Keeps J a Q) {g : α → β} (hg : ∀ x, Q x → Q' (g x)) :
    Keeps J (g <$> a) Q' := by
  rw [map_eq_pure_bind]
  exact h.bind fun x hx => keeps_pure (hg x hx)

/-- To report keeps everything. -/
theorem keeps_report (e : Event) : Keeps J (Attempt.report e) fun _ => True :=
  fun _ hp => ⟨fun _ _ => trivial, hp⟩

/-- Other words for a failure keep what was kept. -/
theorem Keeps.mapError (h : Keeps J a Q) (f : OperationError → OperationError) :
    Keeps J (a.mapError f) Q := by
  refine Run.Ensures.map h fun result hresult x hx => ?_
  cases result with
  | ok y => exact hresult x hx
  | error e => cases hx

/-- A run that is part of an attempt. -/
theorem keeps_andThen {r : Run σ α} (h : Run.Keeps J r Q) {next : α → Attempt σ β}
    (hnext : ∀ x, Q x → Keeps J (next x) Q') : Keeps J ((r : Attempt σ α) >>= next) Q' :=
  ensures_andThen h hnext

end Attempt

/-- The output of an ending has some property. -/
def Ending.Gives (Q : α → Prop) (e : Ending α) : Prop := ∀ x, e.output? = some x → Q x

/-- The task of an attempt keeps what the attempt does. -/
theorem Attempt.Keeps.task {a : Attempt σ α} {Q : α → Prop} (h : Attempt.Keeps J a Q) :
    Run.Keeps J a.task (Ending.Gives Q) := by
  refine Run.Ensures.map h fun result hresult x hx => ?_
  cases result with
  | ok y => exact hresult x (congrArg Except.ok (Option.some.inj hx))
  | error e => cases hx

/-! ### Task groups -/

namespace TaskGroup

/-- A group whose tasks keep an invariant, and whose outputs have some property. -/
structure Keeps (J : σ × List Call → Prop) (Q : α → Prop) (g : TaskGroup σ α) : Prop where
  queue : ∀ task ∈ g.queue, Run.Keeps J task (Ending.Gives Q)
  endings : ∀ e ∈ g.endings, e.Gives Q
  outputs : ∀ x ∈ g.outputs, Q x

variable {Q : α → Prop} {g : TaskGroup σ α}

/-- A new group keeps everything. -/
theorem keeps_new (J : σ × List Call → Prop) (Q : α → Prop) (limit : Nat) :
    Keeps J Q (.new limit : TaskGroup σ α) :=
  ⟨fun _ h => absurd h List.not_mem_nil, fun _ h => absurd h List.not_mem_nil,
    fun _ h => absurd h List.not_mem_nil⟩

/-- A group notes what a task has given. -/
theorem Keeps.note (h : Keeps J Q g) {e : Ending α} (he : e.Gives Q) : Keeps J Q (g.note e) := by
  refine ⟨h.queue, fun e' he' => ?_, h.outputs⟩
  rcases List.mem_append.mp he' with he' | he'
  · exact h.endings e' he'
  · rw [List.mem_singleton.mp he']
    exact he

/-- To run tasks keeps what each of them does. -/
theorem Keeps.runTasks (h : Keeps J Q g) {tasks : List (Run σ (Ending α))}
    (htasks : ∀ task ∈ tasks, Run.Keeps J task (Ending.Gives Q)) :
    Run.Keeps J (g.runTasks tasks) (Keeps J Q) := by
  induction tasks generalizing g with
  | nil => exact Run.ensures_pure h
  | cons task rest ih =>
      obtain ⟨htask, hrest⟩ := List.forall_mem_cons.mp htasks
      exact Run.Ensures.bind htask fun e he => ih (h.note he) hrest

/-- The end of a turn keeps what the waiting tasks do. -/
theorem Keeps.endTurn (h : Keeps J Q g) : Run.Keeps J g.endTurn (Keeps J Q) := by
  have hrest : Keeps J Q { g with queue := g.queue.drop tasksPerRound } :=
    ⟨fun task htask => h.queue task (List.mem_of_mem_drop htask), h.endings, h.outputs⟩
  refine Run.Ensures.bind (hrest.runTasks fun task htask =>
    h.queue task (List.mem_of_mem_take htask)) fun g' hg' => ?_
  exact fun p hp => ⟨hg', hp⟩

/-- To wait for a place keeps what the waiting tasks do. -/
theorem Keeps.atPlace (h : Keeps J Q g) {p : Progress σ} (hp : J (Sight.record.see p)) :
    Keeps J Q (g.atPlace p).1 ∧ J (Sight.record.see (g.atPlace p).2) := by
  have hspent : Keeps J Q (g.endTurnIfSpent p).1 ∧ J (Sight.record.see (g.endTurnIfSpent p).2) := by
    change Keeps J Q ((if p.steps = 0 then g.endTurn else pure g) p).1 ∧
      J (Sight.record.see ((if p.steps = 0 then g.endTurn else pure g) p).2)
    split
    · exact h.endTurn p hp
    · exact ⟨h, hp⟩
  rw [TaskGroup.atPlace, awaitPlace]
  split
  · exact hspent
  · exact hspent.1.endTurn _ hspent.2

/-- To take on a task keeps what it does besides the others. -/
theorem Keeps.spawn (h : Keeps J Q g) {task : Run σ (Ending α)}
    (htask : Run.Keeps J task (Ending.Gives Q)) : Run.Keeps J (g.spawn task) (Keeps J Q) := by
  intro p hp
  by_cases hfailure : g.failure?.isSome = true
  · rw [TaskGroup.spawn, if_pos hfailure]
    exact ⟨h, hp⟩
  · obtain ⟨hplace, hsee⟩ := h.atPlace hp
    rw [spawn_eq g task p hfailure]
    split
    · exact ⟨hplace, hsee⟩
    · refine ⟨⟨fun task' htask' => ?_, hplace.endings, hplace.outputs⟩, hsee⟩
      rcases List.mem_append.mp htask' with htask' | htask'
      · exact hplace.queue task' htask'
      · rw [List.mem_singleton.mp htask']
        exact htask

/-- **What tasks keep**, it keeps to take them on. -/
theorem Keeps.spawnAll (h : Keeps J Q g) {tasks : List (Run σ (Ending α))}
    (htasks : ∀ task ∈ tasks, Run.Keeps J task (Ending.Gives Q)) :
    Run.Keeps J (g.spawnAll tasks) (Keeps J Q) := by
  induction tasks generalizing g with
  | nil => exact Run.ensures_pure h
  | cons task rest ih =>
      obtain ⟨htask, hrest⟩ := List.forall_mem_cons.mp htasks
      exact Run.Ensures.bind (h.spawn htask) fun g' hg' => ih hg' hrest

/-- To collect what has ended keeps everything. -/
theorem Keeps.collect (h : Keeps J Q g) (p : Progress σ) : Keeps J Q (g.collect p).1 := by
  refine ⟨h.queue, fun e he => h.endings e (List.mem_of_mem_drop he), fun x hx => ?_⟩
  rcases List.mem_append.mp hx with hx | hx
  · exact h.outputs x hx
  · obtain ⟨e, he, houtput⟩ := List.mem_filterMap.mp hx
    exact h.endings e (List.mem_of_mem_take he) x houtput

/-- To put off the end of a turn keeps what the waiting tasks do. -/
theorem Keeps.putOff (h : Keeps J Q g) : Run.Keeps J g.putOff (Keeps J Q) := by
  have htail : Keeps J Q { g with endings := g.endings.tail } :=
    ⟨h.queue, fun e he => h.endings e (List.mem_of_mem_tail he), h.outputs⟩
  refine Run.Ensures.bind htail.endTurn fun g' hg' => Run.ensures_pure ?_
  refine ⟨hg'.queue, fun e he => ?_, hg'.outputs⟩
  rcases List.mem_append.mp he with he | he
  · exact hg'.endings e he
  · exact h.endings e (List.mem_of_mem_head? (Option.mem_toList.mp he))

/-- What the tasks of a group keep, it keeps to wait for them. -/
theorem Keeps.wait (h : Keeps J Q g) :
    Run.Keeps J g.wait fun result => ∀ outputs, result = .ok outputs → ∀ x ∈ outputs, Q x := by
  intro p hp
  fun_induction TaskGroup.wait g p with
  | case1 g p collected hsettled =>
      refine ⟨fun outputs houtputs => ?_, hp⟩
      have hcollected : Keeps J Q collected.1 := h.collect p
      rw [TaskGroup.result] at houtputs
      split at houtputs
      · cases houtputs
      · cases houtputs
        exact hcollected.outputs
  | case2 g p collected hsettled next ih =>
      have hcollected : Keeps J Q collected.1 := h.collect p
      obtain ⟨hnext, hsee⟩ := hcollected.putOff collected.2 hp
      exact ih hnext hsee

end TaskGroup

/-! ### What is handed in and what is answered -/

/-- Whether what a request hands in survives being written. -/
def Request.HandsInSound (P : Number → Prop) : Request → Prop
  | .apply _ d => Sound P nestingLimit d
  | .restart config? => ∀ config ∈ config?, Sound P nestingLimit config
  | .list _ _ | .get _ _ _ | .delete _ _ _ | .getConfig => True

/-- Whether a clearing may make a request: it lists objects, removes them and restores the default
configuration. -/
def Request.Clears : Request → Prop
  | .list _ _ | .delete _ _ _ | .restart none => True
  | .get _ _ _ | .apply _ _ | .getConfig | .restart (some _) => False

/-- A request that clears hands nothing in. -/
theorem Request.Clears.handsInSound {r : Request} (h : r.Clears) : r.HandsInSound P := by
  cases r with
  | restart config? =>
      cases config? with
      | none => exact fun _ hc => by cases hc
      | some config => exact h.elim
  | apply k d => exact h.elim
  | list k ns? | get k name ns? | delete k name ns? | getConfig => trivial

/-- Whether the objects and the configuration that a request is answered with survive being
written. -/
def Request.AnswersSound (P : Number → Prop) : (r : Request) → r.Answer → Prop
  | .list _ _, (os : List (Stored _)) => ∀ o ∈ os, Sound P nestingLimit o
  | .getConfig, (config : Configuration) => Sound P nestingLimit config
  | .get _ _ _, _ | .apply _ _, _ | .delete _ _ _, _ | .restart _, _ => True

namespace Operator

variable {server : Server σ} {options : Options} {allowed : Request → Prop}

/-! ### Reading -/

/-- To list objects keeps what a listing does, and gives sound objects. -/
theorem keeps_listUserObjects (h : server.Keeps J allowed (Request.AnswersSound P)) (k : Kind)
    (hlist : allowed (.list k none)) :
    Attempt.Keeps J (listUserObjects server options k) fun os =>
      ∀ o ∈ os, Sound P nestingLimit o := by
  refine Attempt.keeps_andThen (h.ensures_request hlist)
    fun (answer : Except RequestError (List (Stored k))) hanswer => ?_
  cases answer with
  | ok os =>
      have hos : ∀ o ∈ os, Sound P nestingLimit o := hanswer os rfl
      exact Attempt.keeps_pure fun o ho => hos o (List.mem_of_mem_filter ho)
  | error e =>
      simp only
      split
      · refine Attempt.Keeps.bind (Attempt.keeps_report _) fun _ _ => Attempt.keeps_pure ?_
        exact fun o ho => absurd ho List.not_mem_nil
      · exact Attempt.keeps_throw _

/-- To ask for the configuration keeps what the request does, and gives a sound one. -/
theorem keeps_fetchConfig (h : server.Keeps J allowed (Request.AnswersSound P))
    (hget : allowed .getConfig) :
    Attempt.Keeps J (fetchConfig server options) fun config? =>
      ∀ config ∈ config?, Sound P nestingLimit config := by
  have hnone : ∀ config ∈ (none : Option Configuration), Sound P nestingLimit config :=
    fun _ hc => by cases hc
  refine Attempt.keeps_andThen (h.ensures_request hget)
    fun (answer : Except RequestError Configuration) hanswer => ?_
  cases answer with
  | ok config =>
      have hconfig : Sound P nestingLimit config := hanswer config rfl
      exact Attempt.keeps_pure fun _ hc => by cases hc; exact hconfig
  | error e =>
      cases e with
      | disabled => exact Attempt.keeps_pure hnone
      | notFound m | backend m =>
          simp only
          split
          · exact Attempt.Keeps.bind (Attempt.keeps_report _) fun _ _ => Attempt.keeps_pure hnone
          · exact Attempt.keeps_throw _

end Operator

/-- Whether what a task of a capture brings survives being written. -/
def Fetched.AllSound (P : Number → Prop) : Fetched → Prop
  | .objects _ os => ∀ o ∈ os, Sound P nestingLimit o
  | .config config? => ∀ config ∈ config?, Sound P nestingLimit config

/-- A sound snapshot with other sound objects of a kind is sound. -/
theorem Snapshot.allSound_set {s : Snapshot} (h : s.AllSound P) {os : List (Stored k)}
    (hos : ∀ o ∈ os, Sound P nestingLimit o) :
    ({ s with objects := s.objects.set k os } : Snapshot).AllSound P := by
  refine ⟨fun j o ho => ?_, h.config⟩
  by_cases hj : k = j
  · subst hj
    rw [ByKind.get_set_self] at ho
    exact hos o ho
  · rw [ByKind.get_set_of_ne _ _ hj] at ho
    exact h.objects j o ho

/-- A sound snapshot that receives something sound is sound. -/
theorem Snapshot.allSound_receive {s : Snapshot} (h : s.AllSound P) {fetched : Fetched}
    (hfetched : fetched.AllSound P) : (s.receive fetched).AllSound P := by
  cases fetched with
  | objects k os => exact Snapshot.allSound_set h hfetched
  | config config? => exact ⟨h.objects, hfetched⟩

/-- The empty snapshot is sound. -/
theorem Snapshot.allSound_empty : (Contents.empty : Snapshot).AllSound P := by
  refine ⟨fun k o ho => ?_, fun _ hc => by cases hc⟩
  rw [Contents.empty, ByKind.get_ofFn] at ho
  exact absurd ho List.not_mem_nil

/-- What could be handed in for captured objects is sound. -/
theorem Snapshot.allSound_toReplay [NumberRange P] {s : Snapshot} (h : s.AllSound P) :
    (Snapshot.toReplay s).AllSound P := by
  refine ⟨fun k d hd => ?_, h.config⟩
  rw [Snapshot.toReplay, ByKind.get_ofFn] at hd
  obtain ⟨o, ho, rfl⟩ := List.mem_map.mp hd
  exact Stored.sound_toDesired (h.objects k o ho)

namespace Operator

variable {server : Server σ} {op : Operator σ} {options : Options} {allowed : Request → Prop}

/-- The tasks of a capture keep what requests that read do, and give something sound. -/
theorem keeps_captureTasks (h : server.Keeps J allowed (Request.AnswersSound P))
    (hallowed : ∀ r : Request, r.Reads → allowed r) :
    ∀ task ∈ captureTasks server options,
      Run.Keeps J task (Ending.Gives fun fetched => fetched.AllSound P) := by
  intro task htask
  rcases List.mem_append.mp htask with htask | htask
  · obtain ⟨k, -, rfl⟩ := List.mem_map.mp htask
    exact (Attempt.Keeps.map (keeps_listUserObjects h k (hallowed _ trivial))
      fun os hos => hos).task
  · obtain rfl := List.mem_singleton.mp htask
    exact (Attempt.Keeps.map (keeps_fetchConfig h (hallowed _ trivial)) fun _ hc => hc).task

/-- **A capture** keeps what the server keeps with requests that only read, and what it brings is
sound. -/
theorem keeps_capture (op : Operator σ) (h : op.server.Keeps J allowed (Request.AnswersSound P))
    (hallowed : ∀ r : Request, r.Reads → allowed r) (options : Options)
    (hdecorate : ∀ o, Sound P nestingLimit o → Sound P nestingLimit (op.decorate o)) :
    Attempt.Keeps J (op.capture options) fun s => s.AllSound P := by
  refine Attempt.keeps_andThen
    ((TaskGroup.keeps_new J _ _).spawnAll (keeps_captureTasks h hallowed)) fun group hgroup =>
    Attempt.Keeps.bind hgroup.wait fun fetched hfetched => ?_
  have hreceived : (fetched.foldl Snapshot.receive .empty).AllSound P :=
    List.foldlRecOn _ _ Snapshot.allSound_empty fun _ hs f hf => Snapshot.allSound_receive hs
      (hfetched f hf)
  refine Attempt.Keeps.bind (Attempt.keeps_report _) fun _ _ => Attempt.keeps_pure ?_
  exact Snapshot.allSound_set hreceived
    (List.forall_mem_map.mpr fun o ho => hdecorate o (hreceived.objects .pod o ho))

/-! ### Replaying -/

variable {good : (r : Request) → r.Answer → Prop}

/-- To restart the scheduler keeps what the request does. -/
theorem keeps_restartScheduler (h : server.Keeps J allowed good)
    {config? : Option Configuration} (hrestart : allowed (.restart config?)) :
    Attempt.Keeps J (restartScheduler server options config?) fun _ => True := by
  refine Attempt.keeps_andThen (h.ensures_request hrestart)
    fun (answer : Except RequestError Unit) _ => ?_
  cases answer with
  | ok _ => exact Attempt.keeps_pure trivial
  | error e =>
      cases e with
      | disabled => exact Attempt.keeps_report _
      | notFound m | backend m =>
          simp only
          split
          · exact Attempt.keeps_report _
          · exact Attempt.keeps_throw _

/-- To hand in an object keeps what the request does. -/
theorem keeps_applyOne (h : server.Keeps J allowed good) {d : Desired k}
    (hd : allowed (.apply k d)) :
    Attempt.Keeps J (applyOne server options d) fun _ => True := by
  refine Attempt.keeps_andThen (h.ensures_request hd)
    fun (answer : Except RequestError (Stored k)) _ => ?_
  cases answer with
  | ok _ => exact Attempt.keeps_pure trivial
  | error e =>
      simp only
      split
      · exact Attempt.keeps_report _
      · exact Attempt.keeps_throw _

/-- A volume that is sound is so when it refers to its claim as it is in this cluster. -/
theorem keeps_rebindClaim [NumberRange P] (h : server.Keeps J allowed good)
    (hget : ∀ name ns, allowed (.get .claim name (some ns))) {d : Desired .volume}
    (hd : Sound P nestingLimit d) :
    Run.Keeps J (rebindClaim server d) fun d' => Sound P nestingLimit d' := by
  have hrebinding := rebinding_rebindClaim server d
  have hincomplete : ∀ e : Event, Run.Keeps J
      (do Run.report e; return d.withClaimUid none) fun d' => Sound P nestingLimit d' :=
    fun e => Run.Ensures.bind (Run.keeps_report J e) fun _ _ =>
      Run.ensures_pure (Object.sound_withClaimUid hd none)
  generalize rebindClaim server d = r at hrebinding ⊢
  cases hrebinding with
  | unbound _ => exact Run.ensures_pure hd
  | unnamed _ _ => exact hincomplete _
  | named _ _ _ =>
      refine Run.Ensures.bind (h.ensures_request (hget _ _))
        fun (answer : Except RequestError (Stored .claim)) _ => ?_
      cases answer with
      | ok o => exact Run.ensures_pure (Object.sound_withClaimUid hd _)
      | error e => exact hincomplete _

/-- The tasks that hand in objects that are no volumes. -/
theorem keeps_applyTasks [NumberRange P] (h : server.Keeps J allowed good)
    (hallowed : ∀ r : Request, r.HandsInSound P → allowed r) {ds : List (Desired k)}
    (hds : ∀ d ∈ ds, Sound P nestingLimit d) :
    ∀ task ∈ applyTasks server options ds, Run.Keeps J task (Ending.Gives fun _ => True) := by
  intro task htask
  obtain ⟨d', hd', rfl⟩ := List.mem_map.mp htask
  obtain ⟨d, hd, hadmitted⟩ := List.mem_filterMap.mp hd'
  have hsound : Sound P nestingLimit d' := Desired.sound_of_admitted? hadmitted (hds d hd)
  exact (keeps_applyOne h (hallowed _ hsound)).task

/-- The tasks that hand in volumes. -/
theorem keeps_volumeTasks [NumberRange P] (h : server.Keeps J allowed good)
    (hallowed : ∀ r : Request, r.HandsInSound P → allowed r) {ds : List (Desired .volume)}
    (hds : ∀ d ∈ ds, Sound P nestingLimit d) :
    ∀ task ∈ volumeTasks server options ds, Run.Keeps J task (Ending.Gives fun _ => True) := by
  intro task htask
  obtain ⟨d', hd', rfl⟩ := List.mem_map.mp htask
  obtain ⟨d, hd, hadmitted⟩ := List.mem_filterMap.mp hd'
  have hsound : Sound P nestingLimit d' := Desired.sound_of_admitted? hadmitted (hds d hd)
  refine Attempt.Keeps.task ?_
  refine Attempt.keeps_andThen (keeps_rebindClaim h (fun _ _ => hallowed _ trivial) hsound)
    fun d'' hd'' => ?_
  exact keeps_applyOne h (hallowed _ hd'')

/-- The end of a stage whose tasks are all taken on. -/
theorem keeps_waitUnit {g : TaskGroup σ Unit} (hg : TaskGroup.Keeps J (fun _ => True) g) :
    Attempt.Keeps J (do let _ ← ExceptT.mk g.wait) fun _ => True :=
  Attempt.Keeps.bind hg.wait fun _ _ => Attempt.keeps_pure trivial

/-- A stage of a replay keeps what its tasks do. -/
theorem keeps_replayStage (op : Operator σ) (stage : Stage) {tasks : List (Run σ (Ending Unit))}
    (htasks : ∀ task ∈ tasks, Run.Keeps J task (Ending.Gives fun _ => True)) :
    Attempt.Keeps J (op.replayStage stage tasks) fun _ => True := by
  refine Attempt.Keeps.mapError ?_ _
  exact Attempt.keeps_andThen ((TaskGroup.keeps_new J _ _).spawnAll htasks) fun _ hg =>
    keeps_waitUnit hg

/-- **A replay** of what is sound keeps what the server keeps. -/
theorem keeps_replay [NumberRange P] (op : Operator σ)
    (h : op.server.Keeps J allowed good)
    (hallowed : ∀ r : Request, r.HandsInSound P → allowed r) {s : Replay} (hs : s.AllSound P)
    (options : Options) : Attempt.Keeps J (op.replay s options) fun _ => True := by
  have hconfig : Attempt.Keeps J (op.replayConfig s options) fun _ => True := by
    rw [replayConfig]
    cases options.ignoreSchedulerConfig with
    | true => exact Attempt.keeps_pure trivial
    | false => exact (keeps_restartScheduler h (hallowed _ hs.config)).mapError _
  have happly : ∀ k, ∀ task ∈ applyTasks op.server options (s.objects.get k),
      Run.Keeps J task (Ending.Gives fun _ => True) :=
    fun k => keeps_applyTasks h hallowed (hs.objects k)
  refine hconfig.bind fun _ _ => ?_
  refine (op.keeps_replayStage _ (happly .ns)).bind fun _ _ => ?_
  refine (op.keeps_replayStage _ fun task htask => ?_).bind fun _ _ => ?_
  · obtain ⟨k, -, htask⟩ := List.mem_flatMap.mp htask
    exact happly k task htask
  · refine (op.keeps_replayStage _ (keeps_volumeTasks h hallowed (hs.objects .volume))).bind
      fun _ _ => ?_
    exact Attempt.keeps_report _

/-- **A copy** reads from one server and writes to the other. -/
theorem keeps_copyFrom [NumberRange P] (op : Operator σ) {J₀ : σ × List Call → Prop}
    {source : Server σ}
    (hread : source.Keeps J₀ Request.Reads (Request.AnswersSound P))
    (hwrite : op.server.Keeps J (Request.HandsInSound P) (Request.AnswersSound P))
    (hstep : ∀ t, J₀ t → J t) (options : Options) {p : Progress σ}
    (hp : J₀ (Sight.record.see p)) :
    J (Sight.record.see (op.copyFrom source options p).2) := by
  have hcapture := keeps_capture ((Operator.new source).withMaxConcurrency op.maxConcurrency) hread
    (fun _ hr => hr) options fun _ ho => ho
  rw [copyFrom, Attempt.bind_apply]
  generalize ((Operator.new source).withMaxConcurrency op.maxConcurrency).capture options = capture
    at hcapture
  obtain ⟨hsnapshot, hq⟩ := hcapture.apply hp
  cases hresult : (capture p).1 with
  | error e => exact hstep _ hq
  | ok s =>
      have hs := Snapshot.allSound_toReplay (hsnapshot s hresult)
      have hreplayed := op.keeps_replay hwrite (fun _ hr => hr) hs options
      have hreported := hreplayed.bind fun _ _ => Attempt.keeps_report (.copied s.objectCount)
      exact (hreported.apply (hstep _ hq)).2

/-! ### Clearing -/

/-- To delete an object keeps what the request does. -/
theorem keeps_deleteOne (h : server.Keeps J allowed (Request.AnswersSound P)) (k : Kind)
    (name : String) (ns? : Option String) (hdelete : allowed (.delete k name ns?)) :
    Attempt.Keeps J (deleteOne server options k name ns?) fun _ => True := by
  refine Attempt.keeps_andThen (h.ensures_request hdelete)
    fun (answer : Except RequestError Unit) _ => ?_
  cases answer with
  | ok _ => exact Attempt.keeps_pure trivial
  | error e =>
      cases e with
      | notFound m => exact Attempt.keeps_pure trivial
      | disabled | backend m =>
          simp only
          split
          · exact Attempt.keeps_report _
          · exact Attempt.keeps_throw _

/-- To take on deletions keeps what requests that clear do. -/
theorem keeps_spawnDeletions (h : server.Keeps J allowed (Request.AnswersSound P))
    (hallowed : ∀ r : Request, r.Clears → allowed r) {g : TaskGroup σ Unit}
    (hg : TaskGroup.Keeps J (fun _ => True) g) (kinds : List Kind) :
    Attempt.Keeps J (spawnDeletions server options g kinds)
      (TaskGroup.Keeps J fun _ => True) := by
  induction kinds generalizing g with
  | nil => exact Attempt.keeps_pure hg
  | cons k rest ih =>
      refine (keeps_listUserObjects h k (hallowed _ trivial)).bind fun os _ => ?_
      refine Attempt.keeps_andThen (hg.spawnAll ?_) fun g' hg' => ih hg'
      exact List.forall_mem_map.mpr fun o _ =>
        (keeps_deleteOne h k _ _ (hallowed _ trivial)).task

/-- A stage of a clearing keeps what requests that clear do. -/
theorem keeps_clearStage (op : Operator σ) (h : op.server.Keeps J allowed (Request.AnswersSound P))
    (hallowed : ∀ r : Request, r.Clears → allowed r) (stage : Stage) (kinds : List Kind) :
    Attempt.Keeps J (op.clearStage options stage kinds) fun _ => True := by
  refine Attempt.Keeps.mapError ?_ _
  exact (keeps_spawnDeletions h hallowed (TaskGroup.keeps_new J _ _) kinds).bind fun _ hg =>
    keeps_waitUnit hg

/-- **A clearing** keeps what the server keeps. -/
theorem keeps_clear (op : Operator σ) (h : op.server.Keeps J allowed (Request.AnswersSound P))
    (hallowed : ∀ r : Request, r.Clears → allowed r) (options : Options) :
    Attempt.Keeps J (op.clear options) fun _ => True := by
  refine (op.keeps_clearStage h hallowed _ _).bind fun _ _ => ?_
  refine (op.keeps_clearStage h hallowed _ _).bind fun _ _ => ?_
  refine (op.keeps_clearStage h hallowed _ _).bind fun _ _ => ?_
  refine ((keeps_restartScheduler h (hallowed (.restart none) trivial)).mapError _).bind
    fun _ _ => ?_
  exact Attempt.keeps_report _

end Operator

end ClusterSnapshot
