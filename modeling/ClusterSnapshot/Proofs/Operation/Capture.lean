import ClusterSnapshot.Operation.Capture
import ClusterSnapshot.Proofs.Operation.Course

/-!
# What a capture brings

Each task of a capture asks one question and fills a place of its own in the snapshot. What is
captured therefore does not depend on the turns in which the tasks ran and their answers came in. It
is what the questions are answered with when they are asked one after the other.

## Main results

* `Snapshot.foldl_receive`: answers may come in any order.
* `Operator.captured_capture`: what a capture does, whatever the server answers.
* `Operator.capture_apply`: **a capture brings the objects of the user and the configuration**.
-/

namespace ClusterSnapshot

open Scheduler (Configuration)

variable {σ α β : Type} {k : Kind}

/-- The objects of a kind that are not reserved. -/
def Cluster.userObjects (c : Cluster) (k : Kind) : List (Stored k) :=
  (c.store.listed k none).filter fun o => !Stored.isExcluded o

/-- The user's part of a cluster. -/
def Cluster.userPart (c : Cluster) (config? : Option Configuration) : Snapshot :=
  ⟨.ofFn c.userObjects, config?⟩

/-! ### Putting a snapshot together -/

/-- The answers of a capture, in the order of its tasks. -/
def answers (objects : ∀ k, List (Stored k)) (config? : Option Configuration) : List Fetched :=
  Kind.all.map (fun k => Fetched.objects k (objects k)) ++ [Fetched.config config?]

/-- What is set for different kinds may be set in any order. -/
theorem ByKind.set_comm {F : Kind → Type} (t : ByKind F) {j k : Kind} (h : j ≠ k) (x : F j)
    (y : F k) : (t.set j x).set k y = (t.set k y).set j x := by
  refine ByKind.ext_get fun i => ?_
  by_cases hj : j = i
  · subst hj
    rw [ByKind.get_set_of_ne _ _ (Ne.symm h), ByKind.get_set_self, ByKind.get_set_self]
  · by_cases hk : k = i
    · subst hk
      rw [ByKind.get_set_self, ByKind.get_set_of_ne _ _ hj, ByKind.get_set_self]
    · rw [ByKind.get_set_of_ne _ _ hk, ByKind.get_set_of_ne _ _ hj, ByKind.get_set_of_ne _ _ hj,
        ByKind.get_set_of_ne _ _ hk]

/-- **Answers may come in any order.** -/
theorem Snapshot.foldl_receive {objects : ∀ k, List (Stored k)} {config? : Option Configuration}
    {fetched : List Fetched} (h : fetched.Perm (answers objects config?)) :
    fetched.foldl Snapshot.receive .empty = ⟨.ofFn objects, config?⟩ := by
  have hcomm : ∀ x ∈ fetched, ∀ y ∈ fetched, ∀ s : Snapshot,
      (s.receive x).receive y = (s.receive y).receive x := by
    intro x hx y hy s
    have hx := h.mem_iff.mp hx
    have hy := h.mem_iff.mp hy
    simp only [answers, List.mem_append, List.mem_map, List.mem_singleton] at hx hy
    rcases hx with ⟨j, -, rfl⟩ | rfl <;> rcases hy with ⟨k, -, rfl⟩ | rfl
    · by_cases hjk : j = k
      · subst hjk
        rfl
      · simp only [Snapshot.receive, ByKind.set_comm _ hjk]
    · rfl
    · rfl
    · rfl
  rw [h.foldl_eq' hcomm]
  rfl

/-! ### Asking questions -/

/-- What comes of the question for the configuration. -/
def Options.configured (options : Options) :
    Except RequestError Configuration → Except OperationError (Option Configuration)
  | .ok config => .ok (some config)
  | .error .disabled => .ok none
  | .error e => if options.ignoreErrors then .ok none else .error (.schedulerConfig e)

/-- The requests of a capture, in order. -/
def captureRequests : List Request := Kind.all.map (Request.list · none) ++ [.getConfig]

namespace Server

variable (server : Server σ)

/-- The answer to the question for the objects of a kind, when a capture begins in a state. -/
def listAnswer (k : Kind) (s : σ) : Except RequestError (List (Stored k)) :=
  (server.serve (.list k none)
    (server.after ((Kind.all.takeWhile (· ≠ k)).map (Request.list · none)) s)).1

/-- The answer to the question for the configuration, when a capture begins in a state. -/
def configAnswer (s : σ) : Except RequestError Configuration :=
  (server.serve .getConfig (server.after (Kind.all.map (Request.list · none)) s)).1

/-- The objects of the user that are listed. -/
def userObjects (s : σ) (k : Kind) : List (Stored k) := userOnly (server.listAnswer k s)

/-- The user's part of what is listed. -/
def userPart (s : σ) : Snapshot := ⟨.ofFn (server.userObjects s), (server.configAnswer s).toOption⟩

/-- What the tasks of a capture end with that begins in a state. -/
def fetchings (options : Options) (s : σ) : List (Ending Fetched) :=
  Kind.all.map (fun k => Ending.ofExcept
      ((options.listed k (server.listAnswer k s)).map (Fetched.objects k))) ++
    [Ending.ofExcept ((options.configured (server.configAnswer s)).map Fetched.config)]

end Server

namespace Operator

variable {server : Server σ} {options : Options}

/-- To ask for the configuration is one request, and gives what options make of the answer. -/
theorem acts_fetchConfig (server : Server σ) (options : Options) :
    Run.Acts .record (fetchConfig server options).run fun t =>
      (options.configured (server.serve .getConfig t.1).1, server.making [.getConfig] t) := by
  refine Attempt.acts_andThen (Run.acts_request_record server .getConfig) ?_
  intro t answer t' hanswer p hp
  obtain ⟨rfl, rfl⟩ := Prod.mk.inj hanswer
  rw [← hp]
  rcases (server.serve .getConfig t.1).1 with e | config
  · cases e with
    | disabled => rfl
    | notFound what | backend message =>
        simp only [Options.configured]
        split <;> rfl
  · rfl

/-- The acts of the tasks of a capture. -/
def captureActs (server : Server σ) (options : Options) :
    List (Act (σ × List Call) (Ending Fetched)) :=
  Kind.all.map (fun k t =>
      (Ending.ofExcept ((options.listed k (server.serve (.list k none) t.1).1).map
        (Fetched.objects k)), server.making [.list k none] t)) ++
    [fun t => (Ending.ofExcept ((options.configured (server.serve .getConfig t.1).1).map
      Fetched.config), server.making [.getConfig] t)]

/-- The tasks of a capture act like their steps. -/
theorem acts_captureTasks (server : Server σ) (options : Options) :
    List.Forall₂ (Run.Acts .record) (captureTasks server options)
      (captureActs server options) := by
  refine List.rel_append ?_ (.cons (Attempt.acts_task (acts_fetchConfig server options) _) .nil)
  rw [List.forall₂_map_left_iff, List.forall₂_map_right_iff]
  exact List.forall₂_same.mpr fun k _ => Attempt.acts_task (acts_listUserObjects server options k) _

/-- Each task of a capture makes one request, and fails if it is ended by it. -/
theorem heeds_captureActs (server : Server σ) (options : Options) :
    List.Forall₂ (options.Heeds server fun calls call => calls ++ [call])
      (captureActs server options) captureRequests := by
  have hnever : ∀ r : Except OperationError Fetched, (Ending.ofExcept r).lateFailure? = none :=
    fun r => by cases r <;> rfl
  refine List.rel_append ?_ (.cons ⟨fun _ => rfl, fun t => ?_, fun t => hnever _⟩ .nil)
  · rw [List.forall₂_map_left_iff, List.forall₂_map_right_iff]
    refine List.forall₂_same.mpr fun k _ => ⟨fun _ => rfl, fun t => ?_, fun t => hnever _⟩
    simp only [Server.call, Options.ruling]
    cases (server.serve (.list k none) t.1).1 with
    | ok items => simp [Options.listed, Call.stops?, Call.fatal?, Ending.ofExcept, Except.map,
        Ending.failure?]
    | error e =>
        cases h : options.ignoreErrors <;>
          simp [Options.listed, Call.stops?, h, Ending.ofExcept, Except.map, Ending.failure?]
  · simp only [Server.call, Options.ruling]
    rcases (server.serve .getConfig t.1).1 with e | config
    · cases e <;> cases h : options.ignoreErrors <;>
        simp [Options.configured, Call.stops?, h, Ending.ofExcept, Except.map, Ending.failure?]
    · simp [Options.configured, Call.stops?, Call.fatal?, Ending.ofExcept, Except.map,
        Ending.failure?]

/-- The tasks of a capture end with what their questions are answered with. -/
theorem inOrder_captureActs (server : Server σ) (options : Options) (t : σ × List Call) :
    (inOrder (captureActs server options) t).1 = server.fetchings options t.1 := rfl

end Operator

/-! ### Whole captures -/

namespace Options

variable {options : Options}

/-- What comes of a list, unless that ends the capture. -/
theorem listed_of_failure?_eq_none {α : Type} {answer : Except RequestError (List (Stored k))}
    {f : List (Stored k) → α}
    (h : (Ending.ofExcept ((options.listed k answer).map f)).failure? = none) :
    options.listed k answer = .ok (userOnly answer) := by
  obtain hlisted | ⟨e, -, -, herror⟩ := options.listed_cases answer
  · exact hlisted
  · rw [herror] at h
    cases h

/-- What comes of the question for the configuration, unless that ends the capture. -/
theorem configured_of_failure?_eq_none {α : Type} {answer : Except RequestError Configuration}
    {f : Option Configuration → α}
    (h : (Ending.ofExcept ((options.configured answer).map f)).failure? = none) :
    options.configured answer = .ok answer.toOption := by
  rcases answer with e | config
  · cases e with
    | disabled => rfl
    | notFound what | backend message =>
        rw [configured] at h ⊢
        · split at h <;> rename_i hlenient
          · rw [if_pos hlenient]
            rfl
          · cases h
        · nofun
        · nofun
  · rfl

end Options

/-- When no task of a capture fails, each brings its answer. -/
theorem Server.outputsOf_fetchings {server : Server σ} {options : Options} {s : σ}
    (h : TaskGroup.firstFailure? (server.fetchings options s) = none) :
    TaskGroup.outputsOf (server.fetchings options s) =
      answers (server.userObjects s) (server.configAnswer s).toOption := by
  have hnone := List.findSome?_eq_none_iff.mp h
  have hlisted : ∀ k, options.listed k (server.listAnswer k s) = .ok (server.userObjects s k) :=
    fun k => Options.listed_of_failure?_eq_none
      (hnone _ (List.mem_append_left _ (List.mem_map_of_mem k.mem_all)))
  have hconfigured : options.configured (server.configAnswer s) =
      .ok (server.configAnswer s).toOption :=
    Options.configured_of_failure?_eq_none
      (hnone _ (List.mem_append_right _ (List.mem_singleton_self _)))
  rw [fetchings, hconfigured]
  simp only [hlisted]
  rfl

namespace Operator

/-- The snapshot with its pods decorated. -/
def decorated (op : Operator σ) (s : Snapshot) : Snapshot :=
  { s with objects := s.objects.set .pod (s.objects.pod.map op.decorate) }

/-- **What a capture has done**: it has asked all its questions and has what they were answered
with, or it is strict and has been halted. -/
inductive Captured (op : Operator σ) (options : Options) (p : Progress σ) :
    Except OperationError Snapshot × Progress σ → Prop
  | done {q : Progress σ} :
    Sight.record.see q = op.server.making captureRequests (Sight.record.see p) →
    TaskGroup.firstFailure? (op.server.fetchings options p.state) = none →
    Captured op options p (.ok (op.decorated (op.server.userPart p.state)), q)
  | stopped {e : OperationError} {q : Progress σ} : options.ignoreErrors = false →
    Halted q.calls →
    (op.server.calls captureRequests p.state).findSome? Call.stops? = some e →
    TaskGroup.firstFailure? (op.server.fetchings options p.state) = some e →
    Captured op options p (.error e, q)

/-- **What a capture does**, whatever the server answers. -/
theorem captured_capture (op : Operator σ) (options : Options) (p : Progress σ) :
    op.Captured options p (op.capture options p) := by
  have hmade := TaskGroup.made_carryOut op.maxConcurrency (acts_captureTasks op.server options)
    (heeds_captureActs op.server options) p
  rw [capture, Attempt.carryOut_bind, Attempt.bind_apply]
  simp only [ExceptT.mk]
  generalize (TaskGroup.carryOut op.maxConcurrency (captureTasks op.server options) p).1 = result,
    (TaskGroup.carryOut op.maxConcurrency (captureTasks op.server options) p).2 = q at hmade
  cases hmade with
  | done hsee hnone houtputs =>
      rw [inOrder_captureActs] at hnone houtputs
      rw [Server.outputsOf_fetchings hnone] at houtputs
      let s := op.decorated (op.server.userPart p.state)
      have hdone : op.Captured options p
          (.ok s, (Attempt.report (.captured s.counts s.schedulerConfig?.isSome) q).2) :=
        .done hsee hnone
      simp only [Snapshot.foldl_receive houtputs]
      exact hdone
  | stopped hstrict hhalted hstops hfailure =>
      rw [inOrder_captureActs] at hfailure
      exact .stopped hstrict hhalted hstops hfailure

end Operator

/-! ### Clusters that are captured -/

/-- A server that answers as a cluster does and is not changed by it. -/
structure Server.Reads (server : Server σ) (external : Bool) (c : Cluster) (s : σ) : Prop where
  list : ∀ k, server.serve (.list k none) s = (c.serveList k none, s)
  config : server.serve .getConfig s = (c.serveConfig external, s)

/-- A cluster is read as it is. -/
theorem Cluster.reads_self (name : String) (external : Bool) (c : Cluster) :
    (Cluster.server name external).Reads external c c :=
  ⟨fun _ => rfl, rfl⟩

/-- A cluster that is part of something else is read as it is. -/
theorem Cluster.reads_within {part : Part σ Cluster} (h : part.Lawful) (name : String)
    (external : Bool) (s : σ) :
    ((Cluster.server name external).within part).Reads external (part.get s) s := by
  refine ⟨fun k => ?_, ?_⟩
  · exact congrArg (((part.get s).serveList k none), ·) (h.set_get s)
  · exact congrArg (((part.get s).serveConfig external), ·) (h.set_get s)

/-- What a cluster is asked for does not change it. -/
theorem Server.Reads.after {server : Server σ} {external : Bool} {c : Cluster} {s : σ}
    (h : server.Reads external c s) (kinds : List Kind) :
    server.after (kinds.map (Request.list · none)) s = s := by
  induction kinds with
  | nil => rfl
  | cons k rest ih =>
      rw [List.map_cons, Server.after, List.foldl_cons, h.list k]
      exact ih

namespace Operator

variable {op : Operator σ} {P : Number → Prop} {c : Cluster} {s : σ} {config : Configuration}
  {external : Bool}

/-- When a cluster can be read, its objects are listed as they are. -/
theorem answers_of_reads (hreads : op.server.Reads external c s) (hc : c.store.Readable) :
    (∀ k, op.server.listAnswer k s = .ok (c.store.listed k none)) ∧
      op.server.configAnswer s = c.serveConfig external := by
  refine ⟨fun k => ?_, ?_⟩
  · rw [Server.listAnswer, hreads.after, hreads.list k, Cluster.serveList, Store.list_eq hc]
    rfl
  · rw [Server.configAnswer, hreads.after, hreads.config]

/-- **A capture brings the objects of the user** and the configuration, unless somebody else runs
the scheduler, and changes nothing. -/
theorem capture_reads (hreads : op.server.Reads external c s) (hc : c.store.Readable)
    (hconfig : ∀ e, c.serveConfig external = .error e → e = .disabled) (options : Options)
    {p : Progress σ} (hp : p.state = s) :
    (op.capture options p).1 =
        .ok (op.decorated (c.userPart (c.serveConfig external).toOption)) ∧
      (op.capture options p).2.state = s := by
  subst hp
  obtain ⟨hlist, hget⟩ := answers_of_reads hreads hc
  have hpart : op.server.userPart p.state = c.userPart (c.serveConfig external).toOption := by
    have hobjects : op.server.userObjects p.state = c.userObjects := by
      funext k
      rw [Server.userObjects, hlist]
      rfl
    rw [Server.userPart, hobjects, hget]
    rfl
  have hcaptured := op.captured_capture options p
  generalize op.capture options p = done at hcaptured
  cases hcaptured with
  | @done q hsee _ =>
      refine ⟨congrArg Except.ok (congrArg op.decorated hpart), ?_⟩
      have hstate : q.state = op.server.after captureRequests p.state := congrArg Prod.fst hsee
      rw [hstate, captureRequests, Server.after_append, hreads.after, Server.after,
        List.foldl_cons, hreads.config]
      rfl
  | stopped _ _ _ hfailure =>
      simp only [Server.fetchings, hlist, hget] at hfailure
      cases hserve : c.serveConfig external with
      | ok config => rw [hserve] at hfailure; cases hfailure
      | error e =>
          obtain rfl := hconfig e hserve
          rw [hserve] at hfailure
          cases hfailure

/-- A capture of a well formed cluster whose scheduler nobody else runs. -/
theorem capture_apply (hreads : op.server.Reads false c s) (hc : c.WellFormed P)
    (hconfig : c.store.activeConfig = .ok config) (options : Options) {p : Progress σ}
    (hp : p.state = s) :
    (op.capture options p).1 = .ok (op.decorated (c.userPart (some config))) ∧
      (op.capture options p).2.state = s := by
  have hserve : c.serveConfig false = .ok config := by
    rw [Cluster.serveConfig, hconfig]
    rfl
  have hnone : ∀ e, c.serveConfig false = .error e → e = .disabled := by
    intro e he
    rw [hserve] at he
    cases he
  have hcaptured := capture_reads hreads hc.readable hnone options hp
  rw [hserve] at hcaptured
  exact hcaptured

end Operator

end ClusterSnapshot
