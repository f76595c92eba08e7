import ClusterSnapshot.Proofs.Operation.Replay

/-!
# What a replay asks of a server

Whatever a server answers, each admitted object is handed in by one request, before which the claim
of a bound volume is asked for if it is fully named. A request that fails ends a strict replay,
unless it was to ask for a claim or the scheduler is run by somebody else.

## Main results

* `Server.submission`: the requests that hand in one object.
* `Operator.acts_clusterTasks_record`, `Operator.acts_volumeTasks_record`: **what the tasks of a
  stage do**, as seen with the calls.
* `Operator.handedInStages_replayObjects`: what the stages do, all or up to some point.
-/

namespace ClusterSnapshot

variable {σ : Type} {k : Kind}

/-! ### Calls that end a replay -/

/-- The failure with which a strict replay ends when this call has failed. -/
def Call.fatal? (call : Call) : Option OperationError :=
  match call.request, call.failure? with
  | .apply k d, some e => some (.apply k d.metadata.name e)
  | .restart _, some .disabled => none
  | .restart _, some e => some (.restartScheduler e)
  | _, _ => none

/-- What comes of a call under some options. -/
def Options.verdict (options : Options) (call : Call) : Except OperationError Unit :=
  match call.fatal? with
  | some e => if options.ignoreErrors then .ok () else .error e
  | none => .ok ()

/-! ### The requests that hand in an object -/

/-- The question for the object that is referred to as a claim, if it is fully named. -/
def ObjectReference.lookup? (ref : ObjectReference) : Option Request :=
  match ref.name?, ref.ns? with
  | some name, some ns => some (.get .claim name (some ns))
  | _, _ => none

/-- What is asked for before an object is handed in. -/
def Desired.lookups : (k : Kind) → Desired k → List Request
  | .volume, d => (d.boundRef?.bind ObjectReference.lookup?).toList
  | .pod, _ | .node, _ | .claim, _ | .storageClass, _ | .priorityClass, _ | .ns, _ => []

/-- Only claims are asked for. -/
theorem Desired.mem_lookups {d : Desired k} {r : Request} (h : r ∈ Desired.lookups k d) :
    ∃ name ns?, r = .get .claim name ns? := by
  cases k with
  | volume =>
      rw [lookups, Option.mem_toList, Option.bind_eq_some_iff] at h
      obtain ⟨ref, -, hlookup⟩ := h
      rw [ObjectReference.lookup?] at hlookup
      split at hlookup
      · exact ⟨_, _, (Option.some.inj hlookup).symm⟩
      · cases hlookup
  | pod | node | claim | storageClass | priorityClass | ns => cases h

namespace Server

variable (server : Server σ)

/-- The identity with which a server answers for a claim that is referred to. -/
def claimUid? (ref : ObjectReference) (s : σ) : Option String :=
  match ref.name?, ref.ns? with
  | some name, some ns =>
    let answer : Except RequestError (Stored .claim) :=
      (server.serve (.get .claim name (some ns)) s).1
    answer.toOption.bind (·.metadata.uid?)
  | _, _ => none

/-- The object as it is handed in: a bound volume refers to its claim as the server has it. -/
def prepared : (k : Kind) → Desired k → σ → Desired k
  | .volume, d, s =>
    match d.boundRef? with
    | some ref => d.withClaimUid (server.claimUid? ref s)
    | none => d
  | .pod, d, _ | .node, d, _ | .claim, d, _ | .storageClass, d, _ | .priorityClass, d, _
  | .ns, d, _ => d

/-- **The requests that hand in an object.** -/
def submission (i : Item) (s : σ) : List Request :=
  Desired.lookups i.1 i.2 ++ [.apply i.1 (server.prepared i.1 i.2 s)]

/-- The call by which an object is handed in. -/
def submitted (i : Item) (s : σ) : Call :=
  server.call (.apply i.1 (server.prepared i.1 i.2 s)) (server.after (Desired.lookups i.1 i.2) s)

/-- The requests that hand in objects one after the other. -/
def submissions (server : Server σ) : List Item → σ → List Request
  | [], _ => []
  | i :: rest, s =>
    server.submission i s ++ server.submissions rest (server.after (server.submission i s) s)

/-- To hand in an object, as an act that is seen with the calls. -/
def submitting (options : Options) (i : Item) : Act (σ × List Call) (Ending Unit) :=
  fun t => (Ending.ofExcept (options.verdict (server.submitted i t.1)),
    server.making (server.submission i t.1) t)

variable {server} {options : Options}

/-- Only volumes look anything up. -/
theorem lookups_of_ne (hk : k ≠ .volume) (d : Desired k) : Desired.lookups k d = [] := by
  cases k <;> first | rfl | exact absurd rfl hk

/-- Only volumes are prepared. -/
theorem prepared_of_ne (hk : k ≠ .volume) (d : Desired k) (s : σ) :
    server.prepared k d s = d := by
  cases k <;> first | rfl | exact absurd rfl hk

/-- To submit an item ends with an answer. -/
theorem answers_submitting (i : Item) : TaskGroup.Answers (server.submitting options i) := by
  intro t
  rw [submitting]
  cases options.verdict (server.submitted i t.1) <;> rfl

/-- To submit an item is to look up its claim and then to hand it in. -/
theorem calls_submission (i : Item) (s : σ) :
    server.calls (server.submission i s) s =
      server.calls (Desired.lookups i.1 i.2) s ++ [server.submitted i s] := by
  rw [submission, calls_append]
  rfl

/-- Further items are submitted after the first ones. -/
theorem submissions_append (items items' : List Item) (s : σ) :
    server.submissions (items ++ items') s = server.submissions items s ++
      server.submissions items' (server.after (server.submissions items s) s) := by
  induction items generalizing s with
  | nil => rfl
  | cons i rest ih =>
      simp only [List.cons_append, submissions, ih, after_append, List.append_assoc]

/-- To ask for a claim ends no replay. -/
theorem fatal?_lookups (d : Desired k) {s : σ} {call : Call}
    (h : call ∈ server.calls (Desired.lookups k d) s) : call.fatal? = none := by
  obtain ⟨name, ns?, hget⟩ := Desired.mem_lookups (request_mem_of_mem_calls h)
  rw [Call.fatal?, hget]

/-- What ends a replay while an object is handed in is that it is refused. -/
theorem fatal?_submission (i : Item) (s : σ) :
    (server.calls (server.submission i s) s).findSome? Call.fatal? =
      (server.submitted i s).fatal? := by
  rw [calls_submission, List.findSome?_append,
    List.findSome?_eq_none_iff.mpr fun call h => fatal?_lookups i.2 h]
  simp

/-! ### Objects that are handed in one after the other -/

/-- Items in order make the requests that submit them. -/
theorem inOrder_submitting (items : List Item) (t : σ × List Call) :
    (inOrder (items.map (server.submitting options)) t).2 =
      server.making (server.submissions items t.1) t := by
  induction items generalizing t with
  | nil => simp [inOrder, making, submissions, after, calls]
  | cons i rest ih =>
      rw [List.map_cons, inOrder, ih, submissions, making_append]
      rfl

/-- Lenient options let nothing end a replay. -/
theorem firstFailure?_lenient (h : options.ignoreErrors = true) (items : List Item)
    (t : σ × List Call) :
    TaskGroup.firstFailure? (inOrder (items.map (server.submitting options)) t).1 = none := by
  have hverdict : ∀ call, options.verdict call = .ok () := by
    intro call
    rw [Options.verdict]
    cases call.fatal? with
    | none => rfl
    | some e => simp [h]
  induction items generalizing t with
  | nil => rfl
  | cons i rest ih =>
      rw [List.map_cons, inOrder, TaskGroup.firstFailure?_cons, ih]
      rw [submitting, hverdict]
      rfl

/-- Strict options let the first fatal call end a replay. -/
theorem firstFailure?_strict (h : options.ignoreErrors = false) (items : List Item)
    (t : σ × List Call) :
    TaskGroup.firstFailure? (inOrder (items.map (server.submitting options)) t).1 =
      (server.calls (server.submissions items t.1) t.1).findSome? Call.fatal? := by
  induction items generalizing t with
  | nil => rfl
  | cons i rest ih =>
      rw [submissions, calls_append, List.findSome?_append, fatal?_submission, List.map_cons,
        inOrder, TaskGroup.firstFailure?_cons, ih]
      congr 1
      rw [submitting, Options.verdict]
      cases (server.submitted i t.1).fatal? with
      | none => rfl
      | some e => simp [h, Ending.ofExcept, Ending.failure?]

end Server

/-! ### Tasks -/

namespace Operator

open Server

variable {server : Server σ} {options : Options}

/-- To make a request and go by how it ended. -/
theorem acts_applyOne_record (server : Server σ) (options : Options) (d : Desired k) :
    Run.Acts .record (applyOne server options d).run fun t =>
      (options.verdict (server.call (.apply k d) t.1), server.making [.apply k d] t) := by
  refine Attempt.acts_andThen (Run.acts_request_record server (.apply k d)) ?_
  intro t answer t' hanswer p hp
  obtain ⟨rfl, rfl⟩ := Prod.mk.inj hanswer
  rw [← hp, Options.verdict, Call.fatal?, Server.call]
  generalize hserved : (server.serve (.apply k d) t.1).1 = answer
  cases answer with
  | ok o => rfl
  | error e =>
      simp only
      split <;> rfl

/-- A run that makes no request and gives what is always given. -/
theorem acts_const_record {α : Type} {r : Run σ α} {x : α}
    (hr : ∀ p, (r p).1 = x ∧ Sight.record.see (r p).2 = Sight.record.see p) :
    Run.Acts .record r fun t => (x, server.making [] t) := by
  intro p
  rw [(hr p).1, (hr p).2]
  simp [making, after, calls]

/-- To prepare a volume asks for its claim if it is fully named. -/
theorem acts_rebindClaim_record (server : Server σ) (volume : Desired .volume) :
    Run.Acts .record (rebindClaim server volume) fun t =>
      (server.prepared .volume volume t.1, server.making (Desired.lookups .volume volume) t) := by
  have hrebinding := rebinding_rebindClaim server volume
  simp only [prepared, Desired.lookups]
  generalize rebindClaim server volume = r at hrebinding ⊢
  cases hrebinding with
  | unbound href =>
      simp only [href]
      exact acts_const_record fun _ => ⟨rfl, rfl⟩
  | @unnamed ref event href hunnamed =>
      have hnone : ref.lookup? = none := by
        rw [ObjectReference.lookup?]
        rcases hunnamed with h | h <;> rw [h]
        cases ref.name? <;> rfl
      have huid : ∀ s, server.claimUid? ref s = none := by
        intro s
        rw [claimUid?]
        rcases hunnamed with h | h <;> rw [h]
        cases ref.name? <;> rfl
      simp only [href, huid, Option.bind_some, hnone]
      exact acts_const_record fun _ => ⟨rfl, rfl⟩
  | @named ref claim ns missing href hname hns =>
      simp only [href, claimUid?, Option.bind_some, ObjectReference.lookup?]
      simp only [hname, hns]
      refine (Run.acts_request_record server (.get .claim claim (some ns))).andThen ?_
      intro t answer t' hanswer p hp
      obtain ⟨hserved, rfl⟩ := Prod.mk.inj hanswer
      have hget : (server.serve (.get .claim claim (some ns)) t.1).1 = answer := hserved
      simp only [Option.toList_some, hget]
      cases answer with
      | ok o => exact congrArg _ hp.symm
      | error e => exact congrArg _ hp.symm

/-- The tasks that hand in objects that are no volumes. -/
theorem acts_applyTasks_record (hk : k ≠ .volume) (s : Replay) :
    List.Forall₂ (Run.Acts .record) (applyTasks server options (s.objects.get k))
      ((s.admittedOf k).map (server.submitting options)) := by
  rw [Replay.admittedOf, List.map_map, applyTasks, List.forall₂_map_left_iff,
    List.forall₂_map_right_iff]
  refine List.forall₂_same.mpr fun d _ => ?_
  have hact := (acts_applyOne_record server options d).map Ending.ofExcept
  have heq : Ending.ofExcept <$> (fun t =>
      (options.verdict (server.call (.apply k d) t.1), server.making [.apply k d] t) :
        Act (σ × List Call) _) = server.submitting options ⟨k, d⟩ := by
    funext t
    rw [submitting, submitted, submission]
    simp only [lookups_of_ne hk, prepared_of_ne hk]
    rfl
  rw [heq] at hact
  exact hact

/-- The tasks that hand in volumes. -/
theorem acts_volumeTasks_record (s : Replay) :
    List.Forall₂ (Run.Acts .record) (volumeTasks server options s.objects.volume)
      ((s.admittedOf .volume).map (server.submitting options)) := by
  rw [Replay.admittedOf, List.map_map, volumeTasks, List.forall₂_map_left_iff,
    List.forall₂_map_right_iff]
  refine List.forall₂_same.mpr fun d _ => ?_
  have hact := ((acts_rebindClaim_record server d).bind fun d' =>
    acts_applyOne_record server options d').map Ending.ofExcept
  have heq : Ending.ofExcept <$> ((fun t => (server.prepared .volume d t.1,
        server.making (Desired.lookups .volume d) t) : Act (σ × List Call) _) >>= fun d' t =>
      (options.verdict (server.call (.apply .volume d') t.1),
        server.making [.apply .volume d'] t)) = server.submitting options ⟨.volume, d⟩ := by
    funext t
    rw [submitting, submission, making_append]
    rfl
  rw [heq] at hact
  exact hact

/-- The tasks of kinds other than volumes submit what is admitted of them. -/
theorem acts_clusterTasks_record (s : Replay) {kinds : List Kind} (hkinds : .volume ∉ kinds) :
    List.Forall₂ (Run.Acts .record)
      (kinds.flatMap fun k => applyTasks server options (s.objects.get k))
      ((kinds.flatMap s.admittedOf).map (server.submitting options)) := by
  induction kinds with
  | nil => exact .nil
  | cons k rest ih =>
      obtain ⟨hk, hrest⟩ := not_or.mp (mt List.mem_cons.mpr hkinds)
      rw [List.flatMap_cons, List.flatMap_cons, List.map_append]
      exact List.rel_append (acts_applyTasks_record (Ne.symm hk) s) (ih hrest)

end Operator

/-! ### Stages -/

namespace Server

/-- The first failure that ends a strict replay while objects are handed in one after the other. -/
def refusal? (server : Server σ) (items : List Item) (s : σ) : Option OperationError :=
  (server.calls (server.submissions items s) s).findSome? Call.fatal?

/-- What is seen after objects were handed in one after the other. -/
def handing (server : Server σ) (items : List Item) (t : σ × List Call) : σ × List Call :=
  server.making (server.submissions items t.1) t

/-- Without items nothing is handed in. -/
theorem handing_nil {server : Server σ} (t : σ × List Call) : server.handing [] t = t := by
  rw [handing, submissions, making, calls, List.append_nil]
  rfl

/-- Further items are handed in after the first ones. -/
theorem handing_append {server : Server σ} (items items' : List Item) (t : σ × List Call) :
    server.handing (items ++ items') t = server.handing items' (server.handing items t) := by
  rw [handing, submissions_append, making_append]
  rfl

/-- The first refusal of two parts is that of the first, if it has one. -/
theorem refusal?_append {server : Server σ} (items items' : List Item) (t : σ × List Call) :
    server.refusal? (items ++ items') t.1 =
      (server.refusal? items t.1).or (server.refusal? items' (server.handing items t).1) := by
  rw [refusal?, submissions_append, calls_append, List.findSome?_append]
  rfl

/-- Of some objects so many are handed in: up to the first for which there is a place only when one
has been refused. -/
def HandsInUpTo (server : Server σ) (limit steps : Nat) (s : σ) (items : List Item) (n : Nat) :
    Prop :=
  (∀ m < n, server.refusal? (items.take (ranBefore limit steps m)) s = none) ∧
    (n < items.length → (server.refusal? (items.take (ranBefore limit steps n)) s).isSome = true)

end Server

/-- What a stage has done that was to hand in some objects: all of them, and then it has succeeded,
or those that were taken on before one was refused. -/
inductive HandedIn (server : Server σ) (options : Options) (limit : Nat) (p : Progress σ) :
    List Item → Except OperationError Unit → Progress σ → Prop
  | done {items : List Item} {q : Progress σ} :
    Sight.record.see q = server.handing items (Sight.record.see p) →
    (options.ignoreErrors = false → server.refusal? items p.state = none) →
    q.steps = stepsAfter limit p.steps items.length →
    HandedIn server options limit p items (.ok ()) q
  | failed {taken dropped : List Item} {e : OperationError} {q : Progress σ} :
    options.ignoreErrors = false →
    Sight.record.see q = server.handing taken (Sight.record.see p) →
    server.refusal? taken p.state = some e →
    server.HandsInUpTo limit p.steps p.state (taken ++ dropped) taken.length →
    HandedIn server options limit p (taken ++ dropped) (.error e) q

/-- What stages have done one after the other, up to the first that has failed. -/
inductive HandedInStages (server : Server σ) (options : Options) (limit : Nat) :
    List (Stage × List Item) → Progress σ → Except OperationError Unit → Progress σ → Prop
  | nil {p q : Progress σ} : Sight.record.see q = Sight.record.see p →
    HandedInStages server options limit [] p (.ok ()) q
  | next {stage : Stage} {items : List Item} {rest : List (Stage × List Item)}
    {result : Except OperationError Unit} {p q q' : Progress σ} :
    HandedIn server options limit p items (.ok ()) q →
    HandedInStages server options limit rest q result q' →
    HandedInStages server options limit ((stage, items) :: rest) p result q'
  | stop {stage : Stage} {items : List Item} {rest : List (Stage × List Item)}
    {e : OperationError} {p q : Progress σ} :
    HandedIn server options limit p items (.error e) q →
    HandedInStages server options limit ((stage, items) :: rest) p
      (.error (.replayStage stage e)) q

/-- The objects that are handed in at each stage after the first. -/
def Replay.stages (s : Replay) : List (Stage × List Item) :=
  [(.namespaces, s.admittedOf .ns), (.cluster, Operator.clusterKinds.flatMap s.admittedOf),
    (.volumes, s.admittedOf .volume)]

/-- All that is admitted is handed in at some stage, in order. -/
theorem Replay.flatMap_stages (s : Replay) : s.stages.flatMap (·.2) = s.admitted := by
  simp [stages, admitted, replayOrder]

namespace Operator

variable {op : Operator σ} {options : Options}

/-- **What the group of a stage does.** -/
theorem handedIn_carryOut (limit : Nat) {tasks : List (Run σ (Ending Unit))} {items : List Item}
    (htasks : List.Forall₂ (Run.Acts .record) tasks
      (items.map (op.server.submitting options))) (p : Progress σ) :
    HandedIn op.server options (max 1 limit) p items
      (Except.map (fun _ => ()) (TaskGroup.carryOut limit tasks p).1)
      (TaskGroup.carryOut limit tasks p).2 := by
  have hgroup := TaskGroup.carriedOut_carryOut limit htasks
    (List.forall_mem_map.mpr fun i _ => Server.answers_submitting i) p
  generalize (TaskGroup.carryOut limit tasks p).1 = result,
    (TaskGroup.carryOut limit tasks p).2 = q at hgroup
  generalize hfs : items.map (op.server.submitting options) = fs at hgroup
  cases hgroup with
  | done hsee hnone _ hsteps =>
      rw [← hfs, Server.inOrder_submitting] at hsee
      rw [← hfs] at hnone hsteps
      rw [List.length_map] at hsteps
      exact .done hsee (fun hstrict => (Server.firstFailure?_strict hstrict _ _).symm.trans hnone)
        hsteps
  | @failed taken dropped e _ hsee hfailure hupto =>
      obtain ⟨items', items'', rfl, rfl, rfl⟩ := List.map_eq_append_iff.mp hfs
      rw [Server.inOrder_submitting] at hsee
      have hstrict : options.ignoreErrors = false := by
        by_contra hlenient
        rw [Bool.not_eq_false] at hlenient
        rw [Server.firstFailure?_lenient hlenient] at hfailure
        cases hfailure
      have hrefusal : ∀ l : List Item, TaskGroup.firstFailure? (inOrder
          (l.map (op.server.submitting options)) (Sight.record.see p)).1 =
            op.server.refusal? l p.state :=
        fun l => Server.firstFailure?_strict hstrict l (Sight.record.see p)
      rw [hrefusal] at hfailure
      refine .failed hstrict hsee hfailure ⟨fun m hm => ?_, fun hlt => ?_⟩
      · rw [← hrefusal, List.map_take, List.map_append]
        exact hupto.1 m (by simpa using hm)
      · rw [← hrefusal, List.map_take, List.map_append]
        have hfailed := hupto.2 (by simpa using hlt)
        rwa [List.length_map] at hfailed

/-- One stage after the other. -/
theorem handedInStages_seq (stage : Stage) {tasks : List (Run σ (Ending Unit))}
    {items : List Item} (htasks : List.Forall₂ (Run.Acts .record) tasks
      (items.map (op.server.submitting options)))
    {rest : List (Stage × List Item)} {next : Attempt σ Unit}
    (hnext : ∀ p, HandedInStages op.server options (max 1 op.maxConcurrency) rest p (next p).1
      (next p).2) (p : Progress σ) :
    HandedInStages op.server options (max 1 op.maxConcurrency) ((stage, items) :: rest) p
      ((op.replayStage stage tasks >>= fun _ => next) p).1
      ((op.replayStage stage tasks >>= fun _ => next) p).2 := by
  have hstage := handedIn_carryOut op.maxConcurrency htasks p
  have happly : op.replayStage stage tasks p =
      (Except.mapError (.replayStage stage)
        (Except.map (fun _ => ()) (TaskGroup.carryOut op.maxConcurrency tasks p).1),
        (TaskGroup.carryOut op.maxConcurrency tasks p).2) := by
    change (Except.mapError _ ((ExceptT.mk (TaskGroup.carryOut op.maxConcurrency tasks) >>= fun _ =>
      pure () : Attempt σ Unit) p).1, ((ExceptT.mk (TaskGroup.carryOut op.maxConcurrency tasks) >>=
        fun _ => pure () : Attempt σ Unit) p).2) = _
    rw [Attempt.bind_apply]
    simp only [ExceptT.mk]
    cases (TaskGroup.carryOut op.maxConcurrency tasks p).1 <;> rfl
  rw [Attempt.bind_apply, happly]
  generalize (Except.map (fun _ => ()) (TaskGroup.carryOut op.maxConcurrency tasks p).1) = result,
    (TaskGroup.carryOut op.maxConcurrency tasks p).2 = q at hstage
  cases result with
  | ok x => exact .next hstage (hnext q)
  | error e => exact .stop hstage

/-- The stages of a replay after the first. -/
def replayObjects (op : Operator σ) (s : Replay) (options : Options) : Attempt σ Unit := do
  op.replayStage .namespaces (applyTasks op.server options s.objects.ns)
  op.replayStage .cluster
    (clusterKinds.flatMap fun k => applyTasks op.server options (s.objects.get k))
  op.replayStage .volumes (volumeTasks op.server options s.objects.volume)
  Attempt.report .replayed

/-- A replay begins with the configuration. -/
theorem replay_eq (op : Operator σ) (s : Replay) (options : Options) :
    op.replay s options = op.replayConfig s options >>= fun _ => op.replayObjects s options := rfl

/-- **What a replay does** after its first stage. -/
theorem handedInStages_replayObjects (s : Replay) (options : Options) (p : Progress σ) :
    HandedInStages op.server options (max 1 op.maxConcurrency) s.stages p
      (op.replayObjects s options p).1 (op.replayObjects s options p).2 := by
  refine handedInStages_seq .namespaces (acts_applyTasks_record (by decide) s) (fun p => ?_) p
  refine handedInStages_seq .cluster (acts_clusterTasks_record s (by decide)) (fun p => ?_) p
  refine handedInStages_seq .volumes (acts_volumeTasks_record s) (fun p => ?_) p
  exact HandedInStages.nil (q := (Attempt.report .replayed p).2) rfl

end Operator

/-! ### The whole replay -/

/-- What a replay asks for before it hands in objects. -/
def Replay.configRequests (s : Replay) (ignoreConfig : Bool) : List Request :=
  if ignoreConfig then [] else [.restart s.schedulerConfig?]

/-- What is asked for until some objects have been handed in. -/
def Replay.requestsUpTo (s : Replay) (server : Server σ) (ignoreConfig : Bool) (c : σ)
    (items : List Item) : List Request :=
  s.configRequests ignoreConfig ++
    server.submissions items (server.after (s.configRequests ignoreConfig) c)

/-- The requests up to further items are those before and their submissions. -/
theorem Replay.requestsUpTo_append (s : Replay) (server : Server σ) (ignoreConfig : Bool) (c : σ)
    (items items' : List Item) :
    s.requestsUpTo server ignoreConfig c (items ++ items') =
      s.requestsUpTo server ignoreConfig c items ++
        server.submissions items'
          (server.after (s.requestsUpTo server ignoreConfig c items) c) := by
  rw [requestsUpTo, requestsUpTo, Server.submissions_append, Server.after_append,
    List.append_assoc]

namespace Operator

variable {op : Operator σ} {options : Options} {server : Server σ}

/-- To restart the scheduler is one request, and ends as options judge it. -/
theorem acts_restartScheduler_record (config? : Option Scheduler.Configuration) :
    Run.Acts .record (restartScheduler server options config?).run fun t =>
      (options.verdict (server.call (.restart config?) t.1),
        server.making [.restart config?] t) := by
  refine Attempt.acts_andThen (Run.acts_request_record server (.restart config?)) ?_
  intro t answer t' hanswer p hp
  obtain ⟨rfl, rfl⟩ := Prod.mk.inj hanswer
  rw [← hp, Options.verdict, Call.fatal?, Server.call]
  generalize hserved : (server.serve (.restart config?) t.1).1 = answer
  rcases answer with e | x
  · cases e with
    | disabled => rfl
    | notFound what | backend message =>
        simp only
        split <;> rfl
  · rfl

/-- To restart the scheduler takes no steps. -/
theorem steps_restartScheduler (config? : Option Scheduler.Configuration) (p : Progress σ) :
    (restartScheduler server options config? p).2.steps = p.steps := by
  have hreport := fun e => Run.ensures_steps_report (σ := σ) e p.steps
  have hkeeps : Run.Ensures (fun q => q.steps = p.steps)
      (restartScheduler server options config?).run fun _ => True := by
    refine Attempt.ensures_andThen
      (Run.ensures_steps_request server (.restart config?) p.steps) fun answer _ => ?_
    rcases (answer : Except RequestError Unit) with e | x
    · cases e with
      | disabled => exact hreport _
      | notFound what | backend message =>
          simp only
          split
          · exact hreport _
          · exact Run.ensures_pure trivial
    · exact Run.ensures_pure trivial
  exact (hkeeps p rfl).2

/-- What the first stage of a replay does. -/
theorem replayConfig_record (s : Replay) (options : Options) (p : Progress σ) :
    Sight.record.see (op.replayConfig s options p).2 =
        op.server.making (s.configRequests options.ignoreSchedulerConfig) (Sight.record.see p) ∧
      (op.replayConfig s options p).2.steps = p.steps ∧
      (op.replayConfig s options p).1 =
        match (op.server.calls (s.configRequests options.ignoreSchedulerConfig) p.state).findSome?
            Call.fatal? with
        | some e => if options.ignoreErrors then .ok () else .error (.replayStage .scheduler e)
        | none => .ok () := by
  rw [replayConfig, Replay.configRequests]
  by_cases hignore : options.ignoreSchedulerConfig = true
  · simp only [hignore, ↓reduceIte]
    refine ⟨?_, rfl, rfl⟩
    change Sight.record.see p = _
    simp [Server.making, Server.after, Server.calls]
  · simp only [hignore, Bool.false_eq_true, ↓reduceIte]
    have hact : Run.Acts .record (restartScheduler op.server options s.schedulerConfig?).run _ :=
      acts_restartScheduler_record _
    refine ⟨hact.snd p, steps_restartScheduler _ p, ?_⟩
    refine (congrArg (Except.mapError _) (hact.fst p)).trans ?_
    simp only [Server.calls, List.findSome?_cons, List.findSome?_nil, Options.verdict]
    cases (op.server.call (.restart s.schedulerConfig?) p.state).fatal? with
    | none => rfl
    | some e =>
        simp only
        split <;> rfl

end Operator

/-- Lenient stages all do what they were to do. -/
theorem HandedInStages.of_lenient {server : Server σ} {options : Options} {limit : Nat}
    {stages : List (Stage × List Item)} {result : Except OperationError Unit} {p q : Progress σ}
    (h : HandedInStages server options limit stages p result q)
    (hlenient : options.ignoreErrors = true) :
    result = .ok () ∧ Sight.record.see q =
      server.handing (stages.flatMap (·.2)) (Sight.record.see p) := by
  induction h with
  | nil hsee =>
      exact ⟨rfl, hsee.trans (Server.handing_nil _).symm⟩
  | next hstage _ ih =>
      obtain ⟨hok, hsee⟩ := ih
      cases hstage with
      | done hdone _ _ =>
          rw [List.flatMap_cons, Server.handing_append, ← hdone]
          exact ⟨hok, hsee⟩
  | stop hstage =>
      cases hstage with
      | failed hstrict =>
          rw [hlenient] at hstrict
          cases hstrict

/-- **A lenient replay succeeds and asks for all that it is to ask for.** -/
theorem Operator.replay_lenient (op : Operator σ) (s : Replay) (options : Options)
    (hlenient : options.ignoreErrors = true) (p : Progress σ) :
    (op.replay s options p).1 = .ok () ∧ Sight.record.see (op.replay s options p).2 =
      op.server.making
        (s.requestsUpTo op.server options.ignoreSchedulerConfig p.state s.admitted)
        (Sight.record.see p) := by
  obtain ⟨hsee, -, hresult⟩ := op.replayConfig_record s options p
  have hok : (op.replayConfig s options p).1 = .ok () := by
    rw [hresult]
    split
    · rw [if_pos hlenient]
    · rfl
  obtain ⟨hall, hseeAll⟩ :=
    (op.handedInStages_replayObjects s options (op.replayConfig s options p).2).of_lenient hlenient
  rw [replay_eq, Attempt.bind_apply, hok]
  refine ⟨hall, hseeAll.trans ?_⟩
  rw [s.flatMap_stages, hsee, Replay.requestsUpTo, Server.making_append]
  rfl

end ClusterSnapshot
