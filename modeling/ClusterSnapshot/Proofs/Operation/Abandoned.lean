import ClusterSnapshot.Proofs.Operation.Attempted

/-!
# Removals that are given up

A stage of a clearing takes removals on as its kinds are listed, and in the end waits for them. But
if a kind cannot be listed, strict options end the stage at once. It does not wait then, and the
removals that are still in the queue are given up, although the group has taken them on. Which these
are depends on the turns, and so on how many tasks may be under way.

## Main results

* `TaskGroup.Counted`: how many tasks are in the queue, told by how many were taken on.
* `Operator.clearStage_ends`: how a stage of a clearing ends.
* `Operator.abandons_iff`: **when a clearing gives up removals that it has taken on**.
-/

namespace ClusterSnapshot

variable {σ α ι : Type} {k : Kind}

/-! ### What is taken on -/

namespace TaskGroup

/-- The labels of the tasks that a group takes on when these are offered to it in order. -/
def takenOf (g : TaskGroup σ α) : List (ι × Run σ (Ending α)) → Progress σ → List ι
  | [], _ => []
  | (i, task) :: rest, p =>
    (if g.dispatched < (g.spawn task p).1.dispatched then [i] else []) ++
      (g.spawn task p).1.takenOf rest (g.spawn task p).2

/-- A task that is taken on is counted. -/
theorem dispatched_spawn (g : TaskGroup σ α) (task : Run σ (Ending α)) (p : Progress σ) :
    g.dispatched < (g.spawn task p).1.dispatched ↔
      ¬ (g.spawn task p).1.failure?.isSome = true := by
  by_cases hfailed : g.failure?.isSome = true
  · rw [TaskGroup.spawn, if_pos hfailed]
    exact iff_of_false (lt_irrefl g.dispatched) (not_not_intro hfailed)
  · obtain ⟨-, hdispatched⟩ := g.atPlace_fixed p
    rw [spawn_eq g task p hfailed]
    split <;> rename_i hplace
    · exact iff_of_false hdispatched.not_gt (not_not_intro hplace)
    · refine iff_of_true ?_ hplace
      simp only
      omega

end TaskGroup

namespace Operator

/-- The removals of some objects, each with the address of its object. -/
def deletions (server : Server σ) (options : Options) (items : List (Stored k)) :
    List (Address × Run σ (Ending Unit)) :=
  items.map fun o =>
    (o.address, Attempt.task (deleteOne server options k o.metadata.name o.metadata.ns?))

/-- A task is made for every object that is to be deleted. -/
theorem tasks_deletions (server : Server σ) (options : Options) (items : List (Stored k)) :
    (deletions server options items).map (·.2) = items.map fun o =>
      Attempt.task (deleteOne server options k o.metadata.name o.metadata.ns?) :=
  List.map_map

/-- **The removals that are taken on** when some kinds are listed and cleared. -/
def dispatched (server : Server σ) (options : Options) (g : TaskGroup σ Unit) :
    List Kind → Progress σ → List Address
  | [], _ => []
  | k :: rest, p =>
    let listed := listUserObjects server options k p
    (listed.1.toOption.map fun items =>
      let offered := deletions server options items
      let spawned := g.spawnAll (offered.map (·.2)) listed.2
      g.takenOf offered listed.2 ++ dispatched server options spawned.1 rest spawned.2).getD []

/-- The removals that a stage of a clearing takes on. -/
def dispatchedIn (op : Operator σ) (options : Options) (kinds : List Kind) (p : Progress σ) :
    List Address :=
  dispatched op.server options (.new op.maxConcurrency) kinds p

/-- The removals that stages of a clearing take on, up to the first that fails. -/
def dispatchedBy (op : Operator σ) (options : Options) :
    List (Stage × List Kind) → Progress σ → List Address
  | [], _ => []
  | (stage, kinds) :: rest, p =>
    op.dispatchedIn options kinds p ++
      if (op.clearStage options stage kinds p).1.isOk then
        op.dispatchedBy options rest (op.clearStage options stage kinds p).2
      else []

/-- The stages of a clearing that remove something. -/
def clearStages : List (Stage × List Kind) :=
  [(.volumes, [.volume]), (.cluster, clearedKinds), (.namespaces, [.ns])]

end Operator

/-- The removals that a run has made so far. -/
def Progress.removed (p : Progress σ) : List Address :=
  p.calls.filterMap fun call => call.request.removed?

/-! ### Tasks in the queue -/

namespace TaskGroup

variable {limit steps n : Nat} {g : TaskGroup σ α} {p q : Progress σ}

/-- **How many tasks are in the queue** of a group that has taken on `n`: as many as the numbers
say, and if a task has failed, those that had not run when there was a place for another one. -/
inductive Counted (limit steps n : Nat) (g : TaskGroup σ α) (p : Progress σ) : Prop
  | going : g.limit = limit → g.failure? = none → g.load p = Load.afterTaking limit steps n →
    Counted limit steps n g p
  | stopped : g.failure?.isSome = true → g.queue.length = n - ranBefore limit steps n →
    Counted limit steps n g p

/-- A new group has all its tasks accounted for. -/
theorem counted_new (limit : Nat) (p : Progress σ) :
    Counted (max 1 limit) p.steps 0 (.new limit : TaskGroup σ α) p :=
  .going rfl rfl rfl

/-- What does not take steps does not change the numbers. -/
theorem Counted.congr (h : Counted limit steps n g p) (hsteps : q.steps = p.steps) :
    Counted limit steps n g q := by
  cases h with
  | going hlimit hnone hload =>
      refine .going hlimit hnone ?_
      rw [← hload, load, load, hsteps]
  | stopped hfailed hlength => exact .stopped hfailed hlength

/-- When another task was offered. -/
theorem Counted.spawn (h : Counted limit steps n g p) (task : Run σ (Ending α)) :
    Counted limit steps (if (g.spawn task p).1.failure?.isSome then n else n + 1)
      (g.spawn task p).1 (g.spawn task p).2 := by
  cases h with
  | stopped hfailed hlength =>
      rw [TaskGroup.spawn, if_pos hfailed]
      change Counted limit steps (if g.failure?.isSome = true then n else n + 1) g p
      rw [if_pos hfailed]
      exact .stopped hfailed hlength
  | going hlimit hnone hload =>
      have hplace := g.load_atPlace p
      rw [hload, hlimit] at hplace
      rw [spawn_eq g task p (by simp [hnone])]
      split <;> rename_i hfailed
      · refine .stopped hfailed ?_
        have hwaiting := congrArg Load.waiting hplace
        rwa [waiting_atPlace] at hwaiting
      · refine .going ((g.atPlace_fixed p).1.trans hlimit) (by simpa using hfailed) ?_
        rw [Load.afterTaking_succ, Load.take, ← hplace]
        simp [load]

/-- **There are tasks in the queue** if any were taken on, unless one has failed: then all may have
run. -/
theorem Counted.queue_ne_nil_iff (h : Counted limit steps n g p) :
    g.queue ≠ [] ↔ 0 < n ∧ (g.failure?.isSome = true → ranBefore limit steps n < n) := by
  rw [← List.length_pos_iff]
  cases h with
  | going _ hnone hload =>
      have hlength : g.queue.length = (Load.afterTaking limit steps n).waiting :=
        congrArg Load.waiting hload
      rw [hlength, hnone]
      cases n with
      | zero => exact iff_of_false (lt_irrefl 0) fun h => lt_irrefl 0 h.1
      | succ n =>
          rw [Load.afterTaking_succ]
          exact iff_of_true (Nat.succ_pos _) ⟨Nat.succ_pos n, fun h => Bool.noConfusion h⟩
  | stopped hfailed hlength =>
      rw [hlength]
      constructor
      · intro hpos
        exact ⟨by omega, fun _ => by omega⟩
      · rintro ⟨-, hran⟩
        have := hran hfailed
        omega

end TaskGroup

/-! ### A stage that takes removals on -/

/-- What is owed are the removals that were taken on. The first removal that fails is to blame. -/
def Ledger.ofDispatched (options : Options) : Ledger σ (List Address) Address where
  owes dispatched waiting p := p.removed ++ waiting = dispatched
  blame p := (p.calls.filter Call.removes).findSome? fun call => options.ruling call.stops?
  owes_steps _ h := h
  blame_steps _ _ := rfl

namespace Operator

variable {server : Server σ} {options : Options} {limit steps : Nat} {before taken : List Address}
  {g : TaskGroup σ Unit} {p q : Progress σ}

/-- A removal that is made is no longer owed. -/
theorem keptBy_deletion (server : Server σ) (o : Stored k) : (Ledger.ofDispatched options).KeptBy
    (Attempt.task (deleteOne server options k o.metadata.name o.metadata.ns?)) o.address := by
  intro made rest p howes
  have hact := acts_deleteOne_record server options o
  have hcalls := congrArg Prod.snd (hact.snd p)
  have hending := hact.fst p
  change p.removed ++ o.address :: rest = made at howes
  generalize Attempt.task (deleteOne server options k o.metadata.name o.metadata.ns?) p = done
    at hcalls hending
  change done.2.calls = p.calls ++ [server.call o.address.removal p.state] at hcalls
  change done.1 = (options.ruling (server.call o.address.removal p.state).stops?).elim (.done ())
    .failed at hending
  refine ⟨?_, ?_, ?_⟩
  · change done.2.removed ++ rest = made
    rw [Progress.removed, hcalls, List.filterMap_append, List.append_assoc]
    exact howes
  · have hremoves : (server.call o.address.removal p.state).removes = true := rfl
    change (done.2.calls.filter Call.removes).findSome? _ = _
    rw [hcalls, List.filter_append, List.filter_cons_of_pos hremoves, List.filter_nil,
      List.findSome?_append, List.findSome?_singleton, hending]
    cases options.ruling (server.call o.address.removal p.state).stops? <;> rfl
  · rw [hending]
    cases options.ruling (server.call o.address.removal p.state).stops? <;> rfl

/-- The failure that is to blame is that of a removal. -/
theorem blame_eq_delete {e : OperationError}
    (h : (Ledger.ofDispatched options).blame p = some e) : ∃ k name e', e = .delete k name e' := by
  obtain ⟨call, hcall, hruling⟩ := List.exists_of_findSome?_eq_some h
  obtain ⟨-, hremoves⟩ := List.mem_filter.mp hcall
  obtain ⟨cluster, r, failure?⟩ := call
  rw [Options.ruling] at hruling
  split at hruling
  · cases hruling
  · cases r with
    | delete k name ns? =>
        cases failure? with
        | none => cases hruling
        | some e' =>
            cases e' with
            | notFound what => cases hruling
            | disabled | backend message => exact ⟨k, name, _, (Option.some.inj hruling).symm⟩
    | list k ns? | get k name ns? | apply k d | getConfig | restart config? => cases hremoves

/-- With strict options a removal is to blame if one has failed. -/
theorem isSome_blame (hstrict : options.ignoreErrors = false) :
    ((Ledger.ofDispatched options).blame p).isSome = true ↔
      ∃ call ∈ p.calls, call.removes = true ∧ call.stops?.isSome = true := by
  have hruling : ∀ failure? : Option OperationError, options.ruling failure? = failure? :=
    fun failure? => if_neg (Bool.eq_false_iff.mp hstrict)
  simp only [Ledger.ofDispatched, hruling, List.findSome?_isSome_iff, List.mem_filter, and_assoc]

/-- **A group that has taken removals on** in a stage that began when some had been made. -/
structure Dispatching (options : Options) (limit steps : Nat) (before taken : List Address)
    (g : TaskGroup σ Unit) (p : Progress σ) : Prop where
  owing : TaskGroup.Owing (Ledger.ofDispatched options) (before ++ taken) [] g p
  counted : TaskGroup.Counted limit steps taken.length g p

/-- A new group has taken nothing on. -/
theorem dispatching_new (limit : Nat) (hblame : (Ledger.ofDispatched options).blame p = none) :
    Dispatching options (max 1 limit) p.steps p.removed [] (.new limit) p :=
  ⟨TaskGroup.owing_new limit rfl hblame, TaskGroup.counted_new limit p⟩

/-- When another removal was offered. -/
theorem Dispatching.spawn (h : Dispatching options limit steps before taken g p)
    (server : Server σ) (o : Stored k) :
    let task := Attempt.task (deleteOne server options k o.metadata.name o.metadata.ns?)
    Dispatching options limit steps before
      (taken ++ if g.dispatched < (g.spawn task p).1.dispatched then [o.address] else [])
      (g.spawn task p).1 (g.spawn task p).2 := by
  intro task
  have hpromised : TaskGroup.Owing (Ledger.ofDispatched options)
      (before ++ (taken ++ [o.address])) [o.address] g p := by
    refine h.owing.promise (fun owed howes => ?_) rfl
    change p.removed ++ (owed ++ []) = before ++ taken at howes
    change p.removed ++ (owed ++ [o.address]) = _
    rw [List.append_nil] at howes
    rw [← List.append_assoc, howes, List.append_assoc]
  have hoffered := hpromised.spawn (keptBy_deletion server o)
  have hcounted := h.counted.spawn task
  have hdispatched := g.dispatched_spawn task p
  by_cases hfailed : (g.spawn task p).1.failure?.isSome = true
  · rw [if_pos hfailed] at hoffered hcounted
    rw [if_neg (mt hdispatched.mp (not_not_intro hfailed)), List.append_nil]
    -- The promise is taken back.
    refine ⟨hoffered.promise (fun owed howes => ?_) rfl, hcounted⟩
    change Progress.removed _ ++ (owed ++ [o.address]) = _ at howes
    change Progress.removed _ ++ (owed ++ []) = _
    rw [← List.append_assoc, ← List.append_assoc] at howes
    rw [List.append_nil]
    exact List.append_cancel_right howes
  · rw [if_neg hfailed] at hoffered hcounted
    rw [if_pos (hdispatched.mpr hfailed)]
    refine ⟨hoffered, ?_⟩
    rwa [List.length_append]

/-- When the removals of some objects were offered. -/
theorem Dispatching.spawnAll (h : Dispatching options limit steps before taken g p)
    (server : Server σ) (items : List (Stored k)) :
    Dispatching options limit steps before
      (taken ++ g.takenOf (deletions server options items) p)
      (g.spawnAll ((deletions server options items).map (·.2)) p).1
      (g.spawnAll ((deletions server options items).map (·.2)) p).2 := by
  induction items generalizing taken g p with
  | nil =>
      change Dispatching options limit steps before (taken ++ []) g p
      rwa [List.append_nil]
  | cons o rest ih =>
      have hrest := ih (h.spawn server o)
      rw [List.append_assoc] at hrest
      exact hrest

/-- To list removes nothing and takes no steps. -/
theorem Dispatching.list (h : Dispatching options limit steps before taken g p)
    (server : Server σ) (k : Kind) :
    Dispatching options limit steps before taken g (listUserObjects server options k p).2 := by
  have hsee := (acts_listUserObjects server options k).snd p
  have hcalls : (listUserObjects server options k p).2.calls =
      p.calls ++ [server.call (.list k none) p.state] := congrArg Prod.snd hsee
  refine ⟨h.owing.promise (fun owed howes => ?_) ?_,
    h.counted.congr (steps_listUserObjects server options k p)⟩
  · change Progress.removed _ ++ _ = _
    rw [Progress.removed, hcalls, List.filterMap_append]
    exact (congrArg (· ++ _) (List.append_nil _)).trans howes
  · change List.findSome? _ (List.filter _ _) = _
    rw [hcalls, List.filter_append]
    exact congrArg (List.findSome? _) (List.append_nil _)

/-- **When kinds have been listed**, the group has taken their removals on; if that is not to the
end, it is because one could not be listed. -/
theorem Dispatching.spawnDeletions (h : Dispatching options limit steps before taken g p)
    (server : Server σ) (kinds : List Kind) :
    ∃ g', Dispatching options limit steps before (taken ++ dispatched server options g kinds p) g'
        (Operator.spawnDeletions server options g kinds p).2 ∧
      ((Operator.spawnDeletions server options g kinds p).1 = .ok g' ∨
        ∃ k e, options.ignoreErrors = false ∧
          (Operator.spawnDeletions server options g kinds p).1 = .error (.list k e)) := by
  induction kinds generalizing taken g p with
  | nil =>
      refine ⟨g, ?_, .inl rfl⟩
      change Dispatching options limit steps before (taken ++ []) g p
      rwa [List.append_nil]
  | cons k rest ih =>
      have hlisted : (listUserObjects server options k p).1 =
          options.listed k (server.serve (.list k none) p.state).1 :=
        (acts_listUserObjects server options k).fst p
      have hasked := h.list server k
      rw [dispatched, Operator.spawnDeletions, Attempt.bind_apply]
      rcases options.listed_cases (server.serve (.list k none) p.state).1 with
        hok | ⟨e, hstrict, -, herror⟩
      · rw [hlisted, hok]
        have hspawned := hasked.spawnAll server
          (userOnly (server.serve (.list k none) p.state).1)
        obtain ⟨g', hg', hresult⟩ := ih hspawned
        rw [List.append_assoc] at hg'
        rw [tasks_deletions] at hg' hresult
        refine ⟨g', ?_, hresult⟩
        simp only [Except.toOption, Option.map_some, Option.getD_some, tasks_deletions]
        exact hg'
      · rw [hlisted, herror]
        refine ⟨g, ?_, .inr ⟨k, e, hstrict, rfl⟩⟩
        change Dispatching options limit steps before (taken ++ []) g _
        rwa [List.append_nil]

/-- **Of the removals that were taken on the first ones have been made**, and not all of them if
there are tasks in the queue. -/
theorem Dispatching.removed (h : Dispatching options limit steps before taken g p) :
    p.removed <+: before ++ taken ∧ (p.removed ≠ before ++ taken ↔ 0 < taken.length ∧
      (((Ledger.ofDispatched options).blame p).isSome = true →
        ranBefore limit steps taken.length < taken.length)) := by
  obtain ⟨⟨waiting, hwaiting, howes⟩, hfailure, -⟩ := h.owing
  change p.removed ++ (waiting ++ []) = before ++ taken at howes
  rw [List.append_nil] at howes
  have hqueue : waiting ≠ [] ↔ g.queue ≠ [] := by
    rw [← List.length_pos_iff, ← List.length_pos_iff, hwaiting.length_eq]
  rw [← howes, ← hfailure, ← h.counted.queue_ne_nil_iff, ← hqueue]
  exact ⟨List.prefix_append _ _, not_congr (by simp)⟩

/-! ### Stages and whole clearings -/

/-- **How a stage of a clearing ends** that takes removals on: all of them are made, and it fails if
one of them has failed; or a kind could not be listed, and then some may be in the queue. -/
inductive StageEnd (op : Operator σ) (options : Options) (stage : Stage) (kinds : List Kind)
    (p : Progress σ) : Except OperationError Unit × Progress σ → Prop
  | done {q : Progress σ} : q.removed = p.removed ++ op.dispatchedIn options kinds p →
    (Ledger.ofDispatched options).blame q = none → StageEnd op options stage kinds p (.ok (), q)
  | failed {q : Progress σ} {e : OperationError} :
    q.removed = p.removed ++ op.dispatchedIn options kinds p →
    (Ledger.ofDispatched options).blame q = some e →
    StageEnd op options stage kinds p (.error (.clearStage stage e), q)
  | unlisted {q : Progress σ} {g : TaskGroup σ Unit} {k : Kind} {e : RequestError} :
    options.ignoreErrors = false →
    (Operator.spawnDeletions op.server options (.new op.maxConcurrency) kinds p).1 =
      .error (.list k e) →
    Dispatching options (max 1 op.maxConcurrency) p.steps p.removed
      (op.dispatchedIn options kinds p) g q →
    StageEnd op options stage kinds p (.error (.clearStage stage (.list k e)), q)

/-- How a stage of a clearing ends, of which nothing was reported before. -/
theorem clearStage_ends (op : Operator σ) (options : Options) (stage : Stage) (kinds : List Kind)
    (hblame : (Ledger.ofDispatched options).blame p = none) :
    StageEnd op options stage kinds p (op.clearStage options stage kinds p) := by
  obtain ⟨g, hdispatching, hresult⟩ :=
    (dispatching_new op.maxConcurrency hblame).spawnDeletions op.server kinds
  rw [List.nil_append] at hdispatching
  rcases hresult with hok | ⟨k, e, hstrict, herror⟩
  · obtain ⟨howes, outputs, hwaited⟩ := hdispatching.owing.wait
    have hremoved : _ ++ [] = _ := howes
    rw [List.append_nil] at hremoved
    rw [clearStage_of_spawned stage (Prod.ext hok rfl), hwaited]
    cases hfailed : (Ledger.ofDispatched options).blame (g.wait
        (Operator.spawnDeletions op.server options (.new op.maxConcurrency) kinds p).2).2 with
    | none => exact .done hremoved hfailed
    | some e => exact .failed hremoved hfailed
  · have hstage : op.clearStage options stage kinds p = (.error (.clearStage stage (.list k e)),
        (Operator.spawnDeletions op.server options (.new op.maxConcurrency) kinds p).2) := by
      rw [clearStage, Attempt.mapError_apply, Attempt.bind_apply, herror]
      rfl
    rw [hstage]
    exact .unlisted hstrict herror hdispatching

/-- If the only kind of a stage cannot be listed, nothing has been taken on. -/
theorem dispatchedIn_eq_nil {op : Operator σ} {e : OperationError}
    (h : (Operator.spawnDeletions op.server options (.new op.maxConcurrency) [k] p).1 = .error e) :
    op.dispatchedIn options [k] p = [] := by
  rw [Operator.spawnDeletions, Attempt.bind_apply] at h
  rw [dispatchedIn, dispatched]
  cases hlisted : (listUserObjects op.server options k p).1 with
  | ok items =>
      rw [hlisted] at h
      cases h
  | error e => rfl

/-- A stage of one kind makes all the removals that it has taken on. -/
theorem StageEnd.removed_of_single {op : Operator σ} {stage : Stage}
    {done : Except OperationError Unit × Progress σ} (h : StageEnd op options stage [k] p done) :
    done.2.removed = p.removed ++ op.dispatchedIn options [k] p := by
  cases h with
  | done hremoved _ | failed hremoved _ => exact hremoved
  | unlisted _ herror hdispatching =>
      rw [dispatchedIn_eq_nil herror] at hdispatching ⊢
      exact not_not.mp (mt hdispatching.removed.2.mp fun h => lt_irrefl 0 h.1)

/-- What a stage comes to. -/
theorem StageEnd.result {op : Operator σ} {stage : Stage} {kinds : List Kind}
    {done : Except OperationError Unit × Progress σ} (h : StageEnd op options stage kinds p done) :
    (done.1 = .ok () ∧ (Ledger.ofDispatched options).blame done.2 = none) ∨
      ∃ e, done.1 = .error (.clearStage stage e) := by
  cases h with
  | done _ hblame => exact .inl ⟨rfl, hblame⟩
  | failed _ _ | unlisted _ _ _ => exact .inr ⟨_, rfl⟩

/-- Once the other kinds have been cleared, all the removals that are taken on are made. -/
theorem removed_clearNamespaces (op : Operator σ)
    (hblame : (Ledger.ofDispatched options).blame p = none) :
    ∃ result q, (op.clearStage options .namespaces [.ns] >>= fun _ =>
        Attempt.mapError (.clearStage .scheduler) (restartScheduler op.server options none) >>=
          fun _ => Attempt.report .cleared) p = (result, q) ∧
      q.removed = p.removed ++ op.dispatchedBy options [(.namespaces, [.ns])] p ∧
      ∀ e, result ≠ .error (.clearStage .cluster e) := by
  have hend := op.clearStage_ends options .namespaces [.ns] hblame
  have hnamespaces := hend.removed_of_single
  have hresult := hend.result
  rw [dispatchedBy, Attempt.bind_apply]
  generalize op.clearStage options .namespaces [.ns] p = ended at hnamespaces hresult ⊢
  obtain ⟨result, q⟩ := ended
  have htaken : q.removed = p.removed ++ (op.dispatchedIn options [.ns] p ++
      if result.isOk = true then op.dispatchedBy options [] q else []) := by
    rw [dispatchedBy, ite_self, List.append_nil]
    exact hnamespaces
  rcases hresult with ⟨hok, -⟩ | ⟨e, herror⟩
  · obtain rfl : result = .ok () := hok
    have hsee : Sight.record.see (restartScheduler op.server options none q).2 =
        op.server.making [.restart none] (Sight.record.see q) :=
      (acts_restartScheduler_record none).snd q
    simp only
    rw [Attempt.bind_apply, Attempt.mapError_apply]
    generalize restartScheduler op.server options none q = restarted at hsee ⊢
    obtain ⟨result, r⟩ := restarted
    have hcalls : r.calls = q.calls ++ [op.server.call (.restart none) q.state] :=
      congrArg Prod.snd hsee
    have hremoved : r.removed = q.removed := by
      rw [Progress.removed, hcalls, List.filterMap_append]
      exact List.append_nil _
    cases result with
    | ok x => exact ⟨_, _, rfl, hremoved.trans htaken, fun e => by simp⟩
    | error e => exact ⟨_, _, rfl, hremoved.trans htaken, fun e' => by simp⟩
  · obtain rfl : result = .error (.clearStage .namespaces e) := herror
    exact ⟨_, _, rfl, htaken, fun e' => by simp⟩

/-- **How a clearing ends.** All the removals that it has taken on are made, or a kind could not be
listed in the stage that clears several kinds. -/
theorem clear_ends (op : Operator σ) (options : Options) (c : σ)
    {first : Except OperationError Unit} {begun : Progress σ}
    (hfirst : op.clearStage options .volumes [.volume] (Run.start c) = (first, begun)) :
    ((op.clear options (Run.start c)).2.removed =
        op.dispatchedBy options clearStages (Run.start c) ∧
      ∀ k e, (op.clear options (Run.start c)).1 ≠ .error (.clearStage .cluster (.list k e))) ∨
    (options.ignoreErrors = false ∧
      (∃ k e, (op.clear options (Run.start c)).1 = .error (.clearStage .cluster (.list k e))) ∧
      op.dispatchedBy options clearStages (Run.start c) =
        begun.removed ++ op.dispatchedIn options clearedKinds begun ∧
      ∃ g, Dispatching options (max 1 op.maxConcurrency) begun.steps begun.removed
        (op.dispatchedIn options clearedKinds begun) g (op.clear options (Run.start c)).2) := by
  have hend : StageEnd op options .volumes [.volume] (Run.start c) _ :=
    op.clearStage_ends options .volumes [.volume] rfl
  have hbegun := hend.removed_of_single
  have hresult := hend.result
  rw [hfirst] at hbegun hresult
  change begun.removed = [] ++ _ at hbegun
  rw [clearStages, dispatchedBy, clear, Attempt.bind_apply, hfirst]
  rw [List.nil_append] at hbegun
  rw [← hbegun]
  rcases hresult with ⟨hok, hblame⟩ | ⟨e, herror⟩
  · obtain rfl : first = .ok () := hok
    have hsecond := op.clearStage_ends options .cluster clearedKinds hblame
    simp only
    rw [dispatchedBy, Attempt.bind_apply]
    generalize op.clearStage options .cluster clearedKinds begun = ended at hsecond ⊢
    cases hsecond with
    | @done q hremoved hblame =>
        obtain ⟨result, r, hrest, hnamespaces, hother⟩ := op.removed_clearNamespaces hblame
        simp only
        rw [hrest]
        refine .inl ⟨?_, fun k e => hother _⟩
        rw [hnamespaces, hremoved, List.append_assoc]
        rfl
    | @failed q e hremoved hfailed =>
        obtain ⟨k, name, e', rfl⟩ := blame_eq_delete hfailed
        refine .inl ⟨?_, fun k e => by simp⟩
        exact hremoved.trans (congrArg (begun.removed ++ ·) (List.append_nil _).symm)
    | @unlisted q g k e hstrict _ hg =>
        refine .inr ⟨hstrict, ⟨k, e, rfl⟩, ?_, g, hg⟩
        exact congrArg (begun.removed ++ ·) (List.append_nil _)
  · obtain rfl : first = .error (.clearStage .volumes e) := herror
    exact .inl ⟨(List.append_nil _).symm, fun k e' => by simp⟩

/-- **When a clearing gives up removals that it has taken on.** Whatever the server answers, the
removals that a clearing makes are the first of those that it has taken on. They are not all of them
just if the clearing has ended because a kind could not be listed in the stage that clears several
kinds, and in that stage removals have been taken on. If one of them has failed, it also takes that
some of them had not run when there was a place for the next one. -/
theorem abandons_iff (op : Operator σ) (options : Options) (c : σ) :
    let done := op.clear options (Run.start c)
    let taken := op.dispatchedBy options clearStages (Run.start c)
    let begun := (op.clearStage options .volumes [.volume] (Run.start c)).2
    let n := (op.dispatchedIn options clearedKinds begun).length
    done.2.removed <+: taken ∧
      (done.2.removed ≠ taken ↔
        (∃ k e, done.1 = .error (.clearStage .cluster (.list k e))) ∧ 0 < n ∧
          ((∃ call ∈ done.2.calls, call.removes = true ∧ call.stops?.isSome = true) →
            ranBefore (max 1 op.maxConcurrency) begun.steps n < n)) := by
  intro done taken begun n
  rcases op.clear_ends options c rfl with
    ⟨hremoved, hlisted⟩ | ⟨hstrict, hunlisted, htaken, g, hg⟩
  · refine ⟨hremoved ▸ List.prefix_rfl, iff_of_false (not_not_intro hremoved) ?_⟩
    rintro ⟨⟨k, e, herror⟩, -⟩
    exact hlisted k e herror
  · obtain ⟨hfront, hgiven⟩ := hg.removed
    rw [isSome_blame hstrict, ← htaken] at hgiven
    rw [← htaken] at hfront
    exact ⟨hfront, hgiven.trans (and_iff_right hunlisted).symm⟩

/-- Two pods are to be removed, and then nodes cannot be listed. With one task at a time one of the
pods is gone by then, with sixteen none. -/
theorem abandons_pods :
    let fresh : Cluster := ⟨.empty, ⟨toString, 0⟩⟩
    let pods : Cluster := (fresh.afterPut (Desired.plain .pod "db" (some "team"))).afterPut
      (Desired.plain .pod "web" (some "team"))
    let faults : List Fault := [⟨"list", some .node, none, .backend "lost"⟩]
    let op : Nat → Operator Cluster := fun n => ⟨Cluster.faultyServer "target" false faults, n, id⟩
    let removed := fun n => ((op n).clear .strict (Run.start pods)).2.removed
    let taken := fun n => (op n).dispatchedBy .strict clearStages (Run.start pods)
    (removed 1 ≠ taken 1 ∧ removed 1 = [⟨.pod, some "team", "db"⟩]) ∧
      removed 16 ≠ taken 16 ∧ removed 16 = [] := by
  intro fresh pods faults op removed taken
  have hruns : ∀ n ∈ [1, 16],
      let begun := ((op n).clearStage .strict .volumes [.volume] (Run.start pods)).2
      let done := (op n).clear .strict (Run.start pods)
      (done.1 = .error (.clearStage .cluster (.list .node (.backend "lost"))) ∧
        0 < ((op n).dispatchedIn .strict clearedKinds begun).length ∧
        ¬ ∃ call ∈ done.2.calls, call.removes = true ∧ call.stops?.isSome = true) ∧
      removed n = if n = 1 then [⟨.pod, some "team", "db"⟩] else [] := by
    decide +kernel
  have hgiven : ∀ n ∈ [1, 16], removed n ≠ taken n := by
    intro n hn
    obtain ⟨⟨herror, htaken, hnone⟩, -⟩ := hruns n hn
    exact (abandons_iff (op n) .strict pods).2.mpr
      ⟨⟨.node, _, herror⟩, htaken, fun hfailed => absurd hfailed hnone⟩
  exact ⟨⟨hgiven 1 (by decide), (hruns 1 (by decide)).2⟩, hgiven 16 (by decide),
    (hruns 16 (by decide)).2⟩

end Operator

end ClusterSnapshot
