import ClusterSnapshot.Proofs.Operation.Batching
import ClusterSnapshot.Proofs.Operation.Ledger
import ClusterSnapshot.Proofs.Operation.Submission
import ClusterSnapshot.Proofs.Request.Accounts

/-!
# Lenient operations account for what fails

With lenient options no failure ends an operation, and none is passed over in silence: each fault
among the calls is reported as an error, and besides only that a claim is not fully named.

## Main results

* `Attempt.Accounts.bind`, `TaskGroup.accounts_carryOut`: accounts of attempts and of groups.
* `Operator.accounts_capture`, `Operator.accounts_replay`: **lenient captures and replays account
  for their faults**.
-/

namespace ClusterSnapshot

variable {σ α β : Type} {k : Kind}

/-! ### Attempts -/

namespace Attempt

/-- An attempt that succeeds and accounts for its faults, with so many more errors. -/
abbrev Accounts (extra : Nat) (a : Attempt σ α) : Prop :=
  Run.Accounts extra a.run fun result => ∃ x, result = .ok x

variable {a : Attempt σ α} {m n : Nat}

/-- To give a result reports no error. -/
theorem accounts_pure (x : α) : Accounts 0 (pure x : Attempt σ α) := Run.accounts_pure ⟨x, rfl⟩

/-- One attempt after the other. -/
theorem Accounts.bind (h : Accounts m a) {f : α → Attempt σ β} (hf : ∀ x, Accounts n (f x)) :
    Accounts (m + n) (a >>= f) := by
  intro p
  obtain ⟨⟨x, hx⟩, hfirst⟩ := h p
  obtain ⟨hy, hsecond⟩ := hf x (a p).2
  have hnext : (a >>= f) p = f x (a p).2 := by
    change (a p).1 = .ok x at hx
    rw [bind_apply, hx]
  change (∃ y, ((a >>= f) p).1 = .ok y) ∧
    ((a >>= f) p).2.errors + _ = _ + ((a >>= f) p).2.faults + _
  rw [hnext]
  change (a p).2.errors + p.faults = p.errors + (a p).2.faults + m at hfirst
  change (f x (a p).2).2.errors + (a p).2.faults =
    (a p).2.errors + (f x (a p).2).2.faults + n at hsecond
  exact ⟨hy, by omega⟩

/-- A report that is no error counts for nothing. -/
theorem accounts_report {e : Event} (h : e.level ≠ .error) :
    Accounts 0 (Attempt.report e : Attempt σ Unit) :=
  (Run.accounts_report h).map fun x _ => ⟨x, rfl⟩

/-- A report of an error counts for one. -/
theorem accounts_report_error {e : Event} (h : e.level = .error) :
    Accounts 1 (Attempt.report e : Attempt σ Unit) :=
  (Run.accounts_report_error h).map fun x _ => ⟨x, rfl⟩

/-- To report something that is no error changes nothing that counts. -/
theorem report_apply {e : Event} (h : e.level ≠ .error) (p : Progress σ) :
    ∃ q, Attempt.report e p = (.ok (), q) ∧ q.calls = p.calls ∧ q.errors = p.errors := by
  have hcounts := (Run.accounts_report h p).2
  exact ⟨_, rfl, rfl, Nat.add_right_cancel hcounts⟩

/-- Other words for a failure change no count. -/
theorem Accounts.mapError (h : Accounts n a) (f : OperationError → OperationError) :
    Accounts n (a.mapError f) := by
  refine Run.Accounts.map h fun result hresult => ?_
  obtain ⟨x, rfl⟩ := hresult
  exact ⟨x, rfl⟩

/-- A run that is part of an attempt. -/
theorem accounts_andThen {r : Run σ α} {Q : α → Prop} (h : Run.Accounts m r Q)
    {next : α → Attempt σ β} (hnext : ∀ x, Accounts n (next x)) :
    Accounts (m + n) ((r : Attempt σ α) >>= next) :=
  Run.Accounts.bind h fun x _ => hnext x

/-- An attempt that makes a request has to account for the answer. -/
theorem accounts_request_bind (server : Server σ) (r : Request)
    {next : Except RequestError r.Answer → Attempt σ α}
    (h : ∀ answer, Accounts (r.faults answer + n) (next answer)) :
    Accounts n ((Run.request server r : Attempt σ _) >>= next) :=
  Run.accounts_request_bind server r h

/-- An attempt as a task of a group. -/
theorem Accounts.task (h : Accounts n a) : Run.Accounts n a.task fun e => ∃ x, e = .done x := by
  refine Run.Accounts.map h fun result hresult => ?_
  obtain ⟨x, rfl⟩ := hresult
  exact ⟨x, rfl⟩

end Attempt

/-! ### Groups -/

/-- What is owed are errors that are still to be reported. -/
def Ledger.ofErrors : Ledger σ (Nat × Nat) Nat :=
  .blameless (fun made owed p => p.errors + owed.sum + made.1 = p.faults + made.2) fun _ h => h

/-- A task that is done keeps account of its errors. -/
theorem Run.Accounts.keptBy {task : Run σ (Ending α)} {n : Nat}
    (h : Run.Accounts n task fun e => ∃ x, e = .done x) : Ledger.ofErrors.KeptBy task n := by
  intro made rest p howes
  obtain ⟨⟨x, hx⟩, hcounts⟩ := h p
  rw [hx]
  refine ⟨?_, rfl, rfl⟩
  change p.errors + (n + rest.sum) + made.1 = p.faults + made.2 at howes
  change (task p).2.errors + rest.sum + made.1 = (task p).2.faults + made.2
  omega

/-- **A group accounts for the faults of its tasks.** -/
theorem TaskGroup.accounts_carryOut (limit : Nat) {tasks : List (Run σ (Ending α))}
    {extras : List Nat} (htasks : List.Forall₂
      (fun task n => Run.Accounts n task fun e => ∃ x, e = .done x) tasks extras) :
    Run.Accounts extras.sum (carryOut limit tasks) fun result =>
      ∃ outputs, result = .ok outputs := by
  intro p
  have hnew : Owing Ledger.ofErrors (p.faults, p.errors + extras.sum) (extras ++ [])
      (.new limit : TaskGroup σ α) p := by
    refine owing_new limit ?_ rfl
    change p.errors + (extras ++ []).sum + p.faults = p.faults + (p.errors + extras.sum)
    rw [List.append_nil]
    omega
  obtain ⟨howes, outputs, hresult⟩ :=
    (hnew.spawnAll (fun _ => rfl) (htasks.imp fun _ _ h => h.keptBy)).wait
  refine ⟨⟨outputs, hresult⟩, ?_⟩
  change (carryOut limit tasks p).2.errors + [].sum + p.faults =
    (carryOut limit tasks p).2.faults + (p.errors + extras.sum) at howes
  rw [List.sum_nil] at howes
  omega

/-- A group whose tasks report no more errors than they have faults. -/
theorem TaskGroup.accounts_carryOut_plain (limit : Nat) {tasks : List (Run σ (Ending α))}
    (htasks : ∀ task ∈ tasks, Run.Accounts 0 task fun e => ∃ x, e = .done x) :
    Run.Accounts 0 (carryOut limit tasks) fun result => ∃ outputs, result = .ok outputs := by
  have hall : List.Forall₂ (fun task n => Run.Accounts n task fun e => ∃ x, e = .done x) tasks
      (tasks.map fun _ => 0) := by
    rw [List.forall₂_map_right_iff]
    exact List.forall₂_same.mpr htasks
  have hsum : (tasks.map fun _ => 0).sum = 0 := by simp
  have haccounts := accounts_carryOut limit hall
  rwa [hsum] at haccounts

/-! ### What the parts of operations account for -/

/-- Whether a volume is bound and names its claim only in part. -/
def Desired.namesClaimInPart (d : Desired .volume) : Bool :=
  d.boundRef?.any fun ref => ref.name?.isNone || ref.ns?.isNone

/-- The number of volumes that are not reserved, are bound and name their claim only in part. -/
def Replay.claimsNamedInPart (s : Replay) : Nat :=
  (s.objects.volume.filter fun d => !Desired.isExcluded d).countP Desired.namesClaimInPart

namespace Operator

variable (server : Server σ) {options : Options}

section Lenient

variable (hlenient : options.ignoreErrors = true)

include hlenient

/-- To list objects reports no error but those of the server. -/
theorem accounts_listUserObjects (k : Kind) :
    Attempt.Accounts 0 (listUserObjects server options k) := by
  refine Attempt.accounts_request_bind server (.list k none)
    fun (answer : Except RequestError (List (Stored k))) => ?_
  cases answer with
  | ok items => exact Attempt.accounts_pure _
  | error e =>
      simp only [hlenient, ↓reduceIte]
      exact (Attempt.accounts_report_error rfl).bind fun _ => Attempt.accounts_pure _

/-- To ask for the configuration reports no error but those of the server. -/
theorem accounts_fetchConfig : Attempt.Accounts 0 (fetchConfig server options) := by
  refine Attempt.accounts_request_bind server .getConfig
    fun (answer : Except RequestError Scheduler.Configuration) => ?_
  rcases answer with e | config
  · cases e with
    | disabled => exact Attempt.accounts_pure none
    | notFound what | backend message =>
        simp only [hlenient, ↓reduceIte]
        exact (Attempt.accounts_report_error rfl).bind fun _ => Attempt.accounts_pure _
  · exact Attempt.accounts_pure (some config)

/-- To restart the scheduler reports no error but those of the server. -/
theorem accounts_restartScheduler (config? : Option Scheduler.Configuration) :
    Attempt.Accounts 0 (restartScheduler server options config?) := by
  refine Attempt.accounts_request_bind server (.restart config?)
    fun (answer : Except RequestError Unit) => ?_
  rcases answer with e | x
  · cases e with
    | disabled => exact Attempt.accounts_report Level.noConfusion
    | notFound what | backend message =>
        simp only [hlenient, ↓reduceIte]
        exact Attempt.accounts_report_error rfl
  · exact Attempt.accounts_pure ()

/-- To hand in an object reports no error but those of the server. -/
theorem accounts_applyOne (d : Desired k) :
    Attempt.Accounts 0 (applyOne server options d) := by
  refine Attempt.accounts_request_bind server (.apply k d)
    fun (answer : Except RequestError (Stored k)) => ?_
  cases answer with
  | ok o => exact Attempt.accounts_pure ()
  | error e =>
      simp only [hlenient, ↓reduceIte]
      exact Attempt.accounts_report_error rfl

/-- To delete an object reports no error but those of the server. -/
theorem accounts_deleteOne (k : Kind) (name : String) (ns? : Option String) :
    Attempt.Accounts 0 (deleteOne server options k name ns?) := by
  refine Attempt.accounts_request_bind server (.delete k name ns?)
    fun (answer : Except RequestError Unit) => ?_
  rcases answer with e | x
  · cases e with
    | notFound what => exact Attempt.accounts_pure ()
    | disabled | backend message =>
        simp only [hlenient, ↓reduceIte]
        exact Attempt.accounts_report_error rfl
  · exact Attempt.accounts_pure ()

omit hlenient in
/-- To rebind a volume reports an error if the claim is named only in part. -/
theorem accounts_rebindClaim (d : Desired .volume) :
    Run.Accounts (if d.namesClaimInPart then 1 else 0) (rebindClaim server d) fun _ => True := by
  have hrebinding := rebinding_rebindClaim server d
  generalize rebindClaim server d = r at hrebinding
  rw [Desired.namesClaimInPart]
  cases hrebinding with
  | unbound href =>
      rw [href]
      exact Run.accounts_pure trivial
  | @unnamed ref event href hunnamed hlevel =>
      have hpart : (ref.name?.isNone || ref.ns?.isNone) = true := by
        rcases hunnamed with h | h <;> simp [h]
      rw [href, Option.any_some, hpart]
      exact (Run.accounts_report_error hlevel).bind fun _ _ => Run.accounts_pure trivial
  | @named ref claim ns missing href hname hns hlevel =>
      rw [href, Option.any_some, hname, hns]
      refine Run.accounts_request_bind server (.get .claim claim (some ns))
        fun (answer : Except RequestError (Stored .claim)) => ?_
      cases answer with
      | ok o => exact Run.accounts_pure trivial
      | error e =>
          exact (Run.accounts_report_error (hlevel e)).bind fun _ _ => Run.accounts_pure trivial

/-! ### Captures -/

/-- The tasks of a capture report no error but those of the server. -/
theorem accounts_captureTasks :
    ∀ task ∈ captureTasks server options, Run.Accounts 0 task fun e => ∃ x, e = .done x := by
  have hmap : ∀ {α β : Type} {a : Attempt σ α} (f : α → β), Attempt.Accounts 0 a →
      Attempt.Accounts 0 (f <$> a) := by
    intro α β a f h
    rw [map_eq_pure_bind]
    exact h.bind fun x => Attempt.accounts_pure (f x)
  intro task htask
  rcases List.mem_append.mp htask with htask | htask
  · obtain ⟨k, -, rfl⟩ := List.mem_map.mp htask
    exact (hmap _ (accounts_listUserObjects server hlenient k)).task
  · obtain rfl := List.mem_singleton.mp htask
    exact (hmap _ (accounts_fetchConfig server hlenient)).task

/-- **A lenient capture** accounts for its faults. -/
theorem accounts_capture (op : Operator σ) : Attempt.Accounts 0 (op.capture options) := by
  rw [capture, Attempt.carryOut_bind]
  have hgroup : Attempt.Accounts 0
      (ExceptT.mk (TaskGroup.carryOut op.maxConcurrency (captureTasks op.server options))) :=
    TaskGroup.accounts_carryOut_plain op.maxConcurrency (accounts_captureTasks op.server hlenient)
  refine hgroup.bind (n := 0) fun fetched => ?_
  refine Attempt.Accounts.bind (m := 0) (n := 0)
    (Attempt.accounts_report (e := .captured _ _) ?_) fun _ => Attempt.accounts_pure _
  exact Level.noConfusion

/-! ### Replays -/

/-- The tasks that hand in objects report no error but those of the server. -/
theorem accounts_applyTasks (ds : List (Desired k)) :
    ∀ task ∈ applyTasks server options ds, Run.Accounts 0 task fun e => ∃ x, e = .done x := by
  intro task htask
  obtain ⟨d, -, rfl⟩ := List.mem_map.mp htask
  exact (accounts_applyOne server hlenient d).task

/-- The tasks that hand in volumes report an error for each claim named in part. -/
theorem accounts_volumeTasks (ds : List (Desired .volume)) :
    List.Forall₂ (fun task n => Run.Accounts n task fun e => ∃ x, e = .done x)
      (volumeTasks server options ds)
      ((ds.filterMap Desired.admitted?).map fun d => if d.namesClaimInPart then 1 else 0) := by
  rw [volumeTasks, List.forall₂_map_left_iff, List.forall₂_map_right_iff]
  exact List.forall₂_same.mpr fun d _ => (Attempt.accounts_andThen (accounts_rebindClaim server d)
    fun d' => accounts_applyOne server hlenient d').task

omit hlenient in
/-- A stage of a replay accounts for what its group does. -/
theorem accounts_replayStage (op : Operator σ) (stage : Stage) {tasks : List (Run σ (Ending Unit))}
    {n : Nat} (hgroup : Run.Accounts n (TaskGroup.carryOut op.maxConcurrency tasks)
      fun result => ∃ outputs, result = .ok outputs) :
    Attempt.Accounts n (op.replayStage stage tasks) := by
  refine Attempt.Accounts.mapError ?_ (.replayStage stage)
  rw [Attempt.carryOut_bind]
  exact Attempt.Accounts.bind hgroup fun _ => Attempt.accounts_pure ()

omit hlenient in
/-- The errors that are reported for volumes that name their claim only in part. -/
theorem Replay.sum_namesClaimInPart (s : Replay) :
    ((s.objects.volume.filterMap Desired.admitted?).map fun d =>
      if d.namesClaimInPart then 1 else 0).sum = s.claimsNamedInPart := by
  rw [Replay.claimsNamedInPart]
  induction s.objects.volume with
  | nil => rfl
  | cons d rest ih =>
      cases hexcluded : Desired.isExcluded d with
      | true =>
          have hnone : Desired.admitted? d = none := if_pos hexcluded
          rw [List.filterMap_cons_none hnone, List.filter_cons_of_neg (by simp [hexcluded])]
          exact ih
      | false =>
          obtain ⟨d', hd'⟩ := Desired.exists_admitted hexcluded
          have hsame : Desired.namesClaimInPart d' = Desired.namesClaimInPart d := by
            rw [(Desired.admitted?_eq_some hd').2]
            rfl
          rw [List.filterMap_cons_some hd', List.filter_cons_of_pos (by simp [hexcluded]),
            List.map_cons, List.sum_cons, ih, List.countP_cons, hsame, Nat.add_comm]

/-- **A lenient replay** accounts for its faults, and reports the claims that are named in part. -/
theorem accounts_replay (op : Operator σ) (s : Replay) :
    Attempt.Accounts s.claimsNamedInPart (op.replay s options) := by
  have hconfig : Attempt.Accounts 0 (op.replayConfig s options) := by
    rw [replayConfig]
    cases options.ignoreSchedulerConfig with
    | true => exact Attempt.accounts_pure ()
    | false => exact (accounts_restartScheduler op.server hlenient s.schedulerConfig?).mapError _
  have hnamespaces := op.accounts_replayStage .namespaces
    (TaskGroup.accounts_carryOut_plain op.maxConcurrency
      (accounts_applyTasks op.server hlenient s.objects.ns))
  have hclusterTasks : ∀ task ∈ clusterKinds.flatMap (fun k =>
      applyTasks op.server options (s.objects.get k)),
      Run.Accounts 0 task fun e => ∃ x, e = .done x := by
    intro task htask
    obtain ⟨k, -, htask⟩ := List.mem_flatMap.mp htask
    exact accounts_applyTasks op.server hlenient _ task htask
  have hcluster := op.accounts_replayStage .cluster
    (TaskGroup.accounts_carryOut_plain op.maxConcurrency hclusterTasks)
  have hvolumes := op.accounts_replayStage .volumes (TaskGroup.accounts_carryOut op.maxConcurrency
    (accounts_volumeTasks op.server hlenient s.objects.volume))
  rw [Replay.sum_namesClaimInPart] at hvolumes
  have hreplay := hconfig.bind fun _ => hnamespaces.bind fun _ => hcluster.bind fun _ =>
    hvolumes.bind fun _ => Attempt.accounts_report (e := .replayed) Level.noConfusion
  simp only [Nat.zero_add, Nat.add_zero] at hreplay
  exact hreplay

end Lenient

end Operator

end ClusterSnapshot
