import ClusterSnapshot.Proofs.Operation.Abandoned
import ClusterSnapshot.Proofs.Operation.Cut

/-!
# What a strict clearing reports

A strict clearing fails if one of its calls has ended it, in the stage of that call. But what it
reports is not always the failure of that call. A stage lists kinds while removals of other kinds
run, and once one of these has failed it still lists the kinds that are left. If one of the kinds
cannot be listed, the stage ends at once and reports that, although a removal has failed before.

## Main results

* `Operator.stageEnds_clearStage`: what a stage of a strict clearing has called and reports.
* `Operator.strict_clear_reports`: **what a strict clearing reports**: the first failure, but for
  the last call if that was to list a kind and has failed.
-/

namespace ClusterSnapshot

variable {σ : Type} {k : Kind}

/-! ### The calls of a clearing -/

/-- The stage of a clearing that a request belongs to. -/
def Request.clearingStage? : Request → Option Stage
  | .list k _ | .delete k _ _ => some k.stage
  | .restart _ => some .scheduler
  | .get _ _ _ | .apply _ _ | .getConfig => none

/-- The failure of a call that was to list a kind. -/
def Call.unlisted? (call : Call) : Option OperationError :=
  match call.request, call.failure? with
  | .list k _, some e => some (.list k e)
  | _, _ => none

/-- A kind that cannot be listed ends a clearing. -/
theorem Call.stops?_of_unlisted? {call : Call} {e : OperationError}
    (h : call.unlisted? = some e) : call.stops? = some e := by
  obtain ⟨cluster, r, failure?⟩ := call
  cases r with
  | list k ns? =>
      cases failure? with
      | none => cases h
      | some e' => exact h
  | get k name ns? | apply k d | delete k name ns? | getConfig | restart config? => cases h

/-- A call that does not stop is no listing that fails. -/
theorem Call.unlisted?_of_stops? {call : Call} (h : call.stops? = none) :
    call.unlisted? = none := by
  cases hu : call.unlisted? with
  | none => rfl
  | some e => cases h.symm.trans (stops?_of_unlisted? hu)

/-- **Calls that a stage has made** after others. None was to list a kind and has failed. -/
def MadeIn (stage : Stage) (before calls : List Call) : Prop :=
  ∃ new, calls = before ++ new ∧
    ∀ call ∈ new, call.request.clearingStage? = some stage ∧ call.unlisted? = none

variable {stage : Stage} {before calls : List Call}

/-- One more call of the stage was made in it, unless it is a listing that fails. -/
theorem MadeIn.concat (h : MadeIn stage before calls) {call : Call}
    (hstage : call.request.clearingStage? = some stage) (hlisted : call.unlisted? = none) :
    MadeIn stage before (calls ++ [call]) := by
  obtain ⟨new, rfl, hnew⟩ := h
  refine ⟨new ++ [call], List.append_assoc .., fun other hother => ?_⟩
  rcases List.mem_append.mp hother with hother | hother
  · exact hnew other hother
  · rw [List.mem_singleton.mp hother]
    exact ⟨hstage, hlisted⟩

/-- What is to blame is the first call that has ended a clearing. -/
def Ledger.ofStage (stage : Stage) (before : List Call) : Ledger σ Unit Unit where
  owes _ _ p := MadeIn stage before p.calls
  blame p := p.calls.findSome? Call.stops?
  owes_steps _ h := h
  blame_steps _ _ := rfl

/-- **How a stage of a strict clearing ends** when it began after some calls: without a failure, or
with the first, unless the last call was to list a kind and has failed. -/
inductive StageEnds (stage : Stage) (before : List Call) :
    Except OperationError Unit → List Call → Prop
  | done {new : List Call} : (∀ call ∈ new, call.request.clearingStage? = some stage) →
    (∀ call ∈ new, call.stops? = none) → StageEnds stage before (.ok ()) (before ++ new)
  | failed {new : List Call} {e : OperationError} :
    (∀ call ∈ new, call.request.clearingStage? = some stage) →
    (∀ call ∈ new.dropLast, call.unlisted? = none) → new.findSome? Call.stops? = some e →
    StageEnds stage before
      (.error (.clearStage stage ((new.getLast?.bind Call.unlisted?).getD e))) (before ++ new)

/-- A stage that has listed all its kinds ends with the first failure, if there is one. -/
theorem MadeIn.stageEnds (h : MadeIn stage before calls)
    (hbefore : before.findSome? Call.stops? = none) :
    StageEnds stage before
      ((calls.findSome? Call.stops?).elim (.ok ()) fun e => .error (.clearStage stage e))
      calls := by
  obtain ⟨new, rfl, hnew⟩ := h
  have hstage : ∀ call ∈ new, call.request.clearingStage? = some stage :=
    fun call hcall => (hnew call hcall).1
  rw [List.findSome?_append, hbefore, Option.none_or]
  cases hfirst : new.findSome? Call.stops? with
  | none => exact .done hstage (List.findSome?_eq_none_iff.mp hfirst)
  | some e =>
      have hlast : new.getLast?.bind Call.unlisted? = none := by
        rw [Option.bind_eq_none_iff]
        exact fun last hlast => (hnew last (List.mem_of_getLast? hlast)).2
      have hends : StageEnds stage before _ _ :=
        .failed hstage (fun call hcall => (hnew call (List.mem_of_mem_dropLast hcall)).2) hfirst
      rw [hlast] at hends
      exact hends

/-- A stage that cannot list a kind ends with that. -/
theorem MadeIn.stageEnds_unlisted (h : MadeIn stage before calls) {last : Call}
    {e : OperationError} (hstage : last.request.clearingStage? = some stage)
    (hunlisted : last.unlisted? = some e) :
    StageEnds stage before (.error (.clearStage stage e)) (calls ++ [last]) := by
  obtain ⟨new, rfl, hnew⟩ := h
  have hfirst : ∃ e', (new ++ [last]).findSome? Call.stops? = some e' := by
    rw [← Option.isSome_iff_exists, List.findSome?_isSome_iff]
    exact ⟨last, by simp, by rw [Call.stops?_of_unlisted? hunlisted]; rfl⟩
  obtain ⟨e', hfirst⟩ := hfirst
  have hends : StageEnds stage before _ _ :=
    .failed (fun call hcall => ?_) (fun call hcall => ?_) hfirst
  · rw [List.getLast?_concat, Option.bind_some, hunlisted, Option.getD_some] at hends
    rw [List.append_assoc]
    exact hends
  · rcases List.mem_append.mp hcall with hcall | hcall
    · exact (hnew call hcall).1
    · rw [List.mem_singleton.mp hcall]
      exact hstage
  · rw [List.dropLast_concat] at hcall
    exact (hnew call hcall).2

namespace Operator

variable {server : Server σ} {options : Options} {g : TaskGroup σ Unit} {p : Progress σ}
  (hstrict : options.ignoreErrors = false)

include hstrict

/-- The task that removes an object is to blame for its failure. -/
theorem keptBy_removal (o : Stored k) (hk : k.stage = stage) :
    (Ledger.ofStage stage before).KeptBy
      (Attempt.task (deleteOne server options k o.metadata.name o.metadata.ns?)) () := by
  intro made rest p hmade
  have hact := acts_deleteOne_record server options o
  have hruling : options.ruling (server.call o.address.removal p.state).stops? =
      (server.call o.address.removal p.state).stops? := if_neg (Bool.eq_false_iff.mp hstrict)
  have hcalls := congrArg Prod.snd (hact.snd p)
  have hending := hact.fst p
  generalize Attempt.task (deleteOne server options k o.metadata.name o.metadata.ns?) p = done
    at hcalls hending
  change done.2.calls = p.calls ++ [server.call o.address.removal p.state] at hcalls
  change done.1 = (options.ruling (server.call o.address.removal p.state).stops?).elim (.done ())
    .failed at hending
  rw [hruling] at hending
  refine ⟨?_, ?_, ?_⟩
  · change MadeIn stage before done.2.calls
    rw [hcalls]
    exact MadeIn.concat hmade (congrArg some hk) rfl
  · change done.2.calls.findSome? _ = _
    rw [hcalls, List.findSome?_append, List.findSome?_singleton, hending]
    cases (server.call o.address.removal p.state).stops? <;> rfl
  · rw [hending]
    cases (server.call o.address.removal p.state).stops? <;> rfl

omit hstrict in
/-- Tasks that are offered are taken on, or not. -/
theorem owing_spawnAll {tasks : List (Run σ (Ending Unit))}
    (htasks : ∀ task ∈ tasks, (Ledger.ofStage stage before).KeptBy task ())
    (h : TaskGroup.Owing (Ledger.ofStage stage before) () [] g p) :
    TaskGroup.Owing (Ledger.ofStage stage before) () [] (g.spawnAll tasks p).1
      (g.spawnAll tasks p).2 := by
  induction tasks generalizing g p with
  | nil => exact h
  | cons task rest ih =>
      obtain ⟨htask, hrest⟩ := List.forall_mem_cons.mp htasks
      have hoffered : TaskGroup.Owing (Ledger.ofStage stage before) () [()] g p :=
        h.promise (fun _ hmade => hmade) rfl
      exact ih hrest ((hoffered.spawn htask).promise (fun _ hmade => hmade) rfl)

/-- A kind that is listed is listed without a failure, or not at all. -/
theorem listed_strict (server : Server σ) (k : Kind) (p : Progress σ) :
    let call := server.call (.list k none) p.state
    (listUserObjects server options k p).2.calls = p.calls ++ [call] ∧
      ((call.stops? = none ∧ ∃ items, (listUserObjects server options k p).1 = .ok items) ∨
        ∃ e, call.unlisted? = some e ∧ (listUserObjects server options k p).1 = .error e) := by
  intro call
  have hact := acts_listUserObjects server options k
  have hlisted : (listUserObjects server options k p).1 =
      options.listed k (server.serve (.list k none) p.state).1 := hact.fst p
  refine ⟨congrArg Prod.snd (hact.snd p), ?_⟩
  simp only [call, Server.call]
  rw [hlisted]
  generalize (server.serve (.list k none) p.state).1 = answer
  cases answer with
  | ok items => exact .inl ⟨rfl, _, rfl⟩
  | error e => exact .inr ⟨.list k e, rfl, if_neg (Bool.eq_false_iff.mp hstrict)⟩

/-- **Kinds that are listed** have their removals taken on, up to the first that cannot be. -/
theorem spawnDeletions_strict {kinds : List Kind} (hkinds : ∀ k ∈ kinds, k.stage = stage)
    (h : TaskGroup.Owing (Ledger.ofStage stage before) () [] g p) :
    (∃ g', (spawnDeletions server options g kinds p).1 = .ok g' ∧
      TaskGroup.Owing (Ledger.ofStage stage before) () [] g'
        (spawnDeletions server options g kinds p).2) ∨
    ∃ calls last e, (spawnDeletions server options g kinds p).1 = .error e ∧
      (spawnDeletions server options g kinds p).2.calls = calls ++ [last] ∧
      MadeIn stage before calls ∧ last.request.clearingStage? = some stage ∧
      last.unlisted? = some e := by
  induction kinds generalizing g p with
  | nil => exact .inl ⟨g, rfl, h⟩
  | cons k rest ih =>
      obtain ⟨hk, hrest⟩ := List.forall_mem_cons.mp hkinds
      have hstage : (server.call (.list k none) p.state).request.clearingStage? = some stage :=
        congrArg some hk
      obtain ⟨hcalls, ⟨hstops, items, hitems⟩ | ⟨e, hunlisted, herror⟩⟩ :=
        listed_strict hstrict server k p
      · have hasked : TaskGroup.Owing (Ledger.ofStage stage before) () [] g
            (listUserObjects server options k p).2 := by
          refine h.promise (fun _ hmade => ?_) ?_
          · change MadeIn stage before (listUserObjects server options k p).2.calls
            rw [hcalls]
            exact MadeIn.concat hmade hstage (Call.unlisted?_of_stops? hstops)
          · change (listUserObjects server options k p).2.calls.findSome? Call.stops? = _
            rw [hcalls, List.findSome?_append, List.findSome?_singleton, hstops, Option.or_none]
            rfl
        rw [spawnDeletions, Attempt.bind_apply, hitems]
        refine ih hrest (owing_spawnAll (fun task htask => ?_) hasked)
        obtain ⟨o, -, rfl⟩ := List.mem_map.mp htask
        exact keptBy_removal hstrict o hk
      · obtain ⟨⟨_, _, hmade⟩, -, -⟩ := h
        refine .inr ⟨p.calls, server.call (.list k none) p.state, e, ?_, ?_, hmade, hstage,
          hunlisted⟩
        · rw [spawnDeletions, Attempt.bind_apply, herror]
        · rw [spawnDeletions, Attempt.bind_apply, herror]
          exact hcalls

/-- **How a stage of a strict clearing ends** that removes objects. -/
theorem stageEnds_clearStage (op : Operator σ) {kinds : List Kind}
    (hkinds : ∀ k ∈ kinds, k.stage = stage) (hbefore : ∀ call ∈ p.calls, call.stops? = none) :
    StageEnds stage p.calls (op.clearStage options stage kinds p).1
      (op.clearStage options stage kinds p).2.calls := by
  have hnone : p.calls.findSome? Call.stops? = none := List.findSome?_eq_none_iff.mpr hbefore
  have hstart : TaskGroup.Owing (Ledger.ofStage stage p.calls) () []
      (.new op.maxConcurrency : TaskGroup σ Unit) p :=
    TaskGroup.owing_new _ ⟨[], (List.append_nil _).symm, fun _ h => absurd h List.not_mem_nil⟩ hnone
  rcases spawnDeletions_strict hstrict hkinds hstart with
    ⟨g, hok, howing⟩ | ⟨calls, last, e, herror, hcalls, hmade, hstage, hunlisted⟩
  · obtain ⟨hmade, outputs, hwaited⟩ := howing.wait
    have hends : StageEnds stage p.calls _ _ := MadeIn.stageEnds hmade hnone
    rw [clearStage_of_spawned stage (Prod.ext hok rfl), hwaited]
    generalize (g.wait _).2 = q at hends ⊢
    change StageEnds stage p.calls (Except.mapError _ (Except.map _
      ((q.calls.findSome? Call.stops?).elim (.ok outputs) .error))) q.calls
    cases hfirst : q.calls.findSome? Call.stops? with
    | none | some e =>
        rw [hfirst] at hends
        exact hends
  · have hended : op.clearStage options stage kinds p = (.error (.clearStage stage e),
        (spawnDeletions op.server options (.new op.maxConcurrency) kinds p).2) := by
      rw [clearStage, Attempt.mapError_apply, Attempt.bind_apply, herror]
      rfl
    rw [hended, hcalls]
    exact hmade.stageEnds_unlisted hstage hunlisted

/-- How the stage ends in which the scheduler is restarted. -/
theorem stageEnds_restart (op : Operator σ) (p : Progress σ) :
    let restarted := Attempt.mapError (.clearStage .scheduler)
      (restartScheduler op.server options none) p
    StageEnds .scheduler p.calls restarted.1 restarted.2.calls := by
  intro restarted
  have hact : Run.Acts .record (restartScheduler op.server options none).run _ :=
    acts_restartScheduler_record none
  let call := op.server.call (.restart none) p.state
  have hcalls : restarted.2.calls = p.calls ++ [call] := congrArg Prod.snd (hact.snd p)
  have hresult : restarted.1 = Except.mapError (.clearStage .scheduler) (options.verdict call) :=
    congrArg (Except.mapError _) (hact.fst p)
  have hstops : call.stops? = call.fatal? := rfl
  have hstage : ∀ other ∈ [call], other.request.clearingStage? = some .scheduler := by
    intro other hother
    rw [List.mem_singleton.mp hother]
    rfl
  rw [hcalls, hresult, Options.verdict, hstrict, ← hstops]
  cases hfailure : call.stops? with
  | none =>
      refine .done hstage fun other hother => ?_
      rw [List.mem_singleton.mp hother]
      exact hfailure
  | some e =>
      have hfirst : [call].findSome? Call.stops? = some e := by
        rw [List.findSome?_singleton, hfailure]
      exact .failed hstage (fun _ h => absurd h List.not_mem_nil) hfirst

end Operator

/-! ### The whole of a clearing -/

/-- Some calls that have all been made in stages of a clearing before some stage, without a failure
that ends it. -/
def CallsBefore (stage : Stage) (calls : List Call) : Prop :=
  ∀ call ∈ calls, call.stops? = none ∧
    ∃ stage', call.request.clearingStage? = some stage' ∧ stage.position < stage'.position

/-- **What a strict clearing has called and reports**: it has no failure that ends it, or it has
ended in some stage. -/
inductive Reported : Except OperationError Unit → List Call → Prop
  | done {calls : List Call} : (∀ call ∈ calls, call.stops? = none) → Reported (.ok ()) calls
  | failed {stage : Stage} {before new : List Call} {e : OperationError} :
    CallsBefore stage before → (∀ call ∈ new, call.request.clearingStage? = some stage) →
    (∀ call ∈ new.dropLast, call.unlisted? = none) → new.findSome? Call.stops? = some e →
    Reported (.error (.clearStage stage ((new.getLast?.bind Call.unlisted?).getD e)))
      (before ++ new)

/-- No call of the stages before stops. -/
theorem CallsBefore.stops?_eq_none (h : CallsBefore stage calls) :
    ∀ call ∈ calls, call.stops? = none := fun call hcall => (h call hcall).1

/-- A stage that ends as it may reports what it is to report. -/
theorem StageEnds.reported {result : Except OperationError Unit}
    (h : StageEnds stage before result calls) (hbefore : CallsBefore stage before) :
    Reported result calls := by
  cases h with
  | done _ hstops =>
      exact .done fun call hcall =>
        (List.mem_append.mp hcall).elim (hbefore.stops?_eq_none call) (hstops call)
  | failed hstage hlisted hfirst => exact .failed hbefore hstage hlisted hfirst

/-- A stage that has not failed is followed by the next one. -/
theorem StageEnds.bind {a b : Attempt σ Unit} {p : Progress σ}
    (h : StageEnds stage p.calls (a p).1 (a p).2.calls) (hbefore : CallsBefore stage p.calls)
    (next : Stage) (hnext : next.position < stage.position)
    (hb : ∀ q : Progress σ, CallsBefore next q.calls → Reported (b q).1 (b q).2.calls) :
    Reported ((a >>= fun _ => b) p).1 ((a >>= fun _ => b) p).2.calls := by
  rw [Attempt.bind_apply]
  generalize a p = ended at h ⊢
  obtain ⟨result, q⟩ := ended
  simp only at h
  generalize hcalls : q.calls = calls at h
  cases h with
  | @done new hstage hstops =>
      refine hb q fun call hcall => ?_
      rw [hcalls] at hcall
      rcases List.mem_append.mp hcall with hcall | hcall
      · obtain ⟨hnone, stage', hcleared, hlt⟩ := hbefore call hcall
        exact ⟨hnone, stage', hcleared, hnext.trans hlt⟩
      · exact ⟨hstops call hcall, stage, hstage call hcall, hnext⟩
  | failed hstage hlisted hfirst =>
      simp only
      rw [hcalls]
      exact .failed hbefore hstage hlisted hfirst

namespace Operator

/-- A strict clearing reports what it is to report. -/
theorem reported_clear (op : Operator σ) {options : Options}
    (hstrict : options.ignoreErrors = false) (s : σ) :
    Reported (op.clear options (Run.start s)).1 (op.clear options (Run.start s)).2.calls := by
  have hstages {stage : Stage} {kinds : List Kind} (hkinds : ∀ k ∈ kinds, k.stage = stage)
      {q : Progress σ} (hq : CallsBefore stage q.calls) :=
    op.stageEnds_clearStage hstrict hkinds hq.stops?_eq_none
  have hstart : CallsBefore .volumes (Run.start s).calls := fun _ h => absurd h List.not_mem_nil
  refine (hstages (by decide) hstart).bind hstart .cluster (by decide) fun q₁ h₁ => ?_
  refine (hstages (by decide) h₁).bind h₁ .namespaces (by decide) fun q₂ h₂ => ?_
  refine (hstages (by decide) h₂).bind h₂ .scheduler (by decide) fun q₃ h₃ => ?_
  -- what is reported after the last stage is no call
  have hrestart := stageEnds_restart hstrict op q₃
  rw [Attempt.bind_apply]
  generalize Attempt.mapError _ (restartScheduler op.server options none) q₃ = restarted
    at hrestart ⊢
  obtain ⟨result, q₄⟩ := restarted
  have hended : Reported result q₄.calls := hrestart.reported h₃
  cases result with
  | error e => exact hended
  | ok x =>
      obtain ⟨q₅, hq, hcalls, -⟩ := Attempt.report_apply (e := .cleared) Level.noConfusion q₄
      simp only
      rw [hq, hcalls]
      exact hended

/-- **What a strict clearing reports.** Whatever the server answers and however many tasks may be
under way, it succeeds just if none of its calls has a failure that ends it. Else it fails in the
stage of the first such call, and makes no call of a later stage. It reports the failure of that
call, unless its last call was to list a kind and has failed: then it reports that. -/
theorem strict_clear_reports (op : Operator σ) (ignoreConfig : Bool) (s : σ) :
    let done := op.clear ⟨false, ignoreConfig⟩ (Run.start s)
    (done.1 = .ok () ↔ ∀ call ∈ done.2.calls, call.stops? = none) ∧
    ∀ before call after e, done.2.calls = before ++ call :: after →
      (∀ call ∈ before, call.stops? = none) → call.stops? = some e →
      ∃ stage, call.request.clearingStage? = some stage ∧
        done.1 = .error (.clearStage stage ((done.2.calls.getLast?.bind Call.unlisted?).getD e)) ∧
        (∀ other ∈ done.2.calls, ∃ stage', other.request.clearingStage? = some stage' ∧
          stage.position ≤ stage'.position) ∧
        ∀ other ∈ done.2.calls.dropLast, other.unlisted? = none := by
  intro done
  have hreported : Reported done.1 done.2.calls := op.reported_clear rfl s
  generalize done.1 = result, done.2.calls = calls at hreported ⊢
  cases hreported with
  | done hstops =>
      refine ⟨iff_of_true rfl hstops, fun before call after e hsplit _ hcall => ?_⟩
      rw [hstops call (by simp [hsplit])] at hcall
      cases hcall
  | @failed stage earlier new e hearlier hstage hlisted hfirst =>
      have hnew : new ≠ [] := by
        rintro rfl
        cases hfirst
      constructor
      · refine iff_of_false (by simp) fun hstops => ?_
        obtain ⟨call, hcall, hfailure⟩ := List.exists_of_findSome?_eq_some hfirst
        rw [hstops call (List.mem_append_right _ hcall)] at hfailure
        cases hfailure
      · intro before call after e' hsplit hbefore hcall
        have hparts : earlier ++ new ++ [] = before ++ call :: after := by
          rw [List.append_nil, hsplit]
        obtain ⟨new', new'', rfl, rfl⟩ := first_mem_part hparts hearlier.stops?_eq_none hbefore
          (by rw [hcall]; rfl) (by rw [hfirst]; rfl)
        have hnone : new'.findSome? Call.stops? = none := List.findSome?_eq_none_iff.mpr
          fun other hother => hbefore other (List.mem_append_right _ hother)
        rw [List.findSome?_append, hnone, Option.none_or, List.findSome?_cons, hcall] at hfirst
        obtain rfl : e' = e := Option.some.inj hfirst
        refine ⟨stage, hstage call (by simp), ?_, fun other hother => ?_, fun other hother => ?_⟩
        · rw [List.getLast?_append_of_ne_nil _ hnew]
        · rcases List.mem_append.mp hother with hother | hother
          · obtain ⟨-, stage', hstage', hlt⟩ := hearlier other hother
            exact ⟨stage', hstage', hlt.le⟩
          · exact ⟨stage, hstage other hother, le_refl _⟩
        · rw [List.dropLast_append_of_ne_nil hnew] at hother
          rcases List.mem_append.mp hother with hother | hother
          · exact Call.unlisted?_of_stops? (hearlier.stops?_eq_none other hother)
          · exact hlisted other hother

/-- A pod cannot be removed, and then nodes cannot be listed. With one task at a time the pod fails
first, and yet the nodes are reported. With sixteen the pod is not asked for. -/
theorem strict_clear_reports_pods :
    let fresh : Cluster := ⟨.empty, ⟨toString, 0⟩⟩
    let pods : Cluster := (fresh.afterPut (Desired.plain .pod "db" (some "team"))).afterPut
      (Desired.plain .pod "web" (some "team"))
    let faults : List Fault := [⟨"delete", some .pod, none, .backend "boom"⟩,
      ⟨"list", some .node, none, .backend "lost"⟩]
    let op : Nat → Operator Cluster := fun n => ⟨Cluster.faultyServer "target" false faults, n, id⟩
    let done := fun n => (op n).clear .strict (Run.start pods)
    (∀ n ∈ [1, 16], (done n).1 = .error (.clearStage .cluster (.list .node (.backend "lost")))) ∧
      (done 1).2.calls.findSome? Call.stops? = some (.delete .pod "db" (.backend "boom")) ∧
      (done 16).2.calls.findSome? Call.stops? = some (.list .node (.backend "lost")) := by
  intro fresh pods faults op done
  obtain ⟨hfirst, hruns⟩ :
      ((done 1).2.calls.findSome? Call.stops? = some (.delete .pod "db" (.backend "boom")) ∧
        (done 16).2.calls.findSome? Call.stops? = some (.list .node (.backend "lost"))) ∧
      ∀ n ∈ [1, 16],
        (done n).2.calls.getLast?.bind Call.unlisted? = some (.list .node (.backend "lost")) ∧
          ∀ call ∈ (done n).2.calls, call.stops?.isSome = true →
            call.request.clearingStage? = some .cluster := by
    decide +kernel
  refine ⟨fun n hn => ?_, hfirst⟩
  obtain ⟨hlast, hstages⟩ := hruns n hn
  have hhalted : ∃ e, (done n).2.calls.findSome? Call.stops? = some e := by
    rcases List.mem_pair.mp hn with rfl | rfl
    · exact ⟨_, hfirst.1⟩
    · exact ⟨_, hfirst.2⟩
  obtain ⟨e, hhalted⟩ := hhalted
  obtain ⟨before, call, after, hsplit, hcall, hbefore⟩ := List.findSome?_eq_some_iff.mp hhalted
  obtain ⟨stage, hstage, herror, -⟩ :=
    ((op n).strict_clear_reports false pods).2 before call after e hsplit hbefore hcall
  have hmem : call ∈ (done n).2.calls := by
    rw [hsplit]
    exact List.mem_append_right _ List.mem_cons_self
  have hcluster := hstages call hmem (by rw [hcall]; rfl)
  obtain rfl := Option.some.inj (hstage.symm.trans hcluster)
  exact herror.trans (congrArg
    (fun last? => Except.error (OperationError.clearStage .cluster (Option.getD last? e))) hlast)

end Operator

end ClusterSnapshot
