import ClusterSnapshot.Operation.Basic
import ClusterSnapshot.Proofs.Operation.TaskGroup
import ClusterSnapshot.Proofs.Request.Ensures
import ClusterSnapshot.Proofs.Store.Reachable
import ClusterSnapshot.Store.Serving

/-!
# What attempts do

An attempt is a run that may fail. What the attempts do that all operations share is told by their
acts: to carry out tasks in a group, to list the objects of the user, to restart the scheduler.

## Main results

* `Attempt.bind_apply`, `Attempt.acts_request_bind`: attempts one after the other, and attempts that
  make a request.
* `Operator.acts_listUserObjects`, `Operator.acts_restartScheduler`: **what the shared attempts
  do**.
-/

namespace ClusterSnapshot

open Scheduler (Configuration)

variable {σ τ α β : Type}

namespace Attempt

/-- What follows an attempt is done with its result, unless it has failed. -/
theorem bind_apply (a : Attempt σ α) (f : α → Attempt σ β) (p : Progress σ) :
    (a >>= f) p = match (a p).1 with
      | .ok x => f x (a p).2
      | .error e => (.error e, (a p).2) := by
  change ExceptT.bindCont f (a p).1 (a p).2 = _
  cases (a p).1 <;> rfl

/-- The result of an attempt is converted, if there is one. -/
theorem map_apply (g : α → β) (a : Attempt σ α) (p : Progress σ) :
    (g <$> a) p = (Except.map g (a p).1, (a p).2) := by
  rw [map_eq_pure_bind, bind_apply]
  cases (a p).1 <;> rfl

/-- The failure of an attempt is put in other words, if there is one. -/
theorem mapError_apply (f : OperationError → OperationError) (a : Attempt σ α) (p : Progress σ) :
    a.mapError f p = (Except.mapError f (a p).1, (a p).2) := rfl

/-- A run that is part of an attempt, which goes by its result and what is seen after it. -/
theorem acts_andThen {sight : Sight σ τ} {r : Run σ α} {f : Act τ α} (h : Run.Acts sight r f)
    {next : α → Attempt σ β} {f' : Act τ (Except OperationError β)}
    (hnext : ∀ t x t', f t = (x, t') → ∀ p, sight.see p = t' →
      f' t = ((next x p).1, sight.see (next x p).2)) :
    Run.Acts sight ((r : Attempt σ α) >>= next).run f' :=
  h.andThen hnext

/-- An attempt that makes a request and then goes by the answer. -/
theorem acts_request_bind {view : σ → τ} {server : Server σ} {base : Server τ}
    (h : server.Shows view base) (r : Request) {f : Act τ (Except OperationError α)}
    {next : Except RequestError r.Answer → Attempt σ α}
    (hnext : ∀ t answer t', base.serve r t = (answer, t') → ∀ p, view p.state = t' →
      f t = ((next answer p).1, view (next answer p).2.state)) :
    Run.Acts (.state view) ((Run.request server r : Attempt σ _) >>= next).run f :=
  acts_andThen (Run.Acts.request h r) hnext

/-- What a run that is part of an attempt ensures, and what comes after it. -/
theorem ensures_andThen {I : Progress σ → Prop} {r : Run σ α} {Q : α → Prop}
    (h : Run.Ensures I r Q) {next : α → Attempt σ β} {Q' : Except OperationError β → Prop}
    (hnext : ∀ x, Q x → Run.Ensures I (next x).run Q') :
    Run.Ensures I ((r : Attempt σ α) >>= next).run Q' :=
  h.bind hnext

/-- A group that is set up and waited for has carried out its tasks. -/
theorem carryOut_bind (limit : Nat) (tasks : List (Run σ (Ending α)))
    (next : List α → Attempt σ β) :
    (do let group : TaskGroup σ α ← (TaskGroup.new limit).spawnAll tasks
        let outputs ← ExceptT.mk group.wait
        next outputs : Attempt σ β) = ExceptT.mk (TaskGroup.carryOut limit tasks) >>= next :=
  rfl

/-- An attempt as a task of a group. -/
theorem acts_task {sight : Sight σ τ} {a : Attempt σ α} {f : Act τ (Except OperationError α)}
    (h : Run.Acts sight a.run f) (g : α → β) :
    Run.Acts sight (Attempt.task (g <$> a))
      ((fun r => Ending.ofExcept (Except.map g r)) <$> f) := by
  have hmap := h.map fun r => Ending.ofExcept (Except.map g r)
  intro p
  rw [hmap p]
  change _ = (Ending.ofExcept ((g <$> a) p).1, sight.see ((g <$> a) p).2)
  rw [map_apply]
  rfl

end Attempt

/-- The cluster after its scheduler was restarted, unless somebody else runs it. -/
def Cluster.restarted (c : Cluster) (external : Bool) (config? : Option Configuration) : Cluster :=
  if external then c else c.afterConfig (config?.getD .default)

/-- The objects of the user among those that a list is answered with; none if it has failed. -/
def userOnly {k : Kind} (answer : Except RequestError (List (Stored k))) : List (Stored k) :=
  (answer.toOption.getD []).filter fun o => !Stored.isExcluded o

/-- What comes of the question for the objects of a kind. -/
def Options.listed (options : Options) (k : Kind) :
    Except RequestError (List (Stored k)) → Except OperationError (List (Stored k))
  | .ok items => .ok (items.filter fun o => !Stored.isExcluded o)
  | .error e => if options.ignoreErrors then .ok [] else .error (.list k e)

/-- The objects of the user come of it, unless strict options let the failure end the operation. -/
theorem Options.listed_cases (options : Options) {k : Kind}
    (answer : Except RequestError (List (Stored k))) :
    options.listed k answer = .ok (userOnly answer) ∨
      ∃ e, options.ignoreErrors = false ∧ answer = .error e ∧
        options.listed k answer = .error (.list k e) := by
  cases answer with
  | ok items => exact .inl rfl
  | error e =>
      cases hlenient : options.ignoreErrors with
      | true => exact .inl (if_pos hlenient)
      | false => exact .inr ⟨e, rfl, rfl, if_neg (Bool.eq_false_iff.mp hlenient)⟩

namespace Operator

variable {view : σ → Cluster} {options : Options} {server : Server σ} {name : String}
  {external : Bool}

/-- To list the objects of the user is to ask for all of the kind. -/
theorem acts_listUserObjects (server : Server σ) (options : Options) (k : Kind) :
    Run.Acts .record (listUserObjects server options k).run fun t =>
      (options.listed k (server.serve (.list k none) t.1).1, server.making [.list k none] t) := by
  refine Attempt.acts_andThen (Run.acts_request_record server (.list k none)) ?_
  intro t answer t' hanswer p hp
  obtain ⟨rfl, rfl⟩ := Prod.mk.inj hanswer
  rw [← hp]
  cases (server.serve (.list k none) t.1).1 with
  | ok items => rfl
  | error e =>
      simp only [Options.listed]
      split <;> rfl

/-- To restart the scheduler succeeds. -/
theorem acts_restartScheduler (h : server.Shows view (Cluster.server name external))
    (config? : Option Configuration) :
    Run.Acts (.state view) (restartScheduler server options config?).run
      fun c => (.ok (), c.restarted external config?) := by
  refine Attempt.acts_request_bind h (.restart config?) fun c answer c' hserve p hp => ?_
  have hrestart : c.serveRestart external config? = (answer, c') := hserve
  rw [Cluster.serveRestart] at hrestart
  rw [Cluster.restarted]
  split at hrestart <;> rename_i hexternal
  · obtain ⟨rfl, rfl⟩ := Prod.mk.inj hrestart
    rw [if_pos hexternal, ← hp]
    rfl
  · obtain ⟨rfl, rfl⟩ := Prod.mk.inj hrestart
    rw [if_neg hexternal]
    exact congrArg _ hp.symm

end Operator

end ClusterSnapshot
