import ClusterSnapshot.Proofs.Operation.TaskGroup

/-!
# What a group owes

While tasks of a group wait, other requests may be made that the tasks know nothing of, and what a
task comes to may depend on them. So it cannot be told beforehand what the group will do. It can be
told what it *owes*: every task that it takes on is a promise, which stays open until the task has
run. A `Ledger` says what it means that promises are open, and whom a failure is put down to.

## Main results

* `TaskGroup.Owing`: **the invariant**, by the promises that are open.
* `TaskGroup.Owing.spawn`: a task that is offered is taken on, or its promise stays with who made
  it.
* `TaskGroup.Owing.wait`: **to wait for a group leaves no promise of its tasks open**.
-/

namespace ClusterSnapshot

variable {σ α κ ι : Type}

/-- **What is promised and not done yet.** -/
structure Ledger (σ κ ι : Type) where
  /-- Of all that was promised so far, these promises are open. -/
  owes : κ → List ι → Progress σ → Prop
  /-- The first failure so far. -/
  blame : Progress σ → Option OperationError
  owes_steps : ∀ {made : κ} {owed : List ι} {p : Progress σ} (steps : Nat),
    owes made owed p → owes made owed { p with steps }
  blame_steps : ∀ (p : Progress σ) (steps : Nat), blame { p with steps } = blame p

/-- A ledger that puts no failure down to anybody. -/
def Ledger.blameless (owes : κ → List ι → Progress σ → Prop)
    (owes_steps : ∀ {made : κ} {owed : List ι} {p : Progress σ} (steps : Nat),
      owes made owed p → owes made owed { p with steps }) : Ledger σ κ ι where
  owes
  blame _ := none
  owes_steps
  blame_steps _ _ := rfl

/-- A task that keeps a promise when this is the first that is open, and owns up to its failure. -/
def Ledger.KeptBy (L : Ledger σ κ ι) (task : Run σ (Ending α)) (i : ι) : Prop :=
  ∀ made rest p, L.owes made (i :: rest) p → L.owes made rest (task p).2 ∧
    L.blame (task p).2 = (L.blame p).or (task p).1.failure? ∧ (task p).1.lateFailure? = none

namespace TaskGroup

variable {L : Ledger σ κ ι} {made made' : κ} {pending pending' : List ι} {g : TaskGroup σ α}
  {p q : Progress σ}

/-- **A group that owes what its tasks are to do**, besides what else is pending. -/
structure Owing (L : Ledger σ κ ι) (made : κ) (pending : List ι) (g : TaskGroup σ α)
    (p : Progress σ) : Prop where
  queue : ∃ waiting, List.Forall₂ L.KeptBy g.queue waiting ∧ L.owes made (waiting ++ pending) p
  failure : g.failure? = L.blame p
  kept : ∀ e ∈ g.endings, e.lateFailure? = none

/-- A new group owes nothing itself. -/
theorem owing_new (limit : Nat) (howes : L.owes made pending p) (hblame : L.blame p = none) :
    Owing L made pending (.new limit : TaskGroup σ α) p :=
  ⟨⟨[], .nil, howes⟩, hblame.symm, fun _ h => absurd h List.not_mem_nil⟩

/-- What was promised may be put in other words, and more may be promised, while no task runs. -/
theorem Owing.promise (h : Owing L made pending g p)
    (howes : ∀ owed, L.owes made (owed ++ pending) p → L.owes made' (owed ++ pending') q)
    (hblame : L.blame q = L.blame p) : Owing L made' pending' g q := by
  obtain ⟨⟨waiting, hwaiting, hopen⟩, hfailure, hkept⟩ := h
  exact ⟨⟨waiting, hwaiting, howes waiting hopen⟩, hfailure.trans hblame.symm, hkept⟩

/-- A step that is taken changes nothing. -/
theorem Owing.step (h : Owing L made pending g p) (steps : Nat) :
    Owing L made pending g { p with steps } :=
  h.promise (fun _ => L.owes_steps steps) (L.blame_steps p steps)

/-! ### Running -/

/-- Tasks that run keep their promises. -/
theorem Owing.runTasks {tasks : List (Run σ (Ending α))} {labels waiting : List ι}
    (htasks : List.Forall₂ L.KeptBy tasks labels) (hwaiting : List.Forall₂ L.KeptBy g.queue waiting)
    (howes : L.owes made (labels ++ (waiting ++ pending)) p) (hfailure : g.failure? = L.blame p)
    (hkept : ∀ e ∈ g.endings, e.lateFailure? = none) :
    Owing L made pending (g.runTasks tasks p).1 (g.runTasks tasks p).2 := by
  induction htasks generalizing g p with
  | nil => exact ⟨⟨waiting, hwaiting, howes⟩, hfailure, hkept⟩
  | @cons task i tasks labels htask _ ih =>
      obtain ⟨hopen, hblame, hlate⟩ := htask _ _ _ howes
      refine ih (g := g.note (task p).1) hwaiting hopen ?_ fun e he => ?_
      · rw [hblame, ← hfailure]
        rfl
      · rcases List.mem_append.mp he with he | he
        · exact hkept e he
        · rw [List.mem_singleton.mp he]
          exact hlate

/-- What is owed stays so at the end of a turn. -/
theorem Owing.endTurn (h : Owing L made pending g p) :
    Owing L made pending (g.endTurn p).1 (g.endTurn p).2 := by
  obtain ⟨⟨waiting, hwaiting, howes⟩, hfailure, hkept⟩ := h
  rw [← List.take_append_drop tasksPerRound waiting, List.append_assoc] at howes
  have hran : Owing L made pending _ _ :=
    Owing.runTasks (g := { g with queue := g.queue.drop tasksPerRound })
      (List.forall₂_take tasksPerRound hwaiting) (List.forall₂_drop tasksPerRound hwaiting) howes
      hfailure hkept
  exact hran.step stepsPerTurn

/-- What is owed stays so while there is no place. -/
theorem Owing.atPlace (h : Owing L made pending g p) :
    Owing L made pending (g.atPlace p).1 (g.atPlace p).2 := by
  have hspent : Owing L made pending (g.endTurnIfSpent p).1 (g.endTurnIfSpent p).2 := by
    change Owing L made pending ((if p.steps = 0 then g.endTurn else pure g) p).1
      ((if p.steps = 0 then g.endTurn else pure g) p).2
    split
    · exact h.endTurn
    · exact h
  rw [TaskGroup.atPlace, awaitPlace]
  split
  · exact hspent
  · exact hspent.endTurn

/-! ### Taking tasks on -/

/-- **A task that is offered** is taken on with its promise, unless one has failed: then the promise
stays pending. -/
theorem Owing.spawn {task : Run σ (Ending α)} {i : ι} (h : Owing L made (i :: pending) g p)
    (htask : L.KeptBy task i) :
    Owing L made (if (g.spawn task p).1.failure?.isSome then i :: pending else pending)
      (g.spawn task p).1 (g.spawn task p).2 := by
  by_cases hfailed : g.failure?.isSome = true
  · rw [TaskGroup.spawn, if_pos hfailed]
    change Owing L made (if g.failure?.isSome = true then _ else _) g p
    rwa [if_pos hfailed]
  · rw [spawn_eq g task p hfailed]
    have hplace := h.atPlace.step ((g.atPlace p).2.steps - 1)
    split
    · exact hplace
    · obtain ⟨⟨waiting, hwaiting, howes⟩, hfailure, hkept⟩ := hplace
      refine ⟨⟨waiting ++ [i], List.rel_append hwaiting (.cons htask .nil), ?_⟩, hfailure, hkept⟩
      rwa [List.append_assoc]

/-- If no task ever fails, all that are offered are taken on. -/
theorem Owing.spawnAll (hblameless : ∀ p, L.blame p = none) {tasks : List (Run σ (Ending α))}
    {labels : List ι} (htasks : List.Forall₂ L.KeptBy tasks labels)
    (h : Owing L made (labels ++ pending) g p) :
    Owing L made pending (g.spawnAll tasks p).1 (g.spawnAll tasks p).2 := by
  induction htasks generalizing g p with
  | nil => exact h
  | cons htask _ ih =>
      have htaken := h.spawn htask
      rw [htaken.failure, hblameless] at htaken
      exact ih htaken

/-! ### Collecting -/

/-- What is owed stays so when what has ended is collected. -/
theorem Owing.collect (h : Owing L made pending g p) :
    Owing L made pending (g.collect p).1 (g.collect p).2 := by
  obtain ⟨hqueue, hfailure, hkept⟩ := h.step (p.steps - (g.endings.take p.steps).length)
  refine ⟨hqueue, ?_, fun e he => hkept e (List.mem_of_mem_drop he)⟩
  have hnone : (g.endings.take p.steps).findSome? Ending.lateFailure? = none :=
    List.findSome?_eq_none_iff.mpr fun e he => hkept e (List.mem_of_mem_take he)
  change g.failure?.or _ = _
  rw [hnone, Option.or_none]
  exact hfailure

/-- What is owed stays so when the end of a turn is put off. -/
theorem Owing.putOff (h : Owing L made pending g p) :
    Owing L made pending (g.putOff p).1 (g.putOff p).2 := by
  have htail : Owing L made pending { g with endings := g.endings.tail } p :=
    ⟨h.queue, h.failure, fun e he => h.kept e (List.mem_of_mem_tail he)⟩
  obtain ⟨hqueue, hfailure, hkept⟩ := htail.endTurn
  refine ⟨hqueue, hfailure, fun e he => ?_⟩
  rcases List.mem_append.mp he with he | he
  · exact hkept e he
  · exact h.kept e (List.mem_of_mem_head? (by simpa using he))

/-- **To wait for a group leaves no promise of its tasks open.** It fails if a task has failed, and
succeeds otherwise. -/
theorem Owing.wait (h : Owing L made pending g p) :
    L.owes made pending (g.wait p).2 ∧
      ∃ outputs, (g.wait p).1 = (L.blame (g.wait p).2).elim (.ok outputs) .error := by
  induction g, p using TaskGroup.wait.induct with
  | case1 g p collected hsettled =>
      rw [TaskGroup.wait, dif_pos hsettled]
      obtain ⟨⟨waiting, hwaiting, howes⟩, hfailure, -⟩ := h.collect
      simp only [isSettled, Bool.and_eq_true, List.isEmpty_iff] at hsettled
      have hempty : (g.collect p).1.queue = [] := hsettled.1
      rw [hempty] at hwaiting
      obtain rfl := List.forall₂_nil_left_iff.mp hwaiting
      refine ⟨howes, (g.collect p).1.outputs, ?_⟩
      change (g.collect p).1.result = (L.blame (g.collect p).2).elim _ _
      rw [TaskGroup.result, ← hfailure]
      cases (g.collect p).1.failure? <;> rfl
  | case2 g p collected hsettled next ih =>
      rw [TaskGroup.wait, dif_neg hsettled]
      exact ih h.collect.putOff

end TaskGroup

end ClusterSnapshot
