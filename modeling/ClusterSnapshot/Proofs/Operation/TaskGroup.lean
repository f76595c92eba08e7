import ClusterSnapshot.Operation.TaskGroup
import ClusterSnapshot.Proofs.Operation.Load
import ClusterSnapshot.Proofs.Request.Run
import Mathlib.Data.List.Perm.Basic

/-!
# What task groups do

However many tasks may be under way, and however the turns fall, the tasks of a group that are taken
on all run, one after the other and in order. Some at the end may not be taken on, but only if one
has failed. Which these are is a matter of numbers: a task is not taken on if one of those has
failed that have run when there is a place for it. The outputs may come in another order.

## Main results

* `TaskGroup.Tracks`: **the invariant**, by the tasks that have run and those that wait.
* `TaskGroup.TakenUpTo`: which tasks are taken on if one fails.
* `TaskGroup.carriedOut_carryOut`: **a group carries out its tasks in order**, up to some point if
  one fails and to the end otherwise.
-/

namespace ClusterSnapshot

namespace TaskGroup

variable {σ τ α : Type} {sight : Sight σ τ} {limit steps : Nat}

/-- The first failure among endings. -/
def firstFailure? (endings : List (Ending α)) : Option OperationError :=
  endings.findSome? Ending.failure?

/-- The outputs among endings. -/
def outputsOf (endings : List (Ending α)) : List α := endings.filterMap Ending.output?

/-- A group whose tasks up to now act as `ran` and those that wait as `waiting`, when all began with
`t` to be seen. -/
structure Tracks (sight : Sight σ τ) (limit : Nat) (t : τ) (ran waiting : List (Act τ (Ending α)))
    (g : TaskGroup σ α) (p : Progress σ) : Prop where
  limit : g.limit = limit
  queue : List.Forall₂ (Run.Acts sight) g.queue waiting
  state : sight.see p = (inOrder ran t).2
  failure : g.failure? = firstFailure? (inOrder ran t).1
  outputs : (g.outputs ++ outputsOf g.endings).Perm (outputsOf (inOrder ran t).1)
  kept : ∀ e ∈ g.endings, e.lateFailure? = none

/-- An act whose ending is never lost. -/
def Answers (f : Act τ (Ending α)) : Prop := ∀ t, (f t).1.lateFailure? = none

variable {t : τ} {ran waiting : List (Act τ (Ending α))} {g : TaskGroup σ α} {p : Progress σ}

/-- A new group has nothing to track. -/
theorem tracks_new (limit : Nat) (p : Progress σ) :
    Tracks sight (max 1 limit) (sight.see p) [] [] (.new limit : TaskGroup σ α) p :=
  ⟨rfl, .nil, rfl, rfl, .refl _, fun _ h => absurd h List.not_mem_nil⟩

/-- The first failure is that of the first ending, if it has one. -/
theorem firstFailure?_cons (e : Ending α) (l : List (Ending α)) :
    firstFailure? (e :: l) = e.failure?.or (firstFailure? l) := by
  rw [firstFailure?, List.findSome?_cons]
  cases e.failure? <;> rfl

/-- The first failure of two parts is that of the first, if it has one. -/
theorem firstFailure?_append (l₁ l₂ : List (Ending α)) :
    firstFailure? (l₁ ++ l₂) = (firstFailure? l₁).or (firstFailure? l₂) :=
  List.findSome?_append

/-- The outputs of two parts follow each other. -/
theorem outputsOf_append (l₁ l₂ : List (Ending α)) :
    outputsOf (l₁ ++ l₂) = outputsOf l₁ ++ outputsOf l₂ :=
  List.filterMap_append

/-- When one more task has run. -/
theorem Tracks.note (h : Tracks sight limit t ran waiting g p) {task : Run σ (Ending α)}
    {f : Act τ (Ending α)} (hf : Run.Acts sight task f) (hanswers : Answers f) :
    Tracks sight limit t (ran ++ [f]) waiting (g.note (task p).1) (task p).2 := by
  have hending : (task p).1 = (f (inOrder ran t).2).1 := by rw [hf.fst p, h.state]
  refine ⟨h.limit, h.queue, ?_, ?_, ?_, fun e he => ?_⟩
  · rw [hf.snd p, h.state, inOrder_append]
    rfl
  · rw [inOrder_append, firstFailure?_append, ← h.failure, TaskGroup.note, hending]
    simp [firstFailure?, inOrder]
  · rw [inOrder_append, outputsOf_append, TaskGroup.note, hending]
    simp only [outputsOf_append]
    rw [← List.append_assoc]
    exact h.outputs.append_right _
  · rcases List.mem_append.mp he with he | he
    · exact h.kept e he
    · rw [List.mem_singleton.mp he, hending]
      exact hanswers _

/-- When several more tasks have run. -/
theorem Tracks.runTasks (h : Tracks sight limit t ran waiting g p) {tasks : List (Run σ (Ending α))}
    {fs : List (Act τ (Ending α))} (htasks : List.Forall₂ (Run.Acts sight) tasks fs)
    (hanswers : ∀ f ∈ fs, Answers f) :
    Tracks sight limit t (ran ++ fs) waiting (g.runTasks tasks p).1 (g.runTasks tasks p).2 := by
  induction htasks generalizing ran g p with
  | nil =>
      rw [List.append_nil]
      exact h
  | cons htask _ ih =>
      obtain ⟨hf, hrest⟩ := List.forall_mem_cons.mp hanswers
      rw [List.append_cons]
      exact ih (h.note htask hf) hrest

/-- When a turn has ended, the first tasks of the queue have run. -/
theorem Tracks.endTurn (h : Tracks sight limit t ran waiting g p)
    (hanswers : ∀ f ∈ waiting, Answers f) :
    Tracks sight limit t (ran ++ waiting.take tasksPerRound) (waiting.drop tasksPerRound)
      (g.endTurn p).1 (g.endTurn p).2 := by
  have hlater : Tracks sight limit t ran (waiting.drop tasksPerRound)
      { g with queue := g.queue.drop tasksPerRound } p :=
    ⟨h.limit, List.forall₂_drop tasksPerRound h.queue, h.state, h.failure, h.outputs, h.kept⟩
  have hran := hlater.runTasks (List.forall₂_take tasksPerRound h.queue)
    fun f hf => hanswers f (List.mem_of_mem_take hf)
  refine ⟨hran.limit, hran.queue, ?_, hran.failure, hran.outputs, hran.kept⟩
  exact (sight.see_steps _ _).trans hran.state

/-- A failure is not forgotten. -/
theorem isSome_firstFailure? {fs gs : List (Act τ (Ending α))}
    (h : (firstFailure? (inOrder fs t).1).isSome = true) :
    (firstFailure? (inOrder (fs ++ gs) t).1).isSome = true := by
  rw [inOrder_append, firstFailure?_append, Option.isSome_or, h, Bool.true_or]

/-! ### Tasks that are taken on -/

variable {taken offered : List (Act τ (Ending α))}

/-- A group that has taken on some tasks, whether or not they have run. -/
def HasTaken (sight : Sight σ τ) (limit : Nat) (t : τ) (taken : List (Act τ (Ending α)))
    (g : TaskGroup σ α) (p : Progress σ) : Prop :=
  ∃ ran waiting, taken = ran ++ waiting ∧ Tracks sight limit t ran waiting g p

/-- The end of a turn does not change what was taken on. -/
theorem HasTaken.endTurn (h : HasTaken sight limit t taken g p)
    (hanswers : ∀ f ∈ taken, Answers f) :
    HasTaken sight limit t taken (g.endTurn p).1 (g.endTurn p).2 := by
  obtain ⟨ran, waiting, rfl, htracks⟩ := h
  have hended := htracks.endTurn fun f hf => hanswers f (List.mem_append_right _ hf)
  refine ⟨_, _, ?_, hended⟩
  rw [List.append_assoc, List.take_append_drop]

/-- What was taken on stays so at the end of a turn. -/
theorem HasTaken.endTurnIfSpent (h : HasTaken sight limit t taken g p)
    (hanswers : ∀ f ∈ taken, Answers f) :
    HasTaken sight limit t taken (g.endTurnIfSpent p).1 (g.endTurnIfSpent p).2 := by
  change HasTaken sight limit t taken ((if p.steps = 0 then g.endTurn else pure g) p).1
    ((if p.steps = 0 then g.endTurn else pure g) p).2
  split
  · exact h.endTurn hanswers
  · exact h

/-- What was taken on stays so while a place is awaited. -/
theorem HasTaken.awaitPlace (h : HasTaken sight limit t taken g p)
    (hanswers : ∀ f ∈ taken, Answers f) :
    HasTaken sight limit t taken (g.awaitPlace p).1 (g.awaitPlace p).2 := by
  rw [TaskGroup.awaitPlace]
  split
  · exact h
  · exact h.endTurn hanswers

/-- The group and the progress when there is a place for another task. -/
def atPlace (g : TaskGroup σ α) (p : Progress σ) : TaskGroup σ α × Progress σ :=
  (g.endTurnIfSpent p).1.awaitPlace (g.endTurnIfSpent p).2

/-- What was taken on stays so until there is a place. -/
theorem HasTaken.atPlace (h : HasTaken sight limit t taken g p)
    (hanswers : ∀ f ∈ taken, Answers f) :
    HasTaken sight limit t taken (g.atPlace p).1 (g.atPlace p).2 :=
  (h.endTurnIfSpent hanswers).awaitPlace hanswers

/-- A task is taken on when there is a place, unless the group has failed by then. -/
theorem spawn_eq (g : TaskGroup σ α) (task : Run σ (Ending α)) (p : Progress σ)
    (h : ¬ g.failure?.isSome = true) :
    g.spawn task p =
      if (g.atPlace p).1.failure?.isSome = true then
        ((g.atPlace p).1, { (g.atPlace p).2 with steps := (g.atPlace p).2.steps - 1 })
      else
        ({ (g.atPlace p).1 with
            queue := (g.atPlace p).1.queue ++ [task]
            dispatched := (g.atPlace p).1.dispatched + 1 },
          { (g.atPlace p).2 with steps := (g.atPlace p).2.steps - 1 }) := by
  rw [TaskGroup.spawn, if_neg h]
  change (if (g.atPlace p).1.failure?.isSome = true then Pure.pure (g.atPlace p).1
    else Pure.pure _ : Run σ (TaskGroup σ α)) { (g.atPlace p).2 with steps := _ } = _
  split <;> rfl

/-- A step that is taken does not change what was taken on. -/
theorem HasTaken.step (h : HasTaken sight limit t taken g p) (steps : Nat) :
    HasTaken sight limit t taken g { p with steps } := by
  obtain ⟨ran, waiting, heq, htracks⟩ := h
  exact ⟨ran, waiting, heq, htracks.limit, htracks.queue,
    (sight.see_steps _ _).trans htracks.state, htracks.failure, htracks.outputs, htracks.kept⟩

/-- A task that is taken on. -/
theorem HasTaken.take (h : HasTaken sight limit t taken g p) {task : Run σ (Ending α)}
    {f : Act τ (Ending α)} (hf : Run.Acts sight task f) (dispatched : Nat) :
    HasTaken sight limit t (taken ++ [f]) { g with queue := g.queue ++ [task], dispatched } p := by
  obtain ⟨ran, waiting, rfl, htracks⟩ := h
  refine ⟨ran, waiting ++ [f], List.append_assoc _ _ _, ?_⟩
  exact ⟨htracks.limit, List.rel_append htracks.queue (.cons hf .nil), htracks.state,
    htracks.failure, htracks.outputs, htracks.kept⟩

/-! ### The group in numbers -/

/-- How far a group has come, in numbers. -/
def load (g : TaskGroup σ α) (p : Progress σ) : Load := ⟨g.queue.length, g.endings.length, p.steps⟩

/-- The end of a turn goes by the load alone. -/
theorem load_endTurn (g : TaskGroup σ α) (p : Progress σ) :
    (g.endTurn p).1.load (g.endTurn p).2 = (g.load p).endTurn := by
  obtain ⟨hqueue, hendings, hsteps⟩ := g.endTurn_lengths p
  rw [load, hqueue, hendings, hsteps]
  rfl

/-- The end of a turn that comes when all steps are spent goes by the load alone. -/
theorem load_endTurnIfSpent (g : TaskGroup σ α) (p : Progress σ) :
    (g.endTurnIfSpent p).1.load (g.endTurnIfSpent p).2 = (g.load p).endTurnIfSpent := by
  change ((if p.steps = 0 then g.endTurn else pure g) p).1.load
    ((if p.steps = 0 then g.endTurn else pure g) p).2 = _
  rw [Load.endTurnIfSpent]
  split
  · exact (g.load_endTurn p).trans (if_pos ‹_›).symm
  · exact (if_neg ‹_›).symm

/-- To await a place goes by the load alone. -/
theorem load_awaitPlace (g : TaskGroup σ α) (p : Progress σ) :
    (g.awaitPlace p).1.load (g.awaitPlace p).2 = (g.load p).awaitPlace g.limit := by
  rw [awaitPlace, Load.awaitPlace]
  split
  · exact (if_pos ‹_›).symm
  · exact (g.load_endTurn p).trans (if_neg ‹_›).symm

/-- Running tasks changes neither how many may be under way nor how many were taken on. -/
theorem runTasks_fixed (g : TaskGroup σ α) (tasks : List (Run σ (Ending α))) (p : Progress σ) :
    (g.runTasks tasks p).1.limit = g.limit ∧ (g.runTasks tasks p).1.dispatched = g.dispatched := by
  induction tasks generalizing g p with
  | nil => exact ⟨rfl, rfl⟩
  | cons task rest ih => exact ih (g.note (task p).1) (task p).2

/-- The end of a turn changes neither the limit nor what was dispatched. -/
theorem endTurnIfSpent_fixed (g : TaskGroup σ α) (p : Progress σ) :
    (g.endTurnIfSpent p).1.limit = g.limit ∧
      (g.endTurnIfSpent p).1.dispatched = g.dispatched := by
  change ((if p.steps = 0 then g.endTurn else pure g) p).1.limit = _ ∧
    ((if p.steps = 0 then g.endTurn else pure g) p).1.dispatched = _
  split
  · exact runTasks_fixed _ _ p
  · exact ⟨rfl, rfl⟩

/-- To wait for a place changes neither the limit nor what was dispatched. -/
theorem atPlace_fixed (g : TaskGroup σ α) (p : Progress σ) :
    (g.atPlace p).1.limit = g.limit ∧ (g.atPlace p).1.dispatched = g.dispatched := by
  obtain ⟨hlimit, hdispatched⟩ := g.endTurnIfSpent_fixed p
  rw [← hlimit, ← hdispatched, atPlace, awaitPlace]
  split
  · exact ⟨rfl, rfl⟩
  · exact runTasks_fixed _ _ _

/-- To wait for a place goes by the load alone. -/
theorem load_atPlace (g : TaskGroup σ α) (p : Progress σ) :
    (g.atPlace p).1.load (g.atPlace p).2 = (g.load p).atPlace g.limit := by
  rw [atPlace, load_awaitPlace, load_endTurnIfSpent, (g.endTurnIfSpent_fixed p).1]
  rfl

/-- A group keeps its limit. -/
theorem HasTaken.limit_eq (h : HasTaken sight limit t taken g p) : g.limit = limit := by
  obtain ⟨_, _, _, htracks⟩ := h
  exact htracks.limit

/-! ### Tasks that are offered -/

/-- Of the tasks that are offered so many are taken on: up to the first for which there is a place
only when one has failed. -/
def TakenUpTo (limit steps : Nat) (t : τ) (offered : List (Act τ (Ending α))) (n : Nat) : Prop :=
  (∀ m < n, firstFailure? (inOrder (offered.take (ranBefore limit steps m)) t).1 = none) ∧
    (n < offered.length →
      (firstFailure? (inOrder (offered.take (ranBefore limit steps n)) t).1).isSome = true)

/-- The tasks that have run by some place are not changed by another one that is offered. -/
theorem take_ranBefore {m : Nat} (hm : m ≤ offered.length) (f : Act τ (Ending α)) :
    (offered ++ [f]).take (ranBefore limit steps m) = offered.take (ranBefore limit steps m) :=
  List.take_append_of_le_length ((ranBefore_le limit steps m).trans hm)

/-- What matters are the tasks before the first that is not taken on. -/
theorem TakenUpTo.offer {n : Nat} (h : TakenUpTo limit steps t offered n)
    (hn : n < offered.length) (f : Act τ (Ending α)) :
    TakenUpTo limit steps t (offered ++ [f]) n := by
  refine ⟨fun m hm => ?_, fun _ => ?_⟩
  · rw [take_ranBefore (hm.trans hn).le]
    exact h.1 m hm
  · rw [take_ranBefore hn.le]
    exact h.2 hn

/-- Where a group has come to that was offered some tasks. -/
inductive Reached (sight : Sight σ τ) (limit steps : Nat) (t : τ) :
    List (Act τ (Ending α)) → TaskGroup σ α → Progress σ → Prop
  /-- All have been taken on, and those that have run have not failed. -/
  | going {offered : List (Act τ (Ending α))} {g : TaskGroup σ α} {p : Progress σ} :
    HasTaken sight limit t offered g p → g.failure? = none →
    g.load p = Load.afterTaking limit steps offered.length →
    TakenUpTo limit steps t offered offered.length → Reached sight limit steps t offered g p
  /-- One has failed, and some have not been taken on. -/
  | stopped {taken dropped : List (Act τ (Ending α))} {g : TaskGroup σ α} {p : Progress σ} :
    HasTaken sight limit t taken g p → g.failure?.isSome = true → dropped ≠ [] →
    TakenUpTo limit steps t (taken ++ dropped) taken.length →
    Reached sight limit steps t (taken ++ dropped) g p

/-- A new group has been offered nothing. -/
theorem reached_new (limit : Nat) (p : Progress σ) :
    Reached sight (max 1 limit) p.steps (sight.see p) [] (.new limit : TaskGroup σ α) p :=
  .going ⟨[], [], rfl, tracks_new limit p⟩ rfl rfl
    ⟨fun m hm => absurd hm (Nat.not_lt_zero m), fun hlt => absurd hlt (lt_irrefl _)⟩

/-- What is seen may change in a way that does not matter to the tasks, as if it had been so from
the beginning. -/
theorem Reached.shift (h : Reached sight limit steps t offered g p) {φ : τ → τ}
    (hφ : ∀ f ∈ offered, ∀ t, f (φ t) = ((f t).1, φ (f t).2)) {q : Progress σ}
    (hsee : sight.see q = φ (sight.see p)) (hsteps : q.steps = p.steps) :
    Reached sight limit steps (φ t) offered g q := by
  have htaken : ∀ {taken : List (Act τ (Ending α))}, (∀ f ∈ taken, f ∈ offered) →
      HasTaken sight limit t taken g p → HasTaken sight limit (φ t) taken g q := by
    rintro _ hmem ⟨ran, waiting, rfl, htracks⟩
    have hran : inOrder ran (φ t) = ((inOrder ran t).1, φ (inOrder ran t).2) :=
      inOrder_shift (fun f hf => hφ f (hmem f (List.mem_append_left _ hf))) t
    refine ⟨ran, waiting, rfl, htracks.limit, htracks.queue, ?_, ?_, ?_, htracks.kept⟩
    · rw [hsee, htracks.state, hran]
    · rw [hran]
      exact htracks.failure
    · rw [hran]
      exact htracks.outputs
  have hupto : ∀ {n : Nat}, TakenUpTo limit steps t offered n →
      TakenUpTo limit steps (φ t) offered n := by
    have hfst : ∀ n, (inOrder (offered.take n) (φ t)).1 = (inOrder (offered.take n) t).1 := by
      intro n
      rw [inOrder_shift fun f hf => hφ f (List.mem_of_mem_take hf)]
    intro n h
    refine ⟨fun m hm => ?_, fun hlt => ?_⟩
    · rw [hfst]
      exact h.1 m hm
    · rw [hfst]
      exact h.2 hlt
  cases h with
  | going htook hnone hload hall =>
      refine .going (htaken (fun _ => id) htook) hnone ?_ (hupto hall)
      rw [← hload, load, load, hsteps]
  | stopped htook hfailure hdropped hall =>
      exact .stopped (htaken (fun _ => List.mem_append_left _) htook) hfailure hdropped (hupto hall)

/-- Of the tasks that were offered the first ones have run. -/
theorem Reached.exists_ran (h : Reached sight limit steps t offered g p) :
    ∃ ran rest, offered = ran ++ rest ∧ sight.see p = (inOrder ran t).2 := by
  cases h with
  | going htaken _ _ _ =>
      obtain ⟨ran, waiting, heq, htracks⟩ := htaken
      exact ⟨ran, waiting, heq, htracks.state⟩
  | @stopped taken dropped _ _ htaken _ _ _ =>
      obtain ⟨ran, waiting, rfl, htracks⟩ := htaken
      exact ⟨ran, waiting ++ dropped, List.append_assoc _ _ _, htracks.state⟩

/-- **A task that is offered** is taken on, unless one has failed. -/
theorem Reached.spawn (h : Reached sight limit steps t offered g p)
    (hanswers : ∀ f ∈ offered, Answers f) {task : Run σ (Ending α)} {f : Act τ (Ending α)}
    (hf : Run.Acts sight task f) :
    Reached sight limit steps t (offered ++ [f]) (g.spawn task p).1 (g.spawn task p).2 := by
  cases h with
  | stopped htaken hfailure hdropped hupto =>
      rw [TaskGroup.spawn, if_pos hfailure, List.append_assoc]
      refine .stopped htaken hfailure (by simp) ?_
      rw [← List.append_assoc]
      refine hupto.offer ?_ f
      rw [List.length_append]
      have := List.length_pos_iff.mpr hdropped
      omega
  | going htaken hnone hload hupto =>
      have hplace := htaken.atPlace hanswers
      have hloadPlace := g.load_atPlace p
      rw [hload, htaken.limit_eq] at hloadPlace
      -- The tasks that have run by now are as many as the numbers say.
      have hran : (g.atPlace p).1.failure? =
          firstFailure? (inOrder (offered.take (ranBefore limit steps offered.length)) t).1 := by
        obtain ⟨ran, waiting, hoffered, htracks⟩ := hplace
        have hwaiting := congrArg Load.waiting hloadPlace
        rw [waiting_atPlace] at hwaiting
        change (g.atPlace p).1.queue.length = _ at hwaiting
        have hlength := congrArg List.length hoffered
        have hle := ranBefore_le limit steps offered.length
        rw [htracks.queue.length_eq] at hwaiting
        rw [List.length_append] at hlength
        rw [htracks.failure, show ranBefore limit steps offered.length = ran.length by omega]
        rw [hoffered, List.take_left]
      rw [spawn_eq g task p (by simp [hnone])]
      split
      · rename_i hfailure
        refine .stopped (hplace.step _) hfailure (by simp) ⟨fun m hm => ?_, fun _ => ?_⟩
        · rw [take_ranBefore hm.le]
          exact hupto.1 m hm
        · rw [take_ranBefore (le_refl _), ← hran]
          exact hfailure
      · rename_i hgoing
        have hnone' : (g.atPlace p).1.failure? = none := by simpa using hgoing
        refine .going ((hplace.step _).take hf _) hnone' ?_ ⟨fun m hm => ?_, fun hlt => ?_⟩
        · rw [List.length_append, List.length_singleton, Load.afterTaking_succ, Load.take,
            ← hloadPlace]
          simp [load]
        · rw [List.length_append, List.length_singleton] at hm
          rw [take_ranBefore (Nat.lt_succ_iff.mp hm)]
          rcases Nat.lt_succ_iff_lt_or_eq.mp hm with hm | rfl
          · exact hupto.1 m hm
          · rw [← hran, hnone']
        · exact absurd hlt (lt_irrefl _)

/-- Tasks are offered in order. -/
theorem Reached.spawnAll (h : Reached sight limit steps t offered g p)
    {tasks : List (Run σ (Ending α))} {fs : List (Act τ (Ending α))}
    (htasks : List.Forall₂ (Run.Acts sight) tasks fs) (hanswers : ∀ f ∈ offered ++ fs, Answers f) :
    Reached sight limit steps t (offered ++ fs) (g.spawnAll tasks p).1 (g.spawnAll tasks p).2 := by
  induction htasks generalizing offered g p with
  | nil =>
      rw [List.append_nil]
      exact h
  | @cons task f tasks fs htask _ ih =>
      rw [List.append_cons] at hanswers ⊢
      exact ih (h.spawn (fun f hf => hanswers f (by simp [hf])) htask) hanswers

/-! ### Collecting -/

/-- To collect endings changes nothing but where their outputs are. -/
theorem Tracks.collect (h : Tracks sight limit t ran waiting g p) :
    Tracks sight limit t ran waiting (g.collect p).1 (g.collect p).2 := by
  refine ⟨h.limit, h.queue, (sight.see_steps _ _).trans h.state, ?_, ?_,
    fun e he => h.kept e (List.mem_of_mem_drop he)⟩
  · have hnone : (g.endings.take p.steps).findSome? Ending.lateFailure? = none :=
      List.findSome?_eq_none_iff.mpr fun e he => h.kept e (List.mem_of_mem_take he)
    change g.failure?.or _ = _
    rw [hnone, Option.or_none, h.failure]
  · change (g.outputs ++ outputsOf (g.endings.take p.steps) ++
      outputsOf (g.endings.drop p.steps)).Perm _
    rw [List.append_assoc, ← outputsOf_append, List.take_append_drop]
    exact h.outputs

/-- Tasks that run do not depend on what was collected, and leave it as it is. -/
theorem runTasks_outputs (g : TaskGroup σ α) (outputs : List α) (tasks : List (Run σ (Ending α)))
    (p : Progress σ) :
    runTasks { g with outputs } tasks p =
        ({ (g.runTasks tasks p).1 with outputs }, (g.runTasks tasks p).2) ∧
      (g.runTasks tasks p).1.outputs = g.outputs := by
  induction tasks generalizing g p with
  | nil => exact ⟨rfl, rfl⟩
  | cons task rest ih => exact ih (g.note (task p).1) (task p).2

/-- The end of a turn leaves outputs alone, and they do not matter to it. -/
theorem endTurn_outputs (g : TaskGroup σ α) (outputs : List α) (p : Progress σ) :
    endTurn { g with outputs } p = ({ (g.endTurn p).1 with outputs }, (g.endTurn p).2) ∧
      (g.endTurn p).1.outputs = g.outputs := by
  obtain ⟨hrun, hkept⟩ := runTasks_outputs { g with queue := g.queue.drop tasksPerRound } outputs
    (g.queue.take tasksPerRound) p
  refine ⟨?_, hkept⟩
  change ((runTasks _ _ p).1, { (runTasks _ _ p).2 with steps := stepsPerTurn }) = _
  rw [hrun]
  rfl

/-- To put an ending off changes only the order of the endings. -/
theorem Tracks.putOff (h : Tracks sight limit t ran waiting g p)
    (hanswers : ∀ f ∈ waiting, Answers f) :
    Tracks sight limit t (ran ++ waiting.take tasksPerRound) (waiting.drop tasksPerRound)
      (g.putOff p).1 (g.putOff p).2 := by
  -- It is as if the ending were collected before the turn ends, and not after.
  have hearly : Tracks sight limit t ran waiting
      { g with
        endings := g.endings.tail
        outputs := g.outputs ++ outputsOf g.endings.head?.toList } p := by
    refine ⟨h.limit, h.queue, h.state, h.failure, ?_, fun e he => ?_⟩
    swap
    · exact h.kept e (List.mem_of_mem_tail he)
    have hsplit : g.endings.head?.toList ++ g.endings.tail = g.endings := by
      cases g.endings <;> rfl
    rw [List.append_assoc, ← outputsOf_append, hsplit]
    exact h.outputs
  obtain ⟨hrun, hkept⟩ := endTurn_outputs { g with endings := g.endings.tail }
    (g.outputs ++ outputsOf g.endings.head?.toList) p
  have hended := hearly.endTurn hanswers
  rw [hrun] at hended
  refine ⟨hended.limit, hended.queue, hended.state, hended.failure, ?_, fun e he => ?_⟩
  · refine List.Perm.trans ?_ hended.outputs
    change ((TaskGroup.endTurn { g with endings := g.endings.tail } p).1.outputs ++ outputsOf
      ((TaskGroup.endTurn { g with endings := g.endings.tail } p).1.endings ++
        g.endings.head?.toList)).Perm _
    rw [hkept, outputsOf_append, List.append_assoc]
    exact List.perm_append_comm.append_left _
  · rcases List.mem_append.mp he with he | he
    · exact hended.kept e he
    · exact h.kept e (List.mem_of_mem_head? (by simpa using he))

/-- What was taken on stays so when what has ended is collected. -/
theorem HasTaken.collect (h : HasTaken sight limit t taken g p) :
    HasTaken sight limit t taken (g.collect p).1 (g.collect p).2 := by
  obtain ⟨ran, waiting, heq, htracks⟩ := h
  exact ⟨ran, waiting, heq, htracks.collect⟩

/-- What was taken on stays so when the end of a turn is put off. -/
theorem HasTaken.putOff (h : HasTaken sight limit t taken g p)
    (hanswers : ∀ f ∈ taken, Answers f) :
    HasTaken sight limit t taken (g.putOff p).1 (g.putOff p).2 := by
  obtain ⟨ran, waiting, rfl, htracks⟩ := h
  have hput := htracks.putOff fun f hf => hanswers f (List.mem_append_right _ hf)
  refine ⟨_, _, ?_, hput⟩
  rw [List.append_assoc, List.take_append_drop]

/-- A group that is settled has run all that it has taken on. -/
theorem HasTaken.tracks (h : HasTaken sight limit t taken g p) (hsettled : g.isSettled = true) :
    Tracks sight limit t taken [] g p := by
  obtain ⟨ran, waiting, rfl, htracks⟩ := h
  simp only [isSettled, Bool.and_eq_true, List.isEmpty_iff] at hsettled
  obtain rfl : waiting = [] := by
    have hwaiting := htracks.queue
    rw [hsettled.1] at hwaiting
    exact List.forall₂_nil_left_iff.mp hwaiting
  rwa [List.append_nil]

/-- What is collected goes by the load alone. -/
theorem load_collect (g : TaskGroup σ α) (p : Progress σ) :
    (g.collect p).1.load (g.collect p).2 = (g.load p).collect := by
  simp [load, collect, Load.collect]

/-- What happens when the end of a turn is put off goes by the load alone. -/
theorem load_putOff (g : TaskGroup σ α) (p : Progress σ) :
    (g.putOff p).1.load (g.putOff p).2 = (g.load p).endTurn := by
  obtain ⟨hqueue, hendings, hsteps⟩ := g.putOff_lengths p
  rw [load, hqueue, hendings, hsteps]
  rfl

/-- The steps that a group leaves are those that the numbers say. -/
theorem steps_wait (g : TaskGroup σ α) (p : Progress σ) :
    (g.wait p).2.steps = (g.load p).settle.steps := by
  have hsettled : ∀ (g : TaskGroup σ α) p, (g.collect p).1.isSettled = true ↔
      (g.load p).collect.waiting = 0 ∧ (g.load p).collect.ended = 0 := by
    intro g p
    rw [← load_collect]
    simp [isSettled, load]
  induction g, p using TaskGroup.wait.induct with
  | case1 g p collected h =>
      rw [TaskGroup.wait, dif_pos h, Load.settle, if_pos ((hsettled g p).mp h), ← load_collect]
      rfl
  | case2 g p collected h next ih =>
      rw [TaskGroup.wait, dif_neg h, Load.settle, if_neg (mt (hsettled g p).mpr h), ← load_collect,
        ← load_putOff]
      exact ih

/-- **What a group has carried out in the end**: all its tasks in order, or, if one has failed,
those that were taken on. -/
inductive CarriedOut (sight : Sight σ τ) (limit steps : Nat) (t : τ) :
    List (Act τ (Ending α)) → Except OperationError (List α) → Progress σ → Prop
  | done {fs : List (Act τ (Ending α))} {outputs : List α} {p : Progress σ} :
    sight.see p = (inOrder fs t).2 → firstFailure? (inOrder fs t).1 = none →
    outputs.Perm (outputsOf (inOrder fs t).1) → p.steps = stepsAfter limit steps fs.length →
    CarriedOut sight limit steps t fs (.ok outputs) p
  | failed {taken dropped : List (Act τ (Ending α))} {e : OperationError} {p : Progress σ} :
    sight.see p = (inOrder taken t).2 → firstFailure? (inOrder taken t).1 = some e →
    TakenUpTo limit steps t (taken ++ dropped) taken.length →
    CarriedOut sight limit steps t (taken ++ dropped) (.error e) p

/-- To wait for a group runs what it has taken on. -/
theorem HasTaken.wait (h : HasTaken sight limit t taken g p) (hanswers : ∀ f ∈ taken, Answers f) :
    sight.see (g.wait p).2 = (inOrder taken t).2 ∧
      match firstFailure? (inOrder taken t).1 with
      | some e => (g.wait p).1 = .error e
      | none => ∃ outputs, (g.wait p).1 = .ok outputs ∧
          outputs.Perm (outputsOf (inOrder taken t).1) := by
  induction g, p using TaskGroup.wait.induct with
  | case1 g p collected hsettled =>
      rw [TaskGroup.wait, dif_pos hsettled]
      have htracks := h.collect.tracks hsettled
      refine ⟨htracks.state, ?_⟩
      rw [TaskGroup.result, ← htracks.failure]
      cases hfailure : (g.collect p).1.failure? with
      | some e => rfl
      | none =>
          refine ⟨_, rfl, ?_⟩
          have houtputs := htracks.outputs
          simp only [isSettled, Bool.and_eq_true, List.isEmpty_iff] at hsettled
          rw [hsettled.2] at houtputs
          simpa [outputsOf] using houtputs
  | case2 g p collected hsettled next ih =>
      rw [TaskGroup.wait, dif_neg hsettled]
      exact ih (h.collect.putOff hanswers)

/-- When a group is waited for, all that was offered is carried out. -/
theorem Reached.wait (h : Reached sight limit steps t offered g p)
    (hanswers : ∀ f ∈ offered, Answers f) :
    CarriedOut sight limit steps t offered (g.wait p).1 (g.wait p).2 := by
  have hsteps := g.steps_wait p
  cases h with
  | going htaken _ hload hupto =>
      obtain ⟨hsee, hresult⟩ := htaken.wait hanswers
      rw [hload] at hsteps
      cases hfailure : firstFailure? (inOrder offered t).1 with
      | some e =>
          rw [hfailure] at hresult
          rw [hresult]
          have hall : CarriedOut sight limit steps t (offered ++ []) (.error e) (g.wait p).2 :=
            .failed hsee hfailure (by rwa [List.append_nil])
          rwa [List.append_nil] at hall
      | none =>
          rw [hfailure] at hresult
          obtain ⟨outputs, hok, hperm⟩ := hresult
          rw [hok]
          exact .done hsee hfailure hperm hsteps
  | @stopped taken dropped _ _ htaken hfailure hdropped hupto =>
      obtain ⟨hsee, hresult⟩ := htaken.wait fun f hf => hanswers f (List.mem_append_left _ hf)
      -- The tasks that were taken on include the one that failed.
      have hsome : (firstFailure? (inOrder taken t).1).isSome = true := by
        have hlt : taken.length < (taken ++ dropped).length := by
          have := List.length_pos_iff.mpr hdropped
          rw [List.length_append]
          omega
        have hfailed := hupto.2 hlt
        rw [List.take_append_of_le_length (ranBefore_le limit steps _)] at hfailed
        rw [← List.take_append_drop (ranBefore limit steps taken.length) taken]
        exact isSome_firstFailure? hfailed
      obtain ⟨e, he⟩ := Option.isSome_iff_exists.mp hsome
      rw [he] at hresult
      rw [hresult]
      exact .failed hsee he hupto

/-- To have a group carry out tasks. -/
def carryOut (limit : Nat) (tasks : List (Run σ (Ending α))) :
    Run σ (Except OperationError (List α)) := do
  let group ← (TaskGroup.new limit).spawnAll tasks
  group.wait

/-- **A group carries out its tasks in order.** -/
theorem carriedOut_carryOut (limit : Nat) {tasks : List (Run σ (Ending α))}
    {fs : List (Act τ (Ending α))} (htasks : List.Forall₂ (Run.Acts sight) tasks fs)
    (hanswers : ∀ f ∈ fs, Answers f) (p : Progress σ) :
    CarriedOut sight (max 1 limit) p.steps (sight.see p) fs (carryOut limit tasks p).1
      (carryOut limit tasks p).2 :=
  ((reached_new limit p).spawnAll htasks hanswers).wait hanswers

end TaskGroup

end ClusterSnapshot
