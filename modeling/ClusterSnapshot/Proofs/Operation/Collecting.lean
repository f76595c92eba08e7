import ClusterSnapshot.Proofs.Operation.TaskGroup

/-!
# The order in which endings are collected

To wait for a group is to go through turns. In each of them endings are collected for as long as
there are steps, and then tasks run. An ending that comes up when the steps are used up is put off
behind those that come in before the next turn. So the outputs need not come in the order of the
tasks, and a task that was lost is noticed late. Both follow from the endings alone and from how
many steps are left.

## Main results

* `TaskGroup.turns`: what is collected in each turn, and what runs after it.
* `TaskGroup.collected_perm`, `TaskGroup.collected_of_le`: every ending is collected, and in order
  if those that have come in can all be collected at once.
* `TaskGroup.wait_acts`: **what comes of waiting for a group**.
-/

namespace ClusterSnapshot

variable {σ τ α β : Type}

/-! ### Parts of acts in order -/

/-- Every act has a result. -/
theorem length_inOrder (fs : List (Act τ α)) (t : τ) : (inOrder fs t).1.length = fs.length := by
  induction fs generalizing t with
  | nil => rfl
  | cons f rest ih => exact congrArg (· + 1) (ih (f t).2)

/-- The results of the first acts are the first results. -/
theorem inOrder_take (n : Nat) (fs : List (Act τ α)) (t : τ) :
    (inOrder (fs.take n) t).1 = (inOrder fs t).1.take n := by
  induction n generalizing fs t with
  | zero => rfl
  | succ n ih =>
      cases fs with
      | nil => rfl
      | cons f rest => exact congrArg _ (ih rest (f t).2)

/-- The other acts are done after the first ones. -/
theorem inOrder_drop (n : Nat) (fs : List (Act τ α)) (t : τ) :
    inOrder (fs.drop n) (inOrder (fs.take n) t).2 =
      ((inOrder fs t).1.drop n, (inOrder fs t).2) := by
  induction n generalizing fs t with
  | zero => rfl
  | succ n ih =>
      cases fs with
      | nil => rfl
      | cons f rest => exact ih rest (f t).2

namespace TaskGroup

/-! ### Turns -/

/-- The endings that are there when the next turn begins: the one that came up when the steps were
used up is behind those that have come in. -/
def nextEnded (incoming ended : List β) (steps : Nat) : List β :=
  (ended.drop steps).tail ++ incoming ++ (ended.drop steps).head?.toList

/-- What has ended next is what was left over and what has come in. -/
theorem nextEnded_perm (incoming ended : List β) (steps : Nat) :
    (nextEnded incoming ended steps).Perm (ended.drop steps ++ incoming) := by
  rw [nextEnded]
  cases ended.drop steps with
  | nil => simp
  | cons e rest => exact List.perm_append_singleton e _

/-- Each turn takes from what is coming or from what has ended. -/
theorem turns_lt {coming ended : List β} {steps : Nat}
    (h : ¬ (coming.isEmpty && (ended.drop steps).isEmpty) = true) :
    2 * (coming.drop tasksPerRound).length +
        (nextEnded (coming.take tasksPerRound) ended steps).length +
        (if stepsPerTurn = 0 then 1 else 0) <
      2 * coming.length + ended.length + if steps = 0 then 1 else 0 := by
  have hnext := (nextEnded_perm (coming.take tasksPerRound) ended steps).length_eq
  have hspent : ¬ stepsPerTurn = 0 := by decide
  rw [if_neg hspent]
  simp only [Bool.and_eq_true, List.isEmpty_iff, List.eq_nil_iff_length_eq_zero, List.length_append,
    List.length_take, List.length_drop, tasksPerRound] at h hnext ⊢
  split <;> omega

/-- **The turns in which endings are collected** when some have come in and others will: what is
collected in each of them, and what comes in after it. -/
def turns (coming ended : List β) (steps : Nat) : List (List β × List β) :=
  if coming.isEmpty && (ended.drop steps).isEmpty then [(ended.take steps, [])]
  else
    (ended.take steps, coming.take tasksPerRound) ::
      turns (coming.drop tasksPerRound) (nextEnded (coming.take tasksPerRound) ended steps)
        stepsPerTurn
termination_by 2 * coming.length + ended.length + if steps = 0 then 1 else 0
decreasing_by exact turns_lt ‹_›

/-- What is collected, in that order. -/
def collected (coming ended : List β) (steps : Nat) : List β :=
  (turns coming ended steps).flatMap (·.1)

/-- In the last turn all is collected that is there. -/
theorem turns_last {ended : List β} {steps : Nat} (h : (ended.drop steps).isEmpty = true) :
    turns [] ended steps = [(ended.take steps, [])] := by
  rw [turns, if_pos (by simpa using h)]

/-- What has ended is collected in the last turn. -/
theorem collected_last {ended : List β} {steps : Nat} (h : (ended.drop steps).isEmpty = true) :
    collected [] ended steps = ended := by
  rw [collected, turns_last h, List.flatMap_singleton]
  exact List.take_of_length_le (List.drop_eq_nil_iff.mp (List.isEmpty_iff.mp h))

/-- In every other turn some endings come in. -/
theorem turns_more {coming ended : List β} {steps : Nat}
    (h : ¬ (coming.isEmpty && (ended.drop steps).isEmpty) = true) :
    turns coming ended steps = (ended.take steps, coming.take tasksPerRound) ::
      turns (coming.drop tasksPerRound) (nextEnded (coming.take tasksPerRound) ended steps)
        stepsPerTurn := by
  rw [turns, if_neg h]

/-- In every other turn what there are steps for is collected, and then the rest. -/
theorem collected_more {coming ended : List β} {steps : Nat}
    (h : ¬ (coming.isEmpty && (ended.drop steps).isEmpty) = true) :
    collected coming ended steps = ended.take steps ++ collected (coming.drop tasksPerRound)
      (nextEnded (coming.take tasksPerRound) ended steps) stepsPerTurn := by
  rw [collected, turns_more h, List.flatMap_cons, collected]

/-- All that will come in comes in. -/
theorem flatMap_snd_turns (coming ended : List β) (steps : Nat) :
    (turns coming ended steps).flatMap (·.2) = coming := by
  induction coming, ended, steps using turns.induct with
  | case1 coming ended steps h =>
      rw [turns, if_pos h]
      simp only [Bool.and_eq_true, List.isEmpty_iff] at h
      rw [h.1]
      rfl
  | case2 coming ended steps h ih =>
      rw [turns_more h, List.flatMap_cons, ih, List.take_append_drop]

/-- **Every ending is collected.** -/
theorem collected_perm (coming ended : List β) (steps : Nat) :
    (collected coming ended steps).Perm (ended ++ coming) := by
  induction coming, ended, steps using turns.induct with
  | case1 coming ended steps h =>
      rw [Bool.and_eq_true, List.isEmpty_iff] at h
      rw [h.1, collected_last h.2, List.append_nil]
  | case2 coming ended steps h ih =>
      rw [collected_more h]
      calc List.Perm (ended.take steps ++ collected _ _ stepsPerTurn)
            (ended.take steps ++
              (nextEnded (coming.take tasksPerRound) ended steps ++ coming.drop tasksPerRound)) :=
          ih.append_left _
        List.Perm _ (ended.take steps ++
              (ended.drop steps ++ coming.take tasksPerRound ++ coming.drop tasksPerRound)) :=
          ((nextEnded_perm (coming.take tasksPerRound) ended steps).append_right _).append_left _
        _ = ended ++ coming := by
          rw [List.append_assoc, List.take_append_drop, ← List.append_assoc,
            List.take_append_drop]

/-- **Endings are collected in order** if those that have come in can all be collected at once. -/
theorem collected_of_le {coming ended : List β} {steps : Nat} (h : ended.length ≤ steps) :
    collected coming ended steps = ended ++ coming := by
  induction coming, ended, steps using turns.induct with
  | case1 coming ended steps hlast =>
      rw [Bool.and_eq_true, List.isEmpty_iff] at hlast
      rw [hlast.1, collected_last hlast.2, List.append_nil]
  | case2 coming ended steps hmore ih =>
      have hnext : nextEnded (coming.take tasksPerRound) ended steps =
          coming.take tasksPerRound := by
        rw [nextEnded, List.drop_of_length_le h]
        simp
      have hfew : (coming.take tasksPerRound).length ≤ stepsPerTurn :=
        (List.length_take_le _ _).trans (by decide)
      rw [hnext] at ih
      rw [collected_more hmore, hnext, ih hfew, List.take_append_drop, List.take_of_length_le h]

/-! ### What is noticed -/

/-- The first failure that is noticed: that a task was lost when its ending is collected, any other
one when the task ends. -/
def noticed (turns : List (List (Ending α) × List (Ending α))) : Option OperationError :=
  turns.findSome? fun turn =>
    (turn.1.findSome? Ending.lateFailure?).or (firstFailure? turn.2)

/-- A failure is noticed in the first turn that has one. -/
theorem noticed_cons (turn : List (Ending α) × List (Ending α))
    (rest : List (List (Ending α) × List (Ending α))) :
    noticed (turn :: rest) =
      ((turn.1.findSome? Ending.lateFailure?).or (firstFailure? turn.2)).or (noticed rest) := by
  rw [noticed, List.findSome?_cons, noticed]
  cases (turn.1.findSome? Ending.lateFailure?).or (firstFailure? turn.2) <;> rfl

variable {coming ended : List (Ending α)} {steps : Nat}

/-- What fails late is a lost task. -/
theorem eq_taskLost {x : Ending α} {e : OperationError} (h : x.lateFailure? = some e) :
    e = .taskLost := by
  cases x with
  | done output | failed error => cases h
  | lost => exact (Option.some.inj h).symm

/-- What comes in a turn was coming. -/
theorem mem_coming {turn : List (Ending α) × List (Ending α)}
    (hturn : turn ∈ turns coming ended steps) {e : Ending α} (he : e ∈ turn.2) : e ∈ coming := by
  rw [← flatMap_snd_turns coming ended steps]
  exact List.mem_flatMap.mpr ⟨turn, hturn, he⟩

/-- No failure is noticed if no task was lost and none that is still to end fails. -/
theorem noticed_turns_eq_none_iff : noticed (turns coming ended steps) = none ↔
    (∀ e ∈ ended ++ coming, e.lateFailure? = none) ∧ ∀ e ∈ coming, e.failure? = none := by
  have hcollected : ∀ e, e ∈ (turns coming ended steps).flatMap (·.1) ↔ e ∈ ended ++ coming :=
    fun e => (collected_perm coming ended steps).mem_iff
  simp only [noticed, firstFailure?, List.findSome?_eq_none_iff, Option.or_eq_none_iff]
  constructor
  · intro h
    refine ⟨fun e he => ?_, fun e he => ?_⟩
    · obtain ⟨turn, hturn, he⟩ := List.mem_flatMap.mp ((hcollected e).mpr he)
      exact (h turn hturn).1 e he
    · rw [← flatMap_snd_turns coming ended steps] at he
      obtain ⟨turn, hturn, he⟩ := List.mem_flatMap.mp he
      exact (h turn hturn).2 e he
  · rintro ⟨hkept, hnone⟩ turn hturn
    exact ⟨fun e he => hkept e ((hcollected e).mp (List.mem_flatMap.mpr ⟨turn, hturn, he⟩)),
      fun e he => hnone e (mem_coming hturn he)⟩

/-- If no task was lost, the first failure is noticed. -/
theorem noticed_turns_of_kept (h : ∀ e ∈ ended ++ coming, e.lateFailure? = none) :
    noticed (turns coming ended steps) = firstFailure? coming := by
  have hkept : ∀ turn ∈ turns coming ended steps, ∀ e ∈ turn.1, e.lateFailure? = none :=
    fun turn hturn e he => h e
      ((collected_perm coming ended steps).mem_iff.mp (List.mem_flatMap.mpr ⟨turn, hturn, he⟩))
  suffices general : ∀ ts : List (List (Ending α) × List (Ending α)),
      (∀ turn ∈ ts, ∀ e ∈ turn.1, e.lateFailure? = none) →
      noticed ts = firstFailure? (ts.flatMap (·.2)) by
    rw [general _ hkept, flatMap_snd_turns]
  intro ts hts
  induction ts with
  | nil => rfl
  | cons turn rest ih =>
      obtain ⟨hturn, hrest⟩ := List.forall_mem_cons.mp hts
      have hnone : turn.1.findSome? Ending.lateFailure? = none :=
        List.findSome?_eq_none_iff.mpr hturn
      rw [List.flatMap_cons, firstFailure?_append, ← ih hrest, noticed_cons, hnone, Option.none_or]

/-- If no task has failed, it is noticed that one was lost. -/
theorem noticed_turns_of_lost (h : ∀ e ∈ coming, e.failure? = none)
    (hlost : ∃ e ∈ ended ++ coming, e.lateFailure? ≠ none) :
    noticed (turns coming ended steps) = some .taskLost := by
  obtain ⟨x, hx, hxlost⟩ := hlost
  cases hnoticed : noticed (turns coming ended steps) with
  | none => exact absurd ((noticed_turns_eq_none_iff.mp hnoticed).1 x hx) hxlost
  | some e =>
      obtain ⟨turn, hturn, he⟩ := List.exists_of_findSome?_eq_some hnoticed
      have hnone : firstFailure? turn.2 = none :=
        List.findSome?_eq_none_iff.mpr fun y hy => h y (mem_coming hturn hy)
      rw [hnone, Option.or_none] at he
      obtain ⟨y, -, hy⟩ := List.exists_of_findSome?_eq_some he
      rw [eq_taskLost hy]

/-! ### Running and waiting -/

variable {sight : Sight σ τ}

/-- Tasks that run act in order. -/
theorem runTasks_acts {tasks : List (Run σ (Ending α))} {fs : List (Act τ (Ending α))}
    (h : List.Forall₂ (Run.Acts sight) tasks fs) (g : TaskGroup σ α) (p : Progress σ) :
    let endings := (inOrder fs (sight.see p)).1
    (g.runTasks tasks p).1 = { g with
        endings := g.endings ++ endings
        failure? := g.failure?.or (firstFailure? endings) } ∧
      sight.see (g.runTasks tasks p).2 = (inOrder fs (sight.see p)).2 := by
  induction h generalizing g p with
  | nil =>
      refine ⟨?_, rfl⟩
      simp only [inOrder, List.append_nil, firstFailure?, List.findSome?_nil, Option.or_none]
      rfl
  | @cons task f tasks fs htask _ ih =>
      obtain ⟨hgroup, hsee⟩ := ih (g.note (task p).1) (task p).2
      rw [htask.snd p] at hgroup hsee
      refine ⟨hgroup.trans ?_, hsee⟩
      rw [TaskGroup.note, htask.fst p]
      simp only [inOrder, firstFailure?_cons, List.append_assoc, List.singleton_append,
        Option.or_assoc]

/-- When a turn ends, the first tasks of the queue act in order. -/
theorem endTurn_acts {g : TaskGroup σ α} {waiting : List (Act τ (Ending α))}
    (h : List.Forall₂ (Run.Acts sight) g.queue waiting) (p : Progress σ) :
    let done := inOrder (waiting.take tasksPerRound) (sight.see p)
    (g.endTurn p).1 = { g with
        queue := g.queue.drop tasksPerRound
        endings := g.endings ++ done.1
        failure? := g.failure?.or (firstFailure? done.1) } ∧
      sight.see (g.endTurn p).2 = done.2 := by
  obtain ⟨hgroup, hsee⟩ := runTasks_acts (List.forall₂_take tasksPerRound h)
    { g with queue := g.queue.drop tasksPerRound } p
  exact ⟨hgroup, (sight.see_steps _ _).trans hsee⟩

/-- What a group has come to in the next turn. -/
theorem nextTurn_acts {g : TaskGroup σ α} {waiting : List (Act τ (Ending α))}
    (h : List.Forall₂ (Run.Acts sight) g.queue waiting) (p : Progress σ) :
    let collected := g.collect p
    let next := collected.1.putOff collected.2
    let done := inOrder (waiting.take tasksPerRound) (sight.see p)
    next.1 = { g with
        queue := g.queue.drop tasksPerRound
        endings := nextEnded done.1 g.endings p.steps
        outputs := g.outputs ++ outputsOf (g.endings.take p.steps)
        failure? := (g.failure?.or ((g.endings.take p.steps).findSome? Ending.lateFailure?)).or
          (firstFailure? done.1) } ∧
      sight.see next.2 = done.2 ∧ next.2.steps = stepsPerTurn := by
  intro collected next done
  have hstart : sight.see collected.2 = sight.see p := sight.see_steps _ _
  obtain ⟨hgroup, hsee⟩ := endTurn_acts (g := { collected.1 with
    endings := collected.1.endings.tail }) h collected.2
  rw [hstart] at hgroup hsee
  refine ⟨?_, hsee, rfl⟩
  exact congrArg (fun g' : TaskGroup σ α =>
    { g' with endings := g'.endings ++ (g.endings.drop p.steps).head?.toList }) hgroup

/-- A group ends with its failure, if there is one, and else with its outputs. -/
theorem result_eq (g : TaskGroup σ α) : g.result = g.failure?.elim (.ok g.outputs) .error := by
  rw [TaskGroup.result]
  cases g.failure? <;> rfl

/-- What a group has come to in the last turn. -/
theorem collect_result {g : TaskGroup σ α} {p : Progress σ}
    (h : (g.endings.drop p.steps).isEmpty = true) :
    (g.collect p).1.result = (g.failure?.or (noticed (turns [] g.endings p.steps))).elim
      (.ok (g.outputs ++ outputsOf (collected [] g.endings p.steps))) .error := by
  have houtputs : (g.collect p).1.outputs =
      g.outputs ++ outputsOf (TaskGroup.collected [] g.endings p.steps) := by
    have hall : g.endings.take p.steps = g.endings :=
      List.take_of_length_le (List.drop_eq_nil_iff.mp (List.isEmpty_iff.mp h))
    rw [collected_last h]
    exact congrArg (g.outputs ++ outputsOf ·) hall
  have hfailure : (g.collect p).1.failure? =
      g.failure?.or (noticed (turns [] g.endings p.steps)) := by
    rw [turns_last h, noticed_cons]
    exact congrArg g.failure?.or (Option.or_none.trans Option.or_none).symm
  rw [result_eq, houtputs, hfailure]

/-- **What comes of waiting for a group**: all its tasks act in order, and the outputs are as they
were collected, unless a failure was noticed. -/
theorem wait_acts {g : TaskGroup σ α} {waiting : List (Act τ (Ending α))}
    (h : List.Forall₂ (Run.Acts sight) g.queue waiting) (p : Progress σ) :
    let done := inOrder waiting (sight.see p)
    (g.wait p).1 = (g.failure?.or (noticed (turns done.1 g.endings p.steps))).elim
        (.ok (g.outputs ++ outputsOf (collected done.1 g.endings p.steps))) .error ∧
      sight.see (g.wait p).2 = done.2 := by
  induction g, p using TaskGroup.wait.induct generalizing waiting with
  | case1 g p _ =>
      rename_i hsettled
      rw [TaskGroup.wait, dif_pos hsettled]
      have hlast : g.queue = [] ∧ (g.endings.drop p.steps).isEmpty = true := by
        rw [← List.isEmpty_iff, ← Bool.and_eq_true]
        exact hsettled
      rw [hlast.1] at h
      obtain rfl := List.forall₂_nil_left_iff.mp h
      exact ⟨collect_result hlast.2, sight.see_steps _ _⟩
  | case2 g p _ hmore next =>
      rename_i ih
      rw [TaskGroup.wait, dif_neg hmore]
      intro done
      have hmore' : ¬ (done.1.isEmpty && (g.endings.drop p.steps).isEmpty) = true := by
        have hlength : done.1.length = g.queue.length :=
          (length_inOrder waiting _).trans h.length_eq.symm
        have hempty : done.1.isEmpty = g.queue.isEmpty := by
          rw [Bool.eq_iff_iff, List.isEmpty_iff_length_eq_zero, List.isEmpty_iff_length_eq_zero,
            hlength]
        rw [hempty]
        exact hmore
      obtain ⟨hgroup, hsee, hsteps⟩ := nextTurn_acts h p
      rw [inOrder_take] at hgroup
      change next.1 = _ at hgroup
      change sight.see next.2 = _ at hsee
      have hwaiting : List.Forall₂ (Run.Acts sight) next.1.queue (waiting.drop tasksPerRound) := by
        rw [hgroup]
        exact List.forall₂_drop tasksPerRound h
      obtain ⟨hresult, hstate⟩ := ih hwaiting
      rw [hsee, inOrder_drop] at hresult hstate
      refine ⟨hresult.trans ?_, hstate⟩
      rw [show next.2.steps = stepsPerTurn from hsteps, hgroup, turns_more hmore', noticed_cons,
        collected_more hmore', outputsOf_append]
      simp only [Option.or_assoc, List.append_assoc]
      rfl

end TaskGroup

end ClusterSnapshot
