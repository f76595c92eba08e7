import ClusterSnapshot.Operation.Error
import ClusterSnapshot.Request.Run

/-!
# Task groups

A task group carries out tasks for a run, at most `limit` of them under way at a time. The run and
its tasks take turns. In its turn the run takes a step for every task that it takes on and a step
for every ending that it collects. The turn is over when its steps are used up, or when the run has
to wait: for a place if as many tasks are under way as may be, for an ending if there is none to
collect. Then up to `tasksPerRound` of the tasks under way run, each to its end and in order, and
the run has its next turn.

Once a task has failed no further one is taken on, but those already taken on all run. `wait` runs
what is left and gives the outputs in the order in which they were collected, or the first failure.
Endings are collected in order, except that one which comes up when the steps are used up is put off
behind those that come in before the next turn.

A task can also be lost without an answer. That stops nothing, and it is noticed only when its
ending is collected: there it counts as a failure unless a task has failed before.
-/

namespace ClusterSnapshot

/-- How a task ends. -/
inductive Ending (α : Type) where
  | done (output : α)
  | failed (error : OperationError)
  | lost
  deriving Repr

namespace Ending

variable {α : Type}

/-- What the task brought. -/
def output? : Ending α → Option α
  | .done x => some x
  | _ => none

/-- The failure that is noticed when the task ends. -/
def failure? : Ending α → Option OperationError
  | .failed e => some e
  | _ => none

/-- The failure that is noticed when the ending is collected. -/
def lateFailure? : Ending α → Option OperationError
  | .lost => some .taskLost
  | _ => none

end Ending

/-- The tasks that run at most before the run has its next turn. -/
def tasksPerRound : Nat := 61

/-- Tasks of runs over a state of type `σ` with outputs in `α`, as far as they have come. -/
structure TaskGroup (σ α : Type) where
  limit : Nat
  limit_pos : 0 < limit
  /-- The tasks under way, the next first. -/
  queue : List (Run σ (Ending α))
  /-- The endings that are not collected yet, the next first. -/
  endings : List (Ending α)
  /-- The outputs collected. -/
  outputs : List α
  /-- The first failure. -/
  failure? : Option OperationError
  /-- The number of tasks taken on. -/
  dispatched : Nat

namespace TaskGroup

variable {σ α : Type}

/-- A group without tasks. At least one task may be under way at a time. -/
def new (limit : Nat) : TaskGroup σ α where
  limit := max 1 limit
  limit_pos := by omega
  queue := []
  endings := []
  outputs := []
  failure? := none
  dispatched := 0

/-! ### Running -/

/-- The group after a task ended. -/
def note (g : TaskGroup σ α) (e : Ending α) : TaskGroup σ α :=
  { g with endings := g.endings ++ [e], failure? := g.failure?.or e.failure? }

/-- Runs tasks in order. -/
def runTasks (g : TaskGroup σ α) : List (Run σ (Ending α)) → Run σ (TaskGroup σ α)
  | [] => pure g
  | task :: rest => do
    let ending ← task
    runTasks (g.note ending) rest

/-- Ends the turn: tasks run, and another turn begins. -/
def endTurn (g : TaskGroup σ α) : Run σ (TaskGroup σ α) := do
  let g ← runTasks { g with queue := g.queue.drop tasksPerRound } (g.queue.take tasksPerRound)
  Run.beginTurn
  return g

/-- Lets the turn end if its steps are used up. -/
def endTurnIfSpent (g : TaskGroup σ α) : Run σ (TaskGroup σ α) := do
  if (← get).steps = 0 then g.endTurn else return g

/-- Waits for a place. -/
def awaitPlace (g : TaskGroup σ α) : Run σ (TaskGroup σ α) :=
  if g.queue.length < g.limit then return g else g.endTurn

/-- Takes a task on, unless one has failed. -/
def spawn (g : TaskGroup σ α) (task : Run σ (Ending α)) : Run σ (TaskGroup σ α) := do
  if g.failure?.isSome then return g
  let g ← g.endTurnIfSpent
  let g ← g.awaitPlace
  Run.step
  if g.failure?.isSome then return g
  return { g with queue := g.queue ++ [task], dispatched := g.dispatched + 1 }

/-- Takes tasks on in order. -/
def spawnAll (g : TaskGroup σ α) : List (Run σ (Ending α)) → Run σ (TaskGroup σ α)
  | [] => pure g
  | task :: rest => do
    let g ← g.spawn task
    g.spawnAll rest

/-! ### Collecting -/

/-- Collects endings for as long as there are steps. -/
def collect (g : TaskGroup σ α) : Run σ (TaskGroup σ α) := fun p =>
  let collected := g.endings.take p.steps
  ({ g with
      endings := g.endings.drop p.steps
      outputs := g.outputs ++ collected.filterMap Ending.output?
      failure? := g.failure?.or (collected.findSome? Ending.lateFailure?) },
    { p with steps := p.steps - collected.length })

/-- Ends the turn. An ending that is up for collecting is put off behind those that come in. -/
def putOff (g : TaskGroup σ α) : Run σ (TaskGroup σ α) := do
  let g' ← endTurn { g with endings := g.endings.tail }
  return { g' with endings := g'.endings ++ g.endings.head?.toList }

/-- The outputs, or the first failure. -/
def result (g : TaskGroup σ α) : Except OperationError (List α) :=
  match g.failure? with
  | some e => .error e
  | none => .ok g.outputs

/-- Whether every task has run and its ending is collected. -/
def isSettled (g : TaskGroup σ α) : Bool := g.queue.isEmpty && g.endings.isEmpty

/-- What is left to do: every task under way has to run and to be collected, every ending to be
collected, and a turn without steps has to end first. -/
def remaining (g : TaskGroup σ α) (p : Progress σ) : Nat :=
  2 * g.queue.length + g.endings.length + if p.steps = 0 then 1 else 0

/-- Running tasks leaves the queue as it is and gives an ending for each. -/
theorem runTasks_lengths (g : TaskGroup σ α) (tasks : List (Run σ (Ending α))) (p : Progress σ) :
    (g.runTasks tasks p).1.queue = g.queue ∧
      (g.runTasks tasks p).1.endings.length = g.endings.length + tasks.length := by
  induction tasks generalizing g p with
  | nil => exact ⟨rfl, rfl⟩
  | cons task rest ih =>
    obtain ⟨hq, he⟩ := ih (g.note (task p).1) (task p).2
    refine ⟨hq, he.trans ?_⟩
    simp [note]
    omega

/-- The end of a turn lets the first tasks of the queue run. -/
theorem endTurn_lengths (g : TaskGroup σ α) (p : Progress σ) :
    (g.endTurn p).1.queue.length = g.queue.length - tasksPerRound ∧
      (g.endTurn p).1.endings.length = g.endings.length + min tasksPerRound g.queue.length ∧
      (g.endTurn p).2.steps = stepsPerTurn := by
  obtain ⟨hq, he⟩ := runTasks_lengths { g with queue := g.queue.drop tasksPerRound }
    (g.queue.take tasksPerRound) p
  refine ⟨(congrArg List.length hq).trans (by simp), he.trans (by simp), rfl⟩

/-- Putting an ending off does not lose it. -/
theorem putOff_lengths (g : TaskGroup σ α) (p : Progress σ) :
    (g.putOff p).1.queue.length = g.queue.length - tasksPerRound ∧
      (g.putOff p).1.endings.length = g.endings.length + min tasksPerRound g.queue.length ∧
      (g.putOff p).2.steps = stepsPerTurn := by
  obtain ⟨hq, he, hs⟩ := endTurn_lengths { g with endings := g.endings.tail } p
  refine ⟨hq, (List.length_append.trans (congrArg (· + _) he)).trans ?_, hs⟩
  cases g.endings with
  | nil => simp
  | cons e rest => simp; omega

/-- As long as something is left, collecting and ending the turn makes it less. -/
theorem remaining_lt (g : TaskGroup σ α) (p : Progress σ)
    (h : (g.collect p).1.isSettled = false) :
    remaining ((g.collect p).1.putOff (g.collect p).2).1 ((g.collect p).1.putOff (g.collect p).2).2
      < g.remaining p := by
  obtain ⟨hq, he, hs⟩ := putOff_lengths (g.collect p).1 (g.collect p).2
  have hc : (g.collect p).1.queue = g.queue := rfl
  have hd : (g.collect p).1.endings.length = g.endings.length - p.steps := List.length_drop
  have hne : 0 < g.queue.length ∨ 0 < g.endings.length - p.steps := by
    rw [← hd]
    simp only [isSettled, Bool.and_eq_false_iff, List.isEmpty_eq_false_iff] at h
    exact h.imp List.length_pos_iff.mpr List.length_pos_iff.mpr
  rw [hc] at hq he
  simp only [remaining, hq, he, hd, hs, stepsPerTurn, tasksPerRound]
  split <;> split <;> omega

/-- Runs what is left; the outputs as they were collected, or the first failure. -/
def wait (g : TaskGroup σ α) : Run σ (Except OperationError (List α)) := fun p =>
  let collected := g.collect p
  if _h : collected.1.isSettled then (collected.1.result, collected.2)
  else
    let next := collected.1.putOff collected.2
    next.1.wait next.2
termination_by p => g.remaining p
decreasing_by exact remaining_lt g _ (Bool.eq_false_iff.mpr ‹_›)

end TaskGroup

end ClusterSnapshot
