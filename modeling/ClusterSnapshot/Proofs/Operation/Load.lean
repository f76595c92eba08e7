import ClusterSnapshot.Operation.TaskGroup
import Mathlib.Data.List.TakeWhile
import Mathlib.Logic.Function.Iterate

/-!
# Task groups in numbers

As long as no task of a group fails, it is a matter of numbers when each of them is taken on and
when it runs. A `Load` says in numbers how far a group has come, and goes through the turns as the
group does. So it can be told beforehand how many tasks have run when there is a place for another
one, and how many steps are left when the group is done.

## Main results

* `takenOn_eq`: when the tasks that are taken on before one of them has run are so many.
* `ranBefore_of_le`: **a group with small limits takes its tasks on in batches** of that many.
* `le_stepsAfter`: and then leaves enough steps for the next group to do the same.
* `takenOn_of_lt`: a group with a large limit takes on as many tasks as there are steps.
* `takenOn_eq_takenWithin`: **whatever the limit, the tasks that are taken on before one of them has
  run** are those that can be taken on before its round ends.
-/

namespace ClusterSnapshot

/-- How far a group has come, in numbers. -/
structure Load where
  /-- The tasks under way. -/
  waiting : Nat
  /-- The endings that are not collected yet. -/
  ended : Nat
  /-- The steps that are left in this turn. -/
  steps : Nat
  deriving DecidableEq, Repr

namespace Load

/-! ### Turns -/

/-- The end of a turn, at which the first tasks run. -/
def endTurn (l : Load) : Load :=
  ⟨l.waiting - tasksPerRound, l.ended + min tasksPerRound l.waiting, stepsPerTurn⟩

/-- The end of a turn that has no steps left. -/
def endTurnIfSpent (l : Load) : Load := if l.steps = 0 then l.endTurn else l

/-- The end of a turn in which there is no place for another task. -/
def awaitPlace (limit : Nat) (l : Load) : Load := if l.waiting < limit then l else l.endTurn

/-- When there is a place for another task. -/
def atPlace (limit : Nat) (l : Load) : Load := l.endTurnIfSpent.awaitPlace limit

/-- When another task was taken on. -/
def take (limit : Nat) (l : Load) : Load :=
  { l.atPlace limit with
    waiting := (l.atPlace limit).waiting + 1
    steps := (l.atPlace limit).steps - 1 }

/-- When endings were collected for as long as there are steps. -/
def collect (l : Load) : Load :=
  { l with ended := l.ended - l.steps, steps := l.steps - min l.steps l.ended }

/-- Each turn runs or collects something. -/
theorem collect_endTurn_lt (l : Load) (h : ¬ (l.collect.waiting = 0 ∧ l.collect.ended = 0)) :
    2 * l.collect.endTurn.waiting + l.collect.endTurn.ended +
        (if l.collect.endTurn.steps = 0 then 1 else 0) <
      2 * l.waiting + l.ended + if l.steps = 0 then 1 else 0 := by
  have hsteps : l.collect.endTurn.steps ≠ 0 := Nat.succ_ne_zero _
  rw [if_neg hsteps]
  simp only [collect, endTurn, tasksPerRound] at h ⊢
  split <;> omega

/-- When all tasks have run and all endings are collected. -/
def settle (l : Load) : Load :=
  if l.collect.waiting = 0 ∧ l.collect.ended = 0 then l.collect else l.collect.endTurn.settle
termination_by 2 * l.waiting + l.ended + if l.steps = 0 then 1 else 0
decreasing_by exact collect_endTurn_lt l ‹_›

/-- When so many tasks were taken on by a group that was set up with some steps left. -/
def afterTaking (limit steps count : Nat) : Load := (take limit)^[count] ⟨0, 0, steps⟩

/-- One more task is taken on after the others. -/
theorem afterTaking_succ (limit steps count : Nat) :
    afterTaking limit steps (count + 1) = (afterTaking limit steps count).take limit :=
  Function.iterate_succ_apply' _ _ _

/-! ### Tasks under way and tasks that have run -/

/-- No task is lost when a turn ends. -/
theorem total_endTurn (l : Load) : l.endTurn.waiting + l.endTurn.ended = l.waiting + l.ended := by
  simp only [endTurn]
  omega

/-- To wait for a place loses no task. -/
theorem total_atPlace (limit : Nat) (l : Load) :
    (l.atPlace limit).waiting + (l.atPlace limit).ended = l.waiting + l.ended := by
  have hspent : l.endTurnIfSpent.waiting + l.endTurnIfSpent.ended = l.waiting + l.ended := by
    rw [endTurnIfSpent]
    split
    · exact total_endTurn l
    · rfl
  rw [atPlace, awaitPlace]
  split
  · exact hspent
  · exact (total_endTurn _).trans hspent

/-- All tasks that were taken on are waiting or have ended. -/
theorem total_afterTaking (limit steps count : Nat) :
    (afterTaking limit steps count).waiting + (afterTaking limit steps count).ended = count := by
  induction count with
  | zero => rfl
  | succ count ih =>
      have hplace := total_atPlace limit (afterTaking limit steps count)
      rw [afterTaking_succ, take]
      simp only
      omega

/-- There is a place at once if there is room and the turn is not over. -/
theorem atPlace_of_lt {limit : Nat} {l : Load} (hsteps : l.steps ≠ 0) (hroom : l.waiting < limit) :
    l.atPlace limit = l := by
  rw [atPlace, endTurnIfSpent, if_neg hsteps, awaitPlace, if_pos hroom]

/-- All tasks under way run if they leave no place and are few enough for one round. -/
theorem atPlace_of_le {limit : Nat} {l : Load} (hpos : 0 < limit) (hfull : limit ≤ l.waiting)
    (hfew : l.waiting ≤ tasksPerRound) :
    l.atPlace limit = ⟨0, l.waiting + l.ended, stepsPerTurn⟩ := by
  have hend : l.endTurn = ⟨0, l.waiting + l.ended, stepsPerTurn⟩ := by
    simp only [endTurn, Load.mk.injEq, and_true]
    omega
  rw [atPlace, endTurnIfSpent]
  split
  · rw [hend, awaitPlace, if_pos hpos]
  · rw [awaitPlace, if_neg (by omega), hend]

/-- All tasks under way run in one round if they are few, and leave steps if all endings before them
could be collected. -/
theorem settle_of_le {l : Load} (hpos : 0 < l.waiting) (hfew : l.waiting ≤ tasksPerRound)
    (hended : l.ended ≤ l.steps) : l.settle = ⟨0, 0, stepsPerTurn - l.waiting⟩ := by
  have hcollect : l.collect = ⟨l.waiting, 0, l.steps - l.ended⟩ := by
    simp only [collect, Load.mk.injEq, true_and]
    omega
  have hend : l.collect.endTurn = ⟨0, l.waiting, stepsPerTurn⟩ := by
    rw [hcollect, endTurn]
    simp only [Load.mk.injEq, and_true]
    omega
  have hlast : l.collect.endTurn.collect = ⟨0, 0, stepsPerTurn - l.waiting⟩ := by
    rw [hend, collect]
    simp only [stepsPerTurn, tasksPerRound] at hfew ⊢
    simp only [Load.mk.injEq, true_and]
    omega
  rw [settle, if_neg (by rw [hcollect]; simp only; omega), settle, if_pos (by simp [hlast]), hlast]

/-! ### Bounds -/

section Bounds

variable {limit : Nat}

/-- When there is a place, fewer tasks are under way than may be. -/
theorem waiting_atPlace_lt {l : Load} (hpos : 0 < limit) (h : l.waiting ≤ limit) :
    (l.atPlace limit).waiting < limit := by
  have hspent : l.endTurnIfSpent.waiting ≤ limit := by
    rw [endTurnIfSpent]
    split
    · exact (Nat.sub_le _ _).trans h
    · exact h
  rw [atPlace, awaitPlace]
  split
  · assumption
  · simp only [endTurn, tasksPerRound]
    omega

/-- There are never more tasks under way than may be. -/
theorem waiting_afterTaking_le (hpos : 0 < limit) (steps count : Nat) :
    (afterTaking limit steps count).waiting ≤ limit := by
  induction count with
  | zero => exact Nat.zero_le limit
  | succ count ih =>
      rw [afterTaking_succ, take]
      exact waiting_atPlace_lt hpos ih

/-- There is a place at once, while the turn lasts, or another turn has begun. -/
theorem atPlace_eq_or (limit : Nat) (l : Load) :
    (l.atPlace limit = l ∧ l.steps ≠ 0) ∨ (l.atPlace limit).steps = stepsPerTurn := by
  rw [atPlace, endTurnIfSpent, awaitPlace]
  by_cases hspent : l.steps = 0
  · rw [if_pos hspent]
    split
    · exact .inr rfl
    · exact .inr rfl
  · rw [if_neg hspent]
    split
    · exact .inl ⟨rfl, hspent⟩
    · exact .inr rfl

/-- Either no task has run, or every step of this turn has taken a task on. -/
theorem ended_eq_zero_or (limit steps count : Nat) :
    (afterTaking limit steps count).ended = 0 ∨
      stepsPerTurn ≤ (afterTaking limit steps count).steps +
        (afterTaking limit steps count).waiting := by
  induction count with
  | zero => exact .inl rfl
  | succ count ih =>
      rw [afterTaking_succ, take]
      simp only
      rcases atPlace_eq_or limit (afterTaking limit steps count) with ⟨heq, hleft⟩ | hturn
      · rw [heq]
        exact ih.imp_right fun h => by omega
      · rw [hturn]
        exact .inr (by omega)

/-- If there are no more tasks than steps in a turn, all endings can be collected at once. -/
theorem ended_le_steps {limit steps count : Nat} (h : count ≤ stepsPerTurn) :
    (afterTaking limit steps count).ended ≤ (afterTaking limit steps count).steps := by
  have htotal := total_afterTaking limit steps count
  rcases ended_eq_zero_or limit steps count with hnone | hsteps
  · omega
  · omega

end Bounds

end Load

open Load

/-- The tasks of a group that have run when there is a place for another one after so many. -/
def ranBefore (limit steps count : Nat) : Nat :=
  ((afterTaking limit steps count).atPlace limit).ended

/-- The steps that a group leaves when all its tasks are done. -/
def stepsAfter (limit steps count : Nat) : Nat := (afterTaking limit steps count).settle.steps

/-- The tasks of a group that are taken on before the one at a position has run. -/
def takenOn (limit steps count position : Nat) : Nat :=
  ((List.range count).takeWhile fun n => ranBefore limit steps n ≤ position).length

/-- No more tasks have run than were taken on. -/
theorem ranBefore_le (limit steps count : Nat) : ranBefore limit steps count ≤ count := by
  have hplace := total_atPlace limit (afterTaking limit steps count)
  rw [total_afterTaking] at hplace
  rw [ranBefore]
  omega

/-- The tasks under way when there is a place for another one are those that have not run. -/
theorem waiting_atPlace (limit steps count : Nat) :
    ((afterTaking limit steps count).atPlace limit).waiting =
      count - ranBefore limit steps count := by
  have hplace := total_atPlace limit (afterTaking limit steps count)
  rw [total_afterTaking] at hplace
  rw [ranBefore]
  omega

/-- Tasks are taken on for as long as the one at a position has not run. -/
theorem takenOn_eq {limit steps count position n : Nat} (hn : n ≤ count)
    (hbefore : ∀ m < n, ranBefore limit steps m ≤ position)
    (hafter : n < count → position < ranBefore limit steps n) :
    takenOn limit steps count position = n := by
  obtain ⟨rest, rfl⟩ := Nat.exists_eq_add_of_le hn
  rw [takenOn, List.range_add, List.takeWhile_append_of_pos (by simpa using hbefore)]
  cases rest with
  | zero => simp
  | succ rest =>
      have hstop : ¬ ranBefore limit steps n ≤ position := by
        have := hafter (by omega)
        omega
      simp [List.range_succ_eq_map, hstop]

/-! ### Batches -/

section Batches

variable {limit steps : Nat}

/-- With a small limit a turn ends when as many tasks are under way as may be, and all of them
run. -/
theorem atPlace_afterTaking (hpos : 0 < limit) (hlimit : limit ≤ tasksPerRound)
    (hsteps : limit ≤ steps) (count : Nat) :
    (afterTaking limit steps count).atPlace limit =
      ⟨count % limit, count / limit * limit,
        (if count < limit then steps else stepsPerTurn) - count % limit⟩ := by
  simp only [tasksPerRound] at hlimit
  induction count with
  | zero =>
      have hspent : steps ≠ 0 := by omega
      simpa [afterTaking, hpos] using atPlace_of_lt (l := ⟨0, 0, steps⟩) hspent hpos
  | succ count ih =>
      rw [afterTaking_succ, take, ih]
      have hmod := Nat.mod_lt count hpos
      rcases Nat.lt_or_ge (count % limit + 1) limit with hroom | hfull
      · -- There is a place at once, and steps are left.
        have hmod' : (count + 1) % limit = count % limit + 1 := by
          rw [Nat.add_mod, Nat.mod_eq_of_lt (by omega : 1 < limit), Nat.mod_eq_of_lt hroom]
        have hdiv : (count + 1) / limit = count / limit := by
          have h := Nat.div_add_mod (count + 1) limit
          have h' := Nat.div_add_mod count limit
          rw [hmod'] at h
          exact Nat.eq_of_mul_eq_mul_left hpos (by omega)
        have hsame : count + 1 < limit ↔ count < limit := by
          refine ⟨fun h => by omega, fun h => ?_⟩
          rw [Nat.mod_eq_of_lt h] at hroom
          exact hroom
        have hspent : (if count < limit then steps else stepsPerTurn) - count % limit - 1 ≠ 0 := by
          simp only [stepsPerTurn]
          split <;> omega
        rw [atPlace_of_lt hspent hroom, hmod', hdiv, Nat.sub_sub]
        simp only [hsame]
      · -- The batch is full: all of it runs.
        have hmod' : (count + 1) % limit = 0 := by
          rw [Nat.add_mod, show count % limit = limit - 1 by omega]
          rcases Nat.lt_or_ge 1 limit with h | h
          · rw [Nat.mod_eq_of_lt h, show limit - 1 + 1 = limit by omega, Nat.mod_self]
          · rw [show limit = 1 by omega]
        have hdiv : (count + 1) / limit * limit = count / limit * limit + limit := by
          have h := Nat.div_add_mod (count + 1) limit
          have h' := Nat.div_add_mod count limit
          rw [Nat.mul_comm] at h h'
          omega
        have hlater : ¬ count + 1 < limit := by
          have := Nat.mod_le count limit
          omega
        rw [atPlace_of_le hpos hfull (by simp only [tasksPerRound]; omega), hmod', hdiv,
          if_neg hlater]
        simp only [Nat.sub_zero, Load.mk.injEq, true_and, and_true]
        omega

/-- **A group with a small limit takes its tasks on in batches** of that many. -/
theorem ranBefore_of_le (hpos : 0 < limit) (hlimit : limit ≤ tasksPerRound) (hsteps : limit ≤ steps)
    (count : Nat) : ranBefore limit steps count = count / limit * limit := by
  rw [ranBefore, atPlace_afterTaking hpos hlimit hsteps]

/-- With a small limit the tasks that are taken on before one of them has run are its batch and
those before. -/
theorem takenOn_of_le (hpos : 0 < limit) (hlimit : limit ≤ tasksPerRound) (hsteps : limit ≤ steps)
    {count position : Nat} :
    takenOn limit steps count position = min count ((position / limit + 1) * limit) := by
  refine takenOn_eq (Nat.min_le_left _ _) (fun m hm => ?_) fun hlt => ?_
  · rw [ranBefore_of_le hpos hlimit hsteps]
    have hm' : m < (position / limit + 1) * limit := lt_of_lt_of_le hm (Nat.min_le_right _ _)
    have hdiv : m / limit ≤ position / limit :=
      Nat.lt_succ_iff.mp ((Nat.div_lt_iff_lt_mul hpos).mpr hm')
    exact (Nat.mul_le_mul_right _ hdiv).trans (Nat.div_mul_le_self _ _)
  · have hmin : min count ((position / limit + 1) * limit) = (position / limit + 1) * limit := by
      omega
    rw [hmin, ranBefore_of_le hpos hlimit hsteps, Nat.mul_div_cancel _ hpos]
    have hdiv := Nat.div_add_mod position limit
    have hmod := Nat.mod_lt position hpos
    rw [Nat.succ_mul, Nat.mul_comm]
    omega

/-- A group with a small limit and few tasks leaves enough steps for the next one. -/
theorem le_stepsAfter (hpos : 0 < limit) (hlimit : limit ≤ tasksPerRound) (hsteps : limit ≤ steps)
    {count : Nat} (hcount : count ≤ stepsPerTurn) : limit ≤ stepsAfter limit steps count := by
  simp only [tasksPerRound] at hlimit
  simp only [stepsPerTurn] at hcount
  cases count with
  | zero =>
      rw [stepsAfter, afterTaking, Function.iterate_zero_apply, settle,
        if_pos ⟨rfl, by simp [collect]⟩]
      simpa [collect] using hsteps
  | succ count =>
      have hmod := Nat.mod_lt count hpos
      have hdiv := Nat.div_add_mod count limit
      rw [Nat.mul_comm] at hdiv
      -- All endings so far can be collected, since so many steps are left.
      have hended : count / limit * limit ≤
          (if count < limit then steps else stepsPerTurn) - count % limit - 1 := by
        simp only [stepsPerTurn]
        split
        · rw [Nat.div_eq_of_lt ‹_›, Nat.zero_mul]
          exact Nat.zero_le _
        · omega
      rw [stepsAfter, afterTaking_succ, take, atPlace_afterTaking hpos hlimit hsteps,
        settle_of_le (Nat.succ_pos _) (by simp only [tasksPerRound]; omega) hended]
      simp only [stepsPerTurn]
      omega

end Batches

/-! ### Turns that run out of steps -/

section Spent

variable {limit steps : Nat}

/-- Until the steps of the first turn are used up, tasks are taken on for as long as there is
room. -/
theorem afterTaking_of_le {count : Nat} (hlimit : count ≤ limit) (hsteps : count ≤ steps) :
    afterTaking limit steps count = ⟨count, 0, steps - count⟩ := by
  induction count with
  | zero => rfl
  | succ count ih =>
      have hleft : steps - count ≠ 0 := by omega
      rw [afterTaking_succ, take, ih (by omega) (by omega), atPlace_of_lt hleft hlimit,
        Nat.sub_sub]

/-- **A group with a large limit takes on as many tasks as there are steps** before the first of
them run. -/
theorem takenOn_of_lt {count position : Nat} (hlimit : steps < limit) (hcount : steps ≤ count)
    (hposition : position < min tasksPerRound steps) :
    takenOn limit steps count position = steps := by
  refine takenOn_eq hcount (fun m hm => ?_) fun _ => ?_
  · have hleft : steps - m ≠ 0 := by omega
    rw [ranBefore, afterTaking_of_le (by omega) hm.le, atPlace_of_lt hleft (by simp only; omega)]
    exact Nat.zero_le _
  · have hroom : (Load.mk steps 0 (steps - steps)).endTurn.waiting < limit := by
      simp only [endTurn]
      omega
    rw [ranBefore, afterTaking_of_le hlimit.le (le_refl _), atPlace, endTurnIfSpent,
      if_pos (Nat.sub_self _), awaitPlace, if_pos hroom]
    simp only [endTurn]
    omega

end Spent

/-! ### Turns that end -/

section TurnsEnded

variable {limit steps : Nat}

/-- The tasks of a group that can be taken on before another turn ends, when so many have ended:
there is a step for each of them, and none is under way that leaves no place. -/
def takenWithin (limit steps turns : Nat) : Nat :=
  min (steps + turns * stepsPerTurn) (limit + turns * min limit tasksPerRound)

/-- More turns take on no fewer tasks. -/
theorem takenWithin_mono {turns later : Nat} (h : turns ≤ later) :
    takenWithin limit steps turns ≤ takenWithin limit steps later := by
  have hsteps := Nat.mul_le_mul_right stepsPerTurn h
  have hround := Nat.mul_le_mul_right (min limit tasksPerRound) h
  simp only [takenWithin]
  omega

/-- **When so many turns have ended** and there is a place for another task: a full round ran at the
end of each of them. -/
structure InTurn (limit steps count turns : Nat) (l : Load) : Prop where
  ended : l.ended = turns * min limit tasksPerRound
  total : l.waiting + l.ended = count
  left : min (count + l.steps) (limit + turns * min limit tasksPerRound) =
    takenWithin limit steps turns
  lt : count < takenWithin limit steps turns
  le : ∀ earlier < turns, takenWithin limit steps earlier ≤ count

/-- The tasks under way fill a round when the steps or the places are used up. -/
theorem le_takenWithin (hsteps : min limit tasksPerRound ≤ steps) (turns : Nat) :
    (turns + 1) * min limit tasksPerRound ≤ takenWithin limit steps turns := by
  have hround : turns * min limit tasksPerRound ≤ turns * stepsPerTurn :=
    Nat.mul_le_mul_left turns ((Nat.min_le_right _ _).trans (by decide))
  rw [takenWithin, Nat.succ_mul]
  omega

/-- One more task is taken on: in the same turn, or at the beginning of the next one. -/
theorem InTurn.take {count turns : Nat} {l : Load} (hpos : 0 < limit)
    (hsteps : min limit tasksPerRound ≤ steps) (h : InTurn limit steps count turns l) :
    ∃ turns', InTurn limit steps (count + 1) turns'
      (({ l with waiting := l.waiting + 1, steps := l.steps - 1 } : Load).atPlace limit) := by
  obtain ⟨hended, htotal, hleft, hlt, hle⟩ := h
  have hfull := le_takenWithin hsteps turns
  rw [Nat.succ_mul] at hfull
  by_cases hsame : count + 1 < takenWithin limit steps turns
  · -- There is a place at once.
    rw [atPlace_of_lt (by simp only; omega) (by simp only; omega)]
    refine ⟨turns, hended, ?_, ?_, hsame, fun earlier h => (hle earlier h).trans (Nat.le_succ _)⟩
    · simp only
      omega
    · simp only
      omega
  · -- The steps or the places are used up, and a round runs.
    have hnext : takenWithin limit steps (turns + 1) =
        min (count + 1 + stepsPerTurn) (limit + (turns + 1) * min limit tasksPerRound) := by
      simp only [takenWithin, Nat.succ_mul, tasksPerRound, stepsPerTurn] at hlt hsame ⊢
      omega
    have hround : min tasksPerRound (l.waiting + 1) = min limit tasksPerRound := by
      omega
    have hplace : ({ l with waiting := l.waiting + 1, steps := l.steps - 1 } : Load).atPlace limit =
        ⟨l.waiting + 1 - tasksPerRound, l.ended + min limit tasksPerRound, stepsPerTurn⟩ := by
      rw [atPlace, endTurnIfSpent]
      split
      · rw [awaitPlace, if_pos, endTurn, hround]
        simp only [endTurn, tasksPerRound]
        omega
      · rw [awaitPlace, if_neg, endTurn, hround]
        simp only at *
        omega
    rw [hplace]
    refine ⟨turns + 1, ?_, ?_, hnext.symm, ?_, fun earlier h => ?_⟩
    · rw [hended, Nat.succ_mul]
    · simp only
      omega
    · rw [hnext, Nat.succ_mul]
      simp only [stepsPerTurn, tasksPerRound] at *
      omega
    · have hearlier := @takenWithin_mono limit steps _ _ (Nat.lt_succ_iff.mp h)
      omega

/-- Every task is taken on in some turn. -/
theorem exists_inTurn (hpos : 0 < limit) (hsteps : min limit tasksPerRound ≤ steps) (count : Nat) :
    ∃ turns, InTurn limit steps count turns ((afterTaking limit steps count).atPlace limit) := by
  induction count with
  | zero =>
      have hleft : steps ≠ 0 := by
        simp only [tasksPerRound] at hsteps
        omega
      rw [afterTaking, Function.iterate_zero_apply, atPlace_of_lt hleft hpos]
      refine ⟨0, ?_, rfl, ?_, ?_, fun earlier h => absurd h (Nat.not_lt_zero _)⟩
      · exact (Nat.zero_mul _).symm
      · simp [takenWithin]
      · simp only [takenWithin]
        omega
  | succ count ih =>
      obtain ⟨turns, hturn⟩ := ih
      rw [afterTaking_succ]
      exact hturn.take hpos hsteps

/-- **The tasks that are taken on before one of them has run** are those that can be taken on before
the round ends that it runs in. -/
theorem takenOn_eq_takenWithin (hpos : 0 < limit) (hsteps : min limit tasksPerRound ≤ steps)
    (count position : Nat) :
    takenOn limit steps count position =
      min count (takenWithin limit steps (position / min limit tasksPerRound)) := by
  have hround : 0 < min limit tasksPerRound := by
    simp only [tasksPerRound]
    omega
  refine takenOn_eq (Nat.min_le_left _ _) (fun m hm => ?_) fun hlt => ?_
  · obtain ⟨turns, hturn⟩ := exists_inTurn hpos hsteps m
    rw [ranBefore, hturn.ended]
    have hturns : turns ≤ position / min limit tasksPerRound := by
      by_contra hmore
      have := hturn.le _ (not_le.mp hmore)
      omega
    exact (Nat.mul_le_mul_right _ hturns).trans (Nat.div_mul_le_self _ _)
  · rw [Nat.min_eq_right (by omega)]
    obtain ⟨turns, hturn⟩ := exists_inTurn hpos hsteps
      (takenWithin limit steps (position / min limit tasksPerRound))
    rw [ranBefore, hturn.ended]
    have hturns : position / min limit tasksPerRound < turns := by
      by_contra hfew
      exact absurd hturn.lt (not_lt.mpr (takenWithin_mono (not_lt.mp hfew)))
    exact (Nat.div_lt_iff_lt_mul hround).mp hturns

end TurnsEnded

end ClusterSnapshot
