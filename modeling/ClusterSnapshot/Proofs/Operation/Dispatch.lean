import ClusterSnapshot.Proofs.Operation.Abandoned
import ClusterSnapshot.Proofs.Operation.Collecting

/-!
# Tasks that are taken on

However its tasks end, with an output, with a failure or not at all, a group takes them on by the
numbers: all of them if none fails, and else those for which there was a place before the first that
fails had run. These run, each once and in order, and no others. It waits in vain for none of them,
and reports a failure rather than that a task was lost, if it has stopped for it.

With small limits tasks are taken on in batches of that many. With large ones they need not be: the
steps of a turn may be used up before as many tasks are under way as may be, and in one round not
all of them need run.

## Main results

* `TaskGroup.Offering.spawn`: what becomes of a task that is offered.
* `TaskGroup.Offering.wait`: what comes of waiting for those that were taken on.
* `TaskGroup.carriesOut_inTurns`: **a group carries out its tasks by the numbers**.
-/

namespace ClusterSnapshot

variable {σ τ α : Type}

namespace TaskGroup

/-! ### The order of the endings -/

/-- The order in which endings are collected. -/
def collectingOrder (limit steps : Nat) (endings : List α) : List α :=
  let load := Load.afterTaking limit steps endings.length
  collected (endings.drop load.ended) (endings.take load.ended) load.steps

/-- Every ending is collected. -/
theorem collectingOrder_perm (limit steps : Nat) (endings : List α) :
    (collectingOrder limit steps endings).Perm endings := by
  refine (collected_perm _ _ _).trans ?_
  rw [List.take_append_drop]

/-- If there are no more tasks than steps in a turn, endings are collected in order. -/
theorem collectingOrder_of_le {limit steps : Nat} {endings : List α}
    (h : endings.length ≤ stepsPerTurn) : collectingOrder limit steps endings = endings := by
  have hended : (Load.afterTaking limit steps endings.length).ended ≤ _ := Load.ended_le_steps h
  rw [collectingOrder]
  exact (collected_of_le ((List.length_take_le _ _).trans hended)).trans
    (List.take_append_drop _ _)

/-! ### How many tasks are taken on -/

/-- The tasks that are taken on when they end as they do: all if none fails, and else as many as
`cut` says for the position of the first that fails. -/
def cutAt (endings : List (Ending α)) (cut : Nat → Nat) : Nat :=
  (endings.findIdx? fun e => e.failure?.isSome).elim endings.length cut

/-- There is a failure among the first endings if the first one that is there is among them. -/
theorem isSome_firstFailure?_take_iff {endings : List (Ending α)} {position n : Nat}
    (h : endings.findIdx? (fun e => e.failure?.isSome) = some position) :
    (firstFailure? (endings.take n)).isSome = true ↔ position < n := by
  obtain ⟨hposition, hfailed, hearlier⟩ := List.findIdx?_eq_some_iff_getElem.mp h
  rw [firstFailure?, List.findSome?_isSome_iff]
  constructor
  · rintro ⟨e, he, hsome⟩
    obtain ⟨i, hi, rfl⟩ := List.mem_take_iff_getElem.mp he
    by_contra hle
    exact absurd hsome (hearlier i (by omega))
  · intro hlt
    exact ⟨endings[position], List.mem_take_iff_getElem.mpr ⟨position, by omega, rfl⟩, hfailed⟩

variable {limit steps n m : Nat} {t : τ} {fs : List (Act τ (Ending α))}

/-- There is one number of tasks that are taken on. -/
theorem TakenUpTo.unique (h : TakenUpTo limit steps t fs n) (h' : TakenUpTo limit steps t fs m)
    (hn : n ≤ fs.length) (hm : m ≤ fs.length) : n = m := by
  have hnot : ∀ {n m : Nat}, TakenUpTo limit steps t fs n → TakenUpTo limit steps t fs m →
      m ≤ fs.length → ¬ n < m := by
    intro n m hn hm hle hlt
    have hsome := hn.2 (hlt.trans_le hle)
    rw [hm.1 n hlt] at hsome
    cases hsome
  exact Nat.le_antisymm (not_lt.mp (hnot h' h hn)) (not_lt.mp (hnot h h' hm))

/-- Of the first tasks those are taken on that are taken on at all. -/
theorem TakenUpTo.take (h : TakenUpTo limit steps t fs n) (i : Nat) :
    TakenUpTo limit steps t (fs.take i) (min i n) := by
  have hran : ∀ m ≤ i, (fs.take i).take (ranBefore limit steps m) =
      fs.take (ranBefore limit steps m) := by
    intro m hm
    rw [List.take_take, Nat.min_eq_left ((ranBefore_le limit steps m).trans hm)]
  refine ⟨fun m hm => ?_, fun hlt => ?_⟩
  · rw [hran m (by omega)]
    exact h.1 m (by omega)
  · rw [List.length_take] at hlt
    rw [hran _ (Nat.min_le_left i n), Nat.min_eq_right (by omega)]
    exact h.2 (by omega)

/-- If not all tasks are taken on, one of those has failed that are. -/
theorem TakenUpTo.isSome_firstFailure? (h : TakenUpTo limit steps t fs n) (hlt : n < fs.length) :
    (firstFailure? ((inOrder fs t).1.take n)).isSome = true := by
  have hran := h.2 hlt
  rw [← inOrder_take, ← List.take_append_drop (ranBefore limit steps n) (fs.take n),
    List.take_take, Nat.min_eq_left (ranBefore_le limit steps n)]
  exact TaskGroup.isSome_firstFailure? hran

/-- The first failure is among the tasks that are taken on. -/
theorem TakenUpTo.firstFailure?_take (h : TakenUpTo limit steps t fs n) (hn : n ≤ fs.length) :
    firstFailure? ((inOrder fs t).1.take n) = firstFailure? (inOrder fs t).1 := by
  rcases hn.eq_or_lt with rfl | hlt
  · rw [← length_inOrder fs t, List.take_length]
  · obtain ⟨e, he⟩ := Option.isSome_iff_exists.mp (h.isSome_firstFailure? hlt)
    conv_rhs => rw [← List.take_append_drop n (inOrder fs t).1]
    rw [firstFailure?_append, he, Option.some_or]

/-- If none fails, all tasks are taken on. -/
theorem TakenUpTo.eq_length (h : TakenUpTo limit steps t fs n) (hn : n ≤ fs.length)
    (hnone : firstFailure? (inOrder fs t).1 = none) : n = fs.length := by
  refine le_antisymm hn (not_lt.mp fun hlt => ?_)
  have hsome := h.isSome_firstFailure? hlt
  rw [h.firstFailure?_take hn, hnone] at hsome
  cases hsome

/-- A task that is dropped, for one has failed before there was a place for it. -/
theorem TakenUpTo.drop (h : TakenUpTo limit steps t fs fs.length)
    (hfailed : (firstFailure? (inOrder (fs.take (ranBefore limit steps fs.length)) t).1).isSome =
      true) (f : Act τ (Ending α)) : TakenUpTo limit steps t (fs ++ [f]) fs.length := by
  refine ⟨fun m hm => ?_, fun _ => ?_⟩
  · rw [take_ranBefore hm.le]
    exact h.1 m hm
  · rw [take_ranBefore (le_refl _)]
    exact hfailed

/-- A task that is taken on. -/
theorem TakenUpTo.add (h : TakenUpTo limit steps t fs fs.length)
    (hnone : firstFailure? (inOrder (fs.take (ranBefore limit steps fs.length)) t).1 = none)
    (f : Act τ (Ending α)) : TakenUpTo limit steps t (fs ++ [f]) (fs.length + 1) := by
  refine ⟨fun m hm => ?_, fun hlt => ?_⟩
  · rw [take_ranBefore (Nat.lt_succ_iff.mp hm)]
    rcases Nat.lt_succ_iff_lt_or_eq.mp hm with hm | rfl
    · exact h.1 m hm
    · exact hnone
  · rw [List.length_append] at hlt
    exact absurd hlt (lt_irrefl _)

/-- **How many tasks are taken on** is a matter of numbers and of the first that fails. -/
theorem TakenUpTo.eq_cutAt (h : TakenUpTo limit steps t fs n) (hn : n ≤ fs.length) :
    n = cutAt (inOrder fs t).1 (takenOn limit steps fs.length) := by
  rw [cutAt]
  cases hposition : (inOrder fs t).1.findIdx? fun e => e.failure?.isSome with
  | none =>
      refine (h.eq_length hn (List.findSome?_eq_none_iff.mpr fun e he => ?_)).trans
        (length_inOrder fs t).symm
      simpa using List.findIdx?_eq_none_iff.mp hposition e he
  | some position =>
      refine (takenOn_eq hn (fun m hm => ?_) fun hlt => ?_).symm
      · have hnone := h.1 m hm
        rw [inOrder_take] at hnone
        by_contra hlt
        have hsome := (isSome_firstFailure?_take_iff hposition).mpr (not_le.mp hlt)
        rw [hnone] at hsome
        cases hsome
      · have hsome := h.2 hlt
        rw [inOrder_take] at hsome
        exact (isSome_firstFailure?_take_iff hposition).mp hsome

/-! ### Tasks that are offered -/

variable {sight : Sight σ τ} {ran waiting offered : List (Act τ (Ending α))} {g : TaskGroup σ α}
  {p : Progress σ}

/-- A group that has collected nothing, when some of its tasks have run and others wait. -/
structure Uncollected (sight : Sight σ τ) (t : τ) (ran waiting : List (Act τ (Ending α)))
    (g : TaskGroup σ α) (p : Progress σ) : Prop where
  queue : List.Forall₂ (Run.Acts sight) g.queue waiting
  state : sight.see p = (inOrder ran t).2
  endings : g.endings = (inOrder ran t).1
  outputs : g.outputs = []
  failure : g.failure? = firstFailure? (inOrder ran t).1

/-- At the end of a turn the first tasks run that wait. -/
theorem Uncollected.endTurn (h : Uncollected sight t ran waiting g p) :
    Uncollected sight t (ran ++ waiting.take tasksPerRound) (waiting.drop tasksPerRound)
      (g.endTurn p).1 (g.endTurn p).2 := by
  obtain ⟨hgroup, hsee⟩ := endTurn_acts h.queue p
  rw [h.state] at hgroup hsee
  refine ⟨?_, ?_, ?_, ?_, ?_⟩
  · rw [hgroup]
    exact List.forall₂_drop tasksPerRound h.queue
  · rw [hsee, inOrder_append]
  · rw [hgroup, inOrder_append, h.endings]
  · rw [hgroup]
    exact h.outputs
  · rw [hgroup, inOrder_append, firstFailure?_append, h.failure]

/-- A step that is taken changes nothing. -/
theorem Uncollected.step (h : Uncollected sight t ran waiting g p) (steps : Nat) :
    Uncollected sight t ran waiting g { p with steps } :=
  { h with state := (sight.see_steps _ _).trans h.state }

/-- When there is a place, some more tasks have run. -/
theorem Uncollected.atPlace (h : Uncollected sight t ran waiting g p) :
    ∃ ran' waiting', ran' ++ waiting' = ran ++ waiting ∧
      Uncollected sight t ran' waiting' (g.atPlace p).1 (g.atPlace p).2 := by
  have hended : ∀ {ran waiting : List (Act τ (Ending α))} {g : TaskGroup σ α} {p : Progress σ},
      Uncollected sight t ran waiting g p → ∃ ran' waiting', ran' ++ waiting' = ran ++ waiting ∧
        Uncollected sight t ran' waiting' (g.endTurn p).1 (g.endTurn p).2 := fun h =>
    ⟨_, _, by rw [List.append_assoc, List.take_append_drop], h.endTurn⟩
  obtain ⟨ran', waiting', hsame, hspent⟩ : ∃ ran' waiting', ran' ++ waiting' = ran ++ waiting ∧
      Uncollected sight t ran' waiting' (g.endTurnIfSpent p).1 (g.endTurnIfSpent p).2 := by
    change ∃ ran' waiting', _ ∧ Uncollected sight t ran' waiting'
      ((if p.steps = 0 then g.endTurn else pure g) p).1
      ((if p.steps = 0 then g.endTurn else pure g) p).2
    split
    · exact hended h
    · exact ⟨ran, waiting, rfl, h⟩
  rw [TaskGroup.atPlace, awaitPlace]
  split
  · exact ⟨ran', waiting', hsame, hspent⟩
  · obtain ⟨ran'', waiting'', hsame', hplace⟩ := hended hspent
    exact ⟨ran'', waiting'', hsame'.trans hsame, hplace⟩

/-- **A group that was offered some tasks** and has taken on so many of them. -/
structure Offering (sight : Sight σ τ) (limit steps : Nat) (t : τ)
    (offered : List (Act τ (Ending α))) (taken : Nat) (g : TaskGroup σ α) (p : Progress σ) :
    Prop where
  le : taken ≤ offered.length
  dispatched : g.dispatched = taken
  counted : Counted limit steps taken g p
  upTo : TakenUpTo limit steps t offered taken
  stopped : g.failure?.isSome = true ↔ taken < offered.length
  parts : ∃ ran waiting, offered.take taken = ran ++ waiting ∧ Uncollected sight t ran waiting g p

/-- A new group was offered nothing. -/
theorem offering_new (limit : Nat) (p : Progress σ) :
    Offering sight (max 1 limit) p.steps (sight.see p) [] 0 (.new limit : TaskGroup σ α) p where
  le := le_refl 0
  dispatched := rfl
  counted := counted_new limit p
  upTo := ⟨fun m hm => absurd hm (Nat.not_lt_zero m), fun hlt => absurd hlt (lt_irrefl _)⟩
  stopped := iff_of_false Bool.false_ne_true (lt_irrefl 0)
  parts := ⟨[], [], rfl, .nil, rfl, rfl, rfl, rfl⟩

/-- The failures at a place are those of the tasks that have run by the numbers. -/
theorem Offering.failure_atPlace {taken : Nat}
    (h : Offering sight limit steps t offered taken g p) (hgoing : ¬ g.failure?.isSome = true) :
    offered.length = taken ∧ (g.atPlace p).1.failure? =
        firstFailure? (inOrder (offered.take (ranBefore limit steps taken)) t).1 ∧
      ∃ ran waiting, offered = ran ++ waiting ∧
        Uncollected sight t ran waiting (g.atPlace p).1 (g.atPlace p).2 := by
  have hall : offered.length = taken := le_antisymm (not_lt.mp (mt h.stopped.mpr hgoing)) h.le
  obtain ⟨ran, waiting, hparts, huncollected⟩ := h.parts
  rw [← hall, List.take_length] at hparts
  obtain ⟨ran', waiting', hsame, hplace⟩ := huncollected.atPlace
  rw [← hparts] at hsame
  refine ⟨hall, ?_, ran', waiting', hsame.symm, hplace⟩
  have hwaiting : waiting'.length = taken - ranBefore limit steps taken := by
    cases h.counted with
    | stopped hfailed _ => exact absurd hfailed hgoing
    | going hlimit _ hload =>
        have hloadPlace := congrArg Load.waiting (g.load_atPlace p)
        rw [hload, hlimit, waiting_atPlace] at hloadPlace
        exact hplace.queue.length_eq.symm.trans hloadPlace
  have hran : ranBefore limit steps taken = ran'.length := by
    have hlength := congrArg List.length hsame
    have hle := ranBefore_le limit steps taken
    rw [List.length_append] at hlength
    omega
  rw [hplace.failure, hran, ← hsame, List.take_left]

/-- **A task that is offered** is taken on, unless one has failed. -/
theorem Offering.spawn {taken : Nat} (h : Offering sight limit steps t offered taken g p)
    {task : Run σ (Ending α)} {f : Act τ (Ending α)} (hf : Run.Acts sight task f) :
    ∃ taken', Offering sight limit steps t (offered ++ [f]) taken' (g.spawn task p).1
      (g.spawn task p).2 := by
  have hone : (offered ++ [f]).length = offered.length + 1 := List.length_append
  by_cases hfailed : g.failure?.isSome = true
  · have hlt := h.stopped.mp hfailed
    rw [TaskGroup.spawn, if_pos hfailed]
    refine ⟨taken, h.le.trans (by omega), h.dispatched, h.counted, h.upTo.offer hlt f,
      iff_of_true hfailed (by omega), ?_⟩
    rw [List.take_append_of_le_length h.le]
    exact h.parts
  · obtain ⟨rfl, hfailure, ran, waiting, hparts, hplace⟩ := h.failure_atPlace hfailed
    have hdispatched := (g.atPlace_fixed p).2.trans h.dispatched
    have hcounted := h.counted.spawn task
    rw [spawn_eq g task p hfailed] at hcounted ⊢
    by_cases hstopped : (g.atPlace p).1.failure?.isSome = true
    · simp only [if_pos hstopped] at hcounted ⊢
      refine ⟨offered.length, by omega, hdispatched, hcounted, h.upTo.drop (hfailure ▸ hstopped) f,
        iff_of_true hstopped (by omega), ran, waiting, ?_, hplace.step _⟩
      rw [List.take_left, hparts]
    · simp only [if_neg hstopped] at hcounted ⊢
      have hnone : (g.atPlace p).1.failure? = none := by simpa using hstopped
      have hstep := hplace.step ((g.atPlace p).2.steps - 1)
      refine ⟨offered.length + 1, hone.ge, congrArg (· + 1) hdispatched, hcounted,
        h.upTo.add (hfailure ▸ hnone) f, iff_of_false hstopped (by omega), ran, waiting ++ [f], ?_,
        List.rel_append hstep.queue (.cons hf .nil), hstep.state, hstep.endings, hstep.outputs,
        hstep.failure⟩
      rw [← hone, List.take_length, hparts, List.append_assoc]

/-- Tasks are offered in order. -/
theorem Offering.spawnAll {taken : Nat} (h : Offering sight limit steps t offered taken g p)
    {tasks : List (Run σ (Ending α))} {fs : List (Act τ (Ending α))}
    (htasks : List.Forall₂ (Run.Acts sight) tasks fs) :
    ∃ taken', Offering sight limit steps t (offered ++ fs) taken' (g.spawnAll tasks p).1
      (g.spawnAll tasks p).2 := by
  induction htasks generalizing offered g p taken with
  | nil =>
      rw [List.append_nil]
      exact ⟨taken, h⟩
  | @cons task f tasks fs htask _ ih =>
      obtain ⟨taken', hspawned⟩ := h.spawn htask
      rw [List.append_cons]
      exact ih hspawned

/-- No more tasks are under way than may be. -/
theorem Counted.queue_length_le (hpos : 0 < limit) (h : Counted limit steps n g p) :
    g.queue.length ≤ limit := by
  cases h with
  | going _ _ hload =>
      have hlength : g.queue.length = (Load.afterTaking limit steps n).waiting :=
        congrArg Load.waiting hload
      rw [hlength]
      exact Load.waiting_afterTaking_le hpos steps n
  | stopped _ hlength =>
      rw [hlength, ← waiting_atPlace]
      exact (Load.waiting_atPlace_lt hpos (Load.waiting_afterTaking_le hpos steps n)).le

/-! ### What is reported -/

/-- The failure that is reported when the first endings are there and the others are still to come
in. -/
def reported (ended coming : List (Ending α)) (steps : Nat) : Option OperationError :=
  (firstFailure? ended).or (noticed (turns coming ended steps))

variable {ended coming : List (Ending α)}

/-- A task brings something, fails or is lost. -/
theorem isSome_output?_iff (x : Ending α) :
    x.output?.isSome = true ↔ x.failure? = none ∧ x.lateFailure? = none := by
  cases x <;> simp [Ending.output?, Ending.failure?, Ending.lateFailure?]

/-- None is reported if every task brings something. -/
theorem reported_eq_none_iff :
    reported ended coming steps = none ↔ ∀ x ∈ ended ++ coming, x.output?.isSome = true := by
  rw [reported, Option.or_eq_none_iff, noticed_turns_eq_none_iff, firstFailure?,
    List.findSome?_eq_none_iff]
  simp only [isSome_output?_iff]
  constructor
  · rintro ⟨hended, hkept, hcoming⟩ x hx
    exact ⟨(List.mem_append.mp hx).elim (hended x) (hcoming x), hkept x hx⟩
  · intro h
    exact ⟨fun x hx => (h x (List.mem_append_left _ hx)).1, fun x hx => (h x hx).2,
      fun x hx => (h x (List.mem_append_right _ hx)).1⟩

/-- If no task was lost, the first failure is reported. -/
theorem reported_of_kept (h : ∀ x ∈ ended ++ coming, x.lateFailure? = none) :
    reported ended coming steps = firstFailure? (ended ++ coming) := by
  rw [reported, noticed_turns_of_kept h, firstFailure?_append]

/-- A failure that is there already is reported. -/
theorem reported_of_ended (h : (firstFailure? ended).isSome = true) :
    reported ended coming steps = firstFailure? (ended ++ coming) := by
  obtain ⟨e, he⟩ := Option.isSome_iff_exists.mp h
  rw [reported, firstFailure?_append, he, Option.some_or, Option.some_or]

/-- If no task fails, it is reported that one was lost. -/
theorem reported_of_lost (h : firstFailure? (ended ++ coming) = none)
    (hlost : ∃ x ∈ ended ++ coming, x.lateFailure? ≠ none) :
    reported ended coming steps = some .taskLost := by
  rw [firstFailure?_append, Option.or_eq_none_iff] at h
  rw [reported, h.1, Option.none_or,
    noticed_turns_of_lost (List.findSome?_eq_none_iff.mp h.2) hlost]

/-! ### Carrying tasks out -/

/-- **What it is to carry out tasks by the numbers** when they end as they do, if `c` of them are to
be taken on and the endings to be collected in some order. -/
structure CarriesOut (sight : Sight σ τ) (limit : Nat) (tasks : List (Run σ (Ending α)))
    (fs : List (Act τ (Ending α))) (p : Progress σ) (c : Nat)
    (order : List (Ending α) → List (Ending α)) : Prop where
  /-- Of the first tasks those are taken on that are to be taken on at all. -/
  dispatched : ∀ i, ((TaskGroup.new limit).spawnAll (tasks.take i) p).1.dispatched = min i c
  /-- No more tasks are under way than may be. -/
  underWay : ∀ i,
    ((TaskGroup.new limit).spawnAll (tasks.take i) p).1.queue.length ≤ max 1 limit
  /-- The tasks that are taken on have run, each once and in order, and no others. -/
  ran : sight.see (carryOut limit tasks p).2 = (inOrder (fs.take c) (sight.see p)).2
  /-- Outputs are given if every one of these has brought something. -/
  isOk_iff : (carryOut limit tasks p).1.isOk = true ↔
    ∀ x ∈ (inOrder (fs.take c) (sight.see p)).1, x.output?.isSome = true
  /-- They are the outputs of all tasks. -/
  outputs : ∀ outputs, (carryOut limit tasks p).1 = .ok outputs →
    outputs = outputsOf (order (inOrder fs (sight.see p)).1)
  /-- The first failure is reported if no task was lost, or if one was not taken on. -/
  failed : ∀ e, firstFailure? (inOrder fs (sight.see p)).1 = some e →
    (∀ x ∈ (inOrder (fs.take c) (sight.see p)).1, x.lateFailure? = none) ∨ c < tasks.length →
    (carryOut limit tasks p).1 = .error e
  /-- It is reported that tasks were lost if none has failed. -/
  lost : firstFailure? (inOrder fs (sight.see p)).1 = none →
    (∃ x ∈ (inOrder fs (sight.see p)).1, x.lateFailure? ≠ none) →
    (carryOut limit tasks p).1 = .error .taskLost

/-- **What comes of waiting** for a group that was offered some tasks. -/
theorem Offering.wait {taken : Nat} (h : Offering sight limit steps t offered taken g p) :
    ∃ ended coming, (inOrder offered t).1.take taken = ended ++ coming ∧
      ((firstFailure? ended).isSome = true ↔ taken < offered.length) ∧
      (firstFailure? ended = none → TaskGroup.collected coming ended p.steps =
        collectingOrder limit steps (inOrder offered t).1) ∧
      sight.see (g.wait p).2 = (inOrder (offered.take taken) t).2 ∧
      (g.wait p).1 = (reported ended coming p.steps).elim
        (.ok (outputsOf (TaskGroup.collected coming ended p.steps))) .error := by
  obtain ⟨ran, waiting, hparts, huncollected⟩ := h.parts
  obtain ⟨hresult, hsee⟩ := wait_acts huncollected.queue p
  rw [huncollected.state] at hresult hsee
  rw [huncollected.outputs, List.nil_append, huncollected.endings, huncollected.failure] at hresult
  have hstopped := h.stopped
  rw [huncollected.failure] at hstopped
  have hendings : (inOrder offered t).1.take taken =
      (inOrder ran t).1 ++ (inOrder waiting (inOrder ran t).2).1 := by
    rw [← inOrder_take, hparts, inOrder_append]
  refine ⟨_, _, hendings, hstopped, fun hnone => ?_, ?_, hresult⟩
  · cases h.counted with
    | stopped hfailed _ =>
        rw [huncollected.failure, hnone] at hfailed
        cases hfailed
    | going _ _ hload =>
        have hall : taken = (inOrder offered t).1.length := by
          rw [length_inOrder]
          exact le_antisymm h.le (not_lt.mp (mt hstopped.mpr (by simp [hnone])))
        have hended : (inOrder ran t).1.length = (Load.afterTaking limit steps taken).ended := by
          rw [← huncollected.endings]
          exact congrArg Load.ended hload
        rw [hall, List.take_length] at hendings
        rw [collectingOrder, ← hall, ← hended, hendings, List.take_left, List.drop_left,
          show p.steps = _ from congrArg Load.steps hload]
  · rw [hsee, hparts, inOrder_append]

variable {tasks : List (Run σ (Ending α))}

/-- **When all tasks have been offered**, it is known how many were taken on. -/
theorem offering_spawnAll (limit : Nat) (htasks : List.Forall₂ (Run.Acts sight) tasks fs)
    (p : Progress σ) :
    Offering sight (max 1 limit) p.steps (sight.see p) fs
      (cutAt (inOrder fs (sight.see p)).1 (takenOn (max 1 limit) p.steps tasks.length))
      ((TaskGroup.new limit).spawnAll tasks p).1 ((TaskGroup.new limit).spawnAll tasks p).2 := by
  obtain ⟨taken, h⟩ := (offering_new limit p).spawnAll htasks
  rw [List.nil_append] at h
  rwa [htasks.length_eq, ← h.upTo.eq_cutAt h.le]

/-- When only some have been offered, as many of these were taken on. -/
theorem offering_take (limit : Nat) (htasks : List.Forall₂ (Run.Acts sight) tasks fs)
    (p : Progress σ) (i : Nat) :
    Offering sight (max 1 limit) p.steps (sight.see p) (fs.take i)
      (min i (cutAt (inOrder fs (sight.see p)).1 (takenOn (max 1 limit) p.steps tasks.length)))
      ((TaskGroup.new limit).spawnAll (tasks.take i) p).1
      ((TaskGroup.new limit).spawnAll (tasks.take i) p).2 := by
  have hall := offering_spawnAll limit htasks p
  obtain ⟨taken, h⟩ := (offering_new limit p).spawnAll (List.forall₂_take i htasks)
  rw [List.nil_append] at h
  have hle : min i (cutAt _ _) ≤ (fs.take i).length :=
    (min_le_min_left i hall.le).trans_eq List.length_take.symm
  rwa [← h.upTo.unique (hall.upTo.take i) h.le hle]

/-- A group carries out as many tasks as have a place before the first that fails has run. -/
theorem carriesOut_cutAt (limit : Nat) (htasks : List.Forall₂ (Run.Acts sight) tasks fs)
    (p : Progress σ) :
    CarriesOut sight limit tasks fs p
      (cutAt (inOrder fs (sight.see p)).1 (takenOn (max 1 limit) p.steps tasks.length))
      (collectingOrder (max 1 limit) p.steps) := by
  have hsome := offering_take limit htasks p
  have hall := offering_spawnAll limit htasks p
  generalize cutAt _ _ = c at hsome hall ⊢
  obtain ⟨ended, coming, hendings, hstopped, hcollected, hran, hresult⟩ := hall.wait
  change (carryOut limit tasks p).1 = _ at hresult
  have hfirst := hall.upTo.firstFailure?_take hall.le
  have hpos : 0 < max 1 limit := Nat.lt_of_lt_of_le Nat.zero_lt_one (Nat.le_max_left 1 limit)
  rw [hendings] at hfirst
  refine
    { dispatched := fun i => (hsome i).dispatched
      underWay := fun i => (hsome i).counted.queue_length_le hpos
      ran := hran
      isOk_iff := ?_, outputs := ?_, failed := ?_, lost := ?_ }
  · rw [inOrder_take, hendings, hresult, ← reported_eq_none_iff]
    cases reported ended coming _ with
    | none => exact iff_of_true rfl rfl
    | some e => exact iff_of_false Bool.false_ne_true (Option.some_ne_none e)
  · intro outputs hok
    rw [hresult] at hok
    cases hreported : reported ended coming _ with
    | some e =>
        rw [hreported] at hok
        cases hok
    | none =>
        rw [hreported] at hok
        rw [← hcollected (Option.or_eq_none_iff.mp hreported).1]
        exact (Except.ok.inj hok).symm
  · intro e he hkept
    rw [inOrder_take, hendings, htasks.length_eq, ← hstopped] at hkept
    rw [hresult, hkept.elim reported_of_kept reported_of_ended, hfirst, he]
    rfl
  · intro hnone hlost
    have hcomplete := hall.upTo.eq_length hall.le hnone
    rw [hcomplete, ← length_inOrder fs (sight.see p), List.take_length] at hendings
    rw [hendings] at hlost
    rw [hresult, reported_of_lost (hfirst.trans hnone) hlost]
    rfl

/-- **A group carries out its tasks by the numbers.** -/
theorem carriesOut_inTurns (limit : Nat) {tasks : List (Run σ (Ending α))}
    {fs : List (Act τ (Ending α))} (htasks : List.Forall₂ (Run.Acts sight) tasks fs)
    (p : Progress σ) :
    let m := max 1 limit
    let r := min m tasksPerRound
    let n := tasks.length
    let cut := takenOn m p.steps n
    CarriesOut sight limit tasks fs p (cutAt (inOrder fs (sight.see p)).1 cut)
        (collectingOrder m p.steps) ∧
      (r ≤ p.steps → ∀ f, cut f =
        min n (min (p.steps + f / r * stepsPerTurn) (m + f / r * r))) ∧
      (m ≤ tasksPerRound → m ≤ p.steps → ∀ f, cut f = min n ((f / m + 1) * m)) ∧
      ∀ endings : List (Ending α), (collectingOrder m p.steps endings).Perm endings ∧
        (endings.length ≤ stepsPerTurn → collectingOrder m p.steps endings = endings) := by
  intro m r n cut
  have hpos : 0 < m := Nat.lt_of_lt_of_le Nat.zero_lt_one (Nat.le_max_left 1 limit)
  exact ⟨carriesOut_cutAt limit htasks p, fun hsteps => takenOn_eq_takenWithin hpos hsteps n,
    fun hlimit hsteps f => takenOn_of_le hpos hlimit hsteps,
    fun endings => ⟨collectingOrder_perm m p.steps endings, collectingOrder_of_le⟩⟩

/-! ### Tasks that note when they run -/

/-- The acts that end as they are told and note their positions. -/
def noting (endings : List (Ending α)) : List (Act (List Nat) (Ending α)) :=
  endings.mapIdx fun position x noted => (x, noted ++ [position])

/-- A task that only acts. -/
def acting (f : Act τ (Ending α)) : Run τ (Ending α) := fun p =>
  ((f p.state).1, { p with state := (f p.state).2 })

/-- A task that is made of an act does what the act does. -/
theorem acts_acting (fs : List (Act τ (Ending α))) :
    List.Forall₂ (Run.Acts (.state id)) (fs.map acting) fs :=
  List.forall₂_map_left_iff.mpr (List.forall₂_same.mpr fun _ _ _ => rfl)

/-- One of three tasks under way is lost and another one fails. There are more, so the failure is
reported. -/
theorem carriesOut_noting :
    let e : OperationError := .list .pod (.backend "boom")
    let fs := noting [.done 7, .lost, .failed e, .done 8, .failed .taskLost]
    let done := carryOut 3 (fs.map acting) (Run.start [])
    List.Forall₂ (Run.Acts (.state id)) (fs.map acting) fs ∧
      done.1 = .error e ∧ done.2.state = [0, 1, 2] := by
  intro e fs done
  obtain ⟨hcarries, -, hbatches, -⟩ := carriesOut_inTurns 3 (acts_acting fs) (Run.start [])
  have hcut : cutAt (inOrder fs []).1 (takenOn 3 stepsPerTurn 5) = 3 :=
    (congrArg (cutAt _) (funext (hbatches (by decide) (by decide)))).trans (by decide)
  change CarriesOut (.state id) 3 _ fs (Run.start [])
    (cutAt (inOrder fs []).1 (takenOn 3 stepsPerTurn 5)) _ at hcarries
  rw [hcut] at hcarries
  exact ⟨acts_acting fs, hcarries.failed e rfl (.inr (by decide)), hcarries.ran⟩

/-- **Tasks need not be taken on in batches of as many as may be under way, nor need outputs be in
order.** Of sixty-two tasks under way the last one fails, but it does not run in the first round, so
another one is taken on. Of 129 outputs of tasks that run one by one the last two change places. -/
theorem not_carriesOut_inBatches :
    let claimed : Nat → List (Ending Nat) → Prop := fun limit endings =>
      let fs := noting endings
      CarriesOut (.state id) limit (fs.map acting) fs (Run.start [])
        (cutAt endings fun f => min endings.length ((f / max 1 limit + 1) * max 1 limit)) id
    let brought := fun n => (List.range n).map Ending.done
    ¬ claimed 62 (brought 61 ++ [.failed (.list .pod (.backend "boom")), .done 62]) ∧
      ¬ claimed 1 (brought 129) := by
  intro claimed brought
  constructor
  · intro h
    exact absurd (h.dispatched 63) (by decide +kernel)
  · intro h
    have houtputs := h.outputs (List.range 127 ++ [128, 127]) (by decide +kernel)
    exact absurd houtputs (by decide +kernel)

end TaskGroup

end ClusterSnapshot
