import ClusterSnapshot.Proofs.Operation.BringingIn
import ClusterSnapshot.Proofs.Operation.Trace
import Mathlib.Data.List.Infix

/-!
# Strict replays as lenient ones that are cut short

A strict replay makes the same calls as a lenient one, until one of them fails in a way that ends
it. Then those objects of the stage are still handed in that were taken on before, and nothing more
is done. How many these are can be told beforehand from the numbers of objects alone.

## Main results

* `Operator.CutAt`: what it means for a strict replay to be a lenient one that is cut short.
* `Operator.strict_cut`: **where a strict replay is cut**.
-/

namespace ClusterSnapshot

variable {σ : Type} {k : Kind}

/-! ### Stages of requests -/

/-- The stage in which objects of a kind are handed in. -/
def Kind.stage : Kind → Stage
  | .ns => .namespaces
  | .volume => .volumes
  | .pod | .node | .claim | .storageClass | .priorityClass => .cluster

/-- The place of a stage in a replay. -/
def Stage.position : Stage → Nat
  | .scheduler => 0
  | .namespaces => 1
  | .cluster => 2
  | .volumes => 3

/-- The stage of a replay in which a request is made. -/
def Request.stage? : Request → Option Stage
  | .restart _ => some .scheduler
  | .apply k _ => some k.stage
  | .get _ _ _ => some .volumes
  | .list _ _ | .delete _ _ _ | .getConfig => none

/-- Whether a request is one of those that a stage is there for. -/
def Request.isPurposeOf (stage : Stage) : Request → Bool
  | .restart _ => decide (stage = .scheduler)
  | .apply k _ => decide (k.stage = stage)
  | .get _ _ _ | .list _ _ | .delete _ _ _ | .getConfig => false

/-- A progress that has come through the first of some calls, and has done nothing else: up to a
call that is what a stage is there for, with so many of these made at that stage and nothing asked
for that belongs to a later one. -/
structure CutShort (server : Server σ) (c : σ) (calls : List Call) (stage : Stage) (count : Nat)
    (q : Progress σ) : Prop where
  first : q.calls <+: calls
  last : ∃ call ∈ q.calls.getLast?, call.request.isPurposeOf stage = true
  count : q.calls.countP (fun call => call.request.isPurposeOf stage) = count
  earlier : ∀ call ∈ q.calls, ∃ stage', call.request.stage? = some stage' ∧
    stage'.position ≤ stage.position
  state : q.state = server.after (q.calls.map Call.request) c

/-- **A strict replay is the lenient one, cut short**: if no call of the lenient one is fatal, it
does the same. Else the first fatal call is its failure, and it is cut short in the stage of that
call. How many objects of the stage are handed in follows from how many are before the one that
fails. -/
def Operator.CutAt (op : Operator σ) (s : Replay) (ignoreConfig : Bool) (c : σ)
    (cut : Stage → Nat → Nat) : Prop :=
  let lenient := op.replay s ⟨true, ignoreConfig⟩ (Run.start c)
  let strict := op.replay s ⟨false, ignoreConfig⟩ (Run.start c)
  ((∀ call ∈ lenient.2.calls, call.fatal? = none) →
    strict.1 = .ok () ∧ strict.2.calls = lenient.2.calls ∧ strict.2.state = lenient.2.state) ∧
  ∀ before call after e, lenient.2.calls = before ++ call :: after →
    (∀ call ∈ before, call.fatal? = none) → call.fatal? = some e →
    ∃ stage, call.request.stage? = some stage ∧ strict.1 = .error (.replayStage stage e) ∧
      CutShort op.server c lenient.2.calls stage
        (cut stage (before.countP fun call => call.request.isPurposeOf stage)) strict.2

/-- The objects that are handed in at a stage. -/
def Replay.stageItems (s : Replay) : Stage → List Item
  | .scheduler => []
  | .namespaces => s.admittedOf .ns
  | .cluster => Operator.clusterKinds.flatMap s.admittedOf
  | .volumes => s.admittedOf .volume

/-- The steps that are left in the turn when a stage begins. -/
def Replay.stageSteps (s : Replay) (limit : Nat) : Stage → Nat
  | .scheduler | .namespaces => stepsPerTurn
  | .cluster => stepsAfter limit stepsPerTurn (s.stageItems .namespaces).length
  | .volumes =>
    stepsAfter limit (stepsAfter limit stepsPerTurn (s.stageItems .namespaces).length)
      (s.stageItems .cluster).length

namespace Operator

/-- The objects of a stage that are handed in when the one at a position is refused: those for which
there was a place before it had run. -/
def scheduledCut (op : Operator σ) (s : Replay) (stage : Stage) (position : Nat) : Nat :=
  if stage = .scheduler then 1
  else takenOn (max 1 op.maxConcurrency) (s.stageSteps (max 1 op.maxConcurrency) stage)
    (s.stageItems stage).length position

/-- The objects of a stage up to the last of a batch, when batches are as large as the number of
tasks that are under way at a time. -/
def batchCut (op : Operator σ) (s : Replay) (stage : Stage) (position : Nat) : Nat :=
  if stage = .scheduler then 1
  else min (s.stageItems stage).length
    ((position / max 1 op.maxConcurrency + 1) * max 1 op.maxConcurrency)

end Operator

/-! ### First failures -/

/-- Where the first of several things is found that is in a part of a list. -/
theorem first_mem_part {α β : Type} {f : α → Option β} {l₁ l₂ l₃ before after : List α} {x : α}
    (h : l₁ ++ l₂ ++ l₃ = before ++ x :: after) (hl₁ : ∀ a ∈ l₁, f a = none)
    (hbefore : ∀ a ∈ before, f a = none) (hx : (f x).isSome = true)
    (hl₂ : (l₂.findSome? f).isSome = true) :
    ∃ l₂' l₂'', before = l₁ ++ l₂' ∧ l₂ = l₂' ++ x :: l₂'' := by
  have hnot : ∀ l : List α, (∀ a ∈ l₂, a ∈ l) → (∀ a ∈ l, f a = none) → False := by
    intro l hl hnone
    rw [List.findSome?_eq_none_iff.mpr fun a ha => hnone a (hl a ha)] at hl₂
    cases hl₂
  rw [List.append_assoc, List.append_eq_append_iff] at h
  obtain ⟨rest, rfl, h⟩ | ⟨rest, rfl, h⟩ := h
  · rw [List.append_eq_append_iff] at h
    obtain ⟨rest', rfl, -⟩ | ⟨rest', rfl, h⟩ := h
    · exact (hnot _ (fun a ha => List.mem_append_right l₁ (List.mem_append_left _ ha)) hbefore).elim
    · cases rest' with
      | nil =>
          exact (hnot _ (fun a ha => List.mem_append_right l₁ (by simpa using ha)) hbefore).elim
      | cons y rest'' =>
          obtain ⟨rfl, -⟩ := List.cons.inj h
          exact ⟨rest, rest'', rfl, rfl⟩
  · cases rest with
    | nil =>
        cases l₂ with
        | nil => cases hl₂
        | cons y rest' =>
            obtain ⟨rfl, -⟩ := List.cons.inj h
            exact ⟨[], rest', by simp, rfl⟩
    | cons y rest' =>
        obtain ⟨rfl, -⟩ := List.cons.inj h
        rw [hl₁ x (by simp)] at hx
        cases hx

/-! ### The requests of a stage -/

/-- A request that a stage is there for belongs to it. -/
theorem Request.stage?_of_isPurposeOf {r : Request} {stage : Stage}
    (h : r.isPurposeOf stage = true) : r.stage? = some stage := by
  cases r <;> simp_all [isPurposeOf, stage?]

/-- A fatal call is one that its stage is there for. -/
theorem Call.isPurposeOf_of_fatal {call : Call} (h : call.fatal?.isSome = true) {stage : Stage}
    (hstage : call.request.stage? = some stage) : call.request.isPurposeOf stage = true := by
  obtain ⟨cluster, r, failure?⟩ := call
  cases r <;> simp_all [fatal?, Request.isPurposeOf, Request.stage?]

namespace Server

variable {server : Server σ} {stage : Stage}

/-- What is asked for while objects are handed in belongs to their stage. -/
theorem stage?_submissions {items : List Item} (hitems : ∀ i ∈ items, i.1.stage = stage) {s : σ}
    {r : Request} (h : r ∈ server.submissions items s) : r.stage? = some stage := by
  induction items generalizing s with
  | nil => cases h
  | cons i rest ih =>
      obtain ⟨hi, hrest⟩ := List.forall_mem_cons.mp hitems
      rw [submissions, List.mem_append, submission, List.mem_append, List.mem_singleton] at h
      obtain (hlookup | rfl) | h := h
      · obtain ⟨j, d⟩ := i
        by_cases hj : j = .volume
        · subst hj
          obtain ⟨name, ns?, rfl⟩ := Desired.mem_lookups hlookup
          exact congrArg some hi
        · rw [lookups_of_ne hj] at hlookup
          cases hlookup
      · exact congrArg some hi
      · exact ih hrest h

/-- One request for each object is what the stage is there for. -/
theorem countP_submissions {items : List Item} (hitems : ∀ i ∈ items, i.1.stage = stage) (s : σ) :
    (server.submissions items s).countP (Request.isPurposeOf stage) = items.length := by
  induction items generalizing s with
  | nil => rfl
  | cons i rest ih =>
      obtain ⟨hi, hrest⟩ := List.forall_mem_cons.mp hitems
      have hlookups : (Desired.lookups i.1 i.2).countP (Request.isPurposeOf stage) = 0 := by
        refine List.countP_eq_zero.mpr fun r hr => ?_
        obtain ⟨name, ns?, rfl⟩ := Desired.mem_lookups hr
        simp [Request.isPurposeOf]
      rw [submissions, List.countP_append, submission, List.countP_append, hlookups, ih hrest]
      simp [Request.isPurposeOf, hi]
      omega

/-- The last thing that is done is to hand in the last object. -/
theorem getLast?_submissions (server : Server σ) {items : List Item}
    (hitems : ∀ i ∈ items, i.1.stage = stage) (hne : items ≠ []) (s : σ) :
    ∃ last ∈ (server.calls (server.submissions items s) s).getLast?,
      last.request.isPurposeOf stage = true := by
  obtain rfl | ⟨before, i, rfl⟩ := List.eq_nil_or_concat' items
  · exact absurd rfl hne
  · have hi : i.1.stage = stage := hitems i (by simp)
    have hcalls : server.calls (server.submissions (before ++ [i]) s) s =
        (server.calls (server.submissions before s) s ++
          server.calls (Desired.lookups i.1 i.2) (server.after (server.submissions before s) s)) ++
        [server.submitted i (server.after (server.submissions before s) s)] := by
      rw [submissions_append, calls_append, submissions, submissions, List.append_nil,
        calls_submission, List.append_assoc]
    refine ⟨server.submitted i (server.after (server.submissions before s) s), ?_, ?_⟩
    · rw [hcalls, List.getLast?_concat]
      rfl
    · simp [submitted, call, Request.isPurposeOf, hi]

/-- The first objects are handed in without a failure if and only if they are no more than those
before the first that fails. -/
theorem refusal?_take_iff {items : List Item} (hitems : ∀ i ∈ items, i.1.stage = stage) {s : σ}
    {before after : List Call} {call : Call}
    (h : server.calls (server.submissions items s) s = before ++ call :: after)
    (hbefore : ∀ call ∈ before, call.fatal? = none) (hcall : call.fatal?.isSome = true) {n : Nat}
    (hn : n ≤ items.length) :
    server.refusal? (items.take n) s = none ↔
      n ≤ before.countP fun call => call.request.isPurposeOf stage := by
  have hpurpose : call.request.isPurposeOf stage = true := by
    have hmem : call ∈ server.calls (server.submissions items s) s := by simp [h]
    exact Call.isPurposeOf_of_fatal hcall
      (stage?_submissions hitems (request_mem_of_mem_calls hmem))
  have hcount : (server.calls (server.submissions (items.take n) s) s).countP
      (fun call => call.request.isPurposeOf stage) = n := by
    rw [countP_calls, countP_submissions fun i hi => hitems i (List.mem_of_mem_take hi),
      List.length_take, Nat.min_eq_left hn]
  rw [← List.take_append_drop n items, submissions_append, calls_append,
    List.append_eq_append_iff] at h
  rw [refusal?]
  obtain ⟨rest, rfl, -⟩ | ⟨rest, hfirst, h⟩ := h
  · -- They are done before the failure.
    rw [List.countP_append, hcount]
    refine iff_of_true (List.findSome?_eq_none_iff.mpr fun call hcall => ?_) (Nat.le_add_right _ _)
    exact hbefore call (List.mem_append_left _ hcall)
  · cases rest with
    | nil =>
        rw [List.append_nil] at hfirst
        rw [hfirst] at hcount ⊢
        exact iff_of_true (List.findSome?_eq_none_iff.mpr hbefore) hcount.ge
    | cons call' rest' =>
        obtain ⟨rfl, -⟩ := List.cons.inj h
        rw [hfirst] at hcount ⊢
        rw [List.countP_append, List.countP_cons, if_pos hpurpose] at hcount
        refine iff_of_false (fun hnone => ?_) (by omega)
        rw [List.findSome?_eq_none_iff.mp hnone call (by simp)] at hcall
        cases hcall

/-- When so many objects are handed in, they are those that were taken on before the first that
fails has run. -/
theorem takenOn_of_handsInUpTo {items : List Item} (hitems : ∀ i ∈ items, i.1.stage = stage) {s : σ}
    {before after : List Call} {call : Call}
    (h : server.calls (server.submissions items s) s = before ++ call :: after)
    (hbefore : ∀ call ∈ before, call.fatal? = none) (hcall : call.fatal?.isSome = true)
    {limit steps n : Nat} (hn : n ≤ items.length)
    (hupto : server.HandsInUpTo limit steps s items n) :
    takenOn limit steps items.length
      (before.countP fun call => call.request.isPurposeOf stage) = n := by
  have hran : ∀ m ≤ items.length, ranBefore limit steps m ≤ items.length :=
    fun m hm => (ranBefore_le limit steps m).trans hm
  refine takenOn_eq hn (fun m hm => ?_) fun hlt => ?_
  · exact (refusal?_take_iff hitems h hbefore hcall (hran m (hm.le.trans hn))).mp (hupto.1 m hm)
  · by_contra hnot
    have hlate := (refusal?_take_iff hitems h hbefore hcall (hran n hn)).mpr (Nat.le_of_not_lt hnot)
    have hfailed := hupto.2 hlt
    rw [hlate] at hfailed
    cases hfailed

/-- If objects are handed in of which one is refused, and nothing before them is fatal, then the
first fatal call is one of theirs, and its failure is the one that they are refused for. -/
theorem first_fatal_of_refusal {taken dropped : List Item} {t : σ}
    {earlier later before after : List Call} {call : Call} {e e' : OperationError}
    (h : earlier ++ server.calls (server.submissions (taken ++ dropped) t) t ++ later =
      before ++ call :: after)
    (hearlier : ∀ call ∈ earlier, call.fatal? = none)
    (hbefore : ∀ call ∈ before, call.fatal? = none) (hcall : call.fatal? = some e)
    (hrefusal : server.refusal? taken t = some e') :
    e' = e ∧ ∃ before' after', before = earlier ++ before' ∧
      server.calls (server.submissions (taken ++ dropped) t) t = before' ++ call :: after' := by
  have hfirst : (server.calls (server.submissions (taken ++ dropped) t) t).findSome? Call.fatal? =
      some e' := by
    rw [submissions_append, calls_append, List.findSome?_append, ← refusal?, hrefusal]
    rfl
  obtain ⟨before', after', rfl, hcalls⟩ := first_mem_part h hearlier hbefore
    (Option.isSome_of_eq_some hcall) (Option.isSome_of_eq_some hfirst)
  have hbefore' : ∀ call ∈ before', call.fatal? = none := fun call hcall =>
    hbefore call (List.mem_append_right _ hcall)
  rw [hcalls, List.findSome?_append, List.findSome?_eq_none_iff.mpr hbefore', List.findSome?_cons,
    hcall] at hfirst
  exact ⟨(Option.some.inj hfirst).symm, before', after', rfl, hcalls⟩

end Server

/-! ### Strict stages -/

/-- The steps that are left after stages with some objects. -/
def stepsThrough (limit steps : Nat) (stages : List (Stage × List Item)) : Nat :=
  stages.foldl (fun steps stage => stepsAfter limit steps stage.2.length) steps

/-- Strict stages do what they were to do, up to the first at which an object is refused. -/
theorem HandedInStages.of_strict {server : Server σ} {options : Options} {limit : Nat}
    {stages : List (Stage × List Item)} {result : Except OperationError Unit} {p q : Progress σ}
    (h : HandedInStages server options limit stages p result q)
    (hstrict : options.ignoreErrors = false) :
    (result = .ok () ∧
      Sight.record.see q = server.handing (stages.flatMap (·.2)) (Sight.record.see p) ∧
      server.refusal? (stages.flatMap (·.2)) p.state = none) ∨
    ∃ earlier stage taken dropped later e,
      stages = earlier ++ (stage, taken ++ dropped) :: later ∧
      result = .error (.replayStage stage e) ∧
      Sight.record.see q =
        server.handing (earlier.flatMap (·.2) ++ taken) (Sight.record.see p) ∧
      server.refusal? (earlier.flatMap (·.2)) p.state = none ∧
      server.refusal? taken
        (server.handing (earlier.flatMap (·.2)) (Sight.record.see p)).1 = some e ∧
      server.HandsInUpTo limit (stepsThrough limit p.steps earlier)
        (server.handing (earlier.flatMap (·.2)) (Sight.record.see p)).1 (taken ++ dropped)
        taken.length := by
  induction h with
  | nil hsee =>
      exact .inl ⟨rfl, hsee.trans (Server.handing_nil _).symm, rfl⟩
  | @next stage items rest result p q q' hstage _ ih =>
      cases hstage with
      | done hsee hnone hsteps =>
          have hrefusal : ∀ items' : List Item, server.refusal? (items ++ items') p.state =
              server.refusal? items' q.state := by
            intro items'
            refine (Server.refusal?_append items items' (Sight.record.see p)).trans ?_
            rw [hnone hstrict, ← hsee]
            rfl
          obtain ⟨hok, hsee', hnone'⟩ | ⟨earlier, stage', taken, dropped, later, e, rfl, hresult,
            hsee', hnone', hsome, hupto⟩ := ih
          · rw [List.flatMap_cons, Server.handing_append, ← hsee, hrefusal]
            exact .inl ⟨hok, hsee', hnone'⟩
          · refine .inr ⟨(stage, items) :: earlier, stage', taken, dropped, later, e, rfl, hresult,
              ?_, ?_, ?_, ?_⟩
            · rw [List.flatMap_cons, List.append_assoc, Server.handing_append, ← hsee]
              exact hsee'
            · rw [List.flatMap_cons, hrefusal]
              exact hnone'
            · rw [List.flatMap_cons, Server.handing_append, ← hsee]
              exact hsome
            · rw [List.flatMap_cons, Server.handing_append, ← hsee, stepsThrough, List.foldl_cons,
                ← hsteps]
              exact hupto
  | @stop stage items rest e p q hstage =>
      cases hstage with
      | @failed taken dropped _ _ _ hsee hsome hupto =>
          refine .inr ⟨[], stage, taken, dropped, rest, e, rfl, rfl, hsee, rfl, ?_, ?_⟩
          · rw [List.flatMap_nil, Server.handing_nil]
            exact hsome
          · rw [List.flatMap_nil, Server.handing_nil]
            exact hupto

/-- The objects of a stage are of kinds that are handed in at this stage. -/
theorem Replay.stage_of_mem_stageItems {s : Replay} {stage : Stage} {i : Item}
    (h : i ∈ s.stageItems stage) : i.1.stage = stage := by
  cases stage with
  | scheduler => cases h
  | namespaces | volumes => rw [fst_of_mem_admittedOf h]; rfl
  | cluster =>
      obtain ⟨k, hk, hi⟩ := List.mem_flatMap.mp h
      rw [fst_of_mem_admittedOf hi]
      revert hk
      cases k <;> decide

/-- What comes before one of the stages. -/
theorem Replay.of_stages_eq {s : Replay} {earlier later : List (Stage × List Item)} {stage : Stage}
    {items : List Item} (h : s.stages = earlier ++ (stage, items) :: later) :
    stage ≠ .scheduler ∧ s.stageItems stage = items ∧
      (∀ limit, stepsThrough limit stepsPerTurn earlier = s.stageSteps limit stage) ∧
      ∀ i ∈ earlier.flatMap (·.2), i.1.stage.position < stage.position := by
  have hstages : s.stages = [(.namespaces, s.stageItems .namespaces),
    (.cluster, s.stageItems .cluster), (.volumes, s.stageItems .volumes)] := rfl
  rw [hstages] at h
  rcases earlier with _ | ⟨first, _ | ⟨second, _ | ⟨third, rest⟩⟩⟩
  · simp only [List.nil_append, List.cons.injEq, Prod.mk.injEq] at h
    obtain ⟨⟨rfl, rfl⟩, -⟩ := h
    exact ⟨by decide, rfl, fun _ => rfl, fun i hi => nomatch hi⟩
  · simp only [List.cons_append, List.nil_append, List.cons.injEq, Prod.mk.injEq] at h
    obtain ⟨rfl, ⟨rfl, rfl⟩, -⟩ := h
    refine ⟨by decide, rfl, fun _ => rfl, fun i hi => ?_⟩
    rw [stage_of_mem_stageItems (by simpa using hi)]
    decide
  · simp only [List.cons_append, List.nil_append, List.cons.injEq, Prod.mk.injEq] at h
    obtain ⟨rfl, rfl, ⟨rfl, rfl⟩, -⟩ := h
    refine ⟨by decide, rfl, fun _ => rfl, fun i hi => ?_⟩
    simp only [List.flatMap_cons, List.flatMap_nil, List.append_nil, List.mem_append] at hi
    obtain hi | hi := hi <;> rw [stage_of_mem_stageItems hi] <;> decide
  · simp at h

/-! ### The whole replay -/

/-- **What a strict replay has done**: all, or nothing because the scheduler was not restarted, or
all up to the objects that were taken on before one was refused. -/
inductive StrictlyDone (server : Server σ) (limit : Nat) (s : Replay) (ignoreConfig : Bool)
    (c : σ) : Except OperationError Unit → Progress σ → Prop
  | through {q : Progress σ} :
    Sight.record.see q =
      server.making (s.requestsUpTo server ignoreConfig c s.admitted) (c, []) →
    (∀ call ∈ server.calls (s.requestsUpTo server ignoreConfig c s.admitted) c,
      call.fatal? = none) →
    StrictlyDone server limit s ignoreConfig c (.ok ()) q
  | notRestarted {q : Progress σ} {r : Request} {e : OperationError} :
    s.configRequests ignoreConfig = [r] → r.isPurposeOf .scheduler = true →
    Sight.record.see q = server.making [r] (c, []) → (server.call r c).fatal? = some e →
    StrictlyDone server limit s ignoreConfig c (.error (.replayStage .scheduler e)) q
  | refused {q : Progress σ} {earlier later : List (Stage × List Item)} {stage : Stage}
    {taken dropped : List Item} {e : OperationError} {t : σ} :
    s.stages = earlier ++ (stage, taken ++ dropped) :: later →
    Sight.record.see q = server.making
      (s.requestsUpTo server ignoreConfig c (earlier.flatMap (·.2)) ++ server.submissions taken t)
        (c, []) →
    server.after (s.requestsUpTo server ignoreConfig c (earlier.flatMap (·.2))) c = t →
    (∀ call ∈ server.calls (s.requestsUpTo server ignoreConfig c (earlier.flatMap (·.2))) c,
      call.fatal? = none) →
    server.refusal? taken t = some e →
    server.HandsInUpTo limit (stepsThrough limit stepsPerTurn earlier) t (taken ++ dropped)
      taken.length →
    StrictlyDone server limit s ignoreConfig c (.error (.replayStage stage e)) q

namespace Operator

variable {op : Operator σ}

/-- A strict replay is done through, or as far as one of the failures allows. -/
theorem strictlyDone_replay (op : Operator σ) (s : Replay) (ignoreConfig : Bool) (c : σ) :
    StrictlyDone op.server (max 1 op.maxConcurrency) s ignoreConfig c
      (op.replay s ⟨false, ignoreConfig⟩ (Run.start c)).1
      (op.replay s ⟨false, ignoreConfig⟩ (Run.start c)).2 := by
  obtain ⟨hsee, hsteps, hresult⟩ :=
    op.replayConfig_record s ⟨false, ignoreConfig⟩ (Run.start c)
  have hobjects := op.handedInStages_replayObjects s ⟨false, ignoreConfig⟩
    (op.replayConfig s ⟨false, ignoreConfig⟩ (Run.start c)).2
  rw [replay_eq, Attempt.bind_apply]
  generalize (op.replayConfig s ⟨false, ignoreConfig⟩ (Run.start c)).1 = result,
    (op.replayConfig s ⟨false, ignoreConfig⟩ (Run.start c)).2 = p at *
  subst hresult
  change Sight.record.see p = op.server.making (s.configRequests ignoreConfig) (c, []) at hsee
  cases hfatal : (op.server.calls (s.configRequests ignoreConfig) c).findSome? Call.fatal? with
  | some e =>
      simp only [Run.start, hfatal, Bool.false_eq_true, ↓reduceIte]
      cases ignoreConfig with
      | true => cases hfatal
      | false =>
          refine .notRestarted rfl rfl hsee ?_
          simpa [Replay.configRequests, Server.calls] using hfatal
  | none =>
      simp only [Run.start, hfatal]
      -- What is handed in begins where the first stage has come to.
      have hmaking : ∀ items, op.server.handing items (Sight.record.see p) =
          op.server.making (s.requestsUpTo op.server ignoreConfig c items) (c, []) := by
        intro items
        rw [hsee, Replay.requestsUpTo, Server.making_append]
        rfl
      have hstate : p.state = op.server.after (s.configRequests ignoreConfig) c :=
        congrArg Prod.fst hsee
      have hnone : ∀ items, op.server.refusal? items p.state = none →
          ∀ call ∈ op.server.calls (s.requestsUpTo op.server ignoreConfig c items) c,
            call.fatal? = none := by
        intro items hrefusal
        rw [Replay.requestsUpTo, Server.calls_append]
        refine List.findSome?_eq_none_iff.mp ?_
        rw [List.findSome?_append, hfatal, ← hstate]
        exact hrefusal
      obtain ⟨hok, hall, hrefusal⟩ | ⟨earlier, stage, taken, dropped, later, e, hstages, herror,
        hall, hrefusal, hsome, hupto⟩ := hobjects.of_strict rfl
      · rw [hok]
        rw [s.flatMap_stages] at hall hrefusal
        exact .through (hall.trans (hmaking _)) (hnone _ hrefusal)
      · rw [herror]
        rw [hmaking] at hsome hupto hall
        rw [hsteps] at hupto
        rw [Replay.requestsUpTo_append] at hall
        exact .refused hstages hall rfl (hnone _ hrefusal) hsome hupto

end Operator

namespace StrictlyDone

variable {server : Server σ} {limit : Nat} {s : Replay} {ignoreConfig : Bool} {c : σ}
  {result : Except OperationError Unit} {q : Progress σ}

/-- To restart the scheduler is the first stage. -/
theorem stage?_configRequests {r : Request} (h : r ∈ s.configRequests ignoreConfig) :
    r.stage? = some .scheduler := by
  cases ignoreConfig with
  | true => cases h
  | false =>
      obtain rfl := List.mem_singleton.mp h
      rfl

/-- What is asked for before a stage belongs to the stages before. -/
theorem stage?_requestsUpTo {items : List Item} {stage : Stage} (hstage : stage ≠ .scheduler)
    (hitems : ∀ i ∈ items, i.1.stage.position < stage.position) {r : Request}
    (h : r ∈ s.requestsUpTo server ignoreConfig c items) :
    ∃ stage', r.stage? = some stage' ∧ stage'.position < stage.position := by
  rw [Replay.requestsUpTo, List.mem_append] at h
  obtain h | h := h
  · exact ⟨.scheduler, stage?_configRequests h, by revert hstage; cases stage <;> decide⟩
  · generalize server.after (s.configRequests ignoreConfig) c = t at h
    induction items generalizing t with
    | nil => cases h
    | cons i rest ih =>
        obtain ⟨hi, hrest⟩ := List.forall_mem_cons.mp hitems
        rw [Server.submissions, List.mem_append] at h
        obtain h | h := h
        · have hone : r ∈ server.submissions [i] t := by simpa [Server.submissions] using h
          exact ⟨i.1.stage, Server.stage?_submissions (by simp) hone, hi⟩
        · exact ih hrest _ h

/-- Nothing that is asked for before a stage is what the stage is there for. -/
theorem countP_requestsUpTo {items : List Item} {stage : Stage} (hstage : stage ≠ .scheduler)
    (hitems : ∀ i ∈ items, i.1.stage.position < stage.position) :
    (s.requestsUpTo server ignoreConfig c items).countP (Request.isPurposeOf stage) = 0 := by
  refine List.countP_eq_zero.mpr fun r hr hpurpose => ?_
  obtain ⟨stage', hstage', hlt⟩ := stage?_requestsUpTo hstage hitems hr
  rw [Request.stage?_of_isPurposeOf hpurpose] at hstage'
  obtain rfl := Option.some.inj hstage'
  exact absurd hlt (lt_irrefl _)

/-- A strict replay that goes through does what the lenient one does. -/
theorem of_no_fatal (h : StrictlyDone server limit s ignoreConfig c result q)
    (hnone : ∀ call ∈ server.calls (s.requestsUpTo server ignoreConfig c s.admitted) c,
      call.fatal? = none) :
    result = .ok () ∧ Sight.record.see q =
      server.making (s.requestsUpTo server ignoreConfig c s.admitted) (c, []) := by
  cases h with
  | through hsee _ => exact ⟨rfl, hsee⟩
  | notRestarted hfirst _ _ hfatal =>
      rw [hnone] at hfatal
      · cases hfatal
      · simp [Replay.requestsUpTo, hfirst, Server.calls]
  | @refused _ earlier later stage taken dropped e t hstages _ ht _ hsome _ =>
      have hadmitted : s.admitted =
          earlier.flatMap (·.2) ++ taken ++ (dropped ++ later.flatMap (·.2)) := by
        rw [← s.flatMap_stages, hstages]
        simp
      rw [Server.refusal?, List.findSome?_eq_none_iff.mpr fun call hcall => hnone call ?_] at hsome
      · cases hsome
      · rw [hadmitted, Replay.requestsUpTo_append, Replay.requestsUpTo_append, ht,
          Server.calls_append, Server.calls_append, ht]
        simp [hcall]

/-- A replay that ends because the scheduler is not restarted has made one call. -/
theorem cutShort_notRestarted {r : Request} {rest : List Call}
    (hr : r.isPurposeOf .scheduler = true) (hsee : Sight.record.see q = server.making [r] (c, [])) :
    CutShort server c (server.call r c :: rest) .scheduler 1 q := by
  have hcalls : q.calls = [server.call r c] := congrArg Prod.snd hsee
  have hstate : q.state = server.after [r] c := congrArg Prod.fst hsee
  rw [← List.singleton_append, ← hcalls]
  refine ⟨List.prefix_append _ _, ?_, ?_, fun call hcall => ?_, ?_⟩
  · rw [hcalls]
    exact ⟨_, rfl, hr⟩
  · rw [hcalls, List.countP_singleton]
    exact if_pos hr
  · rw [hcalls, List.mem_singleton] at hcall
    subst hcall
    exact ⟨.scheduler, Request.stage?_of_isPurposeOf hr, le_refl _⟩
  · rw [hstate, hcalls]
    rfl

/-- A replay that ends because an object is refused has handed in what was taken on before. -/
theorem cutShort_refused {earlier taken : List Item} (rest : List Item) {stage : Stage}
    (hstage : stage ≠ .scheduler) (hearlier : ∀ i ∈ earlier, i.1.stage.position < stage.position)
    (htaken : ∀ i ∈ taken, i.1.stage = stage) (hne : taken ≠ [])
    (hsee : Sight.record.see q =
      server.making (s.requestsUpTo server ignoreConfig c (earlier ++ taken)) (c, [])) :
    CutShort server c
      (server.calls (s.requestsUpTo server ignoreConfig c (earlier ++ taken ++ rest)) c) stage
      taken.length q := by
  have hcalls : q.calls =
      server.calls (s.requestsUpTo server ignoreConfig c (earlier ++ taken)) c :=
    congrArg Prod.snd hsee
  have hstate : q.state =
      server.after (s.requestsUpTo server ignoreConfig c (earlier ++ taken)) c :=
    congrArg Prod.fst hsee
  refine ⟨?_, ?_, ?_, fun call hcall => ?_, ?_⟩
  · rw [hcalls, Replay.requestsUpTo_append _ _ _ _ (earlier ++ taken), Server.calls_append]
    exact List.prefix_append _ _
  · obtain ⟨last, hlast, hpurpose⟩ := server.getLast?_submissions htaken hne
      (server.after (s.requestsUpTo server ignoreConfig c earlier) c)
    refine ⟨last, ?_, hpurpose⟩
    rw [hcalls, Replay.requestsUpTo_append, Server.calls_append, List.getLast?_append]
    rw [Option.mem_def.mp hlast]
    rfl
  · rw [hcalls, Server.countP_calls, Replay.requestsUpTo_append, List.countP_append,
      Server.countP_submissions htaken, countP_requestsUpTo hstage hearlier, Nat.zero_add]
  · rw [hcalls] at hcall
    have hrequest := Server.request_mem_of_mem_calls hcall
    rw [Replay.requestsUpTo_append, List.mem_append] at hrequest
    obtain hrequest | hrequest := hrequest
    · obtain ⟨stage', hstage', hlt⟩ := stage?_requestsUpTo hstage hearlier hrequest
      exact ⟨stage', hstage', hlt.le⟩
    · exact ⟨stage, Server.stage?_submissions htaken hrequest, le_refl _⟩
  · rw [hcalls, Server.map_request_calls]
    exact hstate

/-- **Where a strict replay is cut** in which a call is fatal. -/
theorem of_fatal (h : StrictlyDone server limit s ignoreConfig c result q)
    {before after : List Call} {call : Call} {e : OperationError}
    (hcalls : server.calls (s.requestsUpTo server ignoreConfig c s.admitted) c =
      before ++ call :: after)
    (hbefore : ∀ call ∈ before, call.fatal? = none) (hcall : call.fatal? = some e) :
    ∃ stage, call.request.stage? = some stage ∧ result = .error (.replayStage stage e) ∧
      CutShort server c (before ++ call :: after) stage
        (if stage = .scheduler then 1
        else takenOn limit (s.stageSteps limit stage) (s.stageItems stage).length
          (before.countP fun call => call.request.isPurposeOf stage)) q := by
  have hsome : call.fatal?.isSome = true := Option.isSome_of_eq_some hcall
  cases h with
  | through _ hnone =>
      rw [hnone call (by simp [hcalls])] at hcall
      cases hcall
  | @notRestarted _ r e' hfirst hr hsee hfatal =>
      rw [Replay.requestsUpTo, hfirst, List.singleton_append, Server.calls] at hcalls
      cases before with
      | nil =>
          obtain ⟨rfl, rfl⟩ := List.cons.inj hcalls
          obtain rfl := Option.some.inj (hfatal.symm.trans hcall)
          exact ⟨.scheduler, Request.stage?_of_isPurposeOf hr, rfl, cutShort_notRestarted hr hsee⟩
      | cons first before' =>
          obtain ⟨rfl, -⟩ := List.cons.inj hcalls
          rw [hbefore _ (List.mem_cons_self ..)] at hfatal
          cases hfatal
  | @refused _ earlier later stage taken dropped e' t hstages hsee ht hnone hrefusal hupto =>
      obtain ⟨hstage, hitems, hsteps, hearlier⟩ := Replay.of_stages_eq hstages
      have hof : ∀ i ∈ taken ++ dropped, i.1.stage = stage := fun i hi =>
        Replay.stage_of_mem_stageItems (hitems ▸ hi)
      have htaken : ∀ i ∈ taken, i.1.stage = stage := fun i hi =>
        hof i (List.mem_append_left _ hi)
      have hadmitted : s.admitted = earlier.flatMap (·.2) ++ (taken ++ dropped) ++
          later.flatMap (·.2) := by
        rw [← s.flatMap_stages, hstages]
        simp
      have hsplit : server.calls (s.requestsUpTo server ignoreConfig c (earlier.flatMap (·.2))) c ++
          server.calls (server.submissions (taken ++ dropped) t) t ++
          server.calls (server.submissions (later.flatMap (·.2))
            (server.after (server.submissions (taken ++ dropped) t) t))
            (server.after (server.submissions (taken ++ dropped) t) t) =
          before ++ call :: after := by
        rw [← hcalls, hadmitted, Replay.requestsUpTo_append, Replay.requestsUpTo_append,
          Server.calls_append, Server.calls_append, Server.after_append, ht]
      obtain ⟨rfl, before', after', rfl, hstageCalls⟩ :=
        Server.first_fatal_of_refusal hsplit hnone hbefore hcall hrefusal
      have hmem : call ∈ server.calls (server.submissions (taken ++ dropped) t) t := by
        simp [hstageCalls]
      have hbefore' : ∀ call ∈ before', call.fatal? = none := fun call hcall =>
        hbefore call (List.mem_append_right _ hcall)
      have hcut := Server.takenOn_of_handsInUpTo hof hstageCalls hbefore' hsome
        (by rw [List.length_append]; omega) (hsteps limit ▸ hupto)
      refine ⟨stage, Server.stage?_submissions hof (Server.request_mem_of_mem_calls hmem), rfl, ?_⟩
      rw [if_neg hstage, hitems, List.countP_append, Server.countP_calls,
        countP_requestsUpTo hstage hearlier, Nat.zero_add, hcut, ← hcalls, hadmitted]
      have hne : taken ≠ [] := by
        rintro rfl
        cases hrefusal
      have hcut := cutShort_refused (dropped ++ later.flatMap (·.2)) hstage hearlier htaken
        hne (hsee.trans (by rw [Replay.requestsUpTo_append, ht]))
      simpa using hcut

end StrictlyDone

namespace Operator

/-- A strict replay is cut where the numbers of objects say. -/
theorem cutAt_scheduledCut (op : Operator σ) (s : Replay) (ignoreConfig : Bool) (c : σ) :
    op.CutAt s ignoreConfig c (op.scheduledCut s) := by
  have hstrict := op.strictlyDone_replay s ignoreConfig c
  obtain ⟨-, hlenient⟩ :=
    op.replay_lenient s ⟨true, ignoreConfig⟩ rfl (Run.start c)
  have hcalls : (op.replay s ⟨true, ignoreConfig⟩ (Run.start c)).2.calls =
      op.server.calls (s.requestsUpTo op.server ignoreConfig c s.admitted) c :=
    congrArg Prod.snd hlenient
  refine ⟨fun hnone => ?_, fun before call after e hsplit hbefore hcall => ?_⟩
  · rw [hcalls] at hnone
    obtain ⟨hok, hsee⟩ := hstrict.of_no_fatal hnone
    have hsame := hsee.trans hlenient.symm
    exact ⟨hok, congrArg Prod.snd hsame, congrArg Prod.fst hsame⟩
  · rw [hsplit]
    exact hstrict.of_fatal (hcalls.symm.trans hsplit) hbefore hcall

/-- **Where a strict replay is cut** when batches are small: with few objects in the stages before,
at the end of the batch of the object that fails. -/
theorem scheduledCut_eq_batchCut (op : Operator σ) {s : Replay}
    (hlimit : max 1 op.maxConcurrency ≤ tasksPerRound) {stage : Stage}
    (hearlier : ∀ earlier : Stage, earlier.position < stage.position →
      (s.stageItems earlier).length ≤ stepsPerTurn) :
    op.scheduledCut s stage = op.batchCut s stage := by
  funext position
  rw [scheduledCut, batchCut]
  have hpos : 0 < max 1 op.maxConcurrency := by omega
  have hturn : max 1 op.maxConcurrency ≤ stepsPerTurn := hlimit.trans (by decide)
  cases stage with
  | scheduler => rfl
  | namespaces => exact takenOn_of_le hpos hlimit hturn
  | cluster =>
      have hns := le_stepsAfter hpos hlimit hturn (hearlier .namespaces (by decide))
      exact takenOn_of_le hpos hlimit hns
  | volumes =>
      have hns := le_stepsAfter hpos hlimit hturn (hearlier .namespaces (by decide))
      have hcluster := le_stepsAfter hpos hlimit hns (hearlier .cluster (by decide))
      exact takenOn_of_le hpos hlimit hcluster

/-- **Strict replays are lenient ones that are cut short.** In the stage of the first fatal call,
the objects are handed in that were taken on before the one that fails had run. When few tasks are
under way at a time and the stages before had few objects, these are the batch of that object and
those before. -/
theorem strict_cut (op : Operator σ) (s : Replay) (ignoreConfig : Bool) (c : σ) :
    op.CutAt s ignoreConfig c (op.scheduledCut s) ∧
      (max 1 op.maxConcurrency ≤ tasksPerRound → ∀ stage : Stage,
        (∀ earlier : Stage, earlier.position < stage.position →
          (s.stageItems earlier).length ≤ stepsPerTurn) →
        op.scheduledCut s stage = op.batchCut s stage) :=
  ⟨op.cutAt_scheduledCut s ignoreConfig c, fun hlimit _ hearlier =>
    op.scheduledCut_eq_batchCut hlimit hearlier⟩

end Operator

/-- A replay of namespaces only. -/
def Replay.ofNamespaces (names : List String) : Replay :=
  ⟨(ByKind.ofFn fun _ => []).set .ns (names.map fun name => Desired.plain .ns name none), none⟩

/-- A replay that leaves the scheduler alone begins with the first of its namespaces. -/
theorem Operator.calls_lenient_of_cons (op : Operator σ) {s : Replay} {d : Desired .ns}
    {rest : List Item} (h : s.admitted = ⟨.ns, d⟩ :: rest) (c : σ) :
    ∃ after, (op.replay s ⟨true, true⟩ (Run.start c)).2.calls =
      op.server.call (.apply .ns d) c :: after := by
  have hsee := (op.replay_lenient s ⟨true, true⟩ rfl (Run.start c)).2
  rw [h] at hsee
  exact ⟨_, congrArg Prod.snd hsee⟩

/-- With two tasks at a time and three namespaces of which the first fails, the second is still
handed in, and the third is not. -/
theorem Operator.strict_cut_three :
    let fault : Fault := ⟨"apply", none, some "a", .backend "boom"⟩
    let op : Operator Cluster := ⟨(Cluster.server "target" false).withFaults [fault], 2, id⟩
    let s := Replay.ofNamespaces ["a", "b", "c"]
    let c : Cluster := ⟨.empty, ⟨toString, 0⟩⟩
    let strict := op.replay s ⟨false, true⟩ (Run.start c)
    op.CutAt s true c (op.scheduledCut s) ∧
      op.scheduledCut s .namespaces = op.batchCut s .namespaces ∧
      op.batchCut s .namespaces 0 = 2 ∧
      strict.1 = .error (.replayStage .namespaces (.apply .ns "a" (.backend "boom"))) ∧
      strict.2.calls.countP (fun call => call.request.isPurposeOf .namespaces) = 2 := by
  intro fault op s c strict
  obtain ⟨hcut, hbatch⟩ := strict_cut op s true c
  have hsame : op.scheduledCut s .namespaces = op.batchCut s .namespaces := by
    refine hbatch (by decide) .namespaces fun earlier hlt => ?_
    cases earlier <;> first | exact absurd hlt (by decide) | exact Nat.zero_le _
  obtain ⟨d, hd⟩ : ∃ d, Desired.admitted? (Desired.plain .ns "a" none) = some d :=
    Desired.exists_admitted (by decide)
  obtain rfl := (Desired.admitted?_eq_some hd).2
  have hadmitted : s.admitted = ⟨.ns, _⟩ :: _ := rfl
  obtain ⟨after, hcalls⟩ := op.calls_lenient_of_cons hadmitted c
  obtain ⟨stage, hstage, hresult, hshort⟩ := hcut.2 [] _ after _ hcalls (by simp) rfl
  obtain rfl : Stage.namespaces = stage := Option.some.inj hstage
  rw [hsame] at hshort
  have htwo : op.batchCut s .namespaces 0 = 2 := by decide
  exact ⟨hcut, hsame, htwo, hresult, hshort.count.trans htwo⟩

/-- **Batches are not always complete**: with many tasks at a time, the steps of a turn are used up
before a batch is full, and the first tasks run. -/
theorem Operator.not_cutAt_batchCut :
    let fault : Fault := ⟨"apply", none, none, .backend "boom"⟩
    let op : Operator Cluster := ⟨(Cluster.server "target" false).withFaults [fault], 200, id⟩
    let s := Replay.ofNamespaces (List.replicate 129 "n")
    ¬ op.CutAt s true ⟨.empty, ⟨toString, 0⟩⟩ (op.batchCut s) := by
  intro fault op s hbatch
  have hscheduled := op.cutAt_scheduledCut s true ⟨.empty, ⟨toString, 0⟩⟩
  obtain ⟨d, hd⟩ : ∃ d, Desired.admitted? (Desired.plain .ns "n" none) = some d :=
    Desired.exists_admitted (by decide)
  have hitems : s.stageItems .namespaces = List.replicate 129 ⟨.ns, d⟩ := by
    simp only [s, Replay.stageItems, Replay.admittedOf, Replay.ofNamespaces, ByKind.get_set_self,
      List.map_replicate]
    rw [List.filterMap_replicate_of_some hd, List.map_replicate]
  have hadmitted : s.admitted = s.stageItems .namespaces ++ (s.stageItems .cluster ++
    (s.stageItems .volumes ++ [])) := s.flatMap_stages.symm
  rw [hitems, List.replicate_succ, List.cons_append] at hadmitted
  obtain ⟨after, hcalls⟩ := op.calls_lenient_of_cons hadmitted ⟨.empty, ⟨toString, 0⟩⟩
  have hfatal : (op.server.call (.apply .ns d) ⟨.empty, ⟨toString, 0⟩⟩).fatal? =
    some (.apply .ns d.metadata.name (.backend "boom")) := rfl
  obtain ⟨stage, hstage, -, hshort⟩ := hbatch.2 [] _ after _ hcalls (by simp) hfatal
  obtain ⟨stage', hstage', -, hshort'⟩ := hscheduled.2 [] _ after _ hcalls (by simp) hfatal
  obtain rfl : Stage.namespaces = stage := Option.some.inj hstage
  obtain rfl : Stage.namespaces = stage' := Option.some.inj hstage'
  have hsame : op.batchCut s .namespaces 0 = op.scheduledCut s .namespaces 0 :=
    hshort.count.symm.trans hshort'.count
  have htaken : takenOn 200 stepsPerTurn 129 0 = stepsPerTurn :=
    takenOn_of_lt (by decide) (by decide) (by decide)
  simp only [Operator.batchCut, Operator.scheduledCut, reduceCtorEq, ↓reduceIte, hitems,
    List.length_replicate] at hsame
  exact absurd (hsame.trans htaken) (by decide)

end ClusterSnapshot
