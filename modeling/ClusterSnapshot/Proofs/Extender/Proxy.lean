import ClusterSnapshot.Extender.Proxy
import ClusterSnapshot.Proofs.Extender.DecisionLog
import Mathlib.Data.List.Induction

/-!
# What a proxy records

A proxy hands every answer back as it came and keeps a copy. Over a whole session, in which calls
and deletions follow each other as they please and an extender may answer every call differently,
the log is a faithful account: it holds at a slot exactly the last answer that was given there and
not deleted since.

## Main results

* `Deed.Answers`, `Deed.Forgets`: what a deed of a session does to a slot, said without the log.
* `Proxy.faithful_record`: **answers are handed on unchanged, failures leave no trace, and the log
  holds the last answers**.
-/

namespace ClusterSnapshot.Extender

/-- What the extenders at all positions answer to one call. -/
abbrev Replies := Nat → (p : Phase) → p.Args → Except CallError p.Result

/-- The extenders of some names, in the order of their positions. -/
def clientsOf (names : List String) (replies : Replies) : List Client :=
  names.mapIdx fun position name => ⟨name, replies position⟩

/-- **The pod that a call is about**: the one that is sent along, with an empty namespace if it has
none, or the one that a binding names. -/
inductive About : (p : Phase) → p.Args → DecisionKey → Prop
  | filter (args : Extender.Args) :
    About .filter args ⟨args.pod.metadata.ns?.getD "", args.pod.metadata.name⟩
  | prioritize (args : Extender.Args) :
    About .prioritize args ⟨args.pod.metadata.ns?.getD "", args.pod.metadata.name⟩
  | preempt (args : PreemptionArgs) :
    About .preempt args ⟨args.pod.metadata.ns?.getD "", args.pod.metadata.name⟩
  | bind (args : BindingArgs) : About .bind args ⟨args.podNamespace, args.podName⟩

/-- Arguments are about just one pod. -/
theorem about_iff {p : Phase} {args : p.Args} {key : DecisionKey} :
    About p args key ↔ key = .ofArgs p args := by
  constructor
  · rintro ⟨⟩ <;> rfl
  · rintro rfl
    cases p with
    | filter => exact .filter args
    | prioritize => exact .prioritize args
    | preempt => exact .preempt args
    | bind => exact .bind args

/-- A step of a session with a proxy. -/
inductive Deed where
  /-- The extender at a position is called, when the extenders would answer like this. -/
  | call (replies : Replies) (p : Phase) (position : Nat) (args : p.Args)
  /-- What is known about a pod is deleted. -/
  | delete (key : DecisionKey)
  | deletePod (pod : Stored .pod)

namespace Deed

variable {names : List String}

/-- A call of this deed is answered, and the answer belongs at a slot. -/
inductive Answers (names : List String) : Deed → Slot → Decision → Prop
  | call {replies : Replies} {p : Phase} {position : Nat} {args : p.Args} {name : String}
    {result : p.Result} {key : DecisionKey} : names[position]? = some name →
    replies position p args = .ok result → About p args key →
    Answers names (.call replies p position args) ⟨key, p, name⟩ ⟨p, result⟩

/-- This deed deletes what is known about a pod. -/
inductive Forgets : Deed → DecisionKey → Prop
  | delete (key : DecisionKey) : Forgets (.delete key) key
  | deletePod (pod : Stored .pod) :
    Forgets (.deletePod pod) ⟨pod.metadata.ns?.getD "", pod.metadata.name⟩

/-- The log after a deed. -/
def after (names : List String) (log : DecisionLog) : Deed → DecisionLog
  | .call replies p position args =>
    (Proxy.call ⟨clientsOf names replies, log⟩ p position args).proxy.log
  | .delete key => log.delete key
  | .deletePod pod => log.delete (.ofPod pod)

/-- The log after a whole session that starts without decisions. -/
def afterAll (names : List String) (deeds : List Deed) : DecisionLog :=
  deeds.foldl (after names) .empty

end Deed

/-! ### One call -/

section Call

variable {names : List String} {log : DecisionLog} {replies : Replies} {p : Phase} {position : Nat}
  {args : p.Args}

/-- There is a client for every extender, in the order of their names. -/
theorem getElem?_clientsOf :
    (clientsOf names replies)[position]? = names[position]?.map (⟨·, replies position⟩) := by
  rw [clientsOf, List.getElem?_mapIdx]

/-- A call to a position without an extender. -/
theorem Proxy.call_unknown (hnone : names[position]? = none) :
    Proxy.call ⟨clientsOf names replies, log⟩ p position args =
      ⟨.error (.unknown position), ⟨clientsOf names replies, log⟩, []⟩ := by
  rw [Proxy.call, getElem?_clientsOf, hnone]
  rfl

/-- A call to an extender that fails. -/
theorem Proxy.call_error {name : String} (hname : names[position]? = some name) {e : CallError}
    (he : replies position p args = .error e) :
    Proxy.call ⟨clientsOf names replies, log⟩ p position args =
      ⟨.error e, ⟨clientsOf names replies, log⟩, [.extenderFailed name p e]⟩ := by
  rw [Proxy.call, getElem?_clientsOf, hname]
  simp only [Option.map_some, he]

/-- A call that is answered. -/
theorem Proxy.call_ok {name : String} (hname : names[position]? = some name) {result : p.Result}
    (hresult : replies position p args = .ok result) :
    Proxy.call ⟨clientsOf names replies, log⟩ p position args =
      ⟨.ok result,
        ⟨clientsOf names replies, log.record (.ofArgs p args) name ⟨p, result⟩⟩, []⟩ := by
  rw [Proxy.call, getElem?_clientsOf, hname]
  simp only [Option.map_some, hresult]

end Call

/-! ### One deed -/

namespace Deed

variable {names : List String} {log : DecisionLog} {deed : Deed} {slot : Slot}

/-- What is answered takes its slot. -/
theorem Answers.decision?_after {d : Decision} (h : deed.Answers names slot d) :
    (deed.after names log).decision? slot = some d := by
  obtain ⟨hname, hresult, habout⟩ := h
  obtain rfl := about_iff.mp habout
  rw [after, Proxy.call_ok hname hresult, DecisionLog.decision?_record, if_pos rfl]

/-- A deed answers once. -/
theorem Answers.unique {d d' : Decision} (h : deed.Answers names slot d)
    (h' : deed.Answers names slot d') : d = d' := by
  have hheld : (deed.after names .empty).decision? slot = some d := h.decision?_after
  rw [h'.decision?_after] at hheld
  exact (Option.some.inj hheld).symm

/-- What is deleted is gone. -/
theorem Forgets.decision?_after (h : deed.Forgets slot.key) :
    (deed.after names log).decision? slot = none := by
  obtain ⟨key, phase, extender⟩ := slot
  cases h with
  | delete => exact (DecisionLog.decision?_delete log key _).trans (if_pos rfl)
  | deletePod pod => exact (DecisionLog.decision?_delete log _ _).trans (if_pos rfl)

/-- A deed that neither answers at a slot nor deletes it leaves it as it is. -/
theorem decision?_after_of_not (hforgets : ¬ deed.Forgets slot.key)
    (hanswers : ∀ d, ¬ deed.Answers names slot d) :
    (deed.after names log).decision? slot = log.decision? slot := by
  cases deed with
  | call replies p position args =>
      cases hname : names[position]? with
      | none => rw [after, Proxy.call_unknown hname]
      | some name =>
          cases hresult : replies position p args with
          | error e => rw [after, Proxy.call_error hname hresult]
          | ok result =>
              rw [after, Proxy.call_ok hname hresult, DecisionLog.decision?_record, if_neg]
              rintro rfl
              exact hanswers _ (.call hname hresult (about_iff.mpr rfl))
  | delete key =>
      rw [after, DecisionLog.decision?_delete, if_neg]
      rintro rfl
      exact hforgets (.delete _)
  | deletePod pod =>
      rw [after, DecisionLog.decision?_delete, if_neg]
      intro hkey
      refine hforgets ?_
      rw [← hkey]
      exact .deletePod pod

/-! ### A session -/

/-- **Somewhere in a session a decision was given at a slot, and it still stands**: it was not
deleted, and no other one was given there since. -/
def Stands (names : List String) (deeds : List Deed) (slot : Slot) (d : Decision) : Prop :=
  ∃ before deed later, deeds = before ++ deed :: later ∧ deed.Answers names slot d ∧
    ∀ other ∈ later, ¬ other.Forgets slot.key ∧ ∀ d', ¬ other.Answers names slot d'

/-- Without calls no decision stands. -/
theorem not_stands_nil {d : Decision} : ¬ Stands names [] slot d := by
  rintro ⟨before, deed, later, hnil, -⟩
  exact absurd hnil.symm (by simp)

/-- What stands after one more deed is its answer, or what it leaves standing. -/
theorem stands_concat {deeds : List Deed} {d : Decision} :
    Stands names (deeds ++ [deed]) slot d ↔
      deed.Answers names slot d ∨
        Stands names deeds slot d ∧ ¬ deed.Forgets slot.key ∧
          ∀ d', ¬ deed.Answers names slot d' := by
  constructor
  · rintro ⟨before, answering, later, hsplit, hanswers, hlater⟩
    cases later using List.reverseRecOn with
    | nil =>
        obtain ⟨-, hlast⟩ := List.append_inj' hsplit rfl
        obtain rfl := List.singleton_inj.mp hlast
        exact .inl hanswers
    | append_singleton later last =>
        rw [← List.cons_append, ← List.append_assoc] at hsplit
        obtain ⟨rfl, hlast⟩ := List.append_inj' hsplit rfl
        obtain rfl := List.singleton_inj.mp hlast
        refine .inr ⟨⟨before, answering, later, rfl, hanswers, fun other hother => ?_⟩, ?_⟩
        · exact hlater other (List.mem_append_left _ hother)
        · exact hlater deed (List.mem_append_right _ (List.mem_singleton_self _))
  · rintro (hanswers | ⟨⟨before, answering, later, rfl, hanswers, hlater⟩, hleft⟩)
    · exact ⟨deeds, deed, [], rfl, hanswers, by simp⟩
    · refine ⟨before, answering, later ++ [deed], by simp, hanswers, fun other hother => ?_⟩
      rcases List.mem_append.mp hother with hother | hother
      · exact hlater other hother
      · rwa [List.mem_singleton.mp hother]

/-- **The log holds what stands.** -/
theorem decision?_afterAll {deeds : List Deed} {d : Decision} :
    (afterAll names deeds).decision? slot = some d ↔ Stands names deeds slot d := by
  induction deeds using List.reverseRecOn with
  | nil => exact iff_of_false (by simp [afterAll]) not_stands_nil
  | append_singleton deeds deed ih =>
      have hlast : afterAll names (deeds ++ [deed]) = deed.after names (afterAll names deeds) := by
        rw [afterAll, List.foldl_append]
        rfl
      rw [hlast, stands_concat]
      by_cases hanswers : ∃ d', deed.Answers names slot d'
      · obtain ⟨d', hd'⟩ := hanswers
        rw [hd'.decision?_after, Option.some.injEq]
        constructor
        · rintro rfl
          exact .inl hd'
        · rintro (hd | ⟨-, -, hnone⟩)
          · exact hd'.unique hd
          · exact absurd hd' (hnone d')
      · push Not at hanswers
        by_cases hforgets : deed.Forgets slot.key
        · rw [hforgets.decision?_after]
          refine iff_of_false (by simp) ?_
          rintro (hd | ⟨-, hkeeps, -⟩)
          · exact hanswers d hd
          · exact hkeeps hforgets
        · rw [decision?_after_of_not hforgets hanswers, ih]
          simp [hanswers, hforgets]

end Deed

/-- **A proxy keeps a faithful record.** Whatever the extenders are called and whatever they answer,
a call to a position without an extender fails as unknown, and one to an extender comes to what the
extender answers; if that is a failure, the log stays as it was. After any session of calls and
deletions the log holds at a slot exactly the decision that still stands there: the answer of the
last successful call of that phase to an extender of that name about that pod, if the pod has not
been deleted since. -/
theorem Proxy.faithful_record (names : List String) :
    (∀ (log : DecisionLog) (replies : Replies) (p : Phase) (position : Nat) (args : p.Args),
      (names[position]? = none →
        (Proxy.call ⟨clientsOf names replies, log⟩ p position args).answer =
            .error (.unknown position) ∧
          (Proxy.call ⟨clientsOf names replies, log⟩ p position args).proxy =
            ⟨clientsOf names replies, log⟩) ∧
      ∀ name, names[position]? = some name →
        (Proxy.call ⟨clientsOf names replies, log⟩ p position args).answer =
            replies position p args ∧
          ∀ e, replies position p args = .error e →
            (Proxy.call ⟨clientsOf names replies, log⟩ p position args).proxy =
              ⟨clientsOf names replies, log⟩) ∧
    ∀ (deeds : List Deed) (slot : Slot) (d : Decision),
      (Deed.afterAll names deeds).decision? slot = some d ↔ Deed.Stands names deeds slot d := by
  refine ⟨fun log replies p position args => ⟨fun hnone => ?_, fun name hname => ⟨?_, ?_⟩⟩,
    fun deeds slot d => Deed.decision?_afterAll⟩
  · rw [Proxy.call_unknown hnone]
    exact ⟨rfl, rfl⟩
  · cases hresult : replies position p args with
    | error e => rw [Proxy.call_error hname hresult]
    | ok result => rw [Proxy.call_ok hname hresult]
  · intro e he
    rw [Proxy.call_error hname he]

end ClusterSnapshot.Extender
