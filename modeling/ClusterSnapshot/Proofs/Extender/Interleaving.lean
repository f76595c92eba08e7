import ClusterSnapshot.Proofs.Extender.DecisionLog
import Mathlib.Data.List.Dedup
import Mathlib.Data.List.Induction

/-!
# Many writers of one decision log

Several writers record decisions in one log, each in an order of its own, and the log takes one
decision at a time. Which writer comes next is left open. As long as no two of them write to the
same slot, this makes no difference: what is held at a slot depends on what its own writer recorded
there, and nothing else about a log depends on the order of its records.

## Main results

* `DecisionLog.decision?_addAll`: what a log holds after many entries.
* `Interleaving.no_lost_updates`: **in whatever order the writers come, the log holds the last
  decision of each of them**, and shows the same.
-/

namespace ClusterSnapshot.Extender

/-- **One order in which several writers come**: each goes through its own list from the front. -/
inductive Interleaving {α : Type} : List (List α) → List α → Prop
  /-- No writer has anything left. -/
  | done {writers : List (List α)} : (∀ w ∈ writers, w = []) → Interleaving writers []
  /-- The writer at one position comes next. -/
  | next {writers : List (List α)} {i : Nat} {x : α} {rest merged : List α} :
    writers[i]? = some (x :: rest) → Interleaving (writers.set i rest) merged →
    Interleaving writers (x :: merged)

namespace Interleaving

variable {α : Type} {writers : List (List α)} {merged : List α}

/-- What comes is what the writers have. -/
theorem mem_iff (h : Interleaving writers merged) {y : α} :
    y ∈ merged ↔ ∃ (i : Nat) (w : List α), writers[i]? = some w ∧ y ∈ w := by
  induction h with
  | done hdone =>
      refine ⟨fun hy => absurd hy List.not_mem_nil, ?_⟩
      rintro ⟨i, w, hw, hy⟩
      rw [hdone w (List.mem_of_getElem? hw)] at hy
      exact hy
  | @next writers i x rest merged hi _ ih =>
      have hlt : i < writers.length := (List.getElem?_eq_some_iff.mp hi).1
      rw [List.mem_cons, ih]
      constructor
      · rintro (rfl | ⟨j, w, hw, hy⟩)
        · exact ⟨i, _, hi, List.mem_cons_self⟩
        · by_cases hij : i = j
          · subst hij
            rw [List.getElem?_set_self hlt] at hw
            obtain rfl := Option.some.inj hw
            exact ⟨i, _, hi, List.mem_cons_of_mem _ hy⟩
          · rw [List.getElem?_set_ne hij] at hw
            exact ⟨j, w, hw, hy⟩
      · rintro ⟨j, w, hw, hy⟩
        by_cases hij : i = j
        · subst hij
          obtain rfl := Option.some.inj (hi.symm.trans hw)
          rcases List.mem_cons.mp hy with rfl | hy
          · exact .inl rfl
          · exact .inr ⟨i, rest, List.getElem?_set_self hlt, hy⟩
        · exact .inr ⟨j, w, by rw [List.getElem?_set_ne hij, hw], hy⟩

/-- **Of what one writer alone has**, the order is that writer's. -/
theorem filter_eq (h : Interleaving writers merged) {p : α → Bool} {i : Nat} {w : List α}
    (hw : writers[i]? = some w)
    (halone : ∀ j w', writers[j]? = some w' → j ≠ i → ∀ y ∈ w', p y = false) :
    merged.filter p = w.filter p := by
  induction h generalizing w with
  | done hdone => rw [hdone w (List.mem_of_getElem? hw)]
  | @next writers j x rest merged hj _ ih =>
      have hlt : j < writers.length := (List.getElem?_eq_some_iff.mp hj).1
      by_cases hij : i = j
      · -- The writer itself comes next.
        subst hij
        obtain rfl := Option.some.inj (hj.symm.trans hw)
        have hrest := ih (List.getElem?_set_self hlt) fun k w' hk hne => by
          rw [List.getElem?_set_ne (Ne.symm hne)] at hk
          exact halone k w' hk hne
        rw [List.filter_cons, List.filter_cons, hrest]
      · -- Another one comes next, with nothing of its kind.
        have hrest := ih (by rw [List.getElem?_set_ne (Ne.symm hij), hw]) fun k w' hk hne => by
          by_cases hjk : j = k
          · subst hjk
            rw [List.getElem?_set_self hlt] at hk
            obtain rfl := Option.some.inj hk
            exact fun y hy => halone j _ hj hne y (List.mem_cons_of_mem _ hy)
          · rw [List.getElem?_set_ne hjk] at hk
            exact halone k w' hk hne
        rw [List.filter_cons_of_neg, hrest]
        rw [halone j _ hj (Ne.symm hij) x List.mem_cons_self]
        exact Bool.false_ne_true

end Interleaving

/-! ### Entries of a log -/

namespace DecisionLog

/-- A decision that is to be recorded. -/
structure Entry where
  key : DecisionKey
  extender : String
  decision : Decision

/-- Where an entry goes. -/
def Entry.slot (e : Entry) : Slot := ⟨e.key, e.decision.phase, e.extender⟩

/-- The log with one more entry. -/
def add (log : DecisionLog) (e : Entry) : DecisionLog := log.record e.key e.extender e.decision

/-- The log with some more entries, one after the other. -/
def addAll (log : DecisionLog) (entries : List Entry) : DecisionLog := entries.foldl add log

/-- Entries are added in order. -/
theorem addAll_append (log : DecisionLog) (entries entries' : List Entry) :
    log.addAll (entries ++ entries') = (log.addAll entries).addAll entries' :=
  List.foldl_append

/-- A new entry is the decision of its slot and leaves all others alone. -/
theorem decision?_add (log : DecisionLog) (e : Entry) (slot : Slot) :
    (log.add e).decision? slot = if slot = e.slot then some e.decision else log.decision? slot :=
  decision?_record log e.key e.extender e.decision slot

/-- An entry makes its pod known. -/
theorem knows_add {log : DecisionLog} {e : Entry} {key : DecisionKey} :
    (log.add e).Knows key ↔ e.key = key ∨ log.Knows key :=
  knows_record

/-- To add an entry lists no pod twice. -/
theorem Unique.add {log : DecisionLog} (h : log.Unique) (e : Entry) : (log.add e).Unique :=
  h.record e.key e.extender e.decision

/-- To add entries lists no pod twice. -/
theorem Unique.addAll {log : DecisionLog} (h : log.Unique) (entries : List Entry) :
    (log.addAll entries).Unique := by
  induction entries generalizing log with
  | nil => exact h
  | cons e rest ih => exact ih (h.add e)

/-- **What many entries leave at a slot** is the last one that goes there. -/
theorem decision?_addAll (log : DecisionLog) (entries : List Entry) (slot : Slot) :
    (log.addAll entries).decision? slot =
      (((entries.filter (·.slot = slot)).getLast?).map (·.decision)).or (log.decision? slot) := by
  induction entries using List.reverseRecOn with
  | nil => rfl
  | append_singleton entries e ih =>
      have hlast : log.addAll (entries ++ [e]) = (log.addAll entries).add e :=
        addAll_append log entries [e]
      rw [hlast, decision?_add, List.filter_append]
      by_cases hslot : slot = e.slot
      · subst hslot
        simp
      · rw [if_neg hslot, ih, List.filter_cons_of_neg (by simpa using Ne.symm hslot),
          List.filter_nil, List.append_nil]

/-- The pods of the entries are known, and no others. -/
theorem knows_addAll {log : DecisionLog} {entries : List Entry} {key : DecisionKey} :
    (log.addAll entries).Knows key ↔ (∃ e ∈ entries, e.key = key) ∨ log.Knows key := by
  induction entries generalizing log with
  | nil => simp [addAll]
  | cons e rest ih =>
      have hrest : (log.addAll (e :: rest)).Knows key ↔ _ := @ih (log.add e)
      rw [hrest, knows_add, List.exists_mem_cons_iff, ← or_assoc, or_comm (a := ∃ _, _)]

/-! ### Entries past each other -/

/-- Entries that go to different slots may change places. -/
theorem Unique.add_comm {log : DecisionLog} (h : log.Unique) {e e' : Entry}
    (hne : e.slot ≠ e'.slot) : ((log.add e).add e').Agrees ((log.add e').add e) := by
  refine ((h.add e).add e').agrees ((h.add e').add e) (fun slot => ?_) fun key => ?_
  · simp only [decision?_add]
    by_cases hslot : slot = e.slot
    · subst hslot
      simp [hne]
    · simp [hslot]
  · simp only [knows_add]
    exact or_left_comm

/-- An entry shows no more once another one has gone to its slot. -/
theorem Unique.add_superseded {log : DecisionLog} (h : log.Unique) {e e' : Entry}
    (heq : e.slot = e'.slot) (between : List Entry) :
    (((log.add e).addAll between).add e').Agrees ((log.addAll between).add e') := by
  refine (((h.add e).addAll between).add e').agrees ((h.addAll between).add e') (fun slot => ?_)
    fun key => ?_
  · simp only [decision?_add, decision?_addAll]
    by_cases hslot : slot = e'.slot
    · simp [hslot]
    · simp [hslot, heq]
  · have hkey : e.key = e'.key := congrArg Slot.key heq
    simp only [knows_add, knows_addAll, hkey]
    rw [or_left_comm (a := ∃ _, _), ← or_assoc, or_self]

/-! ### Writers with slots of their own -/

/-- No slot is written to by two writers. -/
def SlotsApart (writers : List (List Entry)) : Prop :=
  writers.Pairwise fun w w' => ∀ e ∈ w, ∀ e' ∈ w', e.slot ≠ e'.slot

variable {writers : List (List Entry)} {merged : List Entry}

/-- Where one writer writes, no other does. -/
theorem SlotsApart.alone (hapart : SlotsApart writers) {i : Nat} {w : List Entry}
    (hw : writers[i]? = some w) {e : Entry} (he : e ∈ w) (j : Nat) (w' : List Entry)
    (hw' : writers[j]? = some w') (hne : j ≠ i) :
    ∀ e' ∈ w', decide (e'.slot = e.slot) = false := by
  intro e' he'
  obtain ⟨hi, rfl⟩ := List.getElem?_eq_some_iff.mp hw
  obtain ⟨hj, rfl⟩ := List.getElem?_eq_some_iff.mp hw'
  have hpairs := List.pairwise_iff_getElem.mp hapart
  rw [decide_eq_false_iff_not]
  rcases Nat.lt_or_gt_of_ne hne with hlt | hlt
  · exact hpairs j i hj hi hlt e' he' e he
  · exact Ne.symm (hpairs i j hi hj hlt e he e' he')

/-- What is held at a writer's slot is what that writer alone would leave there. -/
theorem SlotsApart.decision?_eq (hapart : SlotsApart writers) (h : Interleaving writers merged)
    {i : Nat} {w : List Entry} (hw : writers[i]? = some w) {e : Entry} (he : e ∈ w) :
    (empty.addAll merged).decision? e.slot = (empty.addAll w).decision? e.slot := by
  rw [decision?_addAll, decision?_addAll, h.filter_eq hw (hapart.alone hw he)]

/-- Nothing is held where no writer writes. -/
theorem decision?_eq_none (h : Interleaving writers merged) {slot : Slot}
    (hnone : ∀ w ∈ writers, ∀ e ∈ w, e.slot ≠ slot) :
    (empty.addAll merged).decision? slot = none := by
  have hfilter : merged.filter (·.slot = slot) = [] := by
    rw [List.filter_eq_nil_iff]
    intro e he
    obtain ⟨i, w, hw, hew⟩ := h.mem_iff.mp he
    simpa using hnone w (List.mem_of_getElem? hw) e hew
  rw [decision?_addAll, hfilter]
  rfl

/-- The pods that are known are those that some writer writes about. -/
theorem knows_interleaved (h : Interleaving writers merged) {key : DecisionKey} :
    (empty.addAll merged).Knows key ↔ key ∈ writers.flatten.map Entry.key := by
  have hempty : ¬ empty.Knows key := List.not_mem_nil
  simp only [knows_addAll, hempty, or_false, List.mem_map, List.mem_flatten]
  refine exists_congr fun e => and_congr_left fun _ => ?_
  rw [h.mem_iff]
  constructor
  · rintro ⟨i, w, hw, he⟩
    exact ⟨w, List.mem_of_getElem? hw, he⟩
  · rintro ⟨w, hw, he⟩
    obtain ⟨i, hi⟩ := List.getElem?_of_mem hw
    exact ⟨i, w, hi, he⟩

/-- There is one record for every pod that some writer writes about. -/
theorem size_interleaved (h : Interleaving writers merged) :
    (empty.addAll merged).size = (writers.flatten.map Entry.key).dedup.length := by
  have hunique : (empty.addAll merged).Unique := unique_empty.addAll merged
  have hperm := (List.perm_ext_iff_of_nodup hunique
    (List.nodup_dedup (writers.flatten.map Entry.key))).mpr fun key => by
      rw [List.mem_dedup]
      exact knows_interleaved h
  rw [size, ← hperm.length_eq, List.length_map]

/-- In whatever order the writers come, the log shows the same. -/
theorem SlotsApart.agrees (hapart : SlotsApart writers) (h : Interleaving writers merged)
    {merged' : List Entry} (h' : Interleaving writers merged') :
    (empty.addAll merged).Agrees (empty.addAll merged') := by
  refine (unique_empty.addAll merged).agrees (unique_empty.addAll merged') (fun slot => ?_)
    fun key => (knows_interleaved h).trans (knows_interleaved h').symm
  by_cases hnone : ∀ w ∈ writers, ∀ e ∈ w, e.slot ≠ slot
  · rw [decision?_eq_none h hnone, decision?_eq_none h' hnone]
  · push Not at hnone
    obtain ⟨w, hw, e, he, rfl⟩ := hnone
    obtain ⟨i, hi⟩ := List.getElem?_of_mem hw
    rw [hapart.decision?_eq h hi he, hapart.decision?_eq h' hi he]

/-- What a writer recorded last at a slot is what it leaves there. -/
theorem decision?_addAll_last (before after : List Entry) {e : Entry}
    (hlast : ∀ later ∈ after, later.slot ≠ e.slot) :
    (empty.addAll (before ++ e :: after)).decision? e.slot = some e.decision := by
  have hafter : after.filter (·.slot = e.slot) = [] := by
    rw [List.filter_eq_nil_iff]
    intro later hlater
    simpa using hlast later hlater
  rw [decision?_addAll, List.filter_append, List.filter_cons_of_pos (by simp), hafter]
  simp

end DecisionLog

open DecisionLog in
/-- **No update is lost, in whatever order the writers come.** The log holds at every slot the last
decision that its own writer recorded there, and nothing at the slots of no writer. It has one
record for every pod that is written about. Any other order leaves a log that shows the same. For
whatever was in a log before, two entries for different slots may change places, and an entry shows
no more once a later one has gone to its slot. -/
theorem Interleaving.no_lost_updates {writers : List (List Entry)} {merged : List Entry}
    (hapart : SlotsApart writers) (h : Interleaving writers merged) :
    (∀ w ∈ writers, ∀ before e after, w = before ++ e :: after →
      (∀ later ∈ after, later.slot ≠ e.slot) →
      (empty.addAll merged).decision? e.slot = some e.decision) ∧
    (∀ slot, (∀ w ∈ writers, ∀ e ∈ w, e.slot ≠ slot) →
      (empty.addAll merged).decision? slot = none) ∧
    (empty.addAll merged).size = (writers.flatten.map Entry.key).dedup.length ∧
    (∀ merged', Interleaving writers merged' →
      (empty.addAll merged).Agrees (empty.addAll merged')) ∧
    ∀ log : DecisionLog, log.Unique →
      (∀ e e' : Entry, e.slot ≠ e'.slot →
        ((log.add e).add e').Agrees ((log.add e').add e)) ∧
      ∀ (e : Entry) (between : List Entry) (e' : Entry), e.slot = e'.slot →
        (((log.add e).addAll between).add e').Agrees ((log.addAll between).add e') := by
  refine ⟨?_, fun slot => decision?_eq_none h, size_interleaved h,
    fun merged' => hapart.agrees h, fun log hlog => ⟨fun e e' => hlog.add_comm, ?_⟩⟩
  · rintro w hw before e after rfl hlast
    obtain ⟨i, hi⟩ := List.getElem?_of_mem hw
    rw [hapart.decision?_eq h hi (List.mem_append_right before List.mem_cons_self)]
    exact decision?_addAll_last before after hlast
  · intro e between e' heq
    exact hlog.add_superseded heq between

namespace DecisionLog

/-- A bound pod, reported by an extender. -/
def Entry.bound (podName extender error : String) : Entry :=
  ⟨⟨"team", podName⟩, extender, ⟨.bind, (⟨error⟩ : BindingResult)⟩⟩

/-- One writer reports twice about a pod, and a second one reports about the same pod for another
extender in between. -/
theorem no_lost_updates_bound :
    SlotsApart [[.bound "web" "a" "busy", .bound "web" "a" ""], [.bound "web" "b" ""]] ∧
    Interleaving [[Entry.bound "web" "a" "busy", .bound "web" "a" ""], [.bound "web" "b" ""]]
      [.bound "web" "a" "busy", .bound "web" "b" "", .bound "web" "a" ""] ∧
    (empty.addAll [.bound "web" "a" "busy", .bound "web" "b" "", .bound "web" "a" ""]).decision?
      ⟨⟨"team", "web"⟩, .bind, "a"⟩ = some ⟨.bind, (⟨""⟩ : BindingResult)⟩ ∧
    (empty.addAll [.bound "web" "a" "busy", .bound "web" "b" "", .bound "web" "a" ""]).size =
      1 := by
  have hapart : SlotsApart [[.bound "web" "a" "busy", .bound "web" "a" ""],
      [.bound "web" "b" ""]] := by
    simp [SlotsApart, Entry.bound, Entry.slot]
  have horder : Interleaving [[Entry.bound "web" "a" "busy", .bound "web" "a" ""],
      [.bound "web" "b" ""]] [.bound "web" "a" "busy", .bound "web" "b" "", .bound "web" "a" ""] :=
    .next (i := 0) rfl (.next (i := 1) rfl (.next (i := 0) rfl (.done (by simp))))
  obtain ⟨hlast, -, hsize, -⟩ := Interleaving.no_lost_updates hapart horder
  refine ⟨hapart, horder, ?_⟩
  refine ⟨hlast _ List.mem_cons_self [_] _ [] rfl (by simp), hsize.trans ?_⟩
  decide

end DecisionLog

end ClusterSnapshot.Extender
