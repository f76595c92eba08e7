import ClusterSnapshot.Extender.DecisionLog
import Mathlib.Data.List.Nodup
import Mathlib.Data.List.Perm.Basic

/-!
# What a decision log holds

A log is looked at place by place. A `Slot` names a pod, a phase and an extender, and a log holds at
most one decision there. Besides, a log knows of some pods. The order in which its records lie shows
nowhere: two logs that hold the same decisions and know of the same pods show the same to everyone
who asks.

## Main results

* `DecisionLog.decision?_record`, `DecisionLog.decision?_delete`: **what is held after a change**.
* `DecisionLog.Unique.agrees`: **logs that hold the same show the same**.
-/

namespace ClusterSnapshot.Extender

/-- A place for a decision: the pod that it is about, the phase, and the name of the extender. -/
structure Slot where
  key : DecisionKey
  phase : Phase
  extender : String
  deriving DecidableEq, Repr

/-! ### Records -/

namespace DecisionRecord

/-- The decision that an extender has made in a phase. -/
def decision? (r : DecisionRecord) (p : Phase) (extender : String) : Option Decision :=
  ((r.get p).find? extender).map (.mk p)

/-- Nothing is known of a pod without decisions. -/
@[simp] theorem decision?_empty (p : Phase) (extender : String) :
    empty.decision? p extender = none := by
  cases p <;> rfl

/-- A decision that is recorded takes its own place and no other. -/
theorem decision?_insert (r : DecisionRecord) (extender name : String) (d : Decision) (p : Phase) :
    (r.insert extender d).decision? p name =
      if d.phase = p ∧ extender = name then some d else r.decision? p name := by
  obtain ⟨q, result⟩ := d
  by_cases hp : q = p
  · subst hp
    have hget : (r.insert extender ⟨q, result⟩).get q = (r.get q).insert extender result := by
      cases q <;> rfl
    rw [decision?, hget, KeyMap.find?_insert, decision?]
    by_cases hname : extender = name <;> simp [hname]
  · have hget : (r.insert extender ⟨q, result⟩).get p = r.get p := by
      cases q <;> cases p <;> first | rfl | exact absurd rfl hp
    rw [decision?, hget, if_neg fun h => hp h.1]
    rfl

/-- A record is determined by its decisions. -/
theorem ext_decision? {r r' : DecisionRecord}
    (h : ∀ p extender, r.decision? p extender = r'.decision? p extender) : r = r' := by
  have hget : ∀ p, r.get p = r'.get p := by
    intro p
    refine KeyMap.ext_find? fun extender => ?_
    refine Option.map_injective (f := Decision.mk p) (fun x y hxy => ?_) (h p extender)
    injection hxy
  have hfilter : r.filter = r'.filter := hget .filter
  have hprioritize : r.prioritize = r'.prioritize := hget .prioritize
  have hpreempt : r.preempt = r'.preempt := hget .preempt
  have hbind : r.bind = r'.bind := hget .bind
  obtain ⟨f, p, e, b⟩ := r
  obtain ⟨f', p', e', b'⟩ := r'
  simp only at hfilter hprioritize hpreempt hbind
  rw [hfilter, hprioritize, hpreempt, hbind]

end DecisionRecord

/-! ### Logs -/

namespace DecisionLog

/-- The decision that a log holds at a slot. -/
def decision? (log : DecisionLog) (slot : Slot) : Option Decision :=
  (log.find? slot.key).bind fun r => r.decision? slot.phase slot.extender

/-- Whether a log has a record of a pod. -/
def Knows (log : DecisionLog) (key : DecisionKey) : Prop := key ∈ log.records.map (·.1)

/-- To forget a pod leaves all others alone. -/
theorem find?_delete (log : DecisionLog) (key other : DecisionKey) :
    (log.delete key).find? other = if key = other then none else log.find? other := by
  obtain ⟨records⟩ := log
  rw [find?, find?, delete]
  induction records with
  | nil => simp
  | cons entry rest ih =>
      obtain ⟨key', r⟩ := entry
      by_cases hkey : key' = key
      · subst hkey
        rw [List.filter_cons_of_neg (by simp), ih]
        by_cases hother : key' = other <;> simp [hother]
      · rw [List.filter_cons_of_pos (by simp [hkey])]
        by_cases hother : key' = other
        · subst hother
          simp [Ne.symm hkey]
        · simp only [List.find?_cons, hother, decide_false]
          exact ih

/-- To record a decision adds it to what is known of its pod and leaves all others alone. -/
theorem find?_record (log : DecisionLog) (key other : DecisionKey) (extender : String)
    (d : Decision) :
    (log.record key extender d).find? other =
      if key = other then some (((log.find? key).getD .empty).insert extender d)
      else log.find? other := by
  have hfind : (log.record key extender d).find? other = ((log.delete key).find? other).or
      (if key = other then some (((log.find? key).getD .empty).insert extender d) else none) := by
    rw [find?, record, List.find?_append, Option.map_or]
    congr 1
    by_cases hkey : key = other <;> simp [hkey]
  rw [hfind, find?_delete]
  by_cases hkey : key = other <;> simp [hkey]

/-- A log has a record of the pods that are found in it. -/
theorem isSome_find?_iff {log : DecisionLog} {key : DecisionKey} :
    (log.find? key).isSome = true ↔ log.Knows key := by
  simp [find?, Knows]

/-- An empty log has no decisions. -/
@[simp] theorem decision?_empty (slot : Slot) : empty.decision? slot = none := rfl

/-- **What is recorded** takes its own slot and no other. -/
theorem decision?_record (log : DecisionLog) (key : DecisionKey) (extender : String) (d : Decision)
    (slot : Slot) :
    (log.record key extender d).decision? slot =
      if slot = ⟨key, d.phase, extender⟩ then some d else log.decision? slot := by
  obtain ⟨key', phase, name⟩ := slot
  rw [decision?, decision?, find?_record]
  by_cases hkey : key = key'
  · subst hkey
    rw [if_pos rfl, Option.bind_some, DecisionRecord.decision?_insert]
    have hplace : (⟨key, phase, name⟩ : Slot) = ⟨key, d.phase, extender⟩ ↔
        d.phase = phase ∧ extender = name := by
      simp only [Slot.mk.injEq, true_and]
      exact and_congr eq_comm eq_comm
    by_cases hslot : d.phase = phase ∧ extender = name
    · rw [if_pos hslot, if_pos (hplace.mpr hslot)]
    · rw [if_neg hslot, if_neg (mt hplace.mp hslot)]
      cases log.find? key with
      | none => exact DecisionRecord.decision?_empty phase name
      | some r => rfl
  · rw [if_neg hkey, if_neg]
    rintro ⟨⟩
    exact hkey rfl

/-- **What is deleted** is everything about one pod. -/
theorem decision?_delete (log : DecisionLog) (key : DecisionKey) (slot : Slot) :
    (log.delete key).decision? slot = if key = slot.key then none else log.decision? slot := by
  rw [decision?, find?_delete]
  by_cases hkey : key = slot.key
  · rw [if_pos hkey, if_pos hkey]
    rfl
  · rw [if_neg hkey, if_neg hkey]
    rfl

/-- After a decision its pod is known, besides those that were known before. -/
theorem knows_record {log : DecisionLog} {key other : DecisionKey} {extender : String}
    {d : Decision} : (log.record key extender d).Knows other ↔ key = other ∨ log.Knows other := by
  rw [← isSome_find?_iff, ← isSome_find?_iff, find?_record]
  by_cases hkey : key = other <;> simp [hkey]

/-! ### One record for every pod -/

/-- A log with no more than one record for every pod. -/
def Unique (log : DecisionLog) : Prop := (log.records.map (·.1)).Nodup

/-- An empty log knows each pod at most once. -/
theorem unique_empty : empty.Unique := List.nodup_nil

/-- A log that has forgotten a pod knows each pod at most once. -/
theorem Unique.delete {log : DecisionLog} (h : log.Unique) (key : DecisionKey) :
    (log.delete key).Unique :=
  h.sublist (List.filter_sublist.map _)

/-- A log that has recorded a decision knows each pod at most once. -/
theorem Unique.record {log : DecisionLog} (h : log.Unique) (key : DecisionKey) (extender : String)
    (d : Decision) : (log.record key extender d).Unique := by
  have hgone : ¬ (log.delete key).Knows key := by
    rw [← isSome_find?_iff, find?_delete, if_pos rfl]
    simp
  have hrest := h.delete key
  rw [Unique, DecisionLog.record, List.map_append, List.nodup_append]
  refine ⟨hrest, List.nodup_singleton _, ?_⟩
  rintro key' hkey' other hother rfl
  rw [List.map_singleton, List.mem_singleton] at hother
  subst hother
  exact hgone hkey'

/-- **Two logs show the same**: the same record of every pod, the same number of pods, and every pod
decorated alike. -/
structure Agrees (log log' : DecisionLog) : Prop where
  find? : ∀ key, log.find? key = log'.find? key
  size : log.size = log'.size
  isEmpty : log.isEmpty = log'.isEmpty
  decorate : ∀ pod, log.decorate pod = log'.decorate pod

/-- **Logs that hold the same show the same.** -/
theorem Unique.agrees {log log' : DecisionLog} (h : log.Unique) (h' : log'.Unique)
    (hdecision : ∀ slot, log.decision? slot = log'.decision? slot)
    (hknows : ∀ key, log.Knows key ↔ log'.Knows key) : log.Agrees log' := by
  have hfind : ∀ key, log.find? key = log'.find? key := by
    intro key
    have hboth : (log.find? key).isSome = true ↔ (log'.find? key).isSome = true := by
      rw [isSome_find?_iff, isSome_find?_iff, hknows]
    cases hr : log.find? key with
    | none =>
        rw [hr] at hboth
        exact (Option.not_isSome_iff_eq_none.mp (mt hboth.mpr (by simp))).symm
    | some r =>
        rw [hr] at hboth
        obtain ⟨r', hr'⟩ := Option.isSome_iff_exists.mp (hboth.mp rfl)
        rw [hr']
        refine congrArg some (DecisionRecord.ext_decision? fun p extender => ?_)
        have hslot := hdecision ⟨key, p, extender⟩
        rwa [decision?, decision?, hr, hr'] at hslot
  have hsize : log.size = log'.size := by
    have hperm : (log.records.map (·.1)).Perm (log'.records.map (·.1)) :=
      (List.perm_ext_iff_of_nodup h h').mpr hknows
    have hlength := hperm.length_eq
    rwa [List.length_map, List.length_map] at hlength
  refine ⟨hfind, hsize, ?_, fun pod => ?_⟩
  · rw [Bool.eq_iff_iff, isEmpty, isEmpty, List.isEmpty_iff_length_eq_zero,
      List.isEmpty_iff_length_eq_zero]
    exact Eq.congr_left hsize
  · rw [DecisionLog.decorate, DecisionLog.decorate, hfind]

end DecisionLog

end ClusterSnapshot.Extender
