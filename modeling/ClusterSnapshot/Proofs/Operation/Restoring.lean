import ClusterSnapshot.Proofs.Operation.Capturable

/-!
# Restoring what was captured

What was captured of a capturable store is brought into an empty one without fail. The store then
holds just the objects of the snapshot, as far as they are portable, and its configuration.

## Main results

* `Store.Capturable.restored`: **a snapshot of a capturable store is restored in an empty one**.
* `Store.Mirrors.portable_userObjects`: what is restored is captured again.
-/

namespace ClusterSnapshot

open JsonForm (Sound)
open Number (InRange IsWhole64)
open Scheduler (Configuration)

variable {σ : Type} {k : Kind} {P : Number → Prop} {c c' d : Cluster} {config : Configuration}

/-- A store holds the objects of a snapshot in their order, as far as they are portable, and no
others, and it holds its configuration. -/
structure Store.Mirrors (st : Store) (s : Snapshot) : Prop where
  objects : ∀ k, ∃ os : List (Stored k), st.list k none = .ok os ∧
    os.map Stored.portable = (s.objects.get k).map Stored.portable
  config : st.activeConfig = .ok (s.schedulerConfig?.getD .default)

/-- How writes are counted does not matter. -/
theorem Store.Mirrors.congr {st st' : Store} {s : Snapshot} (h : st.Mirrors s)
    (htables : st'.tables = st.tables) (hscheduler : st'.scheduler? = st.scheduler?) :
    st'.Mirrors s := by
  refine ⟨fun k => ?_, ?_⟩
  · have hlist : st'.list k none = st.list k none := by
      simp only [Store.list, htables]
    rw [hlist]
    exact h.objects k
  · rw [Store.activeConfig, hscheduler]
    exact h.config

namespace Cluster

/-- The user's part of a cluster is that of its tables. -/
theorem userPart_congr (htables : c'.store.tables = c.store.tables)
    (config? : Option Configuration) : c'.userPart config? = c.userPart config? := by
  have hobjects : c'.userObjects = c.userObjects := by
    funext k
    simp only [userObjects, Store.listed_none, Store.objects, htables]
  rw [userPart, userPart, hobjects]

/-- A cluster without objects and configuration is well formed, whatever identities were given. -/
theorem wellFormed_empty (uids : UidSource) : (⟨.empty, uids⟩ : Cluster).WellFormed P := by
  refine ⟨fun k key text htext => ?_, fun text htext => ?_⟩
  · simp only [Store.empty, ByKind.get_ofFn] at htext
    cases htext
  · cases htext

/-- No object that was carried over to an empty cluster is reserved. -/
theorem WellFormed.isExcluded_carriedTo (hc : c.WellFormed IsWhole64) (hd : d.WellFormed InRange)
    (hconfig : Sound IsWhole64 nestingLimit config)
    (hempty : ∀ k key, (d.store.objects k).find? key = none) {key : String} {o : Stored k}
    (ho : ((Cluster.carriedTo c d config).store.objects k).find? key = some o) :
    Stored.isExcluded o = false := by
  have hall := (hd.afterConfig (inRange_of_whole hconfig)).find?_bringInAll
    (fun i hi => inRange_of_whole (hc.sound_admitted hconfig i hi).1) k key
  cases hlast : lastAt? k key (Snapshot.toReplay (c.userPart (some config))).admitted with
  | some x =>
      rw [hlast] at hall
      obtain ⟨o', hwritten, hfind⟩ := hall
      obtain rfl : o' = o := Option.some.inj (hfind.symm.trans ho)
      obtain ⟨o₀, ho₀, hexcluded, rfl⟩ := (hc.mem_admitted _).mp (mem_of_lastAt? hlast).1
      exact (hwritten.portable_eq hc ho₀ hexcluded).2
  | none =>
      rw [hlast] at hall
      have hnone : ((Cluster.carriedTo c d config).store.objects k).find? key = none :=
        hall.trans (hempty k key)
      rw [hnone] at ho
      cases ho

/-- **What was carried over to an empty cluster** is all that it holds. -/
theorem WellFormed.mirrors_carriedTo (hc : c.WellFormed IsWhole64) (hd : d.WellFormed InRange)
    (hconfig : Sound IsWhole64 nestingLimit config)
    (hempty : ∀ k key, (d.store.objects k).find? key = none) :
    (Cluster.carriedTo c d config).store.Mirrors (c.userPart (some config)) := by
  have hafter : (Cluster.carriedTo c d config).WellFormed InRange := hc.carriedTo hd hconfig
  have hnone : ∀ k, d.userObjects k = [] := fun k => by
    refine List.eq_nil_iff_forall_not_mem.mpr fun o ho => ?_
    have hfind := (hd.mem_userObjects.mp ho).1
    rw [hempty] at hfind
    cases hfind
  refine ⟨fun k => ⟨_, Store.list_eq hafter.readable k none, ?_⟩,
    hc.activeConfig_carriedTo hd hconfig⟩
  have hall : (Cluster.carriedTo c d config).userObjects k =
      (Cluster.carriedTo c d config).store.listed k none := by
    refine List.filter_eq_self.mpr fun o ho => ?_
    obtain ⟨key, hfind, -⟩ := (Cluster.mem_listed _ none).mp ho
    rw [hc.isExcluded_carriedTo hd hconfig hempty hfind]
    rfl
  rw [← hall, userPart, ByKind.get_ofFn]
  exact hc.portable_userObjects hd hconfig hnone k

end Cluster

/-- **A snapshot of a capturable store is restored in an empty one.** -/
theorem Store.Capturable.restored (hc : c.store.Capturable) {config? : Option Configuration}
    (hs : Sound IsWhole64 nestingLimit (c.userPart config?)) (op : Operator σ) {view : σ → Cluster}
    {name : String} (h : op.server.Shows view (Cluster.server name false)) {p : Progress σ}
    {uids : UidSource} (hp : view p.state = ⟨.empty, uids⟩) :
    (op.replay (Snapshot.toReplay (c.userPart config?)) .strict p).1 = .ok () ∧
      (view (op.replay (Snapshot.toReplay (c.userPart config?)) .strict
        p).2.state).store.Mirrors (c.userPart config?) := by
  obtain ⟨w, hw, htables, -⟩ := hc.exists_wellFormed
  obtain ⟨config, hdefault⟩ : ∃ config, config = config?.getD .default := ⟨_, rfl⟩
  have hconfig : Sound IsWhole64 nestingLimit config := by
    rw [hdefault]
    cases hsome : config? with
    | none => exact Configuration.sound_default
    | some config => exact ((Contents.forall_sound hs).2 config hsome).mono (by decide)
  have hd : (⟨.empty, uids⟩ : Cluster).WellFormed InRange := Cluster.wellFormed_empty uids
  have hempty : ∀ k key, ((⟨.empty, uids⟩ : Cluster).store.objects k).find? key = none := by
    intro k key
    rw [Store.find?_objects, Store.empty, ByKind.get_ofFn]
    rfl
  have hobjects : (w.userPart (some config)).objects = (c.userPart config?).objects := by
    rw [← Cluster.userPart_congr htables config?]
    rfl
  -- a replay without a configuration sets the default one
  have hconfigured : (view p.state).configured false .strict config? =
      (⟨.empty, uids⟩ : Cluster).afterConfig config := by
    rw [hp, hdefault]
    rfl
  have hadmitted : (Snapshot.toReplay (c.userPart config?)).admitted =
      (Snapshot.toReplay (w.userPart (some config))).admitted := by
    rw [← Cluster.userPart_congr htables config?]
    rfl
  have hbrought : BroughtIn .strict ((view p.state).configured false .strict config?) _ _ _ :=
    Operator.brings_replay h (Snapshot.toReplay (c.userPart config?)) p
  rw [hconfigured, hadmitted] at hbrought
  obtain ⟨hresult, hafter⟩ := hbrought.of_accepts (hw.accepts_carried hd hconfig .strict)
  have hmirrors := hw.mirrors_carriedTo hd hconfig hempty
  rw [Cluster.carriedTo, ← hafter] at hmirrors
  exact ⟨hresult, hobjects ▸ hmirrors.objects, hdefault ▸ hmirrors.config⟩

/-- **What is restored is captured again**: a store that holds what was captured of a cluster has
just the same objects of the user, as far as they are portable. -/
theorem Store.Mirrors.portable_userObjects {st : Store} {config? : Option Configuration}
    (h : st.Mirrors (c.userPart config?)) (hst : st.Readable) (uids : UidSource) (k : Kind) :
    ((⟨st, uids⟩ : Cluster).userObjects k).map Stored.portable =
      (c.userObjects k).map Stored.portable := by
  obtain ⟨os, hos, hsame⟩ := h.objects k
  rw [Store.list_eq hst] at hos
  obtain rfl : st.listed k none = os := Except.ok.inj hos
  rw [Cluster.userPart, ByKind.get_ofFn] at hsame
  have hall : ∀ o ∈ st.listed k none, (!Stored.isExcluded o) = true := by
    intro o ho
    obtain ⟨o', ho', heq⟩ := List.mem_map.mp (hsame ▸ List.mem_map_of_mem ho)
    -- whether an object is reserved does not depend on what belongs to one cluster only
    have hexcluded : Stored.isExcluded o = Stored.isExcluded o' :=
      (congrArg Stored.isExcluded heq).symm
    rw [hexcluded]
    exact (List.mem_filter.mp ho').2
  rw [← hsame, Cluster.userObjects, List.filter_eq_self.mpr hall]

end ClusterSnapshot
