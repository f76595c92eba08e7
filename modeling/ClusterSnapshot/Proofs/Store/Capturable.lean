import ClusterSnapshot.Proofs.Store.Reachable
import ClusterSnapshot.Proofs.Store.Text

/-!
# Stores that can be captured

A snapshot has two brackets around each of its objects and one around its configuration. So what a
store holds can be written as a snapshot and read again only if it is nested that much less than a
text may be. A store stays *capturable* as long as nothing else is written to it. This does not
depend on how its writes were counted, nor on where identities came from, so it survives that the
store is closed and opened again.

## Main results

* `Store.Capturable.afterPut`, `Store.Capturable.remove`, `Store.Capturable.setActiveConfig`: what
  keeps a store capturable.
* `Store.Capturable.reopened`: **a capturable store that is opened again is capturable**.
* `Store.Capturable.exists_wellFormed`: a capturable store holds what some well formed cluster does.
-/

namespace ClusterSnapshot

open JsonForm (Sound)
open Number (IsWhole64)
open Scheduler (Configuration)

variable {k : Kind}

/-- How deep brackets may be nested in an object that stands in a snapshot. -/
def Snapshot.objectRoom : Nat := nestingLimit - 2

/-- An object as any store writes it. -/
structure Stored.Kept (o : Stored k) : Prop where
  apiVersion : o.apiVersion? = some k.apiVersion
  kind : o.kind? = some k.name
  name : o.metadata.name ≠ ""
  home : k.home o.metadata.ns? = o.metadata.ns?
  uid : o.metadata.uid?.isSome = true
  version : ∃ n, 0 < n ∧ o.metadata.resourceVersion? = some (toString n)
  created : o.metadata.creationTimestamp? = none
  extra : ∀ e ∈ o.metadata.extra.entries, e.1 ∉ Metadata.serverPopulated

/-- What is kept is proper in every cluster that has given it its identity and its version. -/
theorem Stored.Kept.proper {o : Stored k} (h : o.Kept) {c : Cluster}
    (huid : ∃ i < c.uids.spent, o.metadata.uid? = some (c.uids.uid i))
    (hversion : ∀ n, o.metadata.resourceVersion? = some (toString n) → n ≤ c.store.revision) :
    o.Proper c := by
  obtain ⟨n, hpos, hn⟩ := h.version
  exact ⟨h.apiVersion, h.kind, h.name, h.home, huid, ⟨n, hpos, hversion n hn, hn⟩, h.created,
    h.extra⟩

namespace Store

/-- All that a store holds can be written as a snapshot and read again. -/
structure Capturable (s : Store) : Prop where
  entries : ∀ (k : Kind) (key text : String), (s.tables.get k).find? key = some text →
    ∃ o : Stored k, JsonForm.ofText? text = some o ∧ Sound IsWhole64 Snapshot.objectRoom o ∧
      o.key = key ∧ o.Kept
  config : ∀ text ∈ s.scheduler?, ∃ config : Configuration,
    text = JsonForm.text config ∧ Sound IsWhole64 (Snapshot.objectRoom + 1) config

namespace Capturable

variable {s : Store}

/-- A capturable store can be read. -/
theorem readable (h : s.Capturable) : s.Readable := by
  intro k key text htext
  obtain ⟨o, ho, -⟩ := h.entries k key text htext
  exact ⟨o, ho⟩

/-- What is found in a capturable store has room for a snapshot and is filed under its key. -/
theorem of_find? (h : s.Capturable) {key : String} {o : Stored k}
    (ho : (s.objects k).find? key = some o) :
    Sound IsWhole64 Snapshot.objectRoom o ∧ o.key = key ∧ o.Kept := by
  rw [find?_objects, Option.bind_eq_some_iff] at ho
  obtain ⟨text, htext, hread⟩ := ho
  obtain ⟨o', hread', hparts⟩ := h.entries k key text htext
  obtain rfl : o' = o := Option.some.inj (hread'.symm.trans hread)
  exact hparts

/-- How writes are counted does not matter. -/
theorem congr (h : s.Capturable) {s' : Store} (htables : s'.tables = s.tables)
    (hscheduler : s'.scheduler? = s.scheduler?) : s'.Capturable :=
  ⟨htables ▸ h.entries, hscheduler ▸ h.config⟩

/-- The empty store is capturable. -/
theorem empty : Store.empty.Capturable := by
  refine ⟨fun k key text htext => ?_, fun text htext => ?_⟩
  · simp only [Store.empty, ByKind.get_ofFn] at htext
    cases htext
  · cases htext

/-- Another table keeps a store capturable if all that is new in it can be captured. -/
theorem withTable (h : s.Capturable) {table : KeyMap String}
    (htable : ∀ key text, table.find? key = some text →
      (s.tables.get k).find? key = some text ∨
        ∃ o : Stored k, JsonForm.ofText? text = some o ∧ Sound IsWhole64 Snapshot.objectRoom o ∧
          o.key = key ∧ o.Kept) :
    (s.withTable k table).Capturable := by
  refine ⟨fun j key text htext => ?_, h.config⟩
  by_cases hj : k = j
  · subst hj
    simp only [Store.withTable, ByKind.get_set_self] at htext
    exact (htable key text htext).elim (h.entries k key text) id
  · simp only [Store.withTable, ByKind.get_set_of_ne _ _ hj] at htext
    exact h.entries j key text htext

/-- A store stays capturable when an object is removed. -/
theorem remove (h : s.Capturable) (k : Kind) (name : String) (ns? : Option String) :
    (s.remove k name ns?).2.Capturable := by
  refine h.withTable fun key text htext => .inl ?_
  rw [KeyMap.find?_erase] at htext
  split at htext
  · cases htext
  · exact htext

/-- A store stays capturable when a configuration with room for a snapshot is set. -/
theorem setActiveConfig (h : s.Capturable) {config : Configuration}
    (hconfig : Sound IsWhole64 (Snapshot.objectRoom + 1) config) :
    (s.setActiveConfig config).Capturable := by
  refine ⟨h.entries, fun text htext => ⟨config, ?_, hconfig⟩⟩
  exact (Option.some.inj htext).symm

end Capturable

/-- What is written for an object that is handed in is as any store writes it. -/
theorem kept_putObject {c : Cluster} (h : c.store.Capturable) {d : Desired k}
    (hd : Desired.refusal? d = none) : (c.putObject d).Kept := by
  have hname := (Cluster.refusal?_eq_none hd).1
  have hextra : ∀ e ∈ (d.metadata.extra.eraseAll Metadata.serverPopulated).entries,
      e.1 ∉ Metadata.serverPopulated := fun e he => (KeyMap.mem_eraseAll.mp he).2
  have hversion : ∃ n, 0 < n ∧ some (toString (c.store.revision + 1)) = some (toString n) :=
    ⟨c.store.revision + 1, Nat.succ_pos _, rfl⟩
  have hhome := Kind.home_home k d.metadata.ns?
  rw [Cluster.putObject]
  split
  · rename_i o ho
    obtain ⟨-, -, hkept⟩ := h.of_find? ho
    exact ⟨rfl, rfl, hname, hhome, hkept.uid, hversion, hkept.created, hextra⟩
  · exact ⟨rfl, rfl, hname, hhome, rfl, hversion, rfl, hextra⟩

/-- **To hand in an object** that could stand in a snapshot keeps a store capturable. -/
theorem Capturable.afterPut {c : Cluster} (h : c.store.Capturable) {d : Desired k}
    (hsound : Sound IsWhole64 Snapshot.objectRoom d) (hd : Desired.refusal? d = none) :
    (c.afterPut d).store.Capturable := by
  have hput : Sound IsWhole64 Snapshot.objectRoom (c.putObject d) := Cluster.sound_putObject hsound
  refine Capturable.congr (h.withTable fun key text htext => ?_) rfl rfl
  rw [KeyMap.find?_insert] at htext
  split at htext
  · rename_i hkey
    obtain rfl := Option.some.inj htext
    exact .inr ⟨_, JsonForm.ofText?_text_whole (hput.mono (by decide)), hput,
      (c.key_putObject d).trans hkey, kept_putObject h hd⟩
  · exact .inl htext

/-! ### Closing and opening -/

/-- The store as it is when it is opened again: its writes are counted in 64 bits. -/
def reopened (s : Store) : Store := { s with revision := (UInt64.ofNat s.revision).toNat }

/-- **A store that is opened again** holds what it held. -/
theorem ofText?_text_reopened (s : Store) : ofText? s.text = some s.reopened := by
  have htext : s.reopened.text = s.text := by
    have hrevision : UInt64.ofNat (UInt64.ofNat s.revision).toNat = UInt64.ofNat s.revision :=
      UInt64.ofNat_toNat
    have hjson : JsonForm.toJson s.reopened = JsonForm.toJson s := by
      change form.toJson s.reopened = form.toJson s
      rw [RecordForm.toJson_eq, RecordForm.toJson_eq]
      simp only [form, RecordForm.closed, reopened, Members.through, Members.and, hrevision]
      rfl
    rw [text, text, JsonForm.text, hjson]
    rfl
  rw [← htext]
  exact ofText?_text (UInt64.toNat_lt _)

/-- A store stays capturable when it is opened again. -/
theorem Capturable.reopened {s : Store} (h : s.Capturable) : s.reopened.Capturable :=
  h.congr rfl rfl

/-- A text that keeps a store is no JSON text. -/
theorem not_json {text : String} {s : Store} (h : ofText? text = some s) :
    Document.ofText? text = none := by
  rw [ofText?] at h
  rw [Document.ofText?]
  split at h
  · rename_i hnil
    rw [hnil]
    rfl
  · split at h
    · rename_i hprefix
      obtain ⟨rest, hrest⟩ := List.isPrefixOf_iff_prefix.mp hprefix
      rw [← hrest]
      rfl
    · cases h

/-! ### Well formed clusters -/

/-- What finitely many objects have for a version is bounded. -/
theorem exists_version_bound (os : List (Σ k, Stored k)) :
    ∃ bound, ∀ o ∈ os, ∀ n : Nat,
      o.2.metadata.resourceVersion? = some (toString n) → n ≤ bound := by
  induction os with
  | nil => exact ⟨0, fun _ h => absurd h List.not_mem_nil⟩
  | cons o rest ih =>
      obtain ⟨bound, hbound⟩ := ih
      by_cases ho : ∃ n : Nat, o.2.metadata.resourceVersion? = some (toString n)
      · obtain ⟨n, hn⟩ := ho
        refine ⟨max n bound, List.forall_mem_cons.mpr ⟨fun m hm => ?_, fun o' ho' m hm => ?_⟩⟩
        · obtain rfl := toString_injective (Option.some.inj (hm.symm.trans hn))
          exact Nat.le_max_left _ _
        · exact (hbound o' ho' m hm).trans (Nat.le_max_right _ _)
      · exact ⟨bound, List.forall_mem_cons.mpr ⟨fun m hm => absurd ⟨m, hm⟩ ho, hbound⟩⟩

/-- **A capturable store holds what some well formed cluster does.** -/
theorem Capturable.exists_wellFormed {s : Store} (h : s.Capturable) :
    ∃ c : Cluster, c.WellFormed IsWhole64 ∧ c.store.tables = s.tables ∧
      c.store.scheduler? = s.scheduler? := by
  let os : List (Σ k, Stored k) := Kind.all.flatMap fun k => (s.objects k).values.map (⟨k, ·⟩)
  let uids := os.filterMap fun o => o.2.metadata.uid?
  obtain ⟨bound, hbound⟩ := exists_version_bound os
  refine ⟨⟨{ s with revision := bound }, ⟨fun i => uids[i]?.getD "", uids.length⟩⟩, ⟨?_, ?_⟩, rfl,
    rfl⟩
  · intro k key text htext
    obtain ⟨o, hread, hsound, hkey, hkept⟩ := h.entries k key text htext
    have hfind : (s.objects k).find? key = some o := by
      rw [find?_objects, htext]
      exact hread
    have hmem : ⟨k, o⟩ ∈ os := List.mem_flatMap.mpr
      ⟨k, k.mem_all, List.mem_map_of_mem (KeyMap.mem_values.mpr ⟨key, hfind⟩)⟩
    obtain ⟨uid, huid⟩ := Option.isSome_iff_exists.mp hkept.uid
    have huidMem : uid ∈ uids := List.mem_filterMap.mpr ⟨_, hmem, huid⟩
    obtain ⟨i, hi, heq⟩ := List.getElem_of_mem huidMem
    refine ⟨o, hread, hsound.mono (by decide), hkey, hkept.proper ⟨i, hi, ?_⟩ (hbound _ hmem)⟩
    simp only [huid, List.getElem?_eq_getElem hi, heq, Option.getD_some]
  · intro text htext
    obtain ⟨config, rfl, hconfig⟩ := h.config text htext
    exact ⟨config, rfl, hconfig.mono (by decide)⟩

end Store

end ClusterSnapshot
