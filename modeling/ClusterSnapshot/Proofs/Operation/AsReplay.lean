import ClusterSnapshot.Proofs.Object.AsDesired
import ClusterSnapshot.Proofs.Operation.Submission

/-!
# Snapshots read as replays

The text of a snapshot may be brought into a cluster in two ways: it is read as a snapshot, of which
the replay is taken, or it is read as a replay itself. Both come to the same, whatever the text says
of members that only a store assigns: none of them is ever handed in.

## Main results

* `Operator.handedInAs_replay`: whatever a replay hands in stands for an object of it.
* `Snapshot.replay_as_read`: **the text of a snapshot means the same in both ways**.
-/

namespace ClusterSnapshot

open JsonForm (Sound)
open Number (InRange)

variable {σ : Type} {k : Kind} {P : Number → Prop}

/-! ### Replays that admit the same -/

/-- What only a store assigns makes no difference to what is admitted. -/
theorem Desired.admitted?_stripServerPopulated (d : Desired k) :
    Desired.admitted? (Desired.stripServerPopulated d) = Desired.admitted? d := by
  have hexcluded : Desired.isExcluded (Desired.stripServerPopulated d) = Desired.isExcluded d := rfl
  rw [admitted?, admitted?, hexcluded]
  split
  · rfl
  · simp only [stripServerPopulated, Object.mapMetadata, DesiredMetadata.stripServerPopulated,
      KeyMap.eraseAll_eraseAll]

/-- A replay depends on the objects that are admitted, and on the configuration. -/
theorem Operator.replay_congr (op : Operator σ) {s s' : Replay}
    (hobjects : ∀ k, (s.objects.get k).filterMap Desired.admitted? =
      (s'.objects.get k).filterMap Desired.admitted?)
    (hconfig : s.schedulerConfig? = s'.schedulerConfig?) (options : Options) :
    op.replay s options = op.replay s' options := by
  have happly : ∀ k, applyTasks op.server options (s.objects.get k) =
      applyTasks op.server options (s'.objects.get k) := fun k => by
    rw [applyTasks, applyTasks, hobjects k]
  have hvolumes : volumeTasks op.server options s.objects.volume =
      volumeTasks op.server options s'.objects.volume := by
    rw [volumeTasks, volumeTasks]
    exact congrArg _ (hobjects .volume)
  have hns : applyTasks op.server options s.objects.ns =
      applyTasks op.server options s'.objects.ns := happly .ns
  simp only [replay, replayConfig, hconfig, hns, happly, hvolumes]

/-- **What only a store assigns makes no difference** to a replay. -/
theorem Operator.replay_stripServerPopulated (op : Operator σ) (s : Replay) (options : Options) :
    op.replay (s.mapMetadata DesiredMetadata.stripServerPopulated) options =
      op.replay s options := by
  have hconfig : (s.mapMetadata DesiredMetadata.stripServerPopulated).schedulerConfig? =
      s.schedulerConfig? := rfl
  refine op.replay_congr (fun k => ?_) hconfig options
  rw [Contents.mapMetadata, ByKind.get_ofFn, List.filterMap_map]
  exact congrArg (List.filterMap · _) (funext fun d => Desired.admitted?_stripServerPopulated d)

/-! ### What a replay hands in -/

/-- Stages hand in the first of the objects that they are to hand in. -/
theorem HandedInStages.exists_items {server : Server σ} {options : Options} {limit : Nat}
    {stages : List (Stage × List Item)} {result : Except OperationError Unit} {p q : Progress σ}
    (h : HandedInStages server options limit stages p result q) :
    ∃ items, items <+: stages.flatMap (·.2) ∧
      Sight.record.see q = server.handing items (Sight.record.see p) := by
  induction h with
  | nil hsee => exact ⟨[], List.nil_prefix, hsee.trans (Server.handing_nil _).symm⟩
  | @next _ items _ _ _ _ _ hstage _ ih =>
      obtain ⟨items', hprefix, hsee⟩ := ih
      cases hstage with
      | done hdone _ _ =>
          refine ⟨items ++ items', ?_, ?_⟩
          · rw [List.flatMap_cons]
            exact (List.prefix_append_right_inj items).mpr hprefix
          · rw [hsee, hdone, Server.handing_append]
  | stop hstage =>
      cases hstage with
      | @failed taken dropped _ _ _ hsee =>
          refine ⟨taken, ?_, hsee⟩
          rw [List.flatMap_cons, List.append_assoc]
          exact List.prefix_append taken _

/-- Whatever is handed in was prepared from one of the objects that were to be. -/
theorem Server.exists_prepared {server : Server σ} {items : List Item} {s : σ} {i' : Item}
    (h : i' ∈ (server.submissions items s).filterMap Request.applied?) :
    ∃ i ∈ items, ∃ t, i' = ⟨i.1, server.prepared i.1 i.2 t⟩ := by
  induction items generalizing s with
  | nil => cases h
  | cons i rest ih =>
      rw [submissions, List.filterMap_append, applied?_submission] at h
      rcases List.mem_append.mp h with h | h
      · exact ⟨i, by simp, s, List.mem_singleton.mp h⟩
      · obtain ⟨i, hi, t, ht⟩ := ih h
        exact ⟨i, List.mem_cons_of_mem _ hi, t, ht⟩

/-- **Whatever a replay hands in** stands for an object of it, whether or not it succeeds. -/
theorem Operator.handedInAs_replay (op : Operator σ) (s : Replay) (options : Options) (c : σ) :
    ∀ call ∈ (op.replay s options (Run.start c)).2.calls, ∀ i ∈ call.request.applied?,
      ∃ d ∈ s.objects.get i.1, Desired.HandedInAs d i.2 := by
  obtain ⟨hconfig, -, -⟩ := op.replayConfig_record s options (Run.start c)
  have hnone :
      (s.configRequests options.ignoreSchedulerConfig).filterMap Request.applied? = [] := by
    rw [Replay.configRequests]
    split <;> rfl
  -- all calls are those of the configuration and those that hand in some of the objects
  obtain ⟨items, hitems, hcalls⟩ : ∃ items : List Item, (∀ i ∈ items, i ∈ s.admitted) ∧
      (op.replay s options (Run.start c)).2.calls =
        op.server.calls (s.requestsUpTo op.server options.ignoreSchedulerConfig c items) c := by
    rw [replay_eq, Attempt.bind_apply]
    cases (op.replayConfig s options (Run.start c)).1 with
    | error e =>
        refine ⟨[], fun _ h => absurd h List.not_mem_nil, ?_⟩
        rw [Replay.requestsUpTo, Server.submissions, List.append_nil]
        exact congrArg Prod.snd hconfig
    | ok _ =>
        obtain ⟨items, hprefix, hsee⟩ := (op.handedInStages_replayObjects s options
          (op.replayConfig s options (Run.start c)).2).exists_items
        refine ⟨items, fun i hi => s.flatMap_stages ▸ hprefix.subset hi, ?_⟩
        rw [hconfig, Server.handing] at hsee
        rw [Replay.requestsUpTo, Server.calls_append]
        exact congrArg Prod.snd hsee
  intro call hcall i hi
  rw [hcalls] at hcall
  have happlied : i ∈ (s.requestsUpTo op.server options.ignoreSchedulerConfig c items).filterMap
      Request.applied? :=
    List.mem_filterMap.mpr ⟨_, Server.request_mem_of_mem_calls hcall, hi⟩
  rw [Replay.requestsUpTo, List.filterMap_append, hnone, List.nil_append] at happlied
  obtain ⟨⟨k, d'⟩, hd', t, rfl⟩ := Server.exists_prepared happlied
  obtain ⟨d, hd, hadmitted⟩ := Replay.mem_admitted.mp (hitems _ hd')
  exact ⟨d, hd, Server.handedInAs_prepared (Desired.handedInAs_of_admitted? hadmitted).1 t⟩

/-! ### What only a store assigns -/

/-- All members of metadata that only a store assigns, the identity among them. -/
def Metadata.assigned : List String := "uid" :: serverPopulated

/-- As it is written, metadata says nothing that only a store assigns. -/
def DesiredMetadata.Unassigned (m : DesiredMetadata) : Prop :=
  ∃ members, JsonForm.toJson m = .object members ∧ ∀ e ∈ members, e.1 ∉ Metadata.assigned

open Members Member in
/-- Metadata without an identity and assigned members is unassigned. -/
theorem DesiredMetadata.unassigned {m : DesiredMetadata} (huid : m.uid? = none)
    (hextra : ∀ e ∈ m.extra.entries, e.1 ∉ form.members.names ∧ e.1 ∉ Metadata.serverPopulated) :
    m.Unassigned := by
  refine ⟨_, RecordForm.toJson_eq m, fun e he => ?_⟩
  rcases List.mem_append.mp he with he | he
  · simp only [form, RecordForm.withRest, mem_write_and, not_mem_write_build, false_or] at he
    rcases he with (((⟨v, -, rfl⟩ | ⟨v, -, rfl⟩) | ⟨v, hv, -⟩) | ⟨v, -, rfl⟩) | ⟨v, -, rfl⟩
    · exact (by decide : "name" ∉ Metadata.assigned)
    · exact (by decide : "namespace" ∉ Metadata.assigned)
    · rw [huid] at hv
      cases hv
    · exact (by decide : "labels" ∉ Metadata.assigned)
    · exact (by decide : "annotations" ∉ Metadata.assigned)
  · obtain ⟨hown, hserver⟩ := hextra e he
    have huid' : e.1 ≠ "uid" := fun heq => hown (heq ▸ by decide)
    exact List.not_mem_cons_of_ne_of_not_mem huid' hserver

/-- What is handed in for a sound object says nothing that only a store assigns. -/
theorem Desired.HandedInAs.unassigned [NumberRange P] {d d' : Desired k} (h : d.HandedInAs d')
    (hd : Sound P nestingLimit d) : d'.metadata.Unassigned := by
  obtain ⟨r, hr⟩ := Object.exists_room Object.pos_of_sound_desired hd
  rw [hr] at hd
  have hmetadata := ((Object.sound_iff (Object.pos_of_sound_desired _)).mp hd).metadata
  have hextra := (DesiredMetadata.sound_iff.mp hmetadata).extra
  refine DesiredMetadata.unassigned h.uid fun e he => ?_
  have hfind := h.extra e.1
  rw [(KeyMap.mem_entries_iff _).mp he] at hfind
  split at hfind
  · cases hfind
  · rename_i hserver
    exact ⟨(hextra e ((KeyMap.mem_entries_iff _).mpr hfind.symm)).1, hserver⟩

/-! ### The text of a snapshot -/

/-- **The text of a snapshot is the text of a replay**, which is that of the snapshot but for what
only a store assigns. -/
theorem Snapshot.exists_ofText? {text : String} {s : Snapshot}
    (h : JsonForm.ofText? text = some s) :
    ∃ r : Replay, JsonForm.ofText? text = some r ∧
      r.mapMetadata DesiredMetadata.stripServerPopulated = s.toReplay := by
  obtain ⟨d, hd, hread⟩ := Option.bind_eq_some_iff.mp h
  obtain ⟨r, hr, hsame⟩ := Contents.readsAs Metadata.readsAs_desired hread
  exact ⟨r, Option.bind_eq_some_iff.mpr ⟨d, hd, hr⟩, hsame⟩

/-- **A replay stands for a snapshot**: to replay it and to replay what brings the snapshot in are
one and the same run, with the same calls, events and result, on every server and from every state;
and the run hands in nothing that only a store assigns. -/
structure Replay.StandsFor (r : Replay) (s : Snapshot) : Prop where
  same : ∀ {σ : Type} (op : Operator σ) (options : Options),
    op.replay r options = op.replay s.toReplay options
  unassigned : ∀ {σ : Type} (op : Operator σ) (options : Options) (c : σ),
    ∀ call ∈ (op.replay r options (Run.start c)).2.calls, ∀ i ∈ call.request.applied?,
      i.2.metadata.Unassigned

/-- **The text of a snapshot means the same in both ways**: it can be read as a replay, which stands
for the snapshot. -/
theorem Snapshot.replay_as_read {text : String} {s : Snapshot}
    (h : JsonForm.ofText? text = some s) :
    ∃ r : Replay, JsonForm.ofText? text = some r ∧ r.StandsFor s := by
  obtain ⟨r, hr, hsame⟩ := Snapshot.exists_ofText? h
  refine ⟨r, hr, fun op options => ?_, fun op options c call hcall i hi => ?_⟩
  · rw [← hsame, op.replay_stripServerPopulated]
  · obtain ⟨d, hd, has⟩ := op.handedInAs_replay r options c call hcall i hi
    exact has.unassigned ((Contents.allSound_of_ofText? hr).objects _ d hd)

/-- Of a pod the version is `null` and the managed fields are said twice, and a volume is written as
an array: the replay is not that of the snapshot, but stands for it. -/
theorem Snapshot.replay_as_read_pod :
    let text := "\x7b\"pods\":[\x7b\"metadata\":\x7b\"name\":\"web\",\"uid\":\"1\"," ++
      "\"resourceVersion\":null,\"managedFields\":[],\"managedFields\":\"\"\x7d\x7d]," ++
      "\"pvs\":[[null,null,\x7b\"name\":\"disk\"\x7d]]\x7d"
    ∃ s : Snapshot, JsonForm.ofText? text = some s ∧ s.objectCount = 2 ∧
      ∃ r : Replay, JsonForm.ofText? text = some r ∧ r.StandsFor s ∧ r ≠ s.toReplay := by
  intro text
  let keepsVersion (r : Replay) := r.objects.pod.map (·.metadata.extra.contains "resourceVersion")
  have hsnapshot : (JsonForm.ofText? text : Option Snapshot).map
      (fun s => (s.objectCount, keepsVersion s.toReplay)) = some (2, [false]) := by
    decide +kernel
  have hreplay : (JsonForm.ofText? text : Option Replay).map keepsVersion = some [true] := by
    decide +kernel
  obtain ⟨s, hs, hread⟩ := Option.map_eq_some_iff.mp hsnapshot
  obtain ⟨hcount, hfree⟩ := Prod.mk.inj hread
  obtain ⟨r, hr, hstands⟩ := Snapshot.replay_as_read hs
  refine ⟨s, hs, hcount, r, hr, hstands, fun heq => ?_⟩
  rw [hr, Option.map_some, heq, hfree] at hreplay
  exact absurd hreplay (by decide)

end ClusterSnapshot
