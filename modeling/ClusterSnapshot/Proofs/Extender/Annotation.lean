import ClusterSnapshot.Proofs.Extender.DecisionLog
import ClusterSnapshot.Proofs.Extender.Message
import ClusterSnapshot.Proofs.Json.Depth
import ClusterSnapshot.Proofs.Json.Rereading

/-!
# Decisions shown on pods

A pod is shown with its record in four annotations, each of which is a JSON text on its own. What
they say is the record itself: whoever reads them has the answers of every extender again. Nothing
else about the pod changes, and showing the record once more changes nothing.

An annotation is nested one bracket deeper than the answers in it. Answers of the greatest depth
that reading allows could not be read from it again, so a record has to be `Shallow`.

## Main results

* `Phase.result_lawfulFrom`, `Phase.result_readsByDepth`: the answers of every phase can be read.
* `DecisionRecord.ofText?_annotation`: **an annotation reads as the answers in it**.
* `DecisionLog.annotates_faithfully`: **a pod shows its record, and nothing else changes**.
-/

namespace ClusterSnapshot

open JsonForm (LawfulFrom ReadsByDepth Sound)
open Members Member

/-! ### Answers read by depth -/

instance : ReadsByDepth Metadata :=
  RecordForm.readsByDepth
    (((((((readsByDepth_build.and readsByDepth_required).and readsByDepth_optional).and
      readsByDepth_optional).and readsByDepth_optional).and readsByDepth_optional).and
      readsByDepth_unlessEmpty).and readsByDepth_unlessEmpty)

/-- Room for its brackets is all that reading a payload takes. -/
theorem Payload.readsByDepth : Payload.form.members.ReadsByDepth :=
  ((readsByDepth_build.and readsByDepth_optional).and readsByDepth_optional).through

/-- Room for its brackets is all that reading a node takes. -/
theorem Object.readsByDepth_node : (Object.form .node Metadata).members.ReadsByDepth :=
  (((readsByDepth_build.and readsByDepth_optional).and readsByDepth_optional).and
    readsByDepth_required).andPart Payload.readsByDepth

instance : ReadsByDepth (Stored .node) := RecordForm.readsByDepth Object.readsByDepth_node

namespace Extender

instance : ReadsByDepth NodeList :=
  RecordForm.readsByDepth (readsByDepth_build.and readsByDepth_defaulted)

instance : ReadsByDepth FilterResult :=
  RecordForm.readsByDepth
    (((((readsByDepth_build.and readsByDepth_optional).and readsByDepth_optional).and
      readsByDepth_unlessEmpty).and readsByDepth_unlessEmpty).and readsByDepth_unlessEmpty).through

instance : ReadsByDepth HostPriority :=
  RecordForm.readsByDepth
    ((readsByDepth_build.and readsByDepth_required).and readsByDepth_required).through

instance : ReadsByDepth MetaPod :=
  RecordForm.readsByDepth (readsByDepth_build.and readsByDepth_required).through

instance : ReadsByDepth MetaVictims :=
  RecordForm.readsByDepth
    ((readsByDepth_build.and readsByDepth_defaulted).and readsByDepth_defaulted).through

instance : ReadsByDepth PreemptionResult :=
  RecordForm.readsByDepth (readsByDepth_build.and readsByDepth_unlessEmpty).through

instance : ReadsByDepth BindingResult :=
  RecordForm.readsByDepth (readsByDepth_build.and readsByDepth_unlessEmpty).through

/-! ### Answers of every phase -/

/-- What was read as an answer of a phase is sound, with room for four brackets. -/
theorem Phase.result_lawfulFrom (p : Phase) : LawfulFrom p.Result 4 := by
  cases p with
  | filter => exact FilterResult.form_lawful.lawfulFrom.mono (by decide)
  | prioritize => exact (LawfulFrom.of_lawful : LawfulFrom (List HostPriority) 4)
  | preempt => exact PreemptionResult.form_lawful.lawfulFrom.mono (by decide)
  | bind => exact BindingResult.form_lawful.lawfulFrom.mono (by decide)

instance Phase.result_readsByDepth : (p : Phase) → ReadsByDepth p.Result
  | .filter => inferInstanceAs (ReadsByDepth FilterResult)
  | .prioritize => inferInstanceAs (ReadsByDepth (List HostPriority))
  | .preempt => inferInstanceAs (ReadsByDepth PreemptionResult)
  | .bind => inferInstanceAs (ReadsByDepth BindingResult)

/-- A decision whose answer was read from a JSON text, and holds no real numbers. -/
structure Decision.Read (d : Decision) : Prop where
  text : ∃ text, JsonForm.ofText? text = some d.result
  whole : (JsonForm.toJson d.result).document.AllNumbers Number.IsWhole64

namespace DecisionRecord

variable {r : DecisionRecord} {p : Phase}

/-- Every decision of a record was read. -/
def Read (r : DecisionRecord) : Prop := ∀ p extender d, r.decision? p extender = some d → d.Read

/-- No annotation of a record is nested deeper than reading allows. -/
def Shallow (r : DecisionRecord) : Prop :=
  ∀ p, (JsonForm.toJson (r.get p)).document.depth ≤ nestingLimit

/-- What is known of a phase is sound if it was read and is shallow. -/
theorem sound_get (hread : r.Read) (hshallow : r.Shallow) :
    Sound Number.IsWhole64 nestingLimit (r.get p) := by
  have hentries : ∀ e ∈ (r.get p).entries, Sound Number.IsWhole64 126 e.2 := by
    intro e he
    have hdepth : (JsonForm.toJson e.2).document.depth ≤ 126 :=
      JsonForm.depth_keyMap_le_iff.mp (hshallow p) e he
    have hdecision : r.decision? p e.1 = some ⟨p, e.2⟩ := by
      rw [decision?, (KeyMap.mem_entries_iff _).mp he, Option.map_some]
    obtain ⟨⟨text, htext⟩, hwhole⟩ := hread p e.1 _ hdecision
    have hsound := p.result_lawfulFrom.sound_of_ofText? (by decide) htext
    have hsound : Sound Number.IsWhole64 nestingLimit e.2 := ⟨hsound.reads, hwhole⟩
    exact hsound.of_depth_le hdepth
  exact JsonForm.sound_map hentries

/-- **An annotation reads as the answers in it.** -/
theorem ofText?_annotation (hread : r.Read) (hshallow : r.Shallow) :
    JsonForm.ofText? (r.annotation p) = some (r.get p) :=
  JsonForm.ofText?_text_whole (sound_get hread hshallow)

/-- The annotations of some phases are put over others. -/
def annotate (r : DecisionRecord) (ps : List Phase) (annotations : KeyMap String) :
    KeyMap String :=
  ps.foldl (fun annotations p => annotations.insert p.annotationKey (r.annotation p)) annotations

/-- Annotations with other keys stay as they are. -/
theorem find?_annotate_of_ne {ps : List Phase} {annotations : KeyMap String} {key : String}
    (h : ∀ p ∈ ps, key ≠ p.annotationKey) :
    (r.annotate ps annotations).find? key = annotations.find? key := by
  induction ps generalizing annotations with
  | nil => rfl
  | cons p rest ih =>
      obtain ⟨hp, hrest⟩ := List.forall_mem_cons.mp h
      exact (ih hrest).trans (annotations.find?_insert_of_ne _ (Ne.symm hp))

/-- The annotation of each phase is there. -/
theorem find?_annotate_of_mem {ps : List Phase} {annotations : KeyMap String} (h : p ∈ ps) :
    (r.annotate ps annotations).find? p.annotationKey = some (r.annotation p) := by
  induction ps generalizing annotations with
  | nil => exact absurd h List.not_mem_nil
  | cons q rest ih =>
      by_cases hrest : p ∈ rest
      · exact ih hrest
      · obtain rfl : p = q := (List.mem_cons.mp h).resolve_right hrest
        have hlater : ∀ q ∈ rest, p.annotationKey ≠ q.annotationKey := fun q hq hkey =>
          hrest (Phase.annotationKey_injective hkey ▸ hq)
        exact (find?_annotate_of_ne hlater).trans (annotations.find?_insert_self _ _)

/-- Annotations that are put over themselves stay as they are. -/
theorem annotate_annotate (ps : List Phase) (annotations : KeyMap String) :
    r.annotate ps (r.annotate ps annotations) = r.annotate ps annotations := by
  refine KeyMap.ext_find? fun key => ?_
  by_cases hkey : ∃ p ∈ ps, key = p.annotationKey
  · obtain ⟨p, hp, rfl⟩ := hkey
    rw [find?_annotate_of_mem hp, find?_annotate_of_mem hp]
  · push Not at hkey
    exact find?_annotate_of_ne hkey

/-- **A pod that is shown with a record.** Each of its four annotations reads as the answers in the
phase. All other annotations and all else about the pod are as they were. -/
structure ShownOn (r : DecisionRecord) (pod shown : Stored .pod) : Prop where
  rest : shown = pod.mapMetadata fun m => { m with annotations := shown.metadata.annotations }
  others : ∀ key, (∀ p : Phase, key ≠ p.annotationKey) →
    shown.metadata.annotations.find? key = pod.metadata.annotations.find? key
  answers : ∀ p, decodeAnnotation shown p = .answers (r.get p)

end DecisionRecord

/-- Every phase is listed. -/
theorem Phase.mem_all (p : Phase) : p ∈ Phase.all := by cases p <;> decide

namespace DecisionLog

variable {log : DecisionLog} {pod : Stored .pod} {r : DecisionRecord}

/-- A pod without decisions stays as it is. -/
theorem decorate_of_none (h : log.find? (.ofPod pod) = none) : log.decorate pod = pod := by
  rw [decorate, h]

/-- A pod with decisions is given the annotations of all phases. -/
theorem decorate_of_some (h : log.find? (.ofPod pod) = some r) :
    log.decorate pod =
      pod.mapMetadata fun m => { m with annotations := r.annotate Phase.all m.annotations } := by
  rw [decorate, h]
  rfl

/-- The annotation of a phase on a pod with a record. -/
theorem find?_decorate (h : log.find? (.ofPod pod) = some r) (p : Phase) :
    (log.decorate pod).metadata.annotations.find? p.annotationKey = some (r.annotation p) := by
  rw [decorate_of_some h]
  exact DecisionRecord.find?_annotate_of_mem p.mem_all

/-- A pod that is decorated shows what is known of it. -/
theorem shownOn_decorate (h : log.find? (.ofPod pod) = some r) (hread : r.Read)
    (hshallow : r.Shallow) : r.ShownOn pod (log.decorate pod) where
  rest := by rw [decorate_of_some h]; rfl
  others key hkey := by
    rw [decorate_of_some h]
    exact DecisionRecord.find?_annotate_of_ne fun p _ => hkey p
  answers p := by
    unfold decodeAnnotation
    rw [find?_decorate h p]
    simp only [DecisionRecord.ofText?_annotation hread hshallow]

/-- To decorate a pod once more changes nothing. -/
theorem decorate_decorate (log : DecisionLog) (pod : Stored .pod) :
    log.decorate (log.decorate pod) = log.decorate pod := by
  cases h : log.find? (.ofPod pod) with
  | none => rw [decorate_of_none h, decorate_of_none h]
  | some r =>
      have hagain : log.find? (.ofPod (log.decorate pod)) = some r := by
        rw [decorate_of_some h]
        exact h
      rw [decorate_of_some hagain, decorate_of_some h]
      simp only [Object.mapMetadata, DecisionRecord.annotate_annotate]

/-- **Pods show their records faithfully.** The decisions of a log were read from JSON texts without
real numbers, and no annotation of it is nested deeper than reading allows. A pod without a record
stays as it is; one with a record shows it, and nothing else about it changes. Showing it again
changes nothing. Records that hold the same decisions, however these came about, are shown in the
same texts. -/
theorem annotates_faithfully (hread : ∀ key r, log.find? key = some r → r.Read)
    (hshallow : ∀ key r, log.find? key = some r → r.Shallow) (pod : Stored .pod) :
    (log.find? (.ofPod pod) = none → log.decorate pod = pod) ∧
      (∀ r, log.find? (.ofPod pod) = some r → r.ShownOn pod (log.decorate pod)) ∧
      log.decorate (log.decorate pod) = log.decorate pod ∧
      ∀ (log' : DecisionLog) (pod' : Stored .pod) (r r' : DecisionRecord),
        log.find? (.ofPod pod) = some r → log'.find? (.ofPod pod') = some r' →
          (∀ p extender, r.decision? p extender = r'.decision? p extender) →
            ∀ p : Phase, ∃ text,
              (log.decorate pod).metadata.annotations.find? p.annotationKey = some text ∧
                (log'.decorate pod').metadata.annotations.find? p.annotationKey = some text := by
  refine ⟨decorate_of_none, fun r hr => ?_, log.decorate_decorate pod, ?_⟩
  · exact shownOn_decorate hr (hread _ r hr) (hshallow _ r hr)
  · intro log' pod' r r' hr hr' hsame p
    obtain rfl := DecisionRecord.ext_decision? hsame
    exact ⟨r.annotation p, find?_decorate hr p, find?_decorate hr' p⟩

/-- A pod with one answer of the filter phase, by an extender whose name has to be escaped, which
gives a node with members of its own and an error on two lines. -/
theorem annotates_faithfully_filter :
    let text := "\x7b\"nodes\":\x7b\"items\":[\x7b\"metadata\":\x7b\"name\":\"n\"," ++
      "\"x\":[[1],null]\x7d,\"spec\":\x7b\"b\":-7\x7d\x7d]\x7d,\"error\":\"a\\nb\"\x7d"
    let pod : Stored .pod := .new .pod "web" (some "team")
    ∃ result : FilterResult, JsonForm.ofText? text = some result ∧
      ∀ log, log = DecisionLog.empty.record ⟨"team", "web"⟩ "a\"b" ⟨.filter, result⟩ →
        decodeAnnotation (log.decorate pod) .filter =
            .answers ((∅ : KeyMap FilterResult).insert "a\"b" result) ∧
          decodeAnnotation (log.decorate pod) .bind = .answers ∅ ∧
          log.decorate (log.decorate pod) = log.decorate pod := by
  intro text pod
  have hevaluated : (JsonForm.ofText? text : Option FilterResult).map
      (fun v => decide ((JsonForm.toJson v).document.AllNumbers Number.IsWhole64 ∧
        (JsonForm.toJson v).document.depth ≤ 126)) = some true := by
    decide +kernel
  obtain ⟨result, htext, hresult⟩ := Option.map_eq_some_iff.mp hevaluated
  obtain ⟨hwhole, hdepth⟩ := of_decide_eq_true hresult
  refine ⟨result, htext, ?_⟩
  rintro log rfl
  set r := DecisionRecord.empty.insert "a\"b" ⟨.filter, result⟩
  have hfind : ∀ key r', (DecisionLog.empty.record ⟨"team", "web"⟩ "a\"b" ⟨.filter, result⟩).find?
      key = some r' → r' = r := by
    intro key r' hr'
    rw [find?_record] at hr'
    split at hr'
    · exact (Option.some.inj hr').symm
    · cases hr'
  have hread : r.Read := by
    intro p extender d hd
    rw [DecisionRecord.decision?_insert, DecisionRecord.decision?_empty] at hd
    split at hd
    · obtain rfl := Option.some.inj hd
      exact ⟨⟨text, htext⟩, hwhole⟩
    · cases hd
  have hshallow : r.Shallow := by
    intro p
    refine JsonForm.depth_keyMap_le_iff.mpr fun e he => ?_
    cases p with
    | filter =>
        obtain rfl := List.mem_singleton.mp he
        exact hdepth
    | _ => exact absurd he List.not_mem_nil
  obtain ⟨-, hshown, hagain, -⟩ := annotates_faithfully
    (fun key r' hr' => (hfind key r' hr').symm ▸ hread)
    (fun key r' hr' => (hfind key r' hr').symm ▸ hshallow) pod
  have hshown := hshown r (by rw [find?_record]; rfl)
  exact ⟨hshown.answers .filter, hshown.answers .bind, hagain⟩

end DecisionLog

end Extender

end ClusterSnapshot
