import ClusterSnapshot.Proofs.Extender.Message
import ClusterSnapshot.Proofs.Object.Contents

/-!
# Everything that is written is read back

The values that the library exchanges as JSON are of a few formats: objects and their parts,
configurations of the scheduler, snapshots, and the messages to and from extenders. Each has its own
mix of members that are left out when empty, supplied when missing, named differently or passed on
unread. None of this loses anything: once a value was read, writing it and reading it again changes
nothing more.

## Main results

* `Format.lawfulFrom`: every format is lawful, with room for four brackets.
* `Format.reads_back`: **a value that was read is read again from both of its texts**.
-/

namespace ClusterSnapshot

open JsonForm (LawfulFrom)

/-- The formats of the values that are written as JSON and read from it. -/
inductive Format where
  | stored (k : Kind)
  | desired (k : Kind)
  | metadata
  | desiredMetadata
  | reference
  | volumeSpec
  | volumeStatus
  | configuration
  | profile
  | extenderConfig
  | snapshot
  | replay
  | nodeList
  | args
  | filterResult
  | hostPriority
  | hostPriorities
  | victims
  | metaPod
  | metaVictims
  | preemptionArgs
  | preemptionResult
  | bindingArgs
  | bindingResult
  deriving DecidableEq, Repr

namespace Format

/-- The values of a format. -/
def Value : Format → Type
  | stored k => Stored k
  | desired k => Desired k
  | metadata => Metadata
  | desiredMetadata => DesiredMetadata
  | reference => ObjectReference
  | volumeSpec => VolumeSpec
  | volumeStatus => VolumeStatus
  | configuration => Scheduler.Configuration
  | profile => Scheduler.Profile
  | extenderConfig => Scheduler.ExtenderConfig
  | snapshot => Snapshot
  | replay => Replay
  | nodeList => Extender.NodeList
  | args => Extender.Args
  | filterResult => Extender.FilterResult
  | hostPriority => Extender.HostPriority
  | hostPriorities => Extender.HostPriorityList
  | victims => Extender.Victims
  | metaPod => Extender.MetaPod
  | metaVictims => Extender.MetaVictims
  | preemptionArgs => Extender.PreemptionArgs
  | preemptionResult => Extender.PreemptionResult
  | bindingArgs => Extender.BindingArgs
  | bindingResult => Extender.BindingResult

instance : (f : Format) → JsonForm f.Value
  | stored k => inferInstanceAs (JsonForm (Stored k))
  | desired k => inferInstanceAs (JsonForm (Desired k))
  | metadata => inferInstanceAs (JsonForm Metadata)
  | desiredMetadata => inferInstanceAs (JsonForm DesiredMetadata)
  | reference => inferInstanceAs (JsonForm ObjectReference)
  | volumeSpec => inferInstanceAs (JsonForm VolumeSpec)
  | volumeStatus => inferInstanceAs (JsonForm VolumeStatus)
  | configuration => inferInstanceAs (JsonForm Scheduler.Configuration)
  | profile => inferInstanceAs (JsonForm Scheduler.Profile)
  | extenderConfig => inferInstanceAs (JsonForm Scheduler.ExtenderConfig)
  | snapshot => inferInstanceAs (JsonForm Snapshot)
  | replay => inferInstanceAs (JsonForm Replay)
  | nodeList => inferInstanceAs (JsonForm Extender.NodeList)
  | args => inferInstanceAs (JsonForm Extender.Args)
  | filterResult => inferInstanceAs (JsonForm Extender.FilterResult)
  | hostPriority => inferInstanceAs (JsonForm Extender.HostPriority)
  | hostPriorities => inferInstanceAs (JsonForm Extender.HostPriorityList)
  | victims => inferInstanceAs (JsonForm Extender.Victims)
  | metaPod => inferInstanceAs (JsonForm Extender.MetaPod)
  | metaVictims => inferInstanceAs (JsonForm Extender.MetaVictims)
  | preemptionArgs => inferInstanceAs (JsonForm Extender.PreemptionArgs)
  | preemptionResult => inferInstanceAs (JsonForm Extender.PreemptionResult)
  | bindingArgs => inferInstanceAs (JsonForm Extender.BindingArgs)
  | bindingResult => inferInstanceAs (JsonForm Extender.BindingResult)

/-- **Every format is lawful**, with room for four brackets. -/
theorem lawfulFrom (f : Format) : LawfulFrom f.Value 4 := by
  cases f with
  | stored k => exact (LawfulFrom.of_lawful : LawfulFrom (Stored k) 4)
  | desired k => exact (LawfulFrom.of_lawful : LawfulFrom (Desired k) 4)
  | metadata => exact (LawfulFrom.of_lawful : LawfulFrom Metadata 4)
  | desiredMetadata => exact (LawfulFrom.of_lawful : LawfulFrom DesiredMetadata 4)
  | reference => exact (LawfulFrom.of_lawful : LawfulFrom ObjectReference 4)
  | volumeSpec => exact (LawfulFrom.of_lawful : LawfulFrom VolumeSpec 4)
  | volumeStatus => exact (LawfulFrom.of_lawful : LawfulFrom VolumeStatus 4)
  | configuration => exact (LawfulFrom.of_lawful : LawfulFrom Scheduler.Configuration 4)
  | profile => exact (LawfulFrom.of_lawful : LawfulFrom Scheduler.Profile 4)
  | extenderConfig => exact (LawfulFrom.of_lawful : LawfulFrom Scheduler.ExtenderConfig 4)
  | snapshot => exact Contents.form_lawful.lawfulFrom.mono (by decide)
  | replay => exact Contents.form_lawful.lawfulFrom.mono (by decide)
  | nodeList => exact Extender.NodeList.form_lawful.lawfulFrom.mono (by decide)
  | args => exact Extender.Args.form_lawful.lawfulFrom.mono (by decide)
  | filterResult => exact Extender.FilterResult.form_lawful.lawfulFrom.mono (by decide)
  | hostPriority => exact Extender.HostPriority.form_lawful.lawfulFrom.mono (by decide)
  | hostPriorities => exact (LawfulFrom.of_lawful : LawfulFrom (List Extender.HostPriority) 4)
  | victims => exact Extender.Victims.form_lawful.lawfulFrom.mono (by decide)
  | metaPod => exact Extender.MetaPod.form_lawful.lawfulFrom.mono (by decide)
  | metaVictims => exact Extender.MetaVictims.form_lawful.lawfulFrom.mono (by decide)
  | preemptionArgs => exact Extender.PreemptionArgs.form_lawful.lawfulFrom.mono (by decide)
  | preemptionResult => exact Extender.PreemptionResult.form_lawful.lawfulFrom.mono (by decide)
  | bindingArgs => exact Extender.BindingArgs.form_lawful.lawfulFrom.mono (by decide)
  | bindingResult => exact Extender.BindingResult.form_lawful.lawfulFrom.mono (by decide)

/-- **Reading undoes writing.** Of every format, a value that some text denotes is denoted by its
own compact text and by its own indented text, if it holds no real numbers. -/
theorem reads_back (f : Format) {text : String} {v : f.Value}
    (hread : JsonForm.ofText? text = some v)
    (hwhole : (JsonForm.toJson v).document.AllNumbers Number.IsWhole64) :
    JsonForm.ofText? (JsonForm.text v) = some v ∧
      JsonForm.ofText? (JsonForm.toJson v).indented = some v := by
  have hsound := f.lawfulFrom.sound_of_ofText? (by decide) hread
  have hcompact : JsonForm.ofText? (JsonForm.text v) = some v :=
    JsonForm.ofText?_text_whole ⟨hsound.reads, hwhole⟩
  exact ⟨hcompact, (JsonForm.ofText?_indented v).trans hcompact⟩

/-- An answer of the filter phase that was written as an array, with a reason that has to be
escaped, a node with further members, and an error that is empty. -/
theorem reads_back_filterResult :
    let text := "[\x7b\"items\":[\x7b\"metadata\":\x7b\"name\":\"n\"," ++
      "\"managedFields\":[1,null]\x7d,\"spec\":\x7b\"b\":-7,\"a\":\x7b\x7d\x7d\x7d]," ++
      "\"kind\":\"NodeList\"\x7d,null,\x7b\"m\\u000a\":\"\\\"no\\\"\"\x7d]"
    ∃ v : filterResult.Value, JsonForm.ofText? text = some v ∧
      JsonForm.ofText? (JsonForm.text v) = some v ∧
      JsonForm.ofText? (JsonForm.toJson v).indented = some v := by
  intro text
  have hread : (JsonForm.ofText? text : Option filterResult.Value).map
      (fun v => decide ((JsonForm.toJson v).document.AllNumbers Number.IsWhole64)) =
        some true := by
    decide +kernel
  obtain ⟨v, hv, hwhole⟩ := Option.map_eq_some_iff.mp hread
  exact ⟨v, hv, reads_back filterResult hv (of_decide_eq_true hwhole)⟩

end Format

end ClusterSnapshot
