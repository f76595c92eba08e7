import ClusterSnapshot.Extender.Message
import ClusterSnapshot.Extender.Phase

/-!
# Decisions of extenders

A `DecisionLog` keeps, for every pod, phase and extender, the last answer that the extender gave.
When a pod is captured its record is shown on it: one annotation per phase holds a map from the
names of extenders to their answers. A record stays until the pod is deleted.
-/

namespace ClusterSnapshot.Extender

/-- What is sent to an extender in a phase. -/
def Phase.Args : Phase → Type
  | .filter | .prioritize => Extender.Args
  | .preempt => PreemptionArgs
  | .bind => BindingArgs

/-- What an extender answers in a phase. -/
def Phase.Result : Phase → Type
  | .filter => FilterResult
  | .prioritize => HostPriorityList
  | .preempt => PreemptionResult
  | .bind => BindingResult

instance Phase.argsForm : (p : Phase) → JsonForm p.Args
  | .filter | .prioritize => inferInstanceAs (JsonForm Extender.Args)
  | .preempt => inferInstanceAs (JsonForm PreemptionArgs)
  | .bind => inferInstanceAs (JsonForm BindingArgs)

instance Phase.resultForm : (p : Phase) → JsonForm p.Result
  | .filter => inferInstanceAs (JsonForm FilterResult)
  | .prioritize => inferInstanceAs (JsonForm HostPriorityList)
  | .preempt => inferInstanceAs (JsonForm PreemptionResult)
  | .bind => inferInstanceAs (JsonForm BindingResult)

/-- The pod that a decision is about. -/
structure DecisionKey where
  ns : String
  podName : String
  deriving DecidableEq, Repr

namespace DecisionKey

/-- The key of a pod; a pod without a namespace has an empty one. -/
def ofPod (pod : Stored .pod) : DecisionKey := ⟨pod.metadata.ns?.getD "", pod.metadata.name⟩

/-- The key as shown. -/
def text (k : DecisionKey) : String := k.ns ++ "/" ++ k.podName

/-- The pod that a call in a phase is about. -/
def ofArgs : (p : Phase) → p.Args → DecisionKey
  | .filter, (args : Extender.Args) | .prioritize, (args : Extender.Args) => ofPod args.pod
  | .preempt, (args : PreemptionArgs) => ofPod args.pod
  | .bind, (args : BindingArgs) => ⟨args.podNamespace, args.podName⟩

end DecisionKey

/-- The answer of an extender in a phase. -/
structure Decision where
  phase : Phase
  result : phase.Result

/-- The decisions about one pod: for every phase, the answers by extender. -/
structure DecisionRecord where
  filter : KeyMap FilterResult
  prioritize : KeyMap HostPriorityList
  preempt : KeyMap PreemptionResult
  bind : KeyMap BindingResult

namespace DecisionRecord

/-- A record without decisions. -/
def empty : DecisionRecord := ⟨∅, ∅, ∅, ∅⟩

instance : Inhabited DecisionRecord := ⟨empty⟩

/-- The answers in a phase. -/
def get (r : DecisionRecord) : (p : Phase) → KeyMap p.Result
  | .filter => r.filter
  | .prioritize => r.prioritize
  | .preempt => r.preempt
  | .bind => r.bind

/-- The record with the answer of an extender; an earlier one in the same phase is replaced. -/
def insert (r : DecisionRecord) (extender : String) : Decision → DecisionRecord
  | ⟨.filter, result⟩ => { r with filter := r.filter.insert extender result }
  | ⟨.prioritize, result⟩ => { r with prioritize := r.prioritize.insert extender result }
  | ⟨.preempt, result⟩ => { r with preempt := r.preempt.insert extender result }
  | ⟨.bind, result⟩ => { r with bind := r.bind.insert extender result }

/-- The answers in a phase as text. -/
def annotation (r : DecisionRecord) (p : Phase) : String := JsonForm.text (r.get p)

end DecisionRecord

/-- The decisions about all pods, one record for every pod with decisions. -/
structure DecisionLog where
  records : List (DecisionKey × DecisionRecord)

namespace DecisionLog

/-- A log without decisions. -/
def empty : DecisionLog := ⟨[]⟩

instance : Inhabited DecisionLog := ⟨empty⟩

/-- The record of a pod. -/
def find? (log : DecisionLog) (key : DecisionKey) : Option DecisionRecord :=
  (log.records.find? (·.1 = key)).map (·.2)

/-- The log without the record of a pod. -/
def delete (log : DecisionLog) (key : DecisionKey) : DecisionLog :=
  ⟨log.records.filter (·.1 ≠ key)⟩

/-- The log with the answer of an extender about a pod. -/
def record (log : DecisionLog) (key : DecisionKey) (extender : String) (d : Decision) :
    DecisionLog :=
  let r := ((log.find? key).getD .empty).insert extender d
  ⟨(log.delete key).records ++ [(key, r)]⟩

/-- The number of pods with decisions. -/
def size (log : DecisionLog) : Nat := log.records.length

/-- Whether there are no decisions. -/
def isEmpty (log : DecisionLog) : Bool := log.records.isEmpty

/-- The pod with one annotation per phase that shows its record, if it has one. -/
def decorate (log : DecisionLog) (pod : Stored .pod) : Stored .pod :=
  match log.find? (.ofPod pod) with
  | none => pod
  | some r => pod.mapMetadata fun m =>
    { m with
      annotations := Phase.all.foldl
        (fun annotations p => annotations.insert p.annotationKey (r.annotation p))
        m.annotations }

end DecisionLog

/-- How the annotation of a phase reads on a pod. -/
inductive AnnotationReading (p : Phase) where
  /-- There is no such annotation. -/
  | absent
  /-- It does not hold answers of the phase. -/
  | malformed
  | answers (byExtender : KeyMap p.Result)

/-- The answers that a pod shows for a phase. -/
def decodeAnnotation (pod : Stored .pod) (p : Phase) : AnnotationReading p :=
  match pod.metadata.annotations.find? p.annotationKey with
  | none => .absent
  | some text =>
    match (JsonForm.ofText? text : Option (KeyMap p.Result)) with
    | none => .malformed
    | some byExtender => .answers byExtender

end ClusterSnapshot.Extender
