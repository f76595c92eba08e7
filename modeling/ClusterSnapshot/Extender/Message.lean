import ClusterSnapshot.Object.Basic

/-!
# Messages between a scheduler and its extenders

What a scheduler sends to an extender in each phase, and what the extender answers.
-/

namespace ClusterSnapshot.Extender

/-- A list of nodes. -/
structure NodeList where
  items : List (Stored .node)
  extra : KeyMap Json

/-- What is sent in the filter and in the prioritize phase. -/
structure Args where
  pod : Stored .pod
  nodes? : Option NodeList
  nodeNames? : Option (List String)

/-- What is answered in the filter phase: the nodes that are left, and why others are not. -/
structure FilterResult where
  nodes? : Option NodeList
  nodeNames? : Option (List String)
  failedNodes : KeyMap String
  failedAndUnresolvableNodes : KeyMap String
  error : String

/-- How a node was ranked. -/
structure HostPriority where
  host : String
  score : Int64
  deriving DecidableEq

/-- What is answered in the prioritize phase. -/
abbrev HostPriorityList := List HostPriority

/-- The pods that would have to leave a node. -/
structure Victims where
  pods : List (Stored .pod)
  numPdbViolations : Int64

/-- A pod known by its identity. -/
structure MetaPod where
  uid : String
  deriving DecidableEq

/-- The pods that would have to leave a node, known by their identities. -/
structure MetaVictims where
  pods : List MetaPod
  numPdbViolations : Int64
  deriving DecidableEq

/-- What is sent in the preempt phase. -/
structure PreemptionArgs where
  pod : Stored .pod
  nodeNameToVictims : KeyMap Victims
  nodeNameToMetaVictims : KeyMap MetaVictims

/-- What is answered in the preempt phase. -/
structure PreemptionResult where
  nodeNameToMetaVictims : KeyMap MetaVictims
  deriving DecidableEq

/-- What is sent in the bind phase. -/
structure BindingArgs where
  podName : String
  podNamespace : String
  podUid : String
  node : String
  deriving DecidableEq

/-- What is answered in the bind phase. -/
structure BindingResult where
  error : String
  deriving DecidableEq

section Forms

open Members Member

/-- The members of a list of nodes. -/
def NodeList.form : RecordForm NodeList :=
  .withRest (build NodeList.mk |>.and (defaulted "items" []) (·.items)) (·.extra)

instance : JsonForm NodeList := NodeList.form.jsonForm

/-- The members of what is sent to filter and prioritize. -/
def Args.form : RecordForm Args :=
  .closed
    (build Args.mk
      |>.and (required "pod") (·.pod)
      |>.and (optional "nodes") (·.nodes?)
      |>.and (optional "nodenames") (·.nodeNames?))

instance : JsonForm Args := Args.form.jsonForm

/-- A text that is absent when it is empty. -/
def nonEmptyText (name : String) : Member String := unlessEmpty name "" String.isEmpty

/-- A map that is absent when it is empty. -/
def nonEmptyMap {α : Type} [JsonForm α] (name : String) : Member (KeyMap α) :=
  unlessEmpty name ∅ KeyMap.isEmpty

/-- The members of an answer of the filter phase. -/
def FilterResult.form : RecordForm FilterResult :=
  .closed
    (build FilterResult.mk
      |>.and (optional "nodes") (·.nodes?)
      |>.and (optional "nodenames") (·.nodeNames?)
      |>.and (texts "failedNodes") (·.failedNodes)
      |>.and (texts "failedAndUnresolvableNodes") (·.failedAndUnresolvableNodes)
      |>.and (nonEmptyText "error") (·.error))

instance : JsonForm FilterResult := FilterResult.form.jsonForm

/-- The members of a rank. -/
def HostPriority.form : RecordForm HostPriority :=
  .closed
    (build HostPriority.mk
      |>.and (required "host") (·.host)
      |>.and (required "score") (·.score))

instance : JsonForm HostPriority := HostPriority.form.jsonForm

/-- The members of the pods that would have to leave. -/
def Victims.form : RecordForm Victims :=
  .closed
    (build Victims.mk
      |>.and (defaulted "pods" []) (·.pods)
      |>.and (defaulted "numPDBViolations" 0) (·.numPdbViolations))

instance : JsonForm Victims := Victims.form.jsonForm

/-- The members of a pod known by its identity. -/
def MetaPod.form : RecordForm MetaPod :=
  .closed (build MetaPod.mk |>.and (required "uid") (·.uid))

instance : JsonForm MetaPod := MetaPod.form.jsonForm

/-- The members of the pods that would have to leave, known by their identities. -/
def MetaVictims.form : RecordForm MetaVictims :=
  .closed
    (build MetaVictims.mk
      |>.and (defaulted "pods" []) (·.pods)
      |>.and (defaulted "numPDBViolations" 0) (·.numPdbViolations))

instance : JsonForm MetaVictims := MetaVictims.form.jsonForm

/-- The members of what is sent to preempt. -/
def PreemptionArgs.form : RecordForm PreemptionArgs :=
  .closed
    (build PreemptionArgs.mk
      |>.and (required "pod") (·.pod)
      |>.and (nonEmptyMap "nodeNameToVictims") (·.nodeNameToVictims)
      |>.and (nonEmptyMap "nodeNameToMetaVictims") (·.nodeNameToMetaVictims))

instance : JsonForm PreemptionArgs := PreemptionArgs.form.jsonForm

/-- The members of an answer of the preempt phase. -/
def PreemptionResult.form : RecordForm PreemptionResult :=
  .closed
    (build PreemptionResult.mk
      |>.and (nonEmptyMap "nodeNameToMetaVictims") (·.nodeNameToMetaVictims))

instance : JsonForm PreemptionResult := PreemptionResult.form.jsonForm

/-- The members of what is sent to bind. -/
def BindingArgs.form : RecordForm BindingArgs :=
  .closed
    (build BindingArgs.mk
      |>.and (required "podName") (·.podName)
      |>.and (required "podNamespace") (·.podNamespace)
      |>.and (defaulted "podUID" "") (·.podUid)
      |>.and (required "node") (·.node))

instance : JsonForm BindingArgs := BindingArgs.form.jsonForm

/-- The members of an answer of the bind phase. -/
def BindingResult.form : RecordForm BindingResult :=
  .closed (build BindingResult.mk |>.and (nonEmptyText "error") (·.error))

instance : JsonForm BindingResult := BindingResult.form.jsonForm

end Forms

end ClusterSnapshot.Extender
