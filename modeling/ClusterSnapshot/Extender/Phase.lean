/-!
# Phases of extenders

A scheduler consults its extenders in four phases. What they answered in a phase is shown on a pod
under the phase's annotation key.
-/

namespace ClusterSnapshot.Extender

/-- A phase in which extenders are consulted. -/
inductive Phase where
  | filter
  | prioritize
  | preempt
  | bind
  deriving DecidableEq, Repr

namespace Phase

/-- All phases. -/
def all : List Phase := [.filter, .prioritize, .preempt, .bind]

/-- The name of a phase. -/
def name : Phase → String
  | .filter => "filter"
  | .prioritize => "prioritize"
  | .preempt => "preempt"
  | .bind => "bind"

/-- The key of the annotation that shows the answers of a phase. -/
def annotationKey (p : Phase) : String :=
  "scheduler-simulator/extender-" ++ p.name ++ "-result"

/-- The phase of a name. -/
def ofName? (name : String) : Option Phase := all.find? (·.name == name)

/-- Phases have annotations of their own. -/
theorem annotationKey_injective {p q : Phase} (h : p.annotationKey = q.annotationKey) : p = q := by
  revert h
  cases p <;> cases q <;> decide

end Phase

/-- Why a call to an extender failed. -/
inductive CallError where
  /-- No extender has this position. -/
  | unknown (position : Nat)
  /-- The extender itself failed. -/
  | client (name : String) (phase : Phase) (message : String)
  deriving DecidableEq, Repr

/-- What is said about a failure. -/
def CallError.message : CallError → String
  | .unknown position => "unknown extender: " ++ toString position
  | .client name phase message => "extender " ++ name ++ " " ++ phase.name ++ ": " ++ message

end ClusterSnapshot.Extender
