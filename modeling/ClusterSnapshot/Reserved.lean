import ClusterSnapshot.Kind

/-!
# Reserved objects

Some objects belong to the cluster itself and not to its user: the namespace `default` and those
named `kube-…`, whatever lives in them, and the priority classes named `system-…`. They are never
captured, replayed or cleared.
-/

namespace ClusterSnapshot

namespace Reserved

/-- How names of system namespaces begin. -/
def systemNamespaceStart : String := "kube-"

/-- How names of system priority classes begin. -/
def systemPriorityClassStart : String := "system-"

/-- The namespace that every cluster has, and that an object gets when it names none. -/
def defaultNamespace : String := "default"

/-- Whether a name begins with a reserved text. -/
def startsWith (name start : String) : Bool := start.toList.isPrefixOf name.toList

/-- Whether a namespace belongs to the system. -/
def isSystemNamespace (name : String) : Bool := startsWith name systemNamespaceStart

/-- Whether a priority class belongs to the system. -/
def isSystemPriorityClass (name : String) : Bool := startsWith name systemPriorityClassStart

/-- Whether a namespace is never captured: a system namespace, or the default one. -/
def isIgnoredNamespace (name : String) : Bool := isSystemNamespace name || name == defaultNamespace

/-- Whether an object of a kind is reserved. A namespace and a priority class are so by their own
name, every other object by the namespace given with it. -/
def isExcluded (k : Kind) (name : String) (ns? : Option String) : Bool :=
  match k with
  | .ns => isIgnoredNamespace name
  | .priorityClass => isSystemPriorityClass name
  | _ => ns?.any isIgnoredNamespace

end Reserved

end ClusterSnapshot
