/-!
# Failures of requests

A request to a cluster can fail because an object is not there, because the scheduler is run by
somebody else, or because the store of the cluster failed.
-/

namespace ClusterSnapshot

/-- Why a request failed. -/
inductive RequestError where
  | notFound (what : String)
  | disabled
  | backend (message : String)
  deriving DecidableEq, Repr

namespace RequestError

/-- What is said about a failure. -/
def message : RequestError → String
  | .notFound what => "not found: " ++ what
  | .disabled => "scheduler service is disabled"
  | .backend message => "backend error: " ++ message

/-- Whether the scheduler is run by somebody else. -/
def isDisabled : RequestError → Bool
  | .disabled => true
  | _ => false

/-- Whether something is not there. -/
def isNotFound : RequestError → Bool
  | .notFound _ => true
  | _ => false

end RequestError

end ClusterSnapshot
