import ClusterSnapshot.Request.Error

/-!
# Failures of a store

To whoever made the request, all of them are failures of the backend with the same message.
-/

namespace ClusterSnapshot

/-- Why an operation of a store failed. -/
inductive StoreError where
  | cannotOpen (reason : String)
  | transaction (reason : String)
  | table (reason : String)
  | read (reason : String)
  | write (reason : String)
  | serialize (reason : String)
  | deserialize (reason : String)
  /-- An object lacks something that every object must have. -/
  | invalid (reason : String)
  /-- An object was handed in with an identity; those are assigned by the store. -/
  | uidConflict (object : String)
  deriving DecidableEq, Repr

/-- What is said about a failure. -/
def StoreError.message : StoreError → String
  | .cannotOpen reason => "failed to open database: " ++ reason
  | .transaction reason => "transaction error: " ++ reason
  | .table reason => "table error: " ++ reason
  | .read reason => "read error: " ++ reason
  | .write reason => "write error: " ++ reason
  | .serialize reason => "serialization error: " ++ reason
  | .deserialize reason => "deserialization error: " ++ reason
  | .invalid reason => "invalid object: " ++ reason
  | .uidConflict object => "uid must not be set on apply: " ++ object

/-- A failure of a store as the failure of a request to it. -/
def RequestError.ofStore (e : StoreError) : RequestError := .backend e.message

end ClusterSnapshot
