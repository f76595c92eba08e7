import ClusterSnapshot.Operation.Error

/-!
# Failures of commands

A command fails because a file cannot be used, or because the operation that it stands for failed.
Only the latter has causes to tell.
-/

namespace ClusterSnapshot.CommandLine

/-- The operations that commands stand for. -/
inductive Operation where
  | capture
  | replay
  | copy
  | clear
  deriving DecidableEq, Repr

/-- The word for an operation. -/
def Operation.name : Operation → String
  | .capture => "export"
  | .replay => "import"
  | .copy => "replicate"
  | .clear => "reset"

/-- Why a command failed. -/
inductive Failure where
  /-- The settings file is not there or does not give settings. -/
  | cannotLoad (path : String)
  | cannotRead (path : String)
  | notSnapshot (path : String)
  | cannotMakeDirectory (path : String)
  | cannotOpenStore (path : String)
  /-- There is no store to copy. -/
  | noStore (directory : String)
  | cannotWrite (path : String)
  /-- The settings cannot be written. -/
  | cannotPrintSettings
  | operation (operation : Operation) (error : OperationError)
  deriving DecidableEq, Repr

namespace Failure

/-- What is said about a failure. -/
def message : Failure → String
  | .cannotLoad path => "failed to load " ++ path
  | .cannotRead path => "failed to read " ++ path
  | .notSnapshot path => path ++ " is not a snapshot"
  | .cannotMakeDirectory path => "failed to create data dir " ++ path
  | .cannotOpenStore path => "failed to open cluster store " ++ path
  | .noStore directory => "no cluster store in " ++ directory
  | .cannotWrite path => "failed to write " ++ path
  | .cannotPrintSettings => "the settings cannot be written"
  | .operation op _ => op.name ++ " failed"

/-- What is said about the causes, the nearest first. -/
def causes : Failure → List String
  | .operation _ e => e.message :: e.causes
  | _ => []

end Failure

end ClusterSnapshot.CommandLine
