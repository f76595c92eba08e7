import ClusterSnapshot.CommandLine.Commands
import ClusterSnapshot.CommandLine.Identity

/-!
# The program

Runs the commands on the files of the machine. What went wrong and what was reported goes to the
standard error output.
-/

namespace ClusterSnapshot.CommandLine

/-- Whether an action succeeds. -/
def succeeds {α : Type} (x : IO α) : IO Bool := do
  try
    let _ ← x
    return true
  catch _ => return false

/-- Whether there is a directory at a path. Only from a directory a dot leads on. -/
def isDirectory (path : String) : IO Bool := succeeds (IO.FS.realPath (path ++ "/."))

/-- The files of the machine. -/
def machine : Host IO where
  readText path := do
    try
      match String.fromUTF8? (← IO.FS.readBinFile path) with
      | some content => return .text content
      | none => return .notText
    catch _ => return .unreadable
  pathExists path := succeeds (IO.FS.Handle.mk path .read)
  isDirectory := isDirectory
  writeText path content := succeeds (IO.FS.writeFile path content)
  makeDirectory path := do
    if ← succeeds (IO.FS.createDir path) then return true
    isDirectory path
  sameFile p q := do
    try return (← IO.FS.realPath p) == (← IO.FS.realPath q)
    catch _ => return false

/-- One line about an event. -/
def eventLine (e : Event) : String :=
  e.fields.foldl (fun line (name, value) => line ++ " " ++ name ++ "=" ++ value.compact)
    (e.level.name ++ " " ++ e.message)

/-- What is said about a failure, its causes numbered from zero. -/
def failureLines (e : Failure) : List String :=
  let causes := e.causes.zipIdx.map fun (cause, i) => "    " ++ toString i ++ ": " ++ cause
  ("Error: " ++ e.message) :: if causes.isEmpty then [] else "" :: "Caused by:" :: causes

end ClusterSnapshot.CommandLine

open ClusterSnapshot.CommandLine in
/-- Runs the program. -/
def main (args : List String) : IO UInt32 := do
  let seed := (← IO.getRandomBytes 16).foldl (fun n b => n * 256 + b.toNat) 0
  let (outcome, _) ← execute machine (uidsFrom seed) args
  for e in outcome.events do IO.eprintln (eventLine e)
  match outcome.failure? with
  | some e => for line in failureLines e do IO.eprintln line
  | none =>
    if outcome.exitCode = 2 then IO.eprintln "error: the arguments make no sense"
    else if outcome.exitCode ≠ 0 then IO.eprintln "error: too many tasks at a time"
  IO.print outcome.output
  return UInt32.ofNat outcome.exitCode
