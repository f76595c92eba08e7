import ClusterSnapshot.CommandLine.Arguments
import ClusterSnapshot.CommandLine.Failure
import ClusterSnapshot.CommandLine.Host
import ClusterSnapshot.Operation.Clearing
import ClusterSnapshot.Operation.Copy
import ClusterSnapshot.Settings.Text
import ClusterSnapshot.Store.Serving
import ClusterSnapshot.Store.Text

/-!
# Commands

A command loads the settings, opens the stores it works on, performs its operation and keeps the
stores as the operation left them, whether or not it failed. `execute` does this for the arguments
of the program, on any host.

The tasks under way at a time are counted, and the count has an upper end. A command that is to
have more of them breaks off where its first group of tasks would be set up: the settings are
loaded and the stores opened by then, and a replay has restarted the scheduler.
-/

namespace ClusterSnapshot.CommandLine

/-- What a run of the program shows. -/
structure Outcome where
  exitCode : Nat
  /-- What is written to the standard output. -/
  output : String
  /-- The failure that is told, if any. Of arguments without sense and of too many tasks only the
  exit code tells. -/
  failure? : Option Failure
  events : List Event

/-- Why a command ends before it is done. -/
inductive Halt where
  | failed (e : Failure)
  /-- There are to be more tasks under way at a time than can be counted. -/
  | tooManyTasks
  deriving DecidableEq, Repr

/-- The greatest number of tasks under way at a time that can be counted. -/
def maxTasks : Nat := 0x1FFFFFFFFFFFFFFF

/-- The identities that are left to a command, and the events it has reported. -/
structure Ledger where
  uids : UidSource
  events : List Event

/-- The work of a command, which may fail. -/
abbrev Work (m : Type → Type) (α : Type) := ExceptT Halt (StateT Ledger m) α

section

variable {m : Type → Type} [Monad m] (host : Host m)

/-- An action of the host as work. -/
def onHost {α : Type} (x : m α) : Work m α := ExceptT.lift (StateT.lift x)

/-- Ends a command with a failure. -/
def fail {α : Type} (e : Failure) : Work m α := throw (.failed e)

/-- The settings of a file, or the default ones, with another data directory if one is given. -/
def loadSettings (config? dataDir? : Option String) : Work m Settings := do
  let settings ← match config? with
    | none => pure Settings.default
    | some path =>
      match ← onHost (host.readText path) with
      | .text content =>
        match Settings.ofText content with
        | .ok settings => pure settings
        | .error _ => fail (.cannotLoad path)
      | .unreadable | .notText => fail (.cannotLoad path)
  return match dataDir? with
    | some dataDir => { settings with store := { settings.store with dataDir } }
    | none => settings

/-- The file in a data directory that keeps the store. -/
def storePath (dataDir : String) : String := Path.join dataDir "schedsim.redb"

/-- A store that is open, with the file that keeps it. -/
structure OpenStore where
  path : String
  store : Store

/-- Opens the store in a data directory, and makes both if they are not there. A file cannot be
opened while it already is. -/
def openStore (dataDir : String) (alreadyOpen? : Option OpenStore) : Work m OpenStore := do
  unless ← onHost (host.makeDirectories dataDir) do fail (.cannotMakeDirectory dataDir)
  let path := storePath dataDir
  if let some other := alreadyOpen? then
    if ← onHost (host.sameFile path other.path) then fail (.cannotOpenStore path)
  let store? ← do
    if ← onHost (host.pathExists path) then
      match ← onHost (host.readText path) with
      | .text content => pure (Store.ofText? content)
      | .unreadable | .notText => pure none
    else pure (some Store.empty)
  match store? with
  | none => fail (.cannotOpenStore path)
  | some store =>
    unless ← onHost (host.writeText path store.text) do fail (.cannotOpenStore path)
    return ⟨path, store⟩

/-- Keeps a store as it is now. -/
def saveStore (s : OpenStore) : Work m Unit := do
  let _ ← onHost (host.writeText s.path s.store.text)

/-- The options of a command: those of the settings, and more leniency if flags ask for it. -/
def commandOptions (settings : Settings) (ignoreErrors ignoreSchedulerConfig : Bool) : Options :=
  let base := Options.ofSettings settings.snapshot
  ⟨base.ignoreErrors || ignoreErrors, base.ignoreSchedulerConfig || ignoreSchedulerConfig⟩

/-- An operator on the store that settings name. -/
def clusterOperator {σ : Type} (settings : Settings) (part : Part σ Cluster) : Operator σ :=
  let server := Cluster.server "cluster" settings.scheduler.external
  (Operator.new (server.within part)).withMaxConcurrency settings.snapshot.maxConcurrency.toNat

/-- Performs an operation on open stores, and gives what it answers with the stores after it. -/
def perform {σ α : Type} (operation : Operation) (attempt : Attempt σ α) (start : UidSource → σ)
    (uids : σ → UidSource) (save : σ → Work m Unit) : Work m α := do
  let before ← getThe Ledger
  let (answer, p) := attempt.run.run (Run.start (start before.uids))
  set (Ledger.mk (uids p.state) (before.events ++ p.events))
  save p.state
  match answer with
  | .ok x => return x
  | .error e => fail (.operation operation e)

/-- Whether settings ask for more tasks at a time than can be counted. -/
def overloaded (settings : Settings) : Bool :=
  maxTasks < settings.snapshot.maxConcurrency.toNat

/-- Breaks off if there are to be more tasks at a time than can be counted. -/
def checkTasks (settings : Settings) : Work m Unit := do
  if overloaded settings then throw .tooManyTasks

/-- The whole state as a part of itself. -/
def wholeCluster : Part Cluster Cluster := ⟨id, fun c _ => c⟩

/-- Performs an operation on one open store. -/
def performOn {α : Type} (operation : Operation) (s : OpenStore) (attempt : Attempt Cluster α) :
    Work m α :=
  perform operation attempt (fun uids => ⟨s.store, uids⟩) (·.uids)
    fun c => saveStore host { s with store := c.store }

/-- Two stores with one source of identities. -/
structure TwoStores where
  source : Store
  target : Store
  uids : UidSource

/-- The store that is copied. -/
def TwoStores.sourceCluster : Part TwoStores Cluster where
  get s := ⟨s.source, s.uids⟩
  set c s := { s with source := c.store, uids := c.uids }

/-- The store that is copied to. -/
def TwoStores.targetCluster : Part TwoStores Cluster where
  get s := ⟨s.target, s.uids⟩
  set c s := { s with target := c.store, uids := c.uids }

/-- Captures the cluster; what is written to the standard output. -/
def runCapture (settings : Settings) (output? : Option String) (ignoreErrors : Bool) :
    Work m String := do
  let s ← openStore host settings.store.dataDir none
  checkTasks settings
  let options := commandOptions settings ignoreErrors false
  let snapshot ← performOn host .capture s
    ((clusterOperator settings wholeCluster).capture options)
  let text := (JsonForm.toJson snapshot).indented
  match output? with
  | none => return text ++ "\n"
  | some path =>
    unless ← onHost (host.writeText path text) do fail (.cannotWrite path)
    return ""

/-- Replays a snapshot from a file. -/
def runReplay (settings : Settings) (input : String)
    (ignoreErrors ignoreSchedulerConfig : Bool) : Work m Unit := do
  let replay : Replay ← match ← onHost (host.readText input) with
    | .unreadable => fail (.cannotRead input)
    | .notText => fail (.notSnapshot input)
    | .text content =>
      match JsonForm.ofText? content with
      | some replay => pure replay
      | none => fail (.notSnapshot input)
  let s ← openStore host settings.store.dataDir none
  let options := commandOptions settings ignoreErrors ignoreSchedulerConfig
  let operator := clusterOperator settings wholeCluster
  performOn host .replay s <|
    if overloaded settings then operator.replayConfig replay options
    else operator.replay replay options
  checkTasks settings

/-- Copies the cluster kept in another data directory. -/
def runCopy (settings : Settings) (source : String)
    (ignoreErrors ignoreSchedulerConfig : Bool) : Work m Unit := do
  unless ← onHost (host.pathExists (storePath source)) do fail (.noStore source)
  let origin ← openStore host source none
  let target ← openStore host settings.store.dataDir (some origin)
  checkTasks settings
  let options := commandOptions settings ignoreErrors ignoreSchedulerConfig
  let operator := clusterOperator settings TwoStores.targetCluster
  let sourceServer := (Cluster.server "source" false).within TwoStores.sourceCluster
  perform .copy (operator.copyFrom sourceServer options)
    (fun uids => ⟨origin.store, target.store, uids⟩) (·.uids) fun s => do
      saveStore host { origin with store := s.source }
      saveStore host { target with store := s.target }

/-- Clears the cluster. -/
def runClear (settings : Settings) (ignoreErrors : Bool) : Work m Unit := do
  let s ← openStore host settings.store.dataDir none
  checkTasks settings
  let options := commandOptions settings ignoreErrors false
  performOn host .clear s ((clusterOperator settings wholeCluster).clear options)

/-- Carries out an invocation; what is written to the standard output. -/
def carryOut (i : Invocation) : Work m String := do
  let settings ← loadSettings host i.config? i.dataDir?
  match i.command with
  | .capture output? ignoreErrors => runCapture host settings output? ignoreErrors
  | .replay input ignoreErrors ignoreSchedulerConfig => do
    runReplay host settings input ignoreErrors ignoreSchedulerConfig
    return ""
  | .copy source ignoreErrors ignoreSchedulerConfig => do
    runCopy host settings source ignoreErrors ignoreSchedulerConfig
    return ""
  | .clear ignoreErrors => do
    runClear host settings ignoreErrors
    return ""
  | .config =>
    match settings.text? with
    | some text => return text
    | none => fail .cannotPrintSettings

/-- Runs the program with the given arguments and identities; also the identities that are left. -/
def execute (uids : UidSource) (args : List String) : m (Outcome × UidSource) := do
  match parse args with
  | .misuse => return (⟨2, "", none, []⟩, uids)
  | .version text => return (⟨0, text ++ "\n", none, []⟩, uids)
  | .invocation i =>
    let (answer, p) ← (carryOut host i).run.run ⟨uids, []⟩
    match answer with
    | .ok output => return (⟨0, output, none, p.events⟩, p.uids)
    | .error (.failed e) => return (⟨1, "", some e, p.events⟩, p.uids)
    | .error .tooManyTasks => return (⟨101, "", none, p.events⟩, p.uids)

end

end ClusterSnapshot.CommandLine
