/-!
# Arguments of the command line

The program takes options, a command, and options of the command. Two options are known on both
levels; where both give one, the command's level counts. An option that takes a value has it
attached or as the next argument; a value is never empty, and as an argument of its own does not
begin with a dash unless it is just that. No option is given twice on a level.

A value that is an argument of its own is held back until the next option comes or the level ends.
The level in front of a command ends after the command's own, so there a question for the version
is answered before a fault of the last option in front of the command is noticed.
-/

namespace ClusterSnapshot.CommandLine

/-- What the program is asked to do. -/
inductive Command where
  /-- Capture the cluster into a file, or onto the standard output. -/
  | capture (output? : Option String) (ignoreErrors : Bool)
  /-- Replay a snapshot from a file. -/
  | replay (input : String) (ignoreErrors ignoreSchedulerConfig : Bool)
  /-- Copy the cluster kept in another directory. -/
  | copy (source : String) (ignoreErrors ignoreSchedulerConfig : Bool)
  /-- Clear the cluster. -/
  | clear (ignoreErrors : Bool)
  /-- Print the settings. -/
  | config
  deriving DecidableEq, Repr

/-- A command with the settings file and the data directory to use. -/
structure Invocation where
  config? : Option String
  dataDir? : Option String
  command : Command
  deriving DecidableEq, Repr

/-- What arguments come to. -/
inductive Parsed where
  | invocation (i : Invocation)
  /-- The version of the program or of a command is asked for. -/
  | version (text : String)
  /-- The arguments make no sense. -/
  | misuse
  deriving DecidableEq, Repr

/-- An option with a value: its long name and perhaps a short one. -/
structure ValueOption where
  long : String
  short? : Option Char

/-- The options known on a level. -/
structure OptionTable where
  valued : List ValueOption
  flags : List String

/-- The options given on a level. -/
structure Given where
  values : List (String × String)
  flags : List String

namespace Given

/-- No options. -/
def none : Given := ⟨[], []⟩

/-- The value of an option. -/
def value? (g : Given) (name : String) : Option String :=
  (g.values.find? (·.1 == name)).map (·.2)

/-- Whether a flag is given. -/
def has (g : Given) (flag : String) : Bool := g.flags.contains flag

/-- With a value for an option, which must be the first one and not be empty. -/
def addValue? (g : Given) (name value : String) : Option Given :=
  if value = "" ∨ (g.value? name).isSome then Option.none
  else some { g with values := (name, value) :: g.values }

/-- With a flag, which must not be given yet. -/
def addFlag? (g : Given) (flag : String) : Option Given :=
  if g.has flag then Option.none else some { g with flags := flag :: g.flags }

end Given

/-- What one argument is. -/
inductive Argument where
  | version
  | flag (name : String)
  /-- An option with its value attached. -/
  | attached (name value : String)
  /-- An option whose value is the next argument. -/
  | separate (name : String)
  /-- Two dashes: no options follow. -/
  | terminator
  | word
  | unknown

/-- A long option, after its dashes. -/
def longArgument (table : OptionTable) (cs : List Char) : Argument :=
  let name := String.ofList (cs.takeWhile (· ≠ '='))
  let value? := match cs.dropWhile (· ≠ '=') with
    | _ :: value => some (String.ofList value)
    | [] => none
  match value? with
  | some value => if table.valued.any (·.long == name) then .attached name value else .unknown
  | none =>
    if table.valued.any (·.long == name) then .separate name
    else if table.flags.contains name then .flag name
    else if name = "version" then .version
    else .unknown

/-- A short option, after its dash. -/
def shortArgument (table : OptionTable) (c : Char) (cs : List Char) : Argument :=
  match table.valued.find? (·.short? = some c) with
  | some o =>
    match cs with
    | [] => .separate o.long
    | '=' :: value => .attached o.long (String.ofList value)
    | value => .attached o.long (String.ofList value)
  | none => if c = 'V' then .version else .unknown

/-- What an argument is on a level. -/
def classify (table : OptionTable) (arg : String) : Argument :=
  match arg.toList with
  | ['-', '-'] => .terminator
  | '-' :: '-' :: cs => longArgument table cs
  | '-' :: c :: cs => shortArgument table c cs
  | _ => .word

/-- Whether an argument can be the value of the option before it. -/
def canBeValue (arg : String) : Bool :=
  match arg.toList with
  | '-' :: _ :: _ => false
  | _ => true

/-- The options given so far, and the last one if its value is held back. -/
structure Pending where
  given : Given
  held? : Option (String × String)

namespace Pending

/-- No options. -/
def none : Pending := ⟨.none, Option.none⟩

/-- The options with the one that was held back. -/
def settle? (p : Pending) : Option Given :=
  match p.held? with
  | some (name, value) => p.given.addValue? name value
  | Option.none => some p.given

/-- With a flag. -/
def addFlag? (p : Pending) (flag : String) : Option Pending := do
  let given ← (← p.settle?).addFlag? flag
  return ⟨given, Option.none⟩

/-- With an option that has its value attached. -/
def addAttached? (p : Pending) (name value : String) : Option Pending := do
  let given ← (← p.settle?).addValue? name value
  return ⟨given, Option.none⟩

/-- With an option whose value is held back. -/
def hold? (p : Pending) (name value : String) : Option Pending := do
  return ⟨← p.settle?, some (name, value)⟩

end Pending

/-- What the arguments of a level come to. -/
inductive LevelEnd where
  | finished (pending : Pending)
  /-- A word that is no option, and what follows it. -/
  | word (pending : Pending) (word : String) (rest : List String)
  /-- Nothing more is read, and this is left. -/
  | terminated (pending : Pending) (rest : List String)
  | version
  | misuse

/-- Reads the options of a level. -/
def OptionTable.read (table : OptionTable) (pending : Pending) : List String → LevelEnd
  | [] => .finished pending
  | arg :: rest =>
    match classify table arg with
    | .version => if pending.settle?.isSome then .version else .misuse
    | .unknown => .misuse
    | .terminator => .terminated pending rest
    | .word => .word pending arg rest
    | .flag name =>
      match pending.addFlag? name with
      | some pending => table.read pending rest
      | none => .misuse
    | .attached name value =>
      match pending.addAttached? name value with
      | some pending => table.read pending rest
      | none => .misuse
    | .separate name =>
      match rest with
      | [] => .misuse
      | value :: rest =>
        if canBeValue value then
          match pending.hold? name value with
          | some pending => table.read pending rest
          | none => .misuse
        else .misuse
  termination_by args => args.length

/-! ### The commands -/

/-- The options known on every level. -/
def sharedOptions : List ValueOption := [⟨"config", none⟩, ⟨"data-dir", none⟩]

/-- The options in front of the command. -/
def outerTable : OptionTable := ⟨sharedOptions, []⟩

/-- The options of a command, and how those given make the command. -/
def commandOf? : String → Option (OptionTable × (Given → Option Command))
  | "export" => some
    (⟨⟨"output", some 'o'⟩ :: sharedOptions, ["ignore-errors"]⟩,
      fun g => some (.capture (g.value? "output") (g.has "ignore-errors")))
  | "import" => some
    (⟨⟨"input", some 'i'⟩ :: sharedOptions, ["ignore-errors", "ignore-scheduler-config"]⟩,
      fun g => (g.value? "input").map fun input =>
        .replay input (g.has "ignore-errors") (g.has "ignore-scheduler-config"))
  | "replicate" => some
    (⟨⟨"from", none⟩ :: sharedOptions, ["ignore-errors", "ignore-scheduler-config"]⟩,
      fun g => (g.value? "from").map fun source =>
        .copy source (g.has "ignore-errors") (g.has "ignore-scheduler-config"))
  | "reset" => some
    (⟨sharedOptions, ["ignore-errors"]⟩, fun g => some (.clear (g.has "ignore-errors")))
  | "config" => some (⟨sharedOptions, []⟩, fun _ => some .config)
  | _ => none

/-- The name of the program. -/
def programName : String := "schedsim"

/-- The version of the program. -/
def programVersion : String := "0.1.0"

/-- The command made of options on both levels, if none of them is at fault. -/
def finish? (outer inner : Pending) (make : Given → Option Command) : Option Invocation := do
  let inner ← inner.settle?
  let command ← make inner
  let outer ← outer.settle?
  return {
    config? := (inner.value? "config").or (outer.value? "config")
    dataDir? := (inner.value? "data-dir").or (outer.value? "data-dir")
    command }

/-- What the arguments of the program come to. -/
def parse (args : List String) : Parsed :=
  match outerTable.read .none args with
  | .version => .version (programName ++ " " ++ programVersion)
  | .word outer word rest =>
    match commandOf? word with
    | none => .misuse
    | some (table, make) =>
      match table.read .none rest with
      | .version => .version (programName ++ "-" ++ word ++ " " ++ programVersion)
      | .finished inner | .terminated inner [] =>
        match finish? outer inner make with
        | some invocation => .invocation invocation
        | none => .misuse
      | .word _ _ _ | .terminated _ _ | .misuse => .misuse
  | .finished _ | .terminated _ _ | .misuse => .misuse

end ClusterSnapshot.CommandLine
