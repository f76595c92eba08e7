/-!
# TOML values and how a document builds them

A TOML document says piece by piece what is in its tables: lines set keys, headers open tables, and
dotted keys open tables on their way. Whether a piece may add to a table depends on how the table
came to be, its `Origin`.

## Rules

* A header opens a table that is new, or that so far only headers of tables inside it have named.
* A header with double brackets adds a table to a list of tables that such headers made.
* A dotted key passes through tables that no header has opened, and sets its last part in a table
  that dotted keys made.
* A table in braces is complete.
-/

namespace ClusterSnapshot.Toml

/-- How a table came to be. -/
inductive Origin where
  /-- A header opened it. -/
  | header
  /-- A header of a table inside it named it. -/
  | implied
  /-- A dotted key named it. -/
  | dotted
  /-- It is written in braces. -/
  | braces
  deriving DecidableEq, Repr

/-- A TOML value. Of numbers with a fraction and of dates nothing is kept. -/
inductive Value where
  | text (value : String)
  | integer (value : Int)
  | real
  | boolean (value : Bool)
  | date
  | array (items : List Value)
  | table (origin : Origin) (entries : List (String × Value))
  /-- A list of tables made by headers, the latest last. -/
  | tables (elements : List (List (String × Value)))
  deriving Repr, Inhabited

/-- The entries of a table, in the order in which they were made. -/
abbrev Entries := List (String × Value)

namespace Entries

/-- The value of a key. -/
def find? (key : String) : Entries → Option Value
  | [] => none
  | (k, v) :: rest => if k = key then some v else find? key rest

/-- The entries with a value for a key, in its old place if it has one. -/
def put (key : String) (value : Value) : Entries → Entries
  | [] => [(key, value)]
  | (k, v) :: rest => if k = key then (key, value) :: rest else (k, v) :: put key value rest

/-- The entries after `change` was made to the table at the end of a path. Tables that do not exist
are made with origin `fresh`; a table that exists is passed only if its origin is `open`. A list of
tables stands for its latest element. -/
def changeAt? (fresh : Origin) (passable : Origin → Bool)
    (change : Origin → Entries → Option Entries) : List String → Origin → Entries → Option Entries
  | [], origin, entries => change origin entries
  | key :: path, _, entries =>
    match find? key entries with
    | none =>
      (changeAt? fresh passable change path fresh []).map fun inner =>
        put key (.table fresh inner) entries
    | some (.table origin inner) =>
      if passable origin then
        (changeAt? fresh passable change path origin inner).map fun inner =>
          put key (.table origin inner) entries
      else none
    | some (.tables elements) =>
      match elements.getLast? with
      | none => none
      | some latest =>
        (changeAt? fresh passable change path .header latest).map fun latest =>
          put key (.tables (elements.dropLast ++ [latest])) entries
    | some _ => none

/-- The entries with a value set at a dotted key, which must be new. -/
def assign? (path : List String) (key : String) (value : Value) (entries : Entries) :
    Option Entries :=
  changeAt? .dotted (fun o => o = .implied ∨ o = .dotted)
    (fun origin entries =>
      if (path.isEmpty ∨ origin = .dotted) ∧ (find? key entries).isNone then
        some (put key value entries)
      else none)
    path .header entries

/-- A value for a dotted key: the parts before the last, the last part, the value. -/
abbrev Assignment := List String × String × Value

/-- The entries after a list of assignments. -/
def assignAll? (assignments : List Assignment) (entries : Entries) : Option Entries :=
  assignments.foldlM (fun es (path, key, value) => es.assign? path key value) entries

/-- The entries after a header opened the table at a path and filled it. -/
def openTable? (path : List String) (key : String) (filling : List Assignment)
    (entries : Entries) : Option Entries :=
  changeAt? .implied (· ≠ .braces)
    (fun _ entries => do
      let start ← match find? key entries with
        | none => some []
        | some (.table .implied inner) => some inner
        | some _ => none
      let filled ← assignAll? filling start
      return put key (.table .header filled) entries)
    path .header entries

/-- The entries after a header added a table to the list at a path and filled it. -/
def addTable? (path : List String) (key : String) (filling : List Assignment)
    (entries : Entries) : Option Entries :=
  changeAt? .implied (· ≠ .braces)
    (fun _ entries => do
      let elements ← match find? key entries with
        | none => some []
        | some (.tables elements) => some elements
        | some _ => none
      let filled ← assignAll? filling []
      return put key (.tables (elements ++ [filled])) entries)
    path .header entries

end Entries

end ClusterSnapshot.Toml
