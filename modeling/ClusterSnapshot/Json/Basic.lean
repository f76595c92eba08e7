import ClusterSnapshot.KeyMap
import ClusterSnapshot.Number.Literal

/-!
# JSON values

`Json` is a value that is ready to be written: the members of an object stand in the order in
which they are written. A *free* value, one that the library carries without knowing its shape,
has the members of every object in increasing order of their keys.
-/

namespace ClusterSnapshot

/-- A JSON value. -/
inductive Json where
  | null
  | bool (value : Bool)
  | number (value : Number)
  | string (value : String)
  | array (items : List Json)
  | object (members : List (String × Json))
  deriving Repr, Inhabited

namespace Json

/-- The whole number `i`. -/
def whole (i : Int) : Json := .number (.whole i)

/-- A list, its items written in order. -/
def list {α : Type} (write : α → Json) (xs : List α) : Json := .array (xs.map write)

/-- A map, its members written by increasing key. -/
def map {α : Type} (write : α → Json) (m : KeyMap α) : Json :=
  .object (m.entries.map fun e => (e.1, write e.2))

/-! ### Members of a record -/

/-- A member that is written unless `omitted`. -/
def memberUnless (omitted : Bool) (name : String) (value : Json) : List (String × Json) :=
  if omitted then [] else [(name, value)]

/-- The member of an object with a given key; of repeated keys, the first. -/
def member? (name : String) : Json → Option Json
  | .object members => KeyMap.valueAt? name members
  | _ => none

end Json

end ClusterSnapshot
