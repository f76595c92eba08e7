import ClusterSnapshot.Json.Basic

/-!
# JSON documents

A `Document` is what a JSON text says before anyone has asked what it means. It keeps the members
of an object as they are written, repeated keys included, and it keeps two kinds of scalars that
are well written but denote nothing: a text with an unpaired surrogate and a number beyond every
binary64 value. A part of a document that nobody reads may hold such scalars, and may be nested
to any depth.

`Document.value?` is the free value that a document denotes. Reading a value allows only so many
brackets inside each other; of members with the same key the last one counts.
-/

namespace ClusterSnapshot

/-- A JSON text as written. -/
inductive Document where
  | null
  | bool (value : Bool)
  /-- A number; `none` if it is beyond every number that can be read. -/
  | number (value? : Option Number)
  /-- A text; `none` if it holds an unpaired surrogate. -/
  | string (value? : Option String)
  | array (items : List Document)
  | object (members : List (Option String × Document))
  deriving Repr, Inhabited

/-- How many brackets may be open inside each other while a value is read. -/
def nestingLimit : Nat := 127

namespace Document

mutual

/-- The free value that a document denotes, in which at most `room` brackets are open inside each
other. -/
def value? (room : Nat) : Document → Option Json
  | .null => some .null
  | .bool b => some (.bool b)
  | .number n? => n?.map .number
  | .string s? => s?.map .string
  | .array items =>
    match room with
    | 0 => none
    | room + 1 => (values? room items).map .array
  | .object members =>
    match room with
    | 0 => none
    | room + 1 => (members? room members).map fun l => .object (KeyMap.ofEntries l).entries

/-- The free values of a list of documents. -/
def values? (room : Nat) : List Document → Option (List Json)
  | [] => some []
  | d :: rest => do
    let v ← value? room d
    let vs ← values? room rest
    return v :: vs

/-- The keys and free values of a list of members. -/
def members? (room : Nat) : List (Option String × Document) → Option (List (String × Json))
  | [] => some []
  | (k?, d) :: rest => do
    let k ← k?
    let v ← value? room d
    let vs ← members? room rest
    return (k, v) :: vs

end

end Document

namespace Json

mutual

/-- The document that says a value as it stands. -/
def document : Json → Document
  | .null => .null
  | .bool b => .bool b
  | .number n => .number (some n)
  | .string s => .string (some s)
  | .array items => .array (documents items)
  | .object members => .object (memberDocuments members)

/-- The documents of a list of values. -/
def documents : List Json → List Document
  | [] => []
  | v :: rest => document v :: documents rest

/-- The documents of a list of members. -/
def memberDocuments : List (String × Json) → List (Option String × Document)
  | [] => []
  | (k, v) :: rest => (some k, document v) :: memberDocuments rest

end

end Json

end ClusterSnapshot
