import ClusterSnapshot.Json.Document
import ClusterSnapshot.Json.Reader
import ClusterSnapshot.Json.Writer

/-!
# Records as JSON

A `JsonForm` says how the values of a type are written and how they are read. For a record both
come from one description, a `RecordForm`: the members in the order in which they are written,
each with the field that it shows. A record is either closed or has a rest, a map of all members
without a field of their own.

## How a record is read

* A member with a name of the record may occur once only; of repeated other members the last one
  counts.
* A closed record ignores members without a field. It may also be written as an array, its members
  in order; members at the end may then be missing.
* A record with a rest is read from an object only.

Every record, list and map takes one level of the room for nesting.
-/

namespace ClusterSnapshot

/-- How the values of a type are written as JSON and read from it. -/
class JsonForm (α : Type) where
  toJson : α → Json
  /-- The value that a document denotes, in which at most so many brackets are open inside each
  other. -/
  ofDocument? : Nat → Document → Option α

namespace JsonForm

variable {α : Type} [JsonForm α]

/-- The compact text of a value. -/
def text (x : α) : String := (toJson x).compact

/-- The value that a text denotes. -/
def ofText? (text : String) : Option α := (Document.ofText? text).bind (ofDocument? nestingLimit)

/-- The value that a JSON value denotes. -/
def ofJson? (v : Json) : Option α := ofDocument? nestingLimit v.document

/-! ### Plain values -/

instance : JsonForm Json where
  toJson := id
  ofDocument? room d := d.value? room

instance : JsonForm String where
  toJson := .string
  ofDocument?
    | _, .string s? => s?
    | _, _ => none

instance : JsonForm Bool where
  toJson := .bool
  ofDocument?
    | _, .bool b => some b
    | _, _ => none

/-- The whole number of a document, if it lies between two bounds. -/
def wholeBetween? (lo hi : Int) : Document → Option Int
  | .number (some (.whole i)) => if lo ≤ i ∧ i ≤ hi then some i else none
  | _ => none

instance : JsonForm Int32 where
  toJson i := .whole i.toInt
  ofDocument? _ d := (wholeBetween? (-0x80000000) 0x7FFFFFFF d).map Int32.ofInt

instance : JsonForm Int64 where
  toJson i := .whole i.toInt
  ofDocument? _ d :=
    (wholeBetween? (-0x8000000000000000) 0x7FFFFFFFFFFFFFFF d).map Int64.ofInt

instance : JsonForm UInt64 where
  toJson n := .whole n.toNat
  ofDocument? _ d := (wholeBetween? 0 0xFFFFFFFFFFFFFFFF d).map fun i => UInt64.ofNat i.toNat

/-! ### Options, lists and maps -/

instance : JsonForm (Option α) where
  toJson
    | some x => toJson x
    | none => .null
  ofDocument?
    | _, .null => some none
    | room, d => (ofDocument? room d).map some

instance : JsonForm (List α) where
  toJson xs := .list toJson xs
  ofDocument?
    | room + 1, .array items => items.mapM (ofDocument? room)
    | _, _ => none

end JsonForm

namespace Document

/-- The members of an object, if each of their keys is a text. -/
def keyed? (members : List (Option String × Document)) : Option (List (String × Document)) :=
  members.mapM fun (k?, d) => k?.map (·, d)

end Document

instance {α : Type} [JsonForm α] : JsonForm (KeyMap α) where
  toJson m := .map JsonForm.toJson m
  ofDocument?
    | room + 1, .object members => do
      let named ← Document.keyed? members
      let entries ← named.mapM fun (k, d) => (JsonForm.ofDocument? room d).map (k, ·)
      return .ofEntries entries
    | _, _ => none

/-! ### Members -/

/-- One member of a record: when it is written, and what it is read as. -/
structure Member (α : Type) where
  name : String
  /-- What is written, if anything. -/
  write : α → Option Json
  /-- What an absent or a present member is read as. -/
  read? : Nat → Option Document → Option α

namespace Member

variable {α : Type} [JsonForm α]

/-- A member that must be there. -/
def required (name : String) : Member α where
  name
  write x := some (JsonForm.toJson x)
  read? room d? := d?.bind (JsonForm.ofDocument? room)

/-- A member that may be absent, and is always written. -/
def defaulted (name : String) (default : α) : Member α where
  name
  write x := some (JsonForm.toJson x)
  read? room
    | none => some default
    | some d => JsonForm.ofDocument? room d

/-- A member that is absent when it is empty. -/
def unlessEmpty (name : String) (empty : α) (isEmpty : α → Bool) : Member α where
  name
  write x := if isEmpty x then none else some (JsonForm.toJson x)
  read? room
    | none => some empty
    | some d => JsonForm.ofDocument? room d

/-- A member that is absent when there is no value; `null` also says that. -/
def optional (name : String) : Member (Option α) where
  name
  write x? := x?.map JsonForm.toJson
  read? room
    | none => some none
    | some d => JsonForm.ofDocument? room d

/-- A map of texts that is absent when it is empty. -/
def texts (name : String) : Member (KeyMap String) := unlessEmpty name ∅ KeyMap.isEmpty

end Member

/-- Members that show the fields of `ρ`, and together are read as a `β`. -/
structure Members (ρ β : Type) where
  names : List String
  write : ρ → List (String × Json)
  read? : Nat → (String → Option Document) → Option β

namespace Members

variable {ρ σ α β γ : Type}

/-- No members: `x` without reading anything. -/
def build (x : β) : Members ρ β where
  names := []
  write _ := []
  read? _ _ := some x

/-- One more member, which shows a field. -/
def and (ms : Members ρ (α → β)) (m : Member α) (field : ρ → α) : Members ρ β where
  names := ms.names ++ [m.name]
  write r := ms.write r ++ ((m.write (field r)).map (m.name, ·)).toList
  read? room find := do
    let f ← ms.read? room find
    let x ← m.read? room (find m.name)
    return f x

/-- The members of a part follow. -/
def andPart (ms : Members ρ (α → β)) (part : Members σ (γ → α)) (field : ρ → σ) :
    Members ρ (γ → β) where
  names := ms.names ++ part.names
  write r := ms.write r ++ part.write (field r)
  read? room find := do
    let f ← ms.read? room find
    let g ← part.read? room find
    return fun x => f (g x)

/-- The members, read through a function. -/
def through (f : α → β) (ms : Members ρ α) : Members ρ β where
  names := ms.names
  write := ms.write
  read? room find := (ms.read? room find).map f

end Members

/-! ### Records -/

/-- How a record is written and read. -/
structure RecordForm (ρ : Type) where
  /-- The members with a field of their own; with the rest, they give the record. -/
  members : Members ρ (KeyMap Json → ρ)
  /-- All other members, unless the record is closed. -/
  rest? : Option (ρ → KeyMap Json)

namespace RecordForm

variable {ρ : Type}

/-- A record without a rest. -/
def closed (members : Members ρ ρ) : RecordForm ρ := ⟨members.through fun r _ => r, none⟩

/-- A record with a rest. -/
def withRest (members : Members ρ (KeyMap Json → ρ)) (rest : ρ → KeyMap Json) : RecordForm ρ :=
  ⟨members, some rest⟩

/-- A record as JSON: its members, then the rest by increasing key. -/
def toJson (form : RecordForm ρ) (r : ρ) : Json :=
  .object (form.members.write r ++
    match form.rest? with
    | some rest => (rest r).entries
    | none => [])

/-- The named members of a document that is to be read as a record. -/
def named? (form : RecordForm ρ) : Document → Option (List (String × Document))
  | .object members => do
    let named ← Document.keyed? members
    let own := (named.map (·.1)).filter (form.members.names.contains ·)
    if own.Nodup then some named else none
  | .array items =>
    if form.rest?.isSome ∨ form.members.names.length < items.length then none
    else some (form.members.names.zip items)
  | _ => none

/-- The members without a field of their own, as a map of free values. -/
def restOf? (form : RecordForm ρ) (room : Nat) (named : List (String × Document)) :
    Option (KeyMap Json) :=
  match form.rest? with
  | none => some ∅
  | some _ => do
    let others := named.filter (fun e => !form.members.names.contains e.1)
    let entries ← others.mapM fun (k, d) => (d.value? room).map (k, ·)
    return .ofEntries entries

/-- The record that a document denotes. -/
def ofDocument? (form : RecordForm ρ) : Nat → Document → Option ρ
  | 0, _ => none
  | room + 1, d => do
    let named ← form.named? d
    let f ← form.members.read? room fun name => KeyMap.valueAt? name named
    let rest ← form.restOf? room named
    return f rest

/-- The `JsonForm` of a record. -/
@[reducible] def jsonForm (form : RecordForm ρ) : JsonForm ρ := ⟨form.toJson, form.ofDocument?⟩

end RecordForm

end ClusterSnapshot
