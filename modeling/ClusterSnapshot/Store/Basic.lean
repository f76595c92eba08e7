import ClusterSnapshot.Object.Basic
import ClusterSnapshot.Scheduler.Configuration
import ClusterSnapshot.Store.Error

/-!
# Stores

A store keeps the objects of a cluster as texts, in a table for every kind, under keys made of
namespace and name. It also keeps the scheduler's configuration and counts the writes.

`Cluster.put` creates or updates an object. A new object gets a fresh identity, an existing one
keeps its identity and its time of creation; everything else is replaced. Every write has a
version of its own.
-/

namespace ClusterSnapshot

open Scheduler (Configuration)

/-- The key of an object in its table. -/
def objectKey (ns? : Option String) (name : String) : String :=
  match ns? with
  | some ns => ns ++ "/" ++ name
  | none => name

/-- What is kept of a cluster. -/
structure Store where
  /-- For every kind, the texts of its objects by key. -/
  tables : ByKind fun _ => KeyMap String
  /-- The text of the scheduler's configuration, if one was ever set. -/
  scheduler? : Option String
  /-- The number of writes of objects. -/
  revision : Nat

/-- Where identities come from: the `n`-th one, and how many are taken. -/
structure UidSource where
  uid : Nat → String
  spent : Nat

/-- A store with the source of the identities that it assigns. -/
structure Cluster where
  store : Store
  uids : UidSource

namespace Store

/-- The store without objects and configuration. -/
def empty : Store := ⟨.ofFn fun _ => ∅, none, 0⟩

instance : Inhabited Store := ⟨empty⟩

/-- The failure to read a text that is no object. -/
def undecodable : StoreError := .deserialize "the text is not of the expected form"

/-- The value that a text of the store denotes. -/
def decode {α : Type} [JsonForm α] (text : String) : Except StoreError α :=
  match JsonForm.ofText? text with
  | some x => .ok x
  | none => .error undecodable

variable (s : Store)

/-- The object of a kind with a name, in a namespace if the kind has them. -/
def get (k : Kind) (name : String) (ns? : Option String) :
    Except StoreError (Option (Stored k)) :=
  match (s.tables.get k).find? (objectKey (k.scope ns?) name) with
  | some text => some <$> decode text
  | none => .ok none

/-- Whether a key belongs to a namespace. -/
def keyInNamespace (ns : String) (key : String) : Bool :=
  (ns ++ "/").toList.isPrefixOf key.toList

/-- The objects of a kind by increasing key: all of them, or those of a namespace. -/
def list (k : Kind) (ns? : Option String) : Except StoreError (List (Stored k)) :=
  let entries : List (String × String) := match k.scope ns? with
    | some ns => (s.tables.get k).entries.filter fun e => keyInNamespace ns e.1
    | none => (s.tables.get k).entries
  entries.mapM fun e => decode e.2

/-- Removes an object; whether it was there. -/
def remove (k : Kind) (name : String) (ns? : Option String) : Bool × Store :=
  let key := objectKey (k.scope ns?) name
  let table := s.tables.get k
  (table.contains key, { s with tables := s.tables.set k (table.erase key) })

/-- The scheduler's configuration, the default one if none was ever set. -/
def activeConfig : Except StoreError Configuration :=
  match s.scheduler? with
  | some text => decode text
  | none => .ok .default

/-- Sets the scheduler's configuration. -/
def setActiveConfig (config : Configuration) : Store :=
  { s with scheduler? := some (JsonForm.text config) }

end Store

/-! ### Writing an object -/

/-- The namespace that an object of a kind is kept in: the default one if it names none, and none
at all if the kind has no namespaces. -/
def Kind.home (k : Kind) (ns? : Option String) : Option String :=
  if k.isNamespaced then
    match ns? with
    | none | some "" => some Reserved.defaultNamespace
    | some name => some name
  else none

namespace Desired

variable {k : Kind}

/-- The key under which the object is kept. -/
def storeKey (d : Desired k) : String := objectKey (k.home d.metadata.ns?) d.metadata.name

/-- Why an object cannot be written, if so: it has no name, or it comes with an identity. -/
def refusal? (d : Desired k) : Option StoreError :=
  if d.metadata.name = "" then some (.invalid (k.name ++ ": metadata.name is required"))
  else if d.metadata.uid?.isSome then some (.uidConflict (k.name ++ " " ++ Desired.storeKey d))
  else none

/-- The object as it is stored, with what the store assigns. -/
def stored (d : Desired k) (uid? : Option String) (revision : Nat)
    (creationTimestamp? : Option String) : Stored k :=
  (Object.stampType d).mapMetadata fun m =>
    let m := m.stripServerPopulated
    ⟨m.name, k.home m.ns?, uid?, some (toString revision), creationTimestamp?,
      m.labels, m.annotations, m.extra⟩

end Desired

namespace UidSource

/-- A fresh identity. -/
def next (u : UidSource) : String × UidSource := (u.uid u.spent, { u with spent := u.spent + 1 })

end UidSource

namespace Cluster

/-- Creates or updates an object. -/
def put {k : Kind} (c : Cluster) (d : Desired k) : Except StoreError (Stored k × Cluster) := do
  if let some e := Desired.refusal? d then throw e
  let key := Desired.storeKey d
  let table := c.store.tables.get k
  let revision := c.store.revision + 1
  let (o, uids) ← match table.find? key with
    | some text => do
      let current : Stored k ← Store.decode text
      let m := current.metadata
      pure (Desired.stored d m.uid? revision m.creationTimestamp?, c.uids)
    | none =>
      let (uid, uids) := c.uids.next
      pure (Desired.stored d (some uid) revision none, uids)
  let tables := c.store.tables.set k (table.insert key (JsonForm.text o))
  return (o, ⟨{ c.store with tables, revision }, uids⟩)

end Cluster

end ClusterSnapshot
