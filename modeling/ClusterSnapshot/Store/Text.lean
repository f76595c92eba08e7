import ClusterSnapshot.Store.Basic

/-!
# Stores as files

A store is kept as a text: a first line that says what it is, then its tables as JSON. An empty text
is a store without anything in it; every other text is no store.
-/

namespace ClusterSnapshot

namespace Store

/-- The line that every store begins with. -/
def heading : List Char := "cluster store\n".toList

open Members Member in
/-- The members of a store. -/
def form : RecordForm Store :=
  .closed
    (build (fun pods nodes volumes claims storageClasses priorityClasses namespaces scheduler?
        (revision : UInt64) =>
        Store.mk ⟨pods, nodes, volumes, claims, storageClasses, priorityClasses, namespaces⟩
          scheduler? revision.toNat)
      |>.and (required "pods") (·.tables.pod)
      |>.and (required "nodes") (·.tables.node)
      |>.and (required "persistent_volumes") (·.tables.volume)
      |>.and (required "persistent_volume_claims") (·.tables.claim)
      |>.and (required "storage_classes") (·.tables.storageClass)
      |>.and (required "priority_classes") (·.tables.priorityClass)
      |>.and (required "namespaces") (·.tables.ns)
      |>.and (optional "scheduler") (·.scheduler?)
      |>.and (required "revision") (fun s => UInt64.ofNat s.revision))

instance : JsonForm Store := form.jsonForm

/-- The text that a store is kept as. -/
def text (s : Store) : String := String.ofList heading ++ JsonForm.text s

/-- The store that a text keeps. -/
def ofText? (text : String) : Option Store :=
  match text.toList with
  | [] => some empty
  | cs =>
    if heading.isPrefixOf cs then
      JsonForm.ofText? (String.ofList (cs.drop heading.length))
    else none

end Store

end ClusterSnapshot
