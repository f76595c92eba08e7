import ClusterSnapshot.Json.Record

/-!
# Kinds of objects

A cluster holds objects of seven kinds. Objects of two of them live in a namespace, those of the
others belong to the cluster as a whole. `ByKind F` is a value of `F k` for every kind `k`.
-/

namespace ClusterSnapshot

/-- The kinds of objects a cluster holds. -/
inductive Kind where
  | pod
  | node
  | volume
  | claim
  | storageClass
  | priorityClass
  | ns
  deriving DecidableEq, Repr

namespace Kind

/-- All kinds. -/
def all : List Kind := [.pod, .node, .volume, .claim, .storageClass, .priorityClass, .ns]

/-- Every kind is listed. -/
theorem mem_all (k : Kind) : k ∈ all := by cases k <;> decide

/-- The name that objects carry. -/
def name : Kind → String
  | .pod => "Pod"
  | .node => "Node"
  | .volume => "PersistentVolume"
  | .claim => "PersistentVolumeClaim"
  | .storageClass => "StorageClass"
  | .priorityClass => "PriorityClass"
  | .ns => "Namespace"

/-- The kind of a name. -/
def ofName? (name : String) : Option Kind := all.find? (·.name == name)

/-- The version of the interface that objects of a kind carry. -/
def apiVersion : Kind → String
  | .storageClass => "storage.k8s.io/v1"
  | .priorityClass => "scheduling.k8s.io/v1"
  | _ => "v1"

/-- Whether objects of a kind live in a namespace. -/
def isNamespaced : Kind → Bool
  | .pod | .claim => true
  | _ => false

/-- The name of the table that holds the objects of a kind. -/
def tableName : Kind → String
  | .pod => "pods"
  | .node => "nodes"
  | .volume => "persistent_volumes"
  | .claim => "persistent_volume_claims"
  | .storageClass => "storage_classes"
  | .priorityClass => "priority_classes"
  | .ns => "namespaces"

/-- Kinds have names of their own. -/
theorem name_injective {j k : Kind} (h : j.name = k.name) : j = k := by
  cases j <;> cases k <;> simp_all [name]

/-- A kind is found by its name. -/
theorem ofName?_name (k : Kind) : ofName? k.name = some k := by cases k <;> decide

/-- A kind is written as its name. It is read from that, or from an object whose one member has
that name and holds `null`. -/
instance : JsonForm Kind where
  toJson k := .string k.name
  ofDocument?
    | _, .string (some name) => ofName? name
    | _ + 1, .object [(some name, .null)] => ofName? name
    | _, _ => none

end Kind

/-- The namespace that a question about an object of a kind is about: none unless objects of the
kind live in one. -/
def Kind.scope (k : Kind) (ns? : Option String) : Option String :=
  if k.isNamespaced then ns? else none

/-! ### One value for every kind -/

/-- A value of `F k` for every kind `k`. -/
structure ByKind (F : Kind → Type) where
  pod : F .pod
  node : F .node
  volume : F .volume
  claim : F .claim
  storageClass : F .storageClass
  priorityClass : F .priorityClass
  ns : F .ns

namespace ByKind

variable {F : Kind → Type}

/-- The values given by a function. -/
def ofFn (f : ∀ k, F k) : ByKind F := ⟨f _, f _, f _, f _, f _, f _, f _⟩

/-- The value of a kind. -/
def get (t : ByKind F) : ∀ k, F k
  | .pod => t.pod
  | .node => t.node
  | .volume => t.volume
  | .claim => t.claim
  | .storageClass => t.storageClass
  | .priorityClass => t.priorityClass
  | .ns => t.ns

/-- The values with that of one kind replaced. -/
def set (t : ByKind F) : ∀ k, F k → ByKind F
  | .pod, x => { t with pod := x }
  | .node, x => { t with node := x }
  | .volume, x => { t with volume := x }
  | .claim, x => { t with claim := x }
  | .storageClass, x => { t with storageClass := x }
  | .priorityClass, x => { t with priorityClass := x }
  | .ns, x => { t with ns := x }

/-- What is given for every kind is what each kind has. -/
@[simp] theorem get_ofFn (f : ∀ k, F k) (k : Kind) : (ofFn f).get k = f k := by cases k <;> rfl

/-- A kind has what was set for it. -/
@[simp] theorem get_set_self (t : ByKind F) (k : Kind) (x : F k) : (t.set k x).get k = x := by
  cases k <;> rfl

/-- Other kinds keep what they had. -/
theorem get_set_of_ne (t : ByKind F) {j k : Kind} (x : F k) (h : k ≠ j) :
    (t.set k x).get j = t.get j := by
  cases k <;> cases j <;> simp_all [get, set]

/-- What is the same for every kind is the same. -/
theorem ext_get {s t : ByKind F} (h : ∀ k, s.get k = t.get k) : s = t := by
  obtain ⟨⟩ := s
  obtain ⟨⟩ := t
  have h₁ := h .pod
  have h₂ := h .node
  have h₃ := h .volume
  have h₄ := h .claim
  have h₅ := h .storageClass
  have h₆ := h .priorityClass
  have h₇ := h .ns
  simp_all [get]

end ByKind

end ClusterSnapshot
