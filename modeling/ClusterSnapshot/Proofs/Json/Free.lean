import ClusterSnapshot.Proofs.Json.Scanning
import ClusterSnapshot.Proofs.KeyMap
import ClusterSnapshot.Proofs.Number.Reading

/-!
# Free values

A free value is what a document denotes: the members of each of its objects stand in increasing
order of their keys, and its brackets are nested only so deep. Such a value survives being written
and read, up to its numbers, each of which becomes the one that its text denotes.

## Main results

* `Json.fits_of_value?`, `Json.Fits.value?_document`: a document denotes a free value, and a free
  value is denoted by its own document.
* `Document.allNumbers_of_ofText?`: all numbers of a text that was read are in range.
* `Json.scanned_eq`: **a value with numbers in range is found as its reread value**.
* `Json.reread_eq_iff`: **which values are their own reread values**.
-/

namespace ClusterSnapshot

/-! ### The numbers of a document -/

namespace Document

variable (P : Number → Prop)

mutual

/-- Every number of a document has a property. -/
def AllNumbers : Document → Prop
  | .number (some n) => P n
  | .array items => ItemNumbers items
  | .object members => MemberNumbers members
  | _ => True

/-- Every number of a list of items has a property. -/
def ItemNumbers : List Document → Prop
  | [] => True
  | d :: rest => AllNumbers d ∧ ItemNumbers rest

/-- Every number of a list of members has a property. -/
def MemberNumbers : List (Option String × Document) → Prop
  | [] => True
  | (_, d) :: rest => AllNumbers d ∧ MemberNumbers rest

end

variable {P}

section

variable [DecidablePred P]

mutual

/-- Whether every number of a document has a property. -/
def decideNumbers : (d : Document) → Decidable (d.AllNumbers P)
  | .number (some n) => inferInstanceAs (Decidable (P n))
  | .number none | .null | .bool _ | .string _ => .isTrue trivial
  | .array items => decideItemNumbers items
  | .object members => decideMemberNumbers members

/-- Whether every number of a list of items has a property. -/
def decideItemNumbers : (items : List Document) → Decidable (ItemNumbers P items)
  | [] => .isTrue trivial
  | d :: rest => @instDecidableAnd _ _ (decideNumbers d) (decideItemNumbers rest)

/-- Whether every number of a list of members has a property. -/
def decideMemberNumbers :
    (members : List (Option String × Document)) → Decidable (MemberNumbers P members)
  | [] => .isTrue trivial
  | (_, d) :: rest => @instDecidableAnd _ _ (decideNumbers d) (decideMemberNumbers rest)

end

instance : DecidablePred (AllNumbers P) := decideNumbers

end

/-- The numbers of a list of items are those of each. -/
theorem itemNumbers_iff {items : List Document} :
    ItemNumbers P items ↔ ∀ d ∈ items, d.AllNumbers P := by
  induction items with
  | nil => simp [ItemNumbers]
  | cons d rest ih => simp [ItemNumbers, ih]

/-- The numbers of a list of members are those of each. -/
theorem memberNumbers_iff {members : List (Option String × Document)} :
    MemberNumbers P members ↔ ∀ e ∈ members, e.2.AllNumbers P := by
  induction members with
  | nil => simp [MemberNumbers]
  | cons e rest ih => simp [MemberNumbers, ih]

/-- The numbers of an array are those of its items. -/
theorem allNumbers_array {items : List Document} :
    AllNumbers P (.array items) ↔ ∀ d ∈ items, d.AllNumbers P := by
  rw [AllNumbers, itemNumbers_iff]

/-- The numbers of an object are those of its members. -/
theorem allNumbers_object {members : List (Option String × Document)} :
    AllNumbers P (.object members) ↔ ∀ e ∈ members, e.2.AllNumbers P := by
  rw [AllNumbers, memberNumbers_iff]

mutual

/-- A weaker property holds of the same numbers. -/
theorem AllNumbers.mono {Q : Number → Prop} (hPQ : ∀ n, P n → Q n) {d : Document}
    (h : d.AllNumbers P) : d.AllNumbers Q := by
  match d with
  | .null => trivial
  | .bool b => trivial
  | .number (some n) => exact hPQ n h
  | .number none => trivial
  | .string s? => trivial
  | .array items => exact ItemNumbers.mono hPQ h
  | .object members => exact MemberNumbers.mono hPQ h

/-- Numbers of items with a property have every weaker one. -/
theorem ItemNumbers.mono {Q : Number → Prop} (hPQ : ∀ n, P n → Q n) {items : List Document}
    (h : ItemNumbers P items) : ItemNumbers Q items := by
  match items with
  | [] => trivial
  | d :: rest => exact ⟨AllNumbers.mono hPQ h.1, ItemNumbers.mono hPQ h.2⟩

/-- Numbers of members with a property have every weaker one. -/
theorem MemberNumbers.mono {Q : Number → Prop} (hPQ : ∀ n, P n → Q n)
    {members : List (Option String × Document)} (h : MemberNumbers P members) :
    MemberNumbers Q members := by
  match members with
  | [] => trivial
  | (k?, d) :: rest => exact ⟨AllNumbers.mono hPQ h.1, MemberNumbers.mono hPQ h.2⟩

end

end Document

namespace JsonText

open Document

mutual

/-- Every number that is scanned is in range. -/
theorem inRange_scanValue {fuel : Nat} {cs rest : List Char} {d : Document}
    (h : scanValue fuel cs = some (d, rest)) : d.AllNumbers Number.InRange := by
  match fuel with
  | 0 => simp [scanValue] at h
  | fuel + 1 =>
      rw [scanValue] at h
      split at h
      · cases h; trivial
      · cases h; trivial
      · cases h; trivial
      · obtain ⟨⟨s?, cs'⟩, -, h⟩ := Option.map_eq_some_iff.mp h
        cases h; trivial
      · split at h
        · cases h; trivial
        · obtain ⟨⟨items, cs'⟩, hitems, h⟩ := Option.map_eq_some_iff.mp h
          cases h
          exact allNumbers_array.mpr (inRange_scanItems (by simp) hitems)
      · split at h
        · cases h; trivial
        · obtain ⟨⟨members, cs'⟩, hmembers, h⟩ := Option.map_eq_some_iff.mp h
          cases h
          exact allNumbers_object.mpr (inRange_scanMembers (by simp) hmembers)
      · obtain ⟨⟨l, cs'⟩, -, h⟩ := Option.map_eq_some_iff.mp h
        cases h
        cases hn : l.number? with
        | none => trivial
        | some n => exact NumberLiteral.inRange_of_number? hn
termination_by fuel

/-- All numbers of the items of a text are in range. -/
theorem inRange_scanItems {fuel : Nat} {cs rest : List Char} {seen items : List Document}
    (hseen : ∀ d ∈ seen, d.AllNumbers Number.InRange)
    (h : scanItems fuel seen cs = some (items, rest)) :
    ∀ d ∈ items, d.AllNumbers Number.InRange := by
  match fuel with
  | 0 => simp [scanItems] at h
  | fuel + 1 =>
      rw [scanItems] at h
      split at h
      · cases h
      · rename_i d cs' hvalue
        have hall : ∀ x ∈ d :: seen, x.AllNumbers Number.InRange :=
          List.forall_mem_cons.mpr ⟨inRange_scanValue hvalue, hseen⟩
        split at h
        · exact inRange_scanItems hall h
        · cases h
          intro x hx
          exact hall x (List.mem_reverse.mp hx)
        · cases h
termination_by fuel

/-- All numbers of the members of a text are in range. -/
theorem inRange_scanMembers {fuel : Nat} {cs rest : List Char}
    {seen members : List (Option String × Document)}
    (hseen : ∀ e ∈ seen, e.2.AllNumbers Number.InRange)
    (h : scanMembers fuel seen cs = some (members, rest)) :
    ∀ e ∈ members, e.2.AllNumbers Number.InRange := by
  match fuel with
  | 0 => simp [scanMembers] at h
  | fuel + 1 =>
      rw [scanMembers] at h
      split at h
      · split at h
        · cases h
        · split at h
          · split at h
            · cases h
            · rename_i hvalue
              have hd := inRange_scanValue hvalue
              split at h
              · exact inRange_scanMembers (List.forall_mem_cons.mpr ⟨hd, hseen⟩) h
              · cases h
                intro e he
                rcases List.mem_cons.mp (List.mem_reverse.mp he) with rfl | he
                · exact hd
                · exact hseen e he
              · cases h
          · cases h
      · cases h
termination_by fuel

end

end JsonText

/-- **All numbers of a text that was read are in range.** -/
theorem Document.allNumbers_of_ofText? {text : String} {d : Document}
    (h : ofText? text = some d) : d.AllNumbers Number.InRange := by
  rw [ofText?, ofChars?] at h
  split at h
  · rename_i d' rest hscan
    split at h
    · obtain rfl := Option.some.inj h
      exact JsonText.inRange_scanValue hscan
    · cases h
  · cases h

namespace Json

/-- The documents of values are those of each. -/
theorem documents_eq (items : List Json) : documents items = items.map document := by
  induction items with
  | nil => rfl
  | cons v rest ih => rw [documents, ih, List.map_cons]

/-- The documents of members are those of each, all with a name. -/
theorem memberDocuments_eq (members : List (String × Json)) :
    memberDocuments members = members.map fun e => (some e.1, e.2.document) := by
  induction members with
  | nil => rfl
  | cons e rest ih => rw [memberDocuments, ih, List.map_cons]

/-! ### Free values -/

mutual

/-- The members of every object are listed by increasing key, and at most `room` brackets are open
inside each other. -/
def Fits (room : Nat) : Json → Prop
  | .array items =>
    match room with
    | 0 => False
    | room + 1 => ItemsFit room items
  | .object members =>
    match room with
    | 0 => False
    | room + 1 => members.Pairwise (fun a b => a.1 < b.1) ∧ MembersFit room members
  | _ => True

/-- All items of a list are free values. -/
def ItemsFit (room : Nat) : List Json → Prop
  | [] => True
  | v :: rest => Fits room v ∧ ItemsFit room rest

/-- The values of all members of a list are free values. -/
def MembersFit (room : Nat) : List (String × Json) → Prop
  | [] => True
  | (_, v) :: rest => Fits room v ∧ MembersFit room rest

end

/-- A list of items fits if each of them does. -/
theorem itemsFit_iff {room : Nat} {items : List Json} :
    ItemsFit room items ↔ ∀ v ∈ items, v.Fits room := by
  induction items with
  | nil => simp [ItemsFit]
  | cons v rest ih => simp [ItemsFit, ih]

/-- A list of members fits if each of them does. -/
theorem membersFit_iff {room : Nat} {members : List (String × Json)} :
    MembersFit room members ↔ ∀ e ∈ members, e.2.Fits room := by
  induction members with
  | nil => simp [MembersFit]
  | cons e rest ih => simp [MembersFit, ih]

end Json

namespace Document

/-- Every value of a list is denoted by one of the items. -/
theorem values?_eq_some {room : Nat} {items : List Document} {vs : List Json}
    (h : values? room items = some vs) : ∀ v ∈ vs, ∃ d ∈ items, d.value? room = some v := by
  induction items generalizing vs with
  | nil =>
      obtain rfl := Option.some.inj h
      simp
  | cons d rest ih =>
      simp only [values?, Option.bind_eq_bind, Option.bind_eq_some_iff] at h
      obtain ⟨v, hv, ws, hws, h⟩ := h
      obtain rfl := Option.some.inj h
      intro w hw
      rcases List.mem_cons.mp hw with rfl | hw
      · exact ⟨d, by simp, hv⟩
      · obtain ⟨e, he, hew⟩ := ih hws w hw
        exact ⟨e, List.mem_cons_of_mem d he, hew⟩

/-- Every member of a list is denoted by one with its name. -/
theorem members?_eq_some {room : Nat} {members : List (Option String × Document)}
    {l : List (String × Json)} (h : members? room members = some l) :
    ∀ e ∈ l, ∃ m ∈ members, m.1 = some e.1 ∧ m.2.value? room = some e.2 := by
  induction members generalizing l with
  | nil =>
      obtain rfl := Option.some.inj h
      simp
  | cons m rest ih =>
      obtain ⟨k?, d⟩ := m
      simp only [members?, Option.bind_eq_bind, Option.bind_eq_some_iff] at h
      obtain ⟨k, rfl, v, hv, l', hl', h⟩ := h
      obtain rfl := Option.some.inj h
      intro e he
      rcases List.mem_cons.mp he with rfl | he
      · exact ⟨(some k, d), by simp, rfl, hv⟩
      · obtain ⟨m', hm', hm⟩ := ih hl' e he
        exact ⟨m', List.mem_cons_of_mem _ hm', hm⟩

end Document

namespace Document

/-- Values that are denoted by their own documents are so as a list. -/
theorem values?_documents {room : Nat} {vs : List Json}
    (h : ∀ v ∈ vs, v.document.value? room = some v) :
    values? room (Json.documents vs) = some vs := by
  induction vs with
  | nil => rfl
  | cons v rest ih =>
      obtain ⟨hv, hrest⟩ := List.forall_mem_cons.mp h
      simp [Json.documents, values?, hv, ih hrest]

/-- Members that are denoted by their own documents are so as a list. -/
theorem members?_memberDocuments {room : Nat} {l : List (String × Json)}
    (h : ∀ e ∈ l, e.2.document.value? room = some e.2) :
    members? room (Json.memberDocuments l) = some l := by
  induction l with
  | nil => rfl
  | cons e rest ih =>
      obtain ⟨he, hrest⟩ := List.forall_mem_cons.mp h
      simp [Json.memberDocuments, members?, he, ih hrest]

end Document

namespace Json

/-- **A document denotes a free value.** -/
theorem fits_of_value? {room : Nat} {d : Document} {v : Json} (h : d.value? room = some v) :
    v.Fits room := by
  induction room generalizing d v with
  | zero =>
      cases d with
      | array items => simp [Document.value?] at h
      | object members => simp [Document.value?] at h
      | number n? =>
          obtain ⟨n, -, rfl⟩ := Option.map_eq_some_iff.mp h
          trivial
      | string s? =>
          obtain ⟨s, -, rfl⟩ := Option.map_eq_some_iff.mp h
          trivial
      | _ => cases h; trivial
  | succ room ih =>
      cases d with
      | array items =>
          obtain ⟨vs, hvs, rfl⟩ := Option.map_eq_some_iff.mp h
          refine itemsFit_iff.mpr fun v hv => ?_
          obtain ⟨d, -, hd⟩ := Document.values?_eq_some hvs v hv
          exact ih hd
      | object members =>
          obtain ⟨l, hl, rfl⟩ := Option.map_eq_some_iff.mp h
          refine ⟨(KeyMap.ofEntries l).sorted, membersFit_iff.mpr fun e he => ?_⟩
          obtain ⟨m, -, -, hm⟩ := Document.members?_eq_some hl e (KeyMap.mem_ofEntries he)
          exact ih hm
      | number n? =>
          obtain ⟨n, -, rfl⟩ := Option.map_eq_some_iff.mp h
          trivial
      | string s? =>
          obtain ⟨s, -, rfl⟩ := Option.map_eq_some_iff.mp h
          trivial
      | _ => cases h; trivial

/-- More room does no harm. -/
theorem Fits.mono {v : Json} {room room' : Nat} (h : v.Fits room) (hle : room ≤ room') :
    v.Fits room' := by
  induction room generalizing v room' with
  | zero =>
      cases v with
      | array items => exact h.elim
      | object members => exact h.elim
      | _ => trivial
  | succ room ih =>
      obtain ⟨room', rfl⟩ : ∃ n, room' = n + 1 := ⟨room' - 1, by omega⟩
      cases v with
      | array items =>
          exact itemsFit_iff.mpr fun v hv => ih (itemsFit_iff.mp h v hv) (by omega)
      | object members =>
          exact ⟨h.1, membersFit_iff.mpr fun e he => ih (membersFit_iff.mp h.2 e he) (by omega)⟩
      | _ => trivial

/-- **A free value is denoted by its own document.** -/
theorem Fits.value?_document {v : Json} {room : Nat} (h : v.Fits room) :
    v.document.value? room = some v := by
  induction room generalizing v with
  | zero =>
      cases v with
      | array items => exact h.elim
      | object members => exact h.elim
      | _ => rfl
  | succ room ih =>
      cases v with
      | array items =>
          rw [document, Document.value?,
            Document.values?_documents fun v hv => ih (itemsFit_iff.mp h v hv), Option.map_some]
      | object members =>
          rw [document, Document.value?,
            Document.members?_memberDocuments fun e he => ih (membersFit_iff.mp h.2 e he),
            Option.map_some, KeyMap.entries_ofEntries h.1]
      | _ => rfl

/-- The numbers of the value that a document denotes are numbers of the document. -/
theorem allNumbers_of_value? {P : Number → Prop} {room : Nat} {d : Document} {v : Json}
    (h : d.value? room = some v) (hd : d.AllNumbers P) : v.document.AllNumbers P := by
  induction room generalizing d v with
  | zero =>
      cases d with
      | array items => simp [Document.value?] at h
      | object members => simp [Document.value?] at h
      | number n? =>
          obtain ⟨n, rfl, rfl⟩ := Option.map_eq_some_iff.mp h
          exact hd
      | string s? =>
          obtain ⟨s, -, rfl⟩ := Option.map_eq_some_iff.mp h
          trivial
      | _ => cases h; trivial
  | succ room ih =>
      cases d with
      | array items =>
          obtain ⟨vs, hvs, rfl⟩ := Option.map_eq_some_iff.mp h
          rw [document, documents_eq, Document.allNumbers_array, List.forall_mem_map]
          intro v hv
          obtain ⟨d, hmem, hdv⟩ := Document.values?_eq_some hvs v hv
          exact ih hdv (Document.allNumbers_array.mp hd d hmem)
      | object members =>
          obtain ⟨l, hl, rfl⟩ := Option.map_eq_some_iff.mp h
          rw [document, memberDocuments_eq, Document.allNumbers_object, List.forall_mem_map]
          intro e he
          obtain ⟨m, hmem, -, hm⟩ := Document.members?_eq_some hl e (KeyMap.mem_ofEntries he)
          exact ih hm (Document.allNumbers_object.mp hd m hmem)
      | number n? =>
          obtain ⟨n, rfl, rfl⟩ := Option.map_eq_some_iff.mp h
          exact hd
      | string s? =>
          obtain ⟨s, -, rfl⟩ := Option.map_eq_some_iff.mp h
          trivial
      | _ => cases h; trivial

/-! ### Values that are read again -/

mutual

/-- The value with each number read again. -/
def reread : Json → Json
  | .null => .null
  | .bool b => .bool b
  | .number n => .number n.reread
  | .string s => .string s
  | .array items => .array (rereadItems items)
  | .object members => .object (rereadMembers members)

/-- A list of values with each number read again. -/
def rereadItems : List Json → List Json
  | [] => []
  | v :: rest => reread v :: rereadItems rest

/-- A list of members with each number read again. -/
def rereadMembers : List (String × Json) → List (String × Json)
  | [] => []
  | (k, v) :: rest => (k, reread v) :: rereadMembers rest

end

/-- Each item is reread. -/
theorem rereadItems_eq (items : List Json) : rereadItems items = items.map reread := by
  induction items with
  | nil => rfl
  | cons v rest ih => rw [rereadItems, ih, List.map_cons]

/-- The value of each member is reread. -/
theorem rereadMembers_eq (members : List (String × Json)) :
    rereadMembers members = members.map fun e => (e.1, e.2.reread) := by
  induction members with
  | nil => rfl
  | cons e rest ih => rw [rereadMembers, ih, List.map_cons]

/-- Rereading numbers does not nest anything deeper. -/
theorem Fits.reread {v : Json} {room : Nat} (h : v.Fits room) : v.reread.Fits room := by
  induction room generalizing v with
  | zero =>
      cases v with
      | array items => exact h.elim
      | object members => exact h.elim
      | _ => trivial
  | succ room ih =>
      cases v with
      | array items =>
          rw [Json.reread, rereadItems_eq]
          refine itemsFit_iff.mpr (List.forall_mem_map.mpr fun v hv => ?_)
          exact ih (itemsFit_iff.mp h v hv)
      | object members =>
          rw [Json.reread, rereadMembers_eq]
          refine ⟨h.1.map _ fun _ _ hlt => hlt, membersFit_iff.mpr ?_⟩
          exact List.forall_mem_map.mpr fun e he => ih (membersFit_iff.mp h.2 e he)
      | _ => trivial

mutual

/-- **A value with numbers in range is found as its reread value.** -/
theorem scanned_eq {v : Json} (h : v.document.AllNumbers Number.InRange) :
    v.scanned = v.reread.document := by
  match v with
  | .null => rfl
  | .bool b => rfl
  | .number n => rw [scanned, (Number.scanned?_eq h).1, reread, document]
  | .string s => rfl
  | .array items => rw [scanned, reread, document, scannedItems_eq h]
  | .object members => rw [scanned, reread, document, scannedMembers_eq h]

/-- What the texts of items write is the documents of the reread items. -/
theorem scannedItems_eq {items : List Json}
    (h : Document.ItemNumbers Number.InRange (documents items)) :
    scannedItems items = documents (rereadItems items) := by
  match items with
  | [] => rfl
  | v :: rest => rw [scannedItems, rereadItems, documents, scanned_eq h.1, scannedItems_eq h.2]

/-- What the texts of members write is the documents of the reread members. -/
theorem scannedMembers_eq {members : List (String × Json)}
    (h : Document.MemberNumbers Number.InRange (memberDocuments members)) :
    scannedMembers members = memberDocuments (rereadMembers members) := by
  match members with
  | [] => rfl
  | (k, v) :: rest =>
      rw [scannedMembers, rereadMembers, memberDocuments, scanned_eq h.1, scannedMembers_eq h.2]

end

mutual

/-- Numbers keep their property when a value is reread. -/
theorem allNumbers_reread {P : Number → Prop} [NumberRange P] {v : Json}
    (h : v.document.AllNumbers P) :
    v.reread.document.AllNumbers P := by
  match v with
  | .null => trivial
  | .bool b => trivial
  | .number n => exact NumberRange.reread n h
  | .string s => trivial
  | .array items => exact itemNumbers_reread h
  | .object members => exact memberNumbers_reread h

/-- Numbers keep their property when items are reread. -/
theorem itemNumbers_reread {P : Number → Prop} [NumberRange P] {items : List Json}
    (h : Document.ItemNumbers P (documents items)) :
    Document.ItemNumbers P (documents (rereadItems items)) := by
  match items with
  | [] => trivial
  | v :: rest => exact ⟨allNumbers_reread h.1, itemNumbers_reread h.2⟩

/-- Numbers keep their property when members are reread. -/
theorem memberNumbers_reread {P : Number → Prop} [NumberRange P]
    {members : List (String × Json)}
    (h : Document.MemberNumbers P (memberDocuments members)) :
    Document.MemberNumbers P (memberDocuments (rereadMembers members)) := by
  match members with
  | [] => trivial
  | (k, v) :: rest => exact ⟨allNumbers_reread h.1, memberNumbers_reread h.2⟩

end

mutual

/-- **A value is its own reread value** just when each of its numbers is. -/
theorem reread_eq_iff {v : Json} : v.reread = v ↔ v.document.AllNumbers Number.Steady := by
  match v with
  | .null => exact iff_of_true rfl trivial
  | .bool b => exact iff_of_true rfl trivial
  | .number n =>
      rw [reread, Json.number.injEq]
      rfl
  | .string s => exact iff_of_true rfl trivial
  | .array items =>
      rw [reread, Json.array.injEq]
      exact rereadItems_eq_self_iff
  | .object members =>
      rw [reread, Json.object.injEq]
      exact rereadMembers_eq_self_iff

/-- A list of values stays as it is when it is reread just when each of its numbers does. -/
theorem rereadItems_eq_self_iff {items : List Json} :
    rereadItems items = items ↔ Document.ItemNumbers Number.Steady (documents items) := by
  match items with
  | [] => exact iff_of_true rfl trivial
  | v :: rest =>
      rw [rereadItems, List.cons.injEq, reread_eq_iff, rereadItems_eq_self_iff]
      rfl

/-- A list of members stays as it is when it is reread just when each of its numbers does. -/
theorem rereadMembers_eq_self_iff {members : List (String × Json)} :
    rereadMembers members = members ↔
      Document.MemberNumbers Number.Steady (memberDocuments members) := by
  match members with
  | [] => exact iff_of_true rfl trivial
  | (k, v) :: rest =>
      rw [rereadMembers, List.cons.injEq, Prod.mk.injEq, eq_self_iff_true, true_and,
        reread_eq_iff, rereadMembers_eq_self_iff]
      rfl

end

/-- A value without reals is found as it is. -/
theorem scanned_eq_document {v : Json} (h : v.document.AllNumbers Number.IsWhole64) :
    v.scanned = v.document := by
  have hrange := h.mono fun _ => Number.IsWhole64.inRange
  have hsteady := h.mono fun _ => Number.IsWhole64.steady
  rw [scanned_eq hrange, reread_eq_iff.mpr hsteady]

end Json

end ClusterSnapshot
