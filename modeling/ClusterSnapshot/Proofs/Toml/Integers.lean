import ClusterSnapshot.Toml.Reader
import Mathlib.Data.List.Infix
import Mathlib.Tactic.SplitIfs

/-!
# The integers of a document

The integers in the tables of a document are those that were scanned: to set keys and to open tables
moves values about but makes none but tables. What is scanned as an integer is of the signed 64-bit
range.

## Main results

* `Toml.Value.All`: whether every integer in a value has a property.
* `Toml.Entries.All.changeAt?` and its cases: what builds tables keeps such properties.
* `Toml.all_ofText?`: **the integers of a document are of the signed 64-bit range**.
-/

namespace ClusterSnapshot.Toml

/-- Whether every integer in a value has a property. -/
inductive Value.All (P : Int → Prop) : Value → Prop
  | text (s : String) : Value.All P (.text s)
  | integer {i : Int} : P i → Value.All P (.integer i)
  | real : Value.All P .real
  | boolean (b : Bool) : Value.All P (.boolean b)
  | date : Value.All P .date
  | array {items : List Value} : (∀ v ∈ items, Value.All P v) → Value.All P (.array items)
  | table {origin : Origin} {entries : List (String × Value)} :
    (∀ e ∈ entries, Value.All P e.2) → Value.All P (.table origin entries)
  | tables {elements : List (List (String × Value))} :
    (∀ entries ∈ elements, ∀ e ∈ entries, Value.All P e.2) → Value.All P (.tables elements)

/-- Whether every integer in a table has a property. -/
def Entries.All (P : Int → Prop) (entries : Entries) : Prop := ∀ e ∈ entries, e.2.All P

/-- Whether every integer in a list of assignments has a property. -/
def AllAssigned (P : Int → Prop) (assignments : List Entries.Assignment) : Prop :=
  ∀ a ∈ assignments, a.2.2.All P

variable {P : Int → Prop}

namespace Entries

variable {entries entries' : Entries} {v : Value}

/-! ### Building tables -/

/-- What is found in entries has the property. -/
theorem All.find? (h : entries.All P) {key : String} (hv : entries.find? key = some v) :
    v.All P := by
  induction entries with
  | nil => cases hv
  | cons e rest ih =>
      obtain ⟨he, hrest⟩ := List.forall_mem_cons.mp h
      rw [Entries.find?] at hv
      split at hv
      · cases hv
        exact he
      · exact ih hrest hv

/-- Entries keep the property when a value is put that has it. -/
theorem All.put (h : entries.All P) (key : String) (hv : v.All P) : (entries.put key v).All P := by
  induction entries with
  | nil => exact List.forall_mem_singleton.mpr hv
  | cons e rest ih =>
      obtain ⟨he, hrest⟩ := List.forall_mem_cons.mp h
      rw [Entries.put]
      split
      · exact List.forall_mem_cons.mpr ⟨hv, hrest⟩
      · exact List.forall_mem_cons.mpr ⟨he, ih hrest⟩

/-- **A change at the end of a path** keeps what it keeps in the table that is there. -/
theorem All.changeAt? {fresh : Origin} {passable : Origin → Bool}
    {change : Origin → Entries → Option Entries}
    (hchange : ∀ origin entries entries', Entries.All P entries →
      change origin entries = some entries' → Entries.All P entries')
    {path : List String} {origin : Origin} (h : entries.All P)
    (hentries : entries.changeAt? fresh passable change path origin = some entries') :
    entries'.All P := by
  induction path generalizing origin entries entries' with
  | nil => exact hchange origin entries entries' h hentries
  | cons key path ih =>
      rw [Entries.changeAt?] at hentries
      split at hentries
      · obtain ⟨inner, hinner, rfl⟩ := Option.map_eq_some_iff.mp hentries
        exact h.put key (.table (ih (fun _ he => by cases he) hinner))
      · rename_i hfind
        split at hentries
        · obtain ⟨inner, hinner, rfl⟩ := Option.map_eq_some_iff.mp hentries
          cases h.find? hfind with
          | table hthere => exact h.put key (.table (ih hthere hinner))
        · cases hentries
      · rename_i hfind
        split at hentries
        · cases hentries
        · rename_i latest hlatest
          obtain ⟨inner, hinner, rfl⟩ := Option.map_eq_some_iff.mp hentries
          cases h.find? hfind with
          | tables hthere =>
              have hinner := ih (hthere latest (List.mem_of_getLast? hlatest)) hinner
              have hothers := fun element helement =>
                hthere element (List.mem_of_mem_dropLast helement)
              exact h.put key (.tables (List.forall_mem_append.mpr
                ⟨hothers, List.forall_mem_singleton.mpr hinner⟩))
      · cases hentries

/-- Entries keep the property when a value is assigned along a path. -/
theorem All.assign? (h : entries.All P) {path : List String} {key : String} (hv : v.All P)
    (hentries : entries.assign? path key v = some entries') : entries'.All P := by
  refine All.changeAt? (fun origin entries entries' h hchange => ?_) h hentries
  split at hchange
  · cases hchange
    exact h.put key hv
  · cases hchange

/-- Entries keep the property when values are assigned one after the other. -/
theorem All.assignAll? {assignments : List Assignment} (h : entries.All P)
    (hassignments : AllAssigned P assignments)
    (hentries : assignAll? assignments entries = some entries') : entries'.All P := by
  induction assignments generalizing entries with
  | nil =>
      cases hentries
      exact h
  | cons a rest ih =>
      obtain ⟨ha, hrest⟩ := List.forall_mem_cons.mp hassignments
      obtain ⟨next, hnext, hothers⟩ := Option.bind_eq_some_iff.mp hentries
      exact ih (h.assign? ha hnext) hrest hothers

/-- Entries keep the property when a table is opened and filled. -/
theorem All.openTable? {filling : List Assignment} (h : entries.All P)
    (hfilling : AllAssigned P filling) {path : List String} {key : String}
    (hentries : entries.openTable? path key filling = some entries') : entries'.All P := by
  refine All.changeAt? (fun origin entries entries' h hchange => ?_) h hentries
  have hfill : ∀ start : Entries, start.All P →
      ((Entries.assignAll? filling start).bind fun filled =>
        some (entries.put key (.table .header filled))) = some entries' → entries'.All P := by
    intro start hstart hentries
    obtain ⟨filled, hfilled, heq⟩ := Option.bind_eq_some_iff.mp hentries
    cases heq
    exact h.put key (.table (hstart.assignAll? hfilling hfilled))
  split at hchange
  · exact hfill [] (fun _ he => by cases he) hchange
  · rename_i hfind
    cases h.find? hfind with
    | table hthere => exact hfill _ hthere hchange
  · cases hchange

/-- Entries keep the property when a table is added to an array and filled. -/
theorem All.addTable? {filling : List Assignment} (h : entries.All P)
    (hfilling : AllAssigned P filling) {path : List String} {key : String}
    (hentries : entries.addTable? path key filling = some entries') : entries'.All P := by
  refine All.changeAt? (fun origin entries entries' h hchange => ?_) h hentries
  have hadd : ∀ elements : List Entries, (∀ element ∈ elements, element.All P) →
      ((Entries.assignAll? filling []).bind fun filled =>
        some (entries.put key (.tables (elements ++ [filled])))) = some entries' →
      entries'.All P := by
    intro elements helements hentries
    obtain ⟨filled, hfilled, heq⟩ := Option.bind_eq_some_iff.mp hentries
    cases heq
    have hempty : Entries.All P [] := fun _ he => by cases he
    exact h.put key (.tables (List.forall_mem_append.mpr ⟨helements,
      List.forall_mem_singleton.mpr (hempty.assignAll? hfilling hfilled)⟩))
  split at hchange
  · exact hadd [] (fun _ he => by cases he) hchange
  · rename_i hfind
    cases h.find? hfind with
    | tables hthere => exact hadd _ hthere hchange
  · cases hchange

/-- Entries keep the property when a section is added. -/
theorem All.addSection? {s : Section} (h : entries.All P) (hs : AllAssigned P s.assignments)
    (hentries : entries.addSection? s = some entries') : entries'.All P := by
  rw [Entries.addSection?] at hentries
  split at hentries
  · exact h.openTable? hs hentries
  · exact h.addTable? hs hentries

/-- Entries keep the property when sections are added one after the other. -/
theorem All.addSections? {later : List Section} (h : entries.All P)
    (hlater : ∀ s ∈ later, AllAssigned P s.assignments)
    (hentries : later.foldlM Entries.addSection? entries = some entries') : entries'.All P := by
  induction later generalizing entries with
  | nil =>
      cases hentries
      exact h
  | cons s rest ih =>
      obtain ⟨hs, hrest⟩ := List.forall_mem_cons.mp hlater
      obtain ⟨next, hnext, hothers⟩ := Option.bind_eq_some_iff.mp hentries
      exact ih (h.addSection? hs hnext) hrest hothers

end Entries

/-! ### Scanning -/

/-- The greatest integer that a document can hold. -/
def maxInteger : Int := 0x7FFFFFFFFFFFFFFF

/-- An integer that is scanned has no more than 64 bits. -/
theorem scanInteger_le {cs rest : List Char} {i : Int} (h : scanInteger cs = some (i, rest)) :
    i ≤ maxInteger := by
  have hrange : ∀ read? : Option (Int × List Char), (read?.bind fun read =>
      if -0x8000000000000000 ≤ read.1 ∧ read.1 ≤ 0x7FFFFFFFFFFFFFFF then some (read.1, read.2)
      else none) = some (i, rest) → i ≤ maxInteger := by
    intro read? hread
    obtain ⟨read, -, hread⟩ := Option.bind_eq_some_iff.mp hread
    split at hread
    · rename_i hbounds
      cases hread
      exact hbounds.2
    · cases hread
  unfold scanInteger at h
  split at h <;> exact hrange _ h

/-- Whether everything that is scanned has a property. -/
def Scans {α : Type} (scan : List Char → Option (α × List Char)) (good : α → Prop) : Prop :=
  ∀ cs x rest, scan cs = some (x, rest) → good x

/-- What is made of something that was scanned. -/
theorem Scans.exists_of_map {α β : Type} {scan : List Char → Option (α × List Char)}
    {good : α → Prop} (h : Scans scan good) (f : α → β) {cs rest : List Char} {y : β}
    (hy : (scan cs).map (fun read => (f read.1, read.2)) = some (y, rest)) :
    ∃ x, good x ∧ f x = y := by
  obtain ⟨⟨x, rest'⟩, hx, heq⟩ := Option.map_eq_some_iff.mp hy
  cases heq
  exact ⟨x, h _ _ _ hx, rfl⟩

/-- Nothing is asked of texts. -/
theorem scans_text : Scans scanText fun _ => True := fun _ _ _ _ => trivial

/-- Integers are scanned in range. -/
theorem scans_integer : Scans scanInteger (· ≤ maxInteger) := fun _ _ _ h => scanInteger_le h

/-- The value that one step of the scanner gives, by what the further steps give. -/
theorem scans_value {fuel : Nat}
    (hitems : ∀ room, Scans (scanItems room fuel) fun vs => ∀ v ∈ vs, v.All (· ≤ maxInteger))
    (hpairs : ∀ room, Scans (scanPairs room fuel) (AllAssigned (· ≤ maxInteger))) (room : Nat) :
    Scans (scanValue room (fuel + 1)) (Value.All (· ≤ maxInteger)) := by
  intro cs v rest h
  unfold scanValue at h
  split at h
  case h_1 | h_2 =>
    obtain ⟨s, -, rfl⟩ := scans_text.exists_of_map Value.text h
    exact .text s
  case h_3 =>
    split at h
    · cases h
    · split at h
      · cases h
        exact .array fun _ hv => by cases hv
      · obtain ⟨items, hread, rfl⟩ := (hitems _).exists_of_map Value.array h
        exact .array hread
  case h_4 =>
    split at h
    · cases h
    · split at h
      · cases h
        exact .table fun _ he => by cases he
      · obtain ⟨⟨assignments, rest'⟩, hscan, h⟩ := Option.bind_eq_some_iff.mp h
        obtain ⟨entries, hentries, heq⟩ := Option.bind_eq_some_iff.mp h
        cases heq
        have hempty : Entries.All (· ≤ maxInteger) [] := fun _ he => by cases he
        exact .table (hempty.assignAll? (hpairs _ _ _ _ hscan) hentries)
  case h_5 | h_6 =>
    cases h
    exact .boolean _
  case h_7 =>
    split at h
    · cases h
      exact .date
    · split at h
      · cases h
        exact .real
      · obtain ⟨i, hi, rfl⟩ := scans_integer.exists_of_map Value.integer h
        exact .integer hi

/-- Items are scanned in range, if values are. -/
theorem scans_items {fuel room : Nat}
    (hvalue : Scans (scanValue room fuel) (Value.All (· ≤ maxInteger)))
    (hitems : Scans (scanItems room fuel) fun vs => ∀ v ∈ vs, v.All (· ≤ maxInteger)) :
    Scans (scanItems room (fuel + 1)) fun vs => ∀ v ∈ vs, v.All (· ≤ maxInteger) := by
  intro cs vs rest h
  rw [scanItems] at h
  obtain ⟨⟨v, left⟩, hv, h⟩ := Option.bind_eq_some_iff.mp h
  have hv := hvalue _ _ _ hv
  simp only at h
  split at h
  · cases h
    exact List.forall_mem_singleton.mpr hv
  · split at h
    · cases h
      exact List.forall_mem_singleton.mpr hv
    · obtain ⟨vs, hvs, rfl⟩ := hitems.exists_of_map (v :: ·) h
      exact List.forall_mem_cons.mpr ⟨hv, hvs⟩
  · cases h

/-- Pairs are scanned in range, if values are. -/
theorem scans_pairs {fuel room : Nat}
    (hvalue : Scans (scanValue room fuel) (Value.All (· ≤ maxInteger)))
    (hpairs : Scans (scanPairs room fuel) (AllAssigned (· ≤ maxInteger))) :
    Scans (scanPairs room (fuel + 1)) (AllAssigned (· ≤ maxInteger)) := by
  intro cs ps rest h
  rw [scanPairs] at h
  obtain ⟨⟨⟨path, key⟩, afterKey⟩, -, h⟩ := Option.bind_eq_some_iff.mp h
  obtain ⟨afterSign, -, h⟩ := Option.bind_eq_some_iff.mp h
  obtain ⟨⟨v, left⟩, hv, h⟩ := Option.bind_eq_some_iff.mp h
  have hv := hvalue _ _ _ hv
  simp only at h
  split at h
  · cases h
    exact List.forall_mem_singleton.mpr hv
  · obtain ⟨ps, hps, rfl⟩ := hpairs.exists_of_map ((path, key, v) :: ·) h
    exact List.forall_mem_cons.mpr ⟨hv, hps⟩
  · cases h

/-- **The integers of what is scanned** are of the range. -/
theorem scans_all (fuel room : Nat) :
    Scans (scanValue room fuel) (Value.All (· ≤ maxInteger)) ∧
      Scans (scanItems room fuel) (fun vs => ∀ v ∈ vs, v.All (· ≤ maxInteger)) ∧
      Scans (scanPairs room fuel) (AllAssigned (· ≤ maxInteger)) := by
  induction fuel generalizing room with
  | zero => refine ⟨fun _ _ _ h => ?_, fun _ _ _ h => ?_, fun _ _ _ h => ?_⟩ <;> cases h
  | succ fuel ih =>
      exact ⟨scans_value (fun room => (ih room).2.1) (fun room => (ih room).2.2) room,
        scans_items (ih room).1 (ih room).2.1, scans_pairs (ih room).1 (ih room).2.2⟩

/-! ### Documents -/

/-- Whether every integer on a line has a property. -/
def Line.All (P : Int → Prop) : Line → Prop
  | .blank | .header _ => True
  | .assignment a => a.2.2.All P

/-- Lines are scanned in range. -/
theorem scans_line : Scans scanLine (Line.All (· ≤ maxInteger)) := by
  intro cs line rest h
  unfold scanLine at h
  split at h
  · obtain ⟨key, -, h⟩ := Option.bind_eq_some_iff.mp h
    obtain ⟨left, -, h⟩ := Option.bind_eq_some_iff.mp h
    obtain ⟨left', -, h⟩ := Option.bind_eq_some_iff.mp h
    obtain ⟨left'', -, heq⟩ := Option.bind_eq_some_iff.mp h
    cases heq
    trivial
  · obtain ⟨key, -, h⟩ := Option.bind_eq_some_iff.mp h
    obtain ⟨left, -, h⟩ := Option.bind_eq_some_iff.mp h
    obtain ⟨left', -, heq⟩ := Option.bind_eq_some_iff.mp h
    cases heq
    trivial
  · split at h
    · cases h
      trivial
    · obtain ⟨key, -, h⟩ := Option.bind_eq_some_iff.mp h
      obtain ⟨left, -, h⟩ := Option.bind_eq_some_iff.mp h
      obtain ⟨⟨v, left'⟩, hv, h⟩ := Option.bind_eq_some_iff.mp h
      obtain ⟨left'', -, heq⟩ := Option.bind_eq_some_iff.mp h
      cases heq
      exact (scans_all _ _).1 _ _ _ hv

/-- All lines of a text are in range. -/
theorem all_scanDocument {fuel : Nat} {cs : List Char} {lines : List Line}
    (h : scanDocument fuel cs = some lines) : ∀ line ∈ lines, line.All (· ≤ maxInteger) := by
  induction fuel generalizing cs lines with
  | zero => cases h
  | succ fuel ih =>
      cases cs with
      | nil =>
          cases h
          exact fun _ hline => by cases hline
      | cons c cs =>
          obtain ⟨⟨line, rest⟩, hline, h⟩ := Option.bind_eq_some_iff.mp h
          obtain ⟨lines, hlines, heq⟩ := Option.bind_eq_some_iff.mp h
          cases heq
          exact List.forall_mem_cons.mpr ⟨scans_line _ _ _ hline, ih hlines⟩

/-- Sections have the property if all lines have it. -/
theorem all_sections {lines : List Line} (h : ∀ line ∈ lines, line.All P) :
    AllAssigned P (sections lines).1 ∧ ∀ s ∈ (sections lines).2, AllAssigned P s.assignments := by
  induction lines with
  | nil => refine ⟨fun _ h => ?_, fun _ h => ?_⟩ <;> cases h
  | cons line rest ih =>
      obtain ⟨hline, hrest⟩ := List.forall_mem_cons.mp h
      obtain ⟨hfront, hlater⟩ := ih hrest
      cases line with
      | blank => exact ⟨hfront, hlater⟩
      | assignment a => exact ⟨List.forall_mem_cons.mpr ⟨hline, hfront⟩, hlater⟩
      | header header =>
          refine ⟨fun _ h => ?_, fun s hs => ?_⟩
          · cases h
          · rcases List.mem_cons.mp hs with rfl | hs
            · exact hfront
            · exact hlater s hs

/-- **The integers of a document are of the signed 64-bit range**. -/
theorem all_ofText? {text : String} {entries : Entries} (h : Entries.ofText? text = some entries) :
    entries.All (· ≤ maxInteger) := by
  obtain ⟨lines, hlines, h⟩ := Option.bind_eq_some_iff.mp h
  obtain ⟨front, hfront, h⟩ := Option.bind_eq_some_iff.mp h
  obtain ⟨hassigned, hsections⟩ := all_sections (all_scanDocument hlines)
  have hempty : Entries.All (· ≤ maxInteger) [] := fun _ he => by cases he
  exact (hempty.assignAll? hassigned hfront).addSections? hsections h

end ClusterSnapshot.Toml
