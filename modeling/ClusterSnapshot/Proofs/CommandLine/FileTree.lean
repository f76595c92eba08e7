import ClusterSnapshot.CommandLine.FileTree
import Mathlib.Tactic.SplitIfs

/-!
# What files hold

Files as a value change in two ways only: a directory is made where nothing was, and a text is
written where no directory is. Neither changes where paths lead. So a text that was written is found
at its path, and every other text in the files was there before.

## Main results

* `FileTree.find?_write?`: **a text that was written is found** at its path.
* `FileTree.holds_write?`, `FileTree.holds_makeDirectories`: which texts there are afterwards.
* `FileTree.within_makeDirectories`: making directories leaves what is there.
-/

namespace ClusterSnapshot.CommandLine

namespace FileTree

variable {t t' : FileTree} {place : List String} {path content : String}

/-- A text stands in some file. -/
def Holds (t : FileTree) (content : String) : Prop := ∃ place, t.at? place = some (.text content)

/-- A text that is found is held. -/
theorem holds_of_find? (h : t.find? path = some (.text content)) : t.Holds content := by
  obtain ⟨place, -, hat⟩ := Option.bind_eq_some_iff.mp h
  exact ⟨place, hat⟩

/-- Where there is one file, its text is all that there is. -/
theorem holds_only {working : List String} {other : String}
    (h : (⟨working, [(place, .text content)]⟩ : FileTree).Holds other) : other = content := by
  obtain ⟨q, hat⟩ := h
  rw [at?] at hat
  split at hat
  · cases hat
  · obtain ⟨e, he, heq⟩ := Option.map_eq_some_iff.mp hat
    obtain rfl := List.mem_singleton.mp (List.mem_of_find?_eq_some he)
    exact (FileNode.text.inj heq).symm

/-! ### Putting something at a place -/

/-- What is at a place after something was put there, and what is at all others. -/
theorem at?_put (t : FileTree) (place : List String) (x : FileNode) (q : List String) :
    (t.put place x).at? q =
      if q.isPrefixOf t.working then some .directory
      else if q = place then some x else t.at? q := by
  rw [at?, at?]
  change (if q.isPrefixOf t.working then _ else _) = _
  split
  · rfl
  · by_cases hq : q = place
    · subst hq
      simp [put]
    · have hne : (place == q) = false := by simpa using fun h => hq h.symm
      have hfind : (t.nodes.filter (·.1 != place)).find? (·.1 == q) =
          t.nodes.find? (·.1 == q) := by
        rw [List.find?_filter]
        congr 1
        funext e
        by_cases he : e.1 = q
        · subst he
          simp [hq]
        · simp [he]
      simp only [put, List.find?_cons, hne, hfind, hq, ↓reduceIte]

/-- A text at a place where no directory is leaves all directories as they are. -/
theorem hasDirectory_put (h : t.hasDirectory place = false) (content : String) (q : List String) :
    (t.put place (.text content)).hasDirectory q = t.hasDirectory q := by
  rw [hasDirectory, at?_put]
  split
  · rename_i hprefix
    rw [hasDirectory, at?, if_pos hprefix]
  · split
    · rename_i heq
      rw [heq, h]
      rfl
    · rfl

/-! ### Paths -/

/-- Paths lead where they led before if there are the same directories. -/
theorem walk?_congr (h : ∀ q, t'.hasDirectory q = t.hasDirectory q) (place names : List String) :
    t'.walk? place names = t.walk? place names := by
  induction names generalizing place with
  | nil => rfl
  | cons name rest ih => simp only [walk?, h, ih]

/-- Which place a path names depends on the directories only. -/
theorem place?_congr (hworking : t'.working = t.working)
    (h : ∀ q, t'.hasDirectory q = t.hasDirectory q) (path : String) :
    t'.place? path = t.place? path := by
  simp only [place?, hworking, walk?_congr h]

/-! ### Writing a text -/

/-- **What writing a text does**, if it can be written. -/
theorem write?_eq_some : t.write? path content = some t' ↔
    ∃ place, t.place? path = some place ∧ t.hasDirectory place.dropLast = true ∧
      t.hasDirectory place = false ∧ t' = t.put place (.text content) := by
  rw [write?]
  cases hplace : t.place? path with
  | none => simp
  | some place =>
      simp only [Option.bind_eq_bind, Option.bind_some, Option.some.injEq]
      constructor
      · intro h
        split at h
        · rename_i hdirectories
          simp only [Bool.and_eq_true, Bool.not_eq_true'] at hdirectories
          exact ⟨place, rfl, hdirectories.1, hdirectories.2, (Option.some.inj h).symm⟩
        · cases h
      · rintro ⟨_, rfl, hdirectory, hnone, rfl⟩
        simp [hdirectory, hnone]

/-- A text that was written leaves all paths as they are. -/
theorem place?_write? (h : t.write? path content = some t') (q : String) :
    t'.place? q = t.place? q := by
  obtain ⟨place, -, -, hnone, rfl⟩ := write?_eq_some.mp h
  have hworking : (t.put place (.text content)).working = t.working := rfl
  exact place?_congr hworking (hasDirectory_put hnone content) q

/-- **A text that was written is found** at its path. -/
theorem find?_write? (h : t.write? path content = some t') :
    t'.find? path = some (.text content) := by
  have hpath := place?_write? h path
  obtain ⟨place, hplace, -, hnone, rfl⟩ := write?_eq_some.mp h
  rw [find?, hpath, hplace, Option.bind_some, at?_put]
  split
  · rename_i hprefix
    rw [hasDirectory, at?, if_pos hprefix] at hnone
    cases hnone
  · rw [if_pos rfl]

/-- Whether a text can be written does not depend on the text, nor on texts written before. -/
theorem exists_write?_after {q other : String} {u : FileTree} (hq : t.write? q other = some u)
    (h : t.write? path content = some t') (content' : String) :
    ∃ t'', t'.write? q content' = some t'' := by
  have hpath := place?_write? h q
  obtain ⟨place, -, -, hnone, rfl⟩ := write?_eq_some.mp h
  obtain ⟨place', hplace', hdirectory, hnone', -⟩ := write?_eq_some.mp hq
  refine ⟨_, write?_eq_some.mpr ⟨place', hpath.trans hplace', ?_, ?_, rfl⟩⟩
  · rw [hasDirectory_put hnone, hdirectory]
  · rw [hasDirectory_put hnone, hnone']

/-- Whether a text can be written does not depend on the text. -/
theorem exists_write? (h : t.write? path content = some t') (content' : String) :
    ∃ t'', t.write? path content' = some t'' := by
  obtain ⟨place, hplace, hdirectory, hnone, rfl⟩ := write?_eq_some.mp h
  exact ⟨_, write?_eq_some.mpr ⟨place, hplace, hdirectory, hnone, rfl⟩⟩

/-- Only the last of two things that are put at a place counts. -/
theorem put_put (t : FileTree) (place : List String) (x y : FileNode) :
    (t.put place x).put place y = t.put place y := by
  simp [put]

/-- **Only the last of two texts that are written to a path counts.** -/
theorem write?_write? (h : t.write? path content = some t') (content' : String) :
    t'.write? path content' = t.write? path content' := by
  obtain ⟨t'', hagain⟩ := exists_write?_after h h content'
  have hpath := place?_write? h path
  rw [hagain]
  obtain ⟨place, hplace, hdirectory, hnone, rfl⟩ := write?_eq_some.mp h
  obtain ⟨place', hplace', -, -, rfl⟩ := write?_eq_some.mp hagain
  obtain rfl : place = place' := Option.some.inj (hplace.symm.trans (hpath.symm.trans hplace'))
  exact (write?_eq_some.mpr ⟨place, hplace, hdirectory, hnone, t.put_put place _ _⟩).symm

/-- A text that is held after something was put is the new one or was held before. -/
theorem holds_put {x : FileNode} (h : (t.put place x).Holds content) :
    x = .text content ∨ t.Holds content := by
  obtain ⟨q, hq⟩ := h
  rw [at?_put] at hq
  split at hq
  · cases hq
  · split at hq
    · exact .inl (Option.some.inj hq)
    · exact .inr ⟨q, hq⟩

/-- **Every other text was there before.** -/
theorem holds_write? {other : String} (h : t.write? path content = some t')
    (hother : t'.Holds other) : other = content ∨ t.Holds other := by
  obtain ⟨place, -, -, -, rfl⟩ := write?_eq_some.mp h
  exact (holds_put hother).imp_left fun heq => (FileNode.text.inj heq).symm

/-! ### What the host does -/

/-- The host writes a text if it can, and says whether it could. -/
theorem host_writeText_apply (path content : String) (t : FileTree) :
    host.writeText path content t =
      ((t.write? path content).isSome, (t.write? path content).getD t) := by
  change replace (t.write? path content) t = _
  cases t.write? path content <;> rfl

/-- What reading at a path gives. -/
def reading (t : FileTree) (path : String) : Reading :=
  match t.find? path with
  | some (.text content) => .text content
  | _ => .unreadable

/-- The host reads a text and leaves the files as they are. -/
theorem host_readText_apply (path : String) (t : FileTree) :
    host.readText path t = (t.reading path, t) := by
  change (match t.find? path with
    | some (.text content) => pure (.text content)
    | _ => pure .unreadable : StateM FileTree Reading) t = _
  rw [reading]
  rcases t.find? path with _ | (_ | content) <;> rfl

/-- A text is read if and only if it is found. -/
theorem reading_eq_text : t.reading path = .text content ↔ t.find? path = some (.text content) := by
  rw [reading]
  rcases t.find? path with _ | (_ | content') <;> simp

/-- What is found and cannot be read is a directory. -/
theorem find?_of_unreadable (h : t.reading path = .unreadable) (hfound : (t.find? path).isSome) :
    t.find? path = some .directory := by
  obtain ⟨x, hx⟩ := Option.isSome_iff_exists.mp hfound
  cases x with
  | directory => exact hx
  | text content =>
      rw [reading_eq_text.mpr hx] at h
      cases h

/-- All files are texts. -/
theorem reading_ne_notText : t.reading path ≠ .notText := by
  rw [reading]
  split <;> exact Reading.noConfusion

/-! ### Making directories -/

/-- To make a directory brings no text. -/
theorem holds_makeDirectory? (h : t.makeDirectory? path = some t') (hcontent : t'.Holds content) :
    t.Holds content := by
  obtain ⟨place, -, hmade⟩ := Option.bind_eq_some_iff.mp h
  split at hmade
  · obtain rfl := Option.some.inj hmade
    exact hcontent
  · cases hmade
  · obtain rfl := Option.some.inj hmade
    exact (holds_put hcontent).resolve_left fun heq => by cases heq

/-- An action on files that keeps a property of them. -/
def Preserves {α : Type} (P : FileTree → Prop) (x : StateM FileTree α) : Prop :=
  ∀ t, P t → P (x t).2

namespace Preserves

variable {α β : Type} {P : FileTree → Prop} {x : StateM FileTree α}

/-- What changes no file keeps every property. -/
theorem pure (y : α) : Preserves P (pure y) := fun _ h => h

/-- One action after the other. -/
theorem bind (h : Preserves P x) {f : α → StateM FileTree β} (hf : ∀ y, Preserves P (f y)) :
    Preserves P (x >>= f) :=
  fun t ht => hf (x t).1 (x t).2 (h t ht)

variable (hstep : ∀ {t t' : FileTree} {path : String}, P t → t.makeDirectory? path = some t' → P t')

include hstep

/-- A property that every new directory keeps is kept when one is to be made. -/
theorem makeDirectory (path : String) : Preserves P (host.makeDirectory path) := by
  intro t ht
  change P ((replace (t.makeDirectory? path)) t).2
  cases h : t.makeDirectory? path with
  | none => exact ht
  | some t' => exact hstep ht h

/-- So it is kept when several are to be made. -/
theorem allM (paths : List String) : Preserves P (paths.allM host.makeDirectory) := by
  induction paths with
  | nil => exact pure true
  | cons path rest ih =>
      refine bind (makeDirectory hstep path) fun made => ?_
      cases made with
      | true => exact ih
      | false => exact pure false

/-- **Making a directory with all directories above it** keeps what every new directory keeps. -/
theorem makeDirectories (path : String) : Preserves P (host.makeDirectories path) := by
  rw [Host.makeDirectories]
  split
  · exact pure true
  · split
    · exact pure false
    · refine bind (allM hstep _) fun made => ?_
      cases made with
      | true => exact fun _ h => h
      | false => exact pure false

end Preserves

/-- **Making directories brings no text.** -/
theorem holds_makeDirectories (h : (host.makeDirectories path t).2.Holds content) :
    t.Holds content :=
  Preserves.makeDirectories (P := fun t' => t'.Holds content → t.Holds content)
    (fun ht hmade hcontent => ht (holds_makeDirectory? hmade hcontent)) path t id h

/-- Files among which are all of some other files, at the same places. -/
structure Within (t t' : FileTree) : Prop where
  working : t'.working = t.working
  at? : ∀ place x, t.at? place = some x → t'.at? place = some x

/-- A walk leads to the same place when there are more directories. -/
theorem Within.walk? (h : t.Within t') {names : List String} {q : List String}
    (hwalk : t.walk? place names = some q) : t'.walk? place names = some q := by
  induction names generalizing place with
  | nil => exact hwalk
  | cons name rest ih =>
      rw [FileTree.walk?] at hwalk ⊢
      cases hdirectory : t.hasDirectory place with
      | false =>
          rw [hdirectory] at hwalk
          cases hwalk
      | true =>
          have hdirectory' : t'.hasDirectory place = true := by
            rw [hasDirectory, beq_iff_eq] at hdirectory ⊢
            exact h.at? place _ hdirectory
          rw [hdirectory] at hwalk
          rw [hdirectory']
          simp only [Bool.not_true, Bool.false_eq_true, ↓reduceIte] at hwalk ⊢
          split_ifs at hwalk ⊢
          · exact ih hwalk
          · exact ih hwalk
          · exact ih hwalk

/-- **What was found is still found.** -/
theorem Within.find? (h : t.Within t') {x : FileNode} (hfound : t.find? path = some x) :
    t'.find? path = some x := by
  obtain ⟨q, hplace, hat⟩ := Option.bind_eq_some_iff.mp hfound
  refine Option.bind_eq_some_iff.mpr ⟨q, ?_, h.at? q x hat⟩
  rw [place?] at hplace ⊢
  rw [h.working]
  by_cases husable : Path.isUsable path = true
  · rw [if_pos husable] at hplace ⊢
    exact h.walk? hplace
  · rw [if_neg husable] at hplace
    cases hplace

/-- **Making directories leaves what is there.** -/
theorem within_makeDirectories (path : String) (t : FileTree) :
    t.Within (host.makeDirectories path t).2 := by
  refine Preserves.makeDirectories (P := t.Within) (fun {t' t'' path} h hmade => ?_) path t
    ⟨rfl, fun _ _ hat => hat⟩
  obtain ⟨q, -, hmade⟩ := Option.bind_eq_some_iff.mp hmade
  cases hq : t'.at? q with
  | none =>
      rw [hq] at hmade
      obtain rfl := Option.some.inj hmade
      refine ⟨h.working, fun place x hat => ?_⟩
      have hat' := h.at? place x hat
      rw [at?_put]
      split
      · rename_i hprefix
        rw [FileTree.at?, if_pos hprefix] at hat'
        exact hat'
      · rw [if_neg]
        · exact hat'
        · rintro rfl
          rw [hq] at hat'
          cases hat'
  | some y =>
      rw [hq] at hmade
      cases y with
      | directory =>
          obtain rfl := Option.some.inj hmade
          exact h
      | text content => cases hmade

end FileTree

end ClusterSnapshot.CommandLine
