import ClusterSnapshot.Proofs.Toml.Integers
import ClusterSnapshot.Proofs.Toml.Lines
import ClusterSnapshot.Settings.Text

/-!
# Settings that are printed

Settings that were read from a document can be printed, and what is printed is read back as the same
settings, whatever the document was like: sections may have been missing, or given as arrays.

## Main results

* `Settings.ofText_text?`: what is printed is read back.
* `Settings.printable_of_ofText`: settings that were read can be printed.
* `Settings.printed_again`: **printing is a fixpoint**.
-/

namespace ClusterSnapshot

open Toml

namespace Settings

/-- The lines of a printed document. -/
def lines (s : Settings) : List Line :=
  [.header (.table [] "store"),
    .assignment ([], "data_dir", .text s.store.dataDir),
    .blank,
    .header (.table [] "snapshot"),
    .assignment ([], "max_concurrency", .integer s.snapshot.maxConcurrency.toNat),
    .assignment ([], "ignore_errors", .boolean s.snapshot.ignoreErrors),
    .assignment ([], "ignore_scheduler_config", .boolean s.snapshot.ignoreSchedulerConfig),
    .blank,
    .header (.table [] "scheduler"),
    .assignment ([], "external", .boolean s.scheduler.external)]

/-- The tables that the lines make. -/
def tables (s : Settings) : Entries :=
  [("store", .table .header [("data_dir", .text s.store.dataDir)]),
    ("snapshot", .table .header
      [("max_concurrency", .integer s.snapshot.maxConcurrency.toNat),
        ("ignore_errors", .boolean s.snapshot.ignoreErrors),
        ("ignore_scheduler_config", .boolean s.snapshot.ignoreSchedulerConfig)]),
    ("scheduler", .table .header [("external", .boolean s.scheduler.external)])]

/-- The lines of settings build the tables of the settings. -/
theorem sections_lines (s : Settings) :
    (Entries.assignAll? (sections s.lines).1 [] >>= fun entries =>
      (sections s.lines).2.foldlM Entries.addSection? entries) = some s.tables := rfl

/-- The tables hold the settings. -/
theorem ofEntries?_tables (s : Settings) : ofEntries? s.tables = some s := by
  have hcount : readCount? (.integer s.snapshot.maxConcurrency.toNat) =
      some s.snapshot.maxConcurrency := by
    simp [readCount?]
  have hread : ofEntries? s.tables =
      (readCount? (.integer s.snapshot.maxConcurrency.toNat)).bind fun count =>
        some ⟨s.store, ⟨count, s.snapshot.ignoreErrors, s.snapshot.ignoreSchedulerConfig⟩,
          s.scheduler⟩ := rfl
  rw [hread, hcount]
  rfl

/-- A flag is written as its truth value. -/
theorem written_flag (b : Bool) : Written (flagText b).toList (.boolean b) := by
  cases b
  · exact written_false
  · exact written_true

/-- What is printed, line by line. -/
theorem text?_lines {s : Settings} {printed : String} (h : s.text? = some printed)
    (hpos : s.snapshot.maxConcurrency ≠ 0) :
    ∃ ws rest, printed.toList = ws.flatten ∧ ws.flatten = '[' :: rest ∧
      List.Forall₂ IsLine ws s.lines := by
  rw [text?] at h
  split at h
  · cases h
  · rename_i hmax
    have hcount : Written (toString s.snapshot.maxConcurrency.toNat).toList
        (.integer s.snapshot.maxConcurrency.toNat) :=
      written_natural (fun hzero => hpos (UInt64.toNat_inj.mp hzero)) (by omega)
    refine ⟨[_, _, _, _, _, _, _, _, _, _], _, ?_, rfl, .cons (isLine_header (by decide))
      (.cons (isLine_assignment (by decide) (written_quote _)) (.cons isLine_blank
      (.cons (isLine_header (by decide)) (.cons (isLine_assignment (by decide) hcount)
      (.cons (isLine_assignment (by decide) (written_flag _))
      (.cons (isLine_assignment (by decide) (written_flag _)) (.cons isLine_blank
      (.cons (isLine_header (by decide)) (.cons (isLine_assignment (by decide) (written_flag _))
      .nil)))))))))⟩
    rw [← Option.some.inj h]
    simp

/-- **What is printed is read back.** -/
theorem ofText_text? {s : Settings} {printed : String} (h : s.text? = some printed)
    (hpos : s.snapshot.maxConcurrency ≠ 0) : ofText printed = .ok s := by
  obtain ⟨ws, rest, hprinted, hfirst, hlines⟩ := text?_lines h hpos
  have hdocument := scanDocument_flatten hlines (Nat.lt_succ_self _)
  have hentries : Entries.ofText? printed = some s.tables := by
    rw [Entries.ofText?, hprinted]
    rw [hfirst] at hdocument ⊢
    exact Option.bind_eq_some_iff.mpr ⟨s.lines, hdocument, s.sections_lines⟩
  rw [ofText, hentries, Option.bind_some, ofEntries?_tables]
  exact if_neg hpos

/-! ### Settings that were read -/

/-- A number of tasks that can be printed. -/
def Printable (count : UInt64) : Prop := count.toNat ≤ 0x7FFFFFFFFFFFFFFF

/-- A count that was read can be printed. -/
theorem printable_of_readCount? {v : Value} (hv : v.All (· ≤ maxInteger)) {count : UInt64}
    (h : readCount? v = some count) : Printable count := by
  unfold readCount? at h
  split at h
  · split at h
    · cases h
      cases hv with
      | integer hi =>
          rw [maxInteger] at hi
          rw [Printable, UInt64.toNat_ofNat']
          exact (Nat.mod_le _ _).trans (by omega)
    · cases h
  · cases h

/-- The integers of a section are those of its value. -/
theorem all_sectionEntries? {P : Int → Prop} {keys : List String} {v? : Option Value}
    (hv : ∀ v ∈ v?, v.All P) {entries : Entries} (h : sectionEntries? keys v? = some entries) :
    entries.All P := by
  have hzip : ∀ items : List Value, (∀ v ∈ items, v.All P) → Entries.All P (keys.zip items) :=
    fun items hitems e he => hitems e.2 (List.of_mem_zip he).2
  unfold sectionEntries? at h
  split at h
  · cases h
    exact fun _ he => by cases he
  · cases h
    cases hv _ rfl with
    | table hentries => exact hentries
  · cases h
    cases hv _ rfl with
    | array hitems => exact hzip _ hitems
  · cases h
    cases hv _ rfl with
    | tables helements =>
        exact hzip _ (List.forall_mem_map.mpr fun element helement => .table (helements _ helement))
  · cases h
    exact fun _ he => by cases he
  · cases h

/-- The number of tasks that was read, or its default, can be printed. -/
theorem printable_of_readSnapshot? {v? : Option Value} (hv : ∀ v ∈ v?, v.All (· ≤ maxInteger))
    {snapshot : SnapshotSettings} (h : readSnapshot? v? = some snapshot) :
    Printable snapshot.maxConcurrency := by
  obtain ⟨entries, hentries, h⟩ := Option.bind_eq_some_iff.mp h
  obtain ⟨count, hcount, h⟩ := Option.bind_eq_some_iff.mp h
  obtain ⟨ignoreErrors, -, h⟩ := Option.bind_eq_some_iff.mp h
  obtain ⟨ignoreSchedulerConfig, -, heq⟩ := Option.bind_eq_some_iff.mp h
  cases heq
  change Printable count
  have hall := all_sectionEntries? hv hentries
  cases hfind : entries.find? "max_concurrency" with
  | none =>
      rw [hfind] at hcount
      cases hcount
      exact Nat.le_of_ble_eq_true rfl
  | some v =>
      rw [hfind] at hcount
      exact printable_of_readCount? (hall.find? hfind) hcount

/-- **Settings that were read can be printed.** -/
theorem printable_of_ofText {text : String} {s : Settings} (h : ofText text = .ok s) :
    s.snapshot.maxConcurrency ≠ 0 ∧ Printable s.snapshot.maxConcurrency := by
  rw [ofText] at h
  split at h
  · cases h
  · rename_i hread
    split at h
    · cases h
    · rename_i hpos
      cases h
      obtain ⟨entries, hentries, hread⟩ := Option.bind_eq_some_iff.mp hread
      obtain ⟨store, -, hread⟩ := Option.bind_eq_some_iff.mp hread
      obtain ⟨snapshot, hsnapshot, hread⟩ := Option.bind_eq_some_iff.mp hread
      obtain ⟨scheduler, -, heq⟩ := Option.bind_eq_some_iff.mp hread
      cases heq
      exact ⟨hpos, printable_of_readSnapshot? (fun v hv => (all_ofText? hentries).find? hv)
        hsnapshot⟩

/-- **Printing is a fixpoint.** Settings that were read from any document can be printed, and what
is printed is read as the same settings, which are then printed as before. -/
theorem printed_again {text : String} {s : Settings} (h : ofText text = .ok s) :
    ∃ printed, s.text? = some printed ∧ ofText printed = .ok s ∧
      (ofText printed).toOption.bind text? = some printed := by
  obtain ⟨hpos, hmax⟩ := printable_of_ofText h
  have hprinted : ∃ printed, s.text? = some printed := by
    rw [text?, if_neg (Nat.not_lt.mpr hmax)]
    exact ⟨_, rfl⟩
  obtain ⟨printed, hprinted⟩ := hprinted
  have hread := ofText_text? hprinted hpos
  refine ⟨printed, hprinted, hread, ?_⟩
  rw [hread]
  exact hprinted

/-- A directory with a double quote, a backslash and a line break, in a section that is an array. -/
theorem printed_again_array :
    let s : Settings := ⟨⟨"\"\\\n"⟩, .default, .default⟩
    ofText "store = [\"\\\"\\\\\\n\"]" = .ok s ∧
      ∃ printed, s.text? = some printed ∧ ofText printed = .ok s ∧
        (ofText printed).toOption.bind text? = some printed := by
  intro s
  have hread : ofText "store = [\"\\\"\\\\\\n\"]" = .ok s := by decide +kernel
  exact ⟨hread, printed_again hread⟩

end Settings

end ClusterSnapshot
