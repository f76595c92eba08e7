import ClusterSnapshot.Proofs.CommandLine.Clean
import ClusterSnapshot.Proofs.Operation.AsReplay
import ClusterSnapshot.Proofs.Operation.Restoring

/-!
# Exchanging snapshots through files

Files arise from commands and from whatever the user does to them in between. A text that the user
brings in keeps no store, and a replay that it denotes has no real numbers. Files that arise so are
clean. So whatever a capture has written can be replayed into a fresh data directory, which then
holds each of its objects.

## Main results

* `FileTree.Arises.clean`: files that arise are clean.
* `Work.does_runReplay`: to replay what was captured succeeds in a fresh data directory.
* `Work.does_runCapture_kept`: to capture a store that is kept succeeds and writes nothing else.
* `replays_what_was_captured`: **whatever is captured can be replayed**.
-/

namespace ClusterSnapshot.CommandLine

open FileTree (host)
open JsonForm (Sound)
open Number (IsWhole64)
open Scheduler (Configuration)

/-! ### The program -/

/-- What the program does with the arguments of a command. -/
theorem execute_of_parse {args : List String} {i : Invocation} (h : parse args = .invocation i)
    (uids : UidSource) (t : FileTree) :
    (execute host uids args t).2 = (carryOut host i ⟨uids, []⟩ t).2 ∧
      ((execute host uids args t).1.1.exitCode = 0 ↔
        ∃ output, (carryOut host i ⟨uids, []⟩ t).1.1 = .ok output) := by
  have hrun : (carryOut host i).run.run ⟨uids, []⟩ t = carryOut host i ⟨uids, []⟩ t := rfl
  have hbind : ∀ {α β : Type} (x : StateM FileTree α) (f : α → StateM FileTree β),
      (x >>= f) t = f (x t).1 (x t).2 := fun _ _ => rfl
  rw [execute, h]
  simp only [hbind, hrun]
  obtain ⟨⟨answer, ledger⟩, t'⟩ := carryOut host i ⟨uids, []⟩ t
  rcases answer with (e | _) | output
  · exact ⟨rfl, iff_of_false Nat.one_ne_zero fun ⟨_, hok⟩ => by cases hok⟩
  · exact ⟨rfl, iff_of_false (Nat.succ_ne_zero 100) fun ⟨_, hok⟩ => by cases hok⟩
  · exact ⟨rfl, iff_of_true rfl ⟨output, rfl⟩⟩

/-- **What the program does**, by what the work of the command does: it succeeds if the work is
done, and fails if the work has ended before. -/
theorem execute_of_does {args : List String} {i : Invocation} (hparse : parse args = .invocation i)
    {P Q R : FileTree → Prop} (h : Work.Does P (carryOut host i) (fun _ => Q) R)
    (uids : UidSource) {t : FileTree} (ht : P t) :
    ((execute host uids args t).1.1.exitCode = 0 ∧ Q (execute host uids args t).2) ∨
      ((execute host uids args t).1.1.exitCode ≠ 0 ∧ R (execute host uids args t).2) := by
  obtain ⟨htree, hexit⟩ := execute_of_parse hparse uids t
  obtain ⟨hok, herror⟩ := h ⟨uids, []⟩ t ht
  rw [htree]
  cases hresult : (carryOut host i ⟨uids, []⟩ t).1.1 with
  | ok output => exact .inl ⟨hexit.mpr ⟨output, hresult⟩, hok output hresult⟩
  | error e =>
      refine .inr ⟨fun hdone => ?_, herror e hresult⟩
      obtain ⟨output, hok⟩ := hexit.mp hdone
      rw [hresult] at hok
      cases hok

namespace FileTree

variable {t : FileTree}

/-- The program leaves clean files clean, whatever its arguments. -/
theorem Clean.execute (h : t.Clean) (uids : UidSource) (args : List String) :
    (execute host uids args t).2.Clean := by
  cases hparse : parse args with
  | misuse =>
      rw [CommandLine.execute, hparse]
      exact h
  | version text =>
      rw [CommandLine.execute, hparse]
      exact h
  | invocation i =>
      have hcarried := (Work.does_carryOut i).after fun _ _ ht => ht.1
      exact (execute_of_does hparse hcarried uids h).elim And.right And.right

end FileTree

/-! ### Files that arise -/

/-- A text that the user may bring in: it keeps no store, unless it is empty, and a replay that it
denotes has no real numbers. -/
structure Foreign (text : String) : Prop where
  store : ∀ s, Store.ofText? text = some s → text = ""
  replay : ∀ r : Replay, JsonForm.ofText? text = some r →
    (JsonForm.toJson r).document.AllNumbers IsWhole64

/-- Foreign texts do no harm. -/
theorem Foreign.harmless {text : String} (h : Foreign text) : Harmless text := by
  refine ⟨fun s hs => ?_, fun r hr => ?_⟩
  · obtain rfl := h.store s hs
    obtain rfl : Store.empty = s := Option.some.inj hs
    exact .empty
  · exact ⟨(Contents.sound_of_ofText? hr).reads, h.replay r hr⟩

/-- A sound snapshot may be brought in. -/
theorem Foreign.indented {s : Snapshot} (h : Sound IsWhole64 nestingLimit s) :
    Foreign (JsonForm.toJson s).indented where
  store s' hs' := by
    have hscanned := Json.ofText?_indented (JsonForm.toJson s)
    rw [Store.not_json hs'] at hscanned
    cases hscanned
  replay r hr := ((Harmless.indented h).replay r hr).numbers

/-- **The files that arise** from commands, with any arguments and identities, and from whatever the
user does to the files in between. -/
inductive FileTree.Arises : FileTree → Prop
  | empty (working : List String) : Arises (.empty working)
  /-- Every text that is there afterwards was there before, perhaps elsewhere, or is foreign. -/
  | edit {t t' : FileTree} : Arises t →
    (∀ content, t'.Holds content → t.Holds content ∨ Foreign content) → Arises t'
  | run {t : FileTree} (uids : UidSource) (args : List String) : Arises t →
    Arises (execute host uids args t).2

/-- **Files that arise are clean.** -/
theorem FileTree.Arises.clean {t : FileTree} (h : t.Arises) : t.Clean := by
  induction h with
  | empty working =>
      rintro content ⟨place, hat⟩
      rw [FileTree.at?] at hat
      split at hat <;> cases hat
  | edit _ hedit ih =>
      intro content hcontent
      exact (hedit content hcontent).elim (ih content) Foreign.harmless
  | run uids args _ ih => exact ih.execute uids args

/-! ### Replaying into a fresh data directory -/

/-- A data directory that can be made, if it is not there, and written to, and in which no store is
kept. -/
structure FileTree.Fresh (t : FileTree) (dataDir : String) : Prop where
  made : (host.makeDirectories dataDir t).1 = true
  nothing : (host.makeDirectories dataDir t).2.find? (storePath dataDir) = none
  writable : ((host.makeDirectories dataDir t).2.write? (storePath dataDir) "").isSome = true

/-- The store that is kept in a data directory holds what a snapshot does. -/
def FileTree.Mirrors (t : FileTree) (dataDir : String) (s : Snapshot) : Prop :=
  ∃ text st, t.find? (storePath dataDir) = some (.text text) ∧ Store.ofText? text = some st ∧
    st.Mirrors s

namespace Work

/-- A store is opened in a fresh data directory. -/
theorem does_openStore_fresh (dataDir : String) :
    Does (fun t => t.Fresh dataDir) (openStore host dataDir none)
      (fun s t => (∃ t₀ : FileTree, t₀.write? (storePath dataDir) Store.empty.text = some t) ∧
        s = ⟨storePath dataDir, .empty⟩) fun _ => False := by
  have hopen : ∀ t : FileTree, t.find? (storePath dataDir) = none →
      opened? t (storePath dataDir) =
        (t.write? (storePath dataDir) Store.empty.text).map (Store.empty, ·) := fun t ht => by
    rw [opened?, kept?, ht, Option.bind_some]
  refine does_openStore (M := fun t => t.find? (storePath dataDir) = none ∧
      (t.write? (storePath dataDir) "").isSome = true)
    (fun t ht _ => ⟨ht.nothing, ht.writable⟩) (fun t ht hno => ?_) (fun t ht s t' hopened => ?_)
    (fun t ht hclosed => ?_)
  · rw [ht.made] at hno
    cases hno
  · rw [hopen t ht.1] at hopened
    obtain ⟨t'', hwritten, heq⟩ := Option.map_eq_some_iff.mp hopened
    obtain ⟨rfl, rfl⟩ := Prod.mk.inj heq
    exact ⟨⟨t, hwritten⟩, rfl⟩
  · obtain ⟨t', hwritten⟩ := Option.isSome_iff_exists.mp ht.2
    obtain ⟨t'', hagain⟩ := FileTree.exists_write? hwritten Store.empty.text
    rw [hopen t ht.1, hagain] at hclosed
    exact hclosed.elim (fun h => h rfl) fun h => by cases h

/-- **To replay what was captured** succeeds in a fresh data directory. -/
theorem does_runReplay {settings : Settings} {input : String} {c : Cluster}
    {config? : Option Configuration} (hc : c.store.Capturable)
    (hsound : Sound IsWhole64 nestingLimit (c.userPart config?))
    (hoptions : commandOptions settings false false = .strict)
    (hexternal : settings.scheduler.external = false) (hfew : overloaded settings = false) :
    Does (fun t => t.find? input =
        some (.text (JsonForm.toJson (c.userPart config?)).indented) ∧
        t.Fresh settings.store.dataDir)
      (runReplay host settings input false false)
      (fun _ t => t.Mirrors settings.store.dataDir (c.userPart config?)) fun _ => False := by
  have hread : JsonForm.ofText? (JsonForm.toJson (c.userPart config?)).indented =
      some (c.userPart config?) :=
    (JsonForm.ofText?_indented _).trans (JsonForm.ofText?_text_whole hsound)
  obtain ⟨r, hr, hsame⟩ := Snapshot.exists_ofText? hread
  rw [runReplay]
  extract_lets options operator replayed
  have hshows : operator.server.Shows wholeCluster.get (Cluster.server "cluster" false) := by
    rw [← hexternal]
    exact shows_clusterOperator wholeCluster_lawful settings
  have hreplayed : Does (fun t => t.Fresh settings.store.dataDir) (replayed r)
      (fun _ t => t.Mirrors settings.store.dataDir (c.userPart config?)) fun _ => False := by
    refine (does_openStore_fresh _).bind fun s => does_of_and fun hs => ?_
    subst hs
    refine Does.bind (Q := fun _ t => t.Mirrors settings.store.dataDir (c.userPart config?))
      (does_perform fun u => ?_) fun _ =>
        does_checkTasks (fun _ ht _ => ht) fun _ _ hmany => by
          rw [hfew] at hmany
          cases hmany
    have hempty : wholeCluster.get (Run.start (⟨.empty, u⟩ : Cluster)).state = ⟨.empty, u⟩ := rfl
    obtain ⟨hresult, hmirrors⟩ := hc.restored hsound operator hshows hempty
    have hreplay : (if overloaded settings then operator.replayConfig r options
        else operator.replay r options) =
          operator.replay (Snapshot.toReplay (c.userPart config?)) .strict := by
      have hstrict : options = .strict := hoptions
      rw [hfew, hstrict, ← hsame, operator.replay_stripServerPopulated]
      rfl
    simp only [hreplay, hresult]
    refine does_saveStore fun t ht => ⟨fun _ _ => ?_, fun _ he => by cases he⟩
    obtain ⟨t₀, ht₀⟩ := ht
    obtain ⟨t', hwritten⟩ := FileTree.exists_write?_after ht₀ ht₀ _
    rw [hwritten, Option.getD_some]
    exact ⟨_, _, FileTree.find?_write? hwritten, Store.ofText?_text_reopened _,
      hmirrors.congr rfl rfl⟩
  have hasked : Does (fun t => t.find? input =
        some (.text (JsonForm.toJson (c.userPart config?)).indented) ∧
        t.Fresh settings.store.dataDir) (onHost (host.readText input))
      (fun reading t => t.Fresh settings.store.dataDir ∧
        reading = .text (JsonForm.toJson (c.userPart config?)).indented) fun _ => False := by
    refine (does_readText input).after fun reading t ht => ⟨ht.1.2, ?_⟩
    exact ht.2.symm.trans (FileTree.reading_eq_text.mpr ht.1.1)
  refine hasked.bind fun reading => does_of_and fun hreading => ?_
  subst hreading
  simp only [hr]
  exact hreplayed

/-! ### What is written -/

/-- The files with a text in place of the store in a data directory, which is made first. -/
def withStore? (t : FileTree) (dataDir text : String) : Option FileTree :=
  (host.makeDirectories dataDir t).2.write? (storePath dataDir) text

/-- **A replay that succeeds** writes nothing but the store in its data directory. -/
theorem does_runReplay_store (t₀ : FileTree) (settings : Settings) (input : String)
    (ignoreErrors ignoreSchedulerConfig : Bool) :
    Does (fun t => t = t₀) (runReplay host settings input ignoreErrors ignoreSchedulerConfig)
      (fun _ t => ∃ text, withStore? t₀ settings.store.dataDir text = some t)
      fun _ => True := by
  rw [runReplay]
  extract_lets options operator replayed
  have hopened : Does (fun t => t = t₀) (openStore host settings.store.dataDir none)
      (fun s t => (∃ text, withStore? t₀ settings.store.dataDir text = some t) ∧
        s.path = storePath settings.store.dataDir) fun _ => True := by
    refine does_openStore (M := fun t => t = (host.makeDirectories settings.store.dataDir t₀).2)
      (fun t ht _ => by rw [ht]) (fun _ _ _ => trivial) (fun t ht s t' hopened => ?_)
      fun _ _ _ => trivial
    obtain ⟨s', -, hopened⟩ := Option.bind_eq_some_iff.mp hopened
    obtain ⟨t'', hwritten, heq⟩ := Option.map_eq_some_iff.mp hopened
    obtain ⟨rfl, rfl⟩ := Prod.mk.inj heq
    exact ⟨⟨_, ht ▸ hwritten⟩, rfl⟩
  have hreplayed : ∀ r, Does (fun t => t = t₀) (replayed r)
      (fun _ t => ∃ text, withStore? t₀ settings.store.dataDir text = some t)
      fun _ => True := by
    refine fun r => hopened.bind fun s => does_of_and fun hs => ?_
    refine Does.bind (Q := fun _ t => ∃ text, withStore? t₀ settings.store.dataDir text = some t)
      (does_perform fun u => ?_) fun _ => does_checkTasks (fun _ ht _ => ht) fun _ _ _ => trivial
    refine does_saveStore fun t ht => ⟨fun _ _ => ?_, fun _ _ => trivial⟩
    obtain ⟨text, hwritten⟩ := ht
    obtain ⟨t', hagain⟩ := FileTree.exists_write?_after hwritten hwritten _
    rw [hs, hagain, Option.getD_some]
    exact ⟨_, (FileTree.write?_write? hwritten _).symm.trans hagain⟩
  refine (does_readText input).bind fun reading => ?_
  refine Does.before (P := fun t => t = t₀) ?_ fun t ht => ht.1
  cases reading with
  | unreadable | notText => exact does_fail_bind fun _ _ => trivial
  | text content =>
      simp only
      cases (JsonForm.ofText? content : Option Replay) with
      | none => exact does_fail_bind fun _ _ => trivial
      | some r => exact hreplayed r

end Work

/-- A data directory in which a store is kept that can be opened, and a file that can be written. -/
structure FileTree.Ready (t : FileTree) (dataDir file : String) (st : Store) : Prop where
  made : (host.makeDirectories dataDir t).1 = true
  kept : ∃ text, t.find? (storePath dataDir) = some (.text text) ∧ Store.ofText? text = some st
  storable : (Work.withStore? t dataDir "").isSome = true
  writable : ((host.makeDirectories dataDir t).2.write? file "").isSome = true

namespace Work

/-- **To capture a store that is kept** succeeds if the file can be written. The user's part of the
store is then found in the file, and nothing else was written but the store as it was. -/
theorem does_runCapture_kept {settings : Settings} {t₀ : FileTree} {file : String} {st : Store}
    (hst : st.Capturable) (hready : t₀.Ready settings.store.dataDir file st)
    (hfew : overloaded settings = false) (ignoreErrors : Bool) :
    Does (fun t => t = t₀) (runCapture host settings (some file) ignoreErrors)
      (fun _ t => ∃ (u : UidSource) (config? : Option Configuration) (t' : FileTree),
        Sound IsWhole64 nestingLimit ((⟨st, u⟩ : Cluster).userPart config?) ∧
        withStore? t₀ settings.store.dataDir st.text = some t' ∧
        t'.write? file (JsonForm.toJson ((⟨st, u⟩ : Cluster).userPart config?)).indented = some t)
      fun _ => False := by
  obtain ⟨t₁, hmade⟩ : ∃ t₁, t₁ = (host.makeDirectories settings.store.dataDir t₀).2 := ⟨_, rfl⟩
  obtain ⟨text, hfound, hread⟩ := hready.kept
  obtain ⟨t', hstored⟩ := Option.isSome_iff_exists.mp hready.storable
  obtain ⟨t', hstored⟩ := FileTree.exists_write? hstored st.text
  obtain ⟨t'', hwritable⟩ := Option.isSome_iff_exists.mp hready.writable
  rw [← hmade] at hstored hwritable
  have hopens : opened? t₁ (storePath settings.store.dataDir) = some (st, t') := by
    have hkept : kept? t₁ (storePath settings.store.dataDir) = some st := by
      rw [kept?, hmade, (FileTree.within_makeDirectories _ t₀).find? hfound]
      exact hread
    rw [opened?, hkept, Option.bind_some, hstored, Option.map_some]
  have hopened : Does (fun t => t = t₀) (openStore host settings.store.dataDir none)
      (fun s t => t = t' ∧ s = ⟨storePath settings.store.dataDir, st⟩) fun _ => False := by
    refine does_openStore (M := fun t => t = t₁) (fun t ht _ => ?_) (fun t ht hno => ?_)
      (fun t ht s u hu => ?_) (fun t ht hclosed => ?_)
    · rw [ht, hmade]
    · rw [ht, hready.made] at hno
      cases hno
    · rw [ht, hopens] at hu
      obtain ⟨rfl, rfl⟩ := Prod.mk.inj (Option.some.inj hu)
      exact ⟨rfl, rfl⟩
    · rw [ht, hopens] at hclosed
      exact hclosed.elim (fun h => h rfl) fun h => by cases h
  rw [runCapture]
  refine hopened.bind fun s => does_of_and fun hs => ?_
  subst hs
  refine Does.bind (Q := fun _ t => t = t') (does_checkTasks (fun _ ht _ => ht) fun _ _ hmany => ?_)
    fun _ => ?_
  · rw [hfew] at hmany
    cases hmany
  have hkept : ∀ t, t = t' →
      (t.write? (storePath settings.store.dataDir) st.text).getD t = t' := by
    rintro t rfl
    rw [FileTree.write?_write? hstored, hstored, Option.getD_some]
  have hcaptured := does_capture (s := ⟨storePath settings.store.dataDir, st⟩)
    (R := fun _ => False) hst hkept settings (commandOptions settings ignoreErrors false)
  refine hcaptured.bind fun snapshot => does_of_and fun hsnapshot => ?_
  obtain ⟨u, config?, hsound, rfl⟩ := hsnapshot
  refine does_writeText (fun t ht t₂ hwritten => ?_) (fun t ht hnone => ?_)
    (does_pure fun _ ht => ht)
  · rw [hmade] at hstored
    exact ⟨u, config?, t', hsound, hstored, ht ▸ hwritten⟩
  · obtain ⟨t₂, hwritten⟩ := FileTree.exists_write?_after hwritable hstored
      (JsonForm.toJson ((⟨st, u⟩ : Cluster).userPart config?)).indented
    rw [ht, hwritten] at hnone
    cases hnone

end Work

/-- The settings when no file with settings is given. -/
def settingsAt (dataDir? : Option String) : Settings :=
  { Settings.default with store := ⟨dataDir?.getD Settings.default.store.dataDir⟩ }

/-- To load settings without a file only puts the data directory in its place. -/
theorem loadSettings_none (dataDir? : Option String) :
    (loadSettings host none dataDir? : Work (StateM FileTree) Settings) =
      pure (settingsAt dataDir?) := by
  cases dataDir? <;> rfl

/-- A file holds a snapshot, and it can be replayed: whatever is done to other files, to replay this
one without flags and without a file with settings into a fresh data directory succeeds, and the
store that is kept there then holds every object of the snapshot. -/
def FileTree.HoldsReplayable (t : FileTree) (file : String) : Prop :=
  ∃ content s, t.find? file = some (.text content) ∧
    JsonForm.ofText? content = some (s : Snapshot) ∧
    ∀ (t' : FileTree) (dataDir? : Option String) (uids : UidSource) (args : List String),
      t'.find? file = some (.text content) →
      t'.Fresh (dataDir?.getD Settings.default.store.dataDir) →
      parse args = .invocation ⟨none, dataDir?, .replay file false false⟩ →
        (execute host uids args t').1.1.exitCode = 0 ∧
          (execute host uids args t').2.Mirrors (dataDir?.getD Settings.default.store.dataDir) s

namespace Work

variable {c : Cluster} {config? : Option Configuration} {file : String}

/-- The work of a replay without flags and settings, after which something holds. -/
theorem does_carryOut_replay {P Q R : FileTree → Prop} {dataDir? : Option String}
    (h : Does P (runReplay host (settingsAt dataDir?) file false false) (fun _ => Q) R) :
    Does P (carryOut host ⟨none, dataDir?, .replay file false false⟩) (fun _ => Q) R := by
  rw [carryOut, loadSettings_none]
  exact h.bind fun _ => does_pure fun _ ht => ht

/-- The work of a capture without flags and settings, after which something holds. -/
theorem does_carryOut_capture {P Q R : FileTree → Prop} {dataDir? : Option String}
    (h : Does P (runCapture host (settingsAt dataDir?) (some file) false) (fun _ => Q) R) :
    Does P (carryOut host ⟨none, dataDir?, .capture (some file) false⟩) (fun _ => Q) R := by
  rw [carryOut, loadSettings_none]
  exact h

/-- **A snapshot that was captured of a capturable store** is replayed from a file. -/
theorem execute_replay (hc : c.store.Capturable)
    (hsound : Sound IsWhole64 nestingLimit (c.userPart config?)) {t : FileTree}
    (hfile : t.find? file = some (.text (JsonForm.toJson (c.userPart config?)).indented))
    {dataDir? : Option String} (hfresh : t.Fresh (settingsAt dataDir?).store.dataDir)
    {args : List String}
    (hparse : parse args = .invocation ⟨none, dataDir?, .replay file false false⟩)
    (uids : UidSource) :
    (execute host uids args t).1.1.exitCode = 0 ∧
      (execute host uids args t).2.Mirrors (settingsAt dataDir?).store.dataDir
        (c.userPart config?) :=
  (execute_of_does hparse (does_carryOut_replay (does_runReplay hc hsound rfl rfl rfl)) uids
    ⟨hfile, hfresh⟩).resolve_right And.right

/-- A file with what was captured can be replayed. -/
theorem HoldsCaptured.holdsReplayable {t : FileTree} (h : HoldsCaptured t file) :
    t.HoldsReplayable file := by
  obtain ⟨c, config?, hc, hsound, hfile⟩ := h
  have hread : JsonForm.ofText? (JsonForm.toJson (c.userPart config?)).indented =
      some (c.userPart config?) :=
    (JsonForm.ofText?_indented _).trans (JsonForm.ofText?_text_whole hsound)
  exact ⟨_, _, hfile, hread, fun t' dataDir? uids args hfile' hfresh hparse =>
    execute_replay hc hsound hfile' hfresh hparse uids⟩

/-- **A replay that succeeds** leaves all files as they are but for the store. -/
theorem execute_replay_store {t : FileTree} {dataDir? : Option String} {args : List String}
    (hparse : parse args = .invocation ⟨none, dataDir?, .replay file false false⟩)
    (uids : UidSource) (hdone : (execute host uids args t).1.1.exitCode = 0) :
    ∃ text, withStore? t (settingsAt dataDir?).store.dataDir text =
      some (execute host uids args t).2 :=
  ((execute_of_does hparse (does_carryOut_replay (does_runReplay_store t _ file false false)) uids
    rfl).resolve_right fun h => h.1 hdone).2

/-- **A store that is kept** is captured to a file. -/
theorem execute_capture {st : Store} (hst : st.Capturable) {t : FileTree}
    {dataDir? : Option String} (hready : t.Ready (settingsAt dataDir?).store.dataDir file st)
    {args : List String}
    (hparse : parse args = .invocation ⟨none, dataDir?, .capture (some file) false⟩)
    (uids : UidSource) :
    (execute host uids args t).1.1.exitCode = 0 ∧
      ∃ (u : UidSource) (config? : Option Configuration) (t' : FileTree),
        Sound IsWhole64 nestingLimit ((⟨st, u⟩ : Cluster).userPart config?) ∧
        withStore? t (settingsAt dataDir?).store.dataDir st.text = some t' ∧
        t'.write? file (JsonForm.toJson ((⟨st, u⟩ : Cluster).userPart config?)).indented =
          some (execute host uids args t).2 :=
  (execute_of_does hparse (does_carryOut_capture (does_runCapture_kept hst hready rfl false)) uids
    rfl).resolve_right And.right

end Work

/-- **Whatever is captured can be replayed.** If the files have come about by commands, whatever
their arguments and settings and however they ended, and by what a user may do in between, then a
file that a capture has written can be replayed into every fresh data directory, with every object
that it holds. -/
theorem replays_what_was_captured {t : FileTree} (h : t.Arises) {uids : UidSource}
    {args : List String} {i : Invocation} {file : String} {ignoreErrors : Bool}
    (hparse : parse args = .invocation i) (hcommand : i.command = .capture (some file) ignoreErrors)
    (hdone : (execute host uids args t).1.1.exitCode = 0) :
    (execute host uids args t).2.HoldsReplayable file := by
  obtain ⟨htree, hexit⟩ := execute_of_parse hparse uids t
  obtain ⟨output, hresult⟩ := hexit.mp hdone
  rw [htree]
  exact (((Work.does_carryOut i ⟨uids, []⟩ t h.clean).1 output hresult).2 file ignoreErrors
    hcommand).holdsReplayable

/-- A snapshot with a node is replayed into a fresh data directory. What is captured there has the
node, too, and can be replayed into the next one. -/
theorem replays_what_was_captured_node :
    let uids : UidSource := ⟨toString, 0⟩
    let held : Cluster := Cluster.afterPut ⟨.empty, uids⟩ (Desired.plain .node "worker" none)
    let content := (JsonForm.toJson (held.userPart none)).indented
    let t : FileTree := ⟨["home"], [(["home", "in.json"], .text content)]⟩
    let replayed := execute host uids ["--data-dir", "a", "import", "-i", "in.json"] t
    let captured := execute host uids ["--data-dir", "a", "export", "-o", "out.json"] replayed.2
    replayed.2.Arises ∧ replayed.1.1.exitCode = 0 ∧ captured.1.1.exitCode = 0 ∧
      captured.2.HoldsReplayable "out.json" ∧
      ∃ (content : String) (s : Snapshot), captured.2.find? "out.json" = some (.text content) ∧
        JsonForm.ofText? content = some s ∧ s.objects.node.map (·.metadata.name) = ["worker"] ∧
        let again := execute host uids ["--data-dir", "b", "import", "-i", "out.json"] captured.2
        again.1.1.exitCode = 0 ∧ again.2.Mirrors "b" s := by
  intro uids held content t replayed captured
  have hheld : held.store.Capturable :=
    Store.Capturable.afterPut .empty (Desired.sound_plain .node "worker" none) rfl
  have hsound : Sound IsWhole64 nestingLimit (held.userPart none) := hheld.sound_userPart nofun
  have hnodes : (held.userObjects .node).map (·.metadata.name) = ["worker"] := by decide +kernel
  have ht : t.Arises := by
    refine .edit (.empty ["home"]) fun other hother => .inr ?_
    obtain rfl : other = content := FileTree.holds_only hother
    exact .indented hsound
  have hcontent : t.find? "in.json" =
    some (.text (JsonForm.toJson (held.userPart none)).indented) := rfl
  clear_value content held
  -- the snapshot is replayed into the first data directory
  have hparse : parse ["--data-dir", "a", "import", "-i", "in.json"] =
    .invocation ⟨none, some "a", .replay "in.json" false false⟩ := by decide +kernel
  obtain ⟨hreplayed, text, st, hfound, hread, hmirrors⟩ :=
    Work.execute_replay hheld hsound hcontent ⟨rfl, rfl, rfl⟩ hparse uids
  obtain ⟨text', hstore⟩ := Work.execute_replay_store hparse uids hreplayed
  have hin : replayed.2 = ⟨["home"], [(["home", "a", "schedsim.redb"], .text text'),
    (["home", "a"], .directory), (["home", "in.json"], .text content)]⟩ :=
      (Option.some.inj hstore).symm
  have harises : replayed.2.Arises := ht.run uids _
  change replayed.1.1.exitCode = 0 at hreplayed
  change replayed.2.find? _ = _ at hfound
  clear_value replayed
  -- what is there now is captured
  have hst : st.Capturable := harises.clean.kept? (by rw [Work.kept?, hfound]; exact hread)
  have hready : replayed.2.Ready (settingsAt (some "a")).store.dataDir "out.json" st := by
    have hkept : ∃ text, replayed.2.find? (storePath "a") = some (.text text) ∧
      Store.ofText? text = some st := ⟨text, hfound, hread⟩
    rw [hin] at hkept ⊢
    exact ⟨rfl, hkept, rfl, rfl⟩
  have hparse' : parse ["--data-dir", "a", "export", "-o", "out.json"] =
    .invocation ⟨none, some "a", .capture (some "out.json") false⟩ := by decide +kernel
  obtain ⟨hcaptured, u, config?, t', hsound', hstored, hwritten⟩ :=
    Work.execute_capture hst hready hparse' uids
  have hholds : captured.2.HoldsReplayable "out.json" :=
    replays_what_was_captured harises hparse' rfl hcaptured
  change t'.write? _ _ = some captured.2 at hwritten
  change captured.1.1.exitCode = 0 at hcaptured
  clear_value captured
  obtain ⟨content', s, hfile, hread', hreplay⟩ := hholds
  have hnames : s.objects.node.map (·.metadata.name) = ["worker"] := by
    have hcontent := FileTree.find?_write? hwritten
    rw [hfile] at hcontent
    obtain rfl : content' = _ := FileNode.text.inj (Option.some.inj hcontent)
    have hread := (JsonForm.ofText?_indented _).trans (JsonForm.ofText?_text_whole hsound')
    obtain rfl : s = (⟨st, u⟩ : Cluster).userPart config? :=
      Option.some.inj (hread'.symm.trans hread)
    have hsame := hmirrors.portable_userObjects hst.readable u .node
    have hnames := congrArg (List.map (·.metadata.name)) hsame
    rw [List.map_map, List.map_map] at hnames
    exact hnames.trans hnodes
  -- and what was captured is replayed into the second
  have hparse'' : parse ["--data-dir", "b", "import", "-i", "out.json"] =
    .invocation ⟨none, some "b", .replay "out.json" false false⟩ := by decide +kernel
  have hfresh : captured.2.Fresh "b" := by
    rw [hin] at hstored
    obtain rfl : ⟨["home"], [(["home", "a", "schedsim.redb"], .text st.text),
      (["home", "a"], .directory), (["home", "in.json"], .text content)]⟩ = t' :=
        Option.some.inj hstored
    generalize (JsonForm.toJson ((⟨st, u⟩ : Cluster).userPart config?)).indented = written
      at hwritten
    have hout : captured.2 = ⟨["home"], [(["home", "out.json"], .text written),
      (["home", "a", "schedsim.redb"], .text st.text), (["home", "a"], .directory),
      (["home", "in.json"], .text content)]⟩ := (Option.some.inj hwritten).symm
    rw [hout]
    exact ⟨rfl, rfl, rfl⟩
  obtain ⟨hagain, hmirrors'⟩ := hreplay _ (some "b") uids _ hfile hfresh hparse''
  exact ⟨harises, hreplayed, hcaptured, ⟨content', s, hfile, hread', hreplay⟩, content', s, hfile,
    hread', hnames, hagain, hmirrors'⟩

end ClusterSnapshot.CommandLine
