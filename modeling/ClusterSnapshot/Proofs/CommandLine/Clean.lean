import ClusterSnapshot.Proofs.CommandLine.Work
import ClusterSnapshot.Proofs.Operation.Capturable

/-!
# Files that commands leave

A text does no harm in a file if a store that it keeps can be captured, and if a replay that it
denotes is sound. Files are *clean* if none of their texts does harm. Every command leaves clean
files clean, whatever its arguments, its settings and its failures: all that it writes is a store
that can be captured or a snapshot that is sound, and the text of the one is never taken for the
other.

## Main results

* `Harmless.store_text`, `Harmless.indented`: what a command writes does no harm.
* `Work.does_carryOut`: **every command leaves clean files clean**.
* `Work.does_runCapture`: a capture that succeeds has written what was captured of a capturable
  store.
-/

namespace ClusterSnapshot.CommandLine

open FileTree (host)
open JsonForm (Sound)
open Number (IsWhole64)
open Scheduler (Configuration)

/-- A text that does no harm in a file: a store that it keeps can be captured, and a replay that it
denotes is sound. -/
structure Harmless (text : String) : Prop where
  store : ∀ s, Store.ofText? text = some s → s.Capturable
  replay : ∀ r : Replay, JsonForm.ofText? text = some r → Sound IsWhole64 nestingLimit r

/-- **The text of a capturable store** does no harm. -/
theorem Harmless.store_text {s : Store} (h : s.Capturable) : Harmless s.text := by
  have hreopened := s.ofText?_text_reopened
  refine ⟨fun s' hs' => ?_, fun r hr => ?_⟩
  · obtain rfl := Option.some.inj (hreopened.symm.trans hs')
    exact h.reopened
  · rw [JsonForm.ofText?, Store.not_json hreopened] at hr
    cases hr

/-- **The text of a sound snapshot** does no harm. -/
theorem Harmless.indented {s : Snapshot} (h : Sound IsWhole64 nestingLimit s) :
    Harmless (JsonForm.toJson s).indented := by
  have hscanned := Json.ofText?_indented (JsonForm.toJson s)
  refine ⟨fun s' hs' => ?_, fun r hr => ?_⟩
  · rw [Store.not_json hs'] at hscanned
    cases hscanned
  · rw [Json.scanned_eq_document h.numbers] at hscanned
    rw [JsonForm.ofText?, hscanned, Option.bind_some] at hr
    exact Contents.form_lawful.lawfulFrom.sound (by decide) hr h.numbers

namespace FileTree

variable {t t' : FileTree} {path content : String}

/-- No text in the files does harm. -/
def Clean (t : FileTree) : Prop := ∀ content, t.Holds content → Harmless content

/-- Files stay clean when a harmless text is written. -/
theorem Clean.write? (h : t.Clean) (hcontent : Harmless content)
    (hwritten : t.write? path content = some t') : t'.Clean := by
  intro other hother
  rcases holds_write? hwritten hother with rfl | hbefore
  · exact hcontent
  · exact h other hbefore

/-- Files stay clean whether or not a harmless text could be written. -/
theorem Clean.getD_write? (h : t.Clean) (hcontent : Harmless content) (path : String) :
    ((t.write? path content).getD t).Clean := by
  cases hwritten : t.write? path content with
  | none => exact h
  | some t' => exact h.write? hcontent hwritten

/-- Files stay clean when directories are made. -/
theorem Clean.makeDirectories (h : t.Clean) (path : String) :
    (host.makeDirectories path t).2.Clean :=
  fun content hcontent => h content (holds_makeDirectories hcontent)

/-- A store that is kept in clean files is capturable. -/
theorem Clean.kept? (h : t.Clean) {s : Store} (hkept : Work.kept? t path = some s) :
    s.Capturable := by
  rw [Work.kept?] at hkept
  split at hkept
  · obtain rfl := Option.some.inj hkept
    exact .empty
  · rename_i content hfound
    exact (h content (holds_of_find? hfound)).store s hkept
  · cases hkept

end FileTree

namespace Work

open FileTree (Clean)

variable {P : FileTree → Prop}

/-! ### Stores -/

/-- To open a store leaves clean files clean, and the store is capturable. -/
theorem clean_openStore (dataDir : String) (other? : Option OpenStore) :
    Does Clean (openStore host dataDir other?) (fun s t => t.Clean ∧ s.store.Capturable) Clean := by
  refine does_openStore (M := Clean) (fun t ht _ => ht.makeDirectories dataDir)
    (fun t ht _ => ht.makeDirectories dataDir) (fun t ht s t' hopened => ?_) (fun _ ht _ => ht)
  obtain ⟨s', hkept, hopened⟩ := Option.bind_eq_some_iff.mp hopened
  obtain ⟨t'', hwritten, heq⟩ := Option.map_eq_some_iff.mp hopened
  obtain ⟨rfl, rfl⟩ := Prod.mk.inj heq
  exact ⟨ht.write? (.store_text (ht.kept? hkept)) hwritten, ht.kept? hkept⟩

/-- To save a capturable store leaves clean files clean. -/
theorem clean_saveStore {s : OpenStore} (hs : s.store.Capturable) :
    Does Clean (saveStore host s) (fun _ => Clean) Clean :=
  does_saveStore fun _ ht => ht.getD_write? (.store_text hs) s.path

/-- To check the number of tasks leaves clean files clean. -/
theorem clean_checkTasks (settings : Settings) :
    Does Clean (checkTasks settings) (fun _ => Clean) Clean :=
  does_checkTasks (fun _ ht _ => ht) fun _ ht _ => ht

/-- A cluster is a lawful part of itself. -/
theorem wholeCluster_lawful : wholeCluster.Lawful := ⟨fun _ _ => rfl, fun _ => rfl⟩

/-- The source is a lawful part of two stores. -/
theorem TwoStores.lawful_source : TwoStores.sourceCluster.Lawful := ⟨fun _ _ => rfl, fun _ => rfl⟩

/-- The target is a lawful part of two stores. -/
theorem TwoStores.lawful_target : TwoStores.targetCluster.Lawful := ⟨fun _ _ => rfl, fun _ => rfl⟩

/-- The operator of a command shows the cluster that it works on. -/
theorem shows_clusterOperator {σ : Type} {part : Part σ Cluster} (hpart : part.Lawful)
    (settings : Settings) : (clusterOperator settings part).server.Shows part.get
      (Cluster.server "cluster" settings.scheduler.external) :=
  Server.shows_within hpart _

/-! ### Commands -/

/-- What a file holds was captured of a capturable store. -/
def HoldsCaptured (t : FileTree) (path : String) : Prop :=
  ∃ (c : Cluster) (config? : Option Configuration), c.store.Capturable ∧
    Sound IsWhole64 nestingLimit (c.userPart config?) ∧
    t.find? path = some (.text (JsonForm.toJson (c.userPart config?)).indented)

/-- **To capture a capturable store** never fails and changes nothing: the store is kept as it is,
and what is captured is the user's part of it. -/
theorem does_capture {R : FileTree → Prop} {s : OpenStore} (hs : s.store.Capturable)
    (hkept : ∀ t, P t → P ((t.write? s.path s.store.text).getD t)) (settings : Settings)
    (options : Options) :
    Does P (performOn host .capture s ((clusterOperator settings wholeCluster).capture options))
      (fun snapshot t => P t ∧ ∃ (u : UidSource) (config? : Option Configuration),
        Sound IsWhole64 nestingLimit ((⟨s.store, u⟩ : Cluster).userPart config?) ∧
          snapshot = (⟨s.store, u⟩ : Cluster).userPart config?) R := by
  refine does_perform fun u => ?_
  let c : Cluster := ⟨s.store, u⟩
  obtain ⟨config?, hresult, hstate, hsound⟩ :=
    (clusterOperator settings wholeCluster).captured_sound options
      (Cluster.reads_within wholeCluster_lawful "cluster" settings.scheduler.external c) hs rfl
      (rfl : (Run.start c).state = c)
  rw [hstate, hresult]
  refine does_saveStore fun t ht => ⟨fun snapshot hsnapshot => ?_, fun _ he => ?_⟩
  · obtain rfl := Except.ok.inj hsnapshot
    exact ⟨hkept t ht, u, config?, hsound, rfl⟩
  · cases he

/-- **A capture that succeeds** has written what was captured. -/
theorem does_runCapture (settings : Settings) (output? : Option String) (ignoreErrors : Bool) :
    Does Clean (runCapture host settings output? ignoreErrors)
      (fun _ t => t.Clean ∧ ∀ path ∈ output?, HoldsCaptured t path) Clean := by
  rw [runCapture]
  refine (clean_openStore _ none).bind fun s => does_of_and fun hs => ?_
  refine (clean_checkTasks settings).bind fun _ => ?_
  have hkept : ∀ t, Clean t → Clean ((t.write? s.path s.store.text).getD t) :=
    fun t ht => ht.getD_write? (.store_text hs) s.path
  refine (does_capture hs hkept settings _).bind fun snapshot => does_of_and fun hsnapshot => ?_
  obtain ⟨u, config?, hsound, rfl⟩ := hsnapshot
  cases output? with
  | none => exact does_pure fun t ht => ⟨ht, fun _ hpath => by cases hpath⟩
  | some path =>
      have hharmless := Harmless.indented hsound
      refine does_writeText (fun t ht t' hwritten => ?_) (fun t ht _ => ht)
        (does_pure fun _ ht => ht)
      refine ⟨ht.write? hharmless hwritten, fun path' hpath' => ?_⟩
      obtain rfl := Option.some.inj hpath'
      exact ⟨_, config?, hs, hsound, FileTree.find?_write? hwritten⟩

/-- A replay leaves clean files clean. -/
theorem clean_runReplay (settings : Settings) (input : String)
    (ignoreErrors ignoreSchedulerConfig : Bool) :
    Does Clean (runReplay host settings input ignoreErrors ignoreSchedulerConfig)
      (fun _ => Clean) Clean := by
  rw [runReplay]
  extract_lets options operator replayed
  have hreplayed : ∀ r : Replay, Sound IsWhole64 nestingLimit r →
      Does Clean (replayed r) (fun _ => Clean) Clean := by
    intro r hr
    refine (clean_openStore _ none).bind fun s => does_of_and fun hs => ?_
    have hshows : operator.server.Shows wholeCluster.get
        (Cluster.server "cluster" settings.scheduler.external) :=
      shows_clusterOperator wholeCluster_lawful settings
    refine Does.bind (Q := fun _ => Clean) (does_perform fun u => ?_) fun _ =>
      clean_checkTasks settings
    have hafter : ((if overloaded settings then operator.replayConfig r options
        else operator.replay r options) (Run.start ⟨s.store, u⟩)).2.state.store.Capturable := by
      split
      · exact operator.capturable_replayConfig options hshows hr hs
      · exact operator.capturable_replay options hshows hr hs
    exact (clean_saveStore (s := { s with store := _ }) hafter).after fun _ t ht =>
      ⟨fun _ _ => ht, fun _ _ => ht⟩
  have hread : Does Clean (onHost (host.readText input))
      (fun reading t => t.Clean ∧ ∀ content, reading = .text content → Harmless content) Clean := by
    refine (does_readText input).after fun reading t ht => ⟨ht.1, fun content hcontent => ?_⟩
    exact ht.1 content (FileTree.holds_of_find? (FileTree.reading_eq_text.mp (ht.2.trans hcontent)))
  refine hread.bind fun reading => does_of_and fun hreading => ?_
  cases reading with
  | unreadable => exact does_fail_bind fun _ ht => ht
  | notText => exact does_fail_bind fun _ ht => ht
  | text content =>
      simp only
      cases hr : (JsonForm.ofText? content : Option Replay) with
      | none => exact does_fail_bind fun _ ht => ht
      | some r => exact hreplayed r ((hreading content rfl).replay r hr)

/-- A clearing leaves clean files clean. -/
theorem clean_runClear (settings : Settings) (ignoreErrors : Bool) :
    Does Clean (runClear host settings ignoreErrors) (fun _ => Clean) Clean := by
  rw [runClear]
  refine (clean_openStore _ none).bind fun s => does_of_and fun hs => ?_
  refine (clean_checkTasks settings).bind fun _ => does_perform fun u => ?_
  have hafter := (clusterOperator settings wholeCluster).capturable_clear
    (commandOptions settings ignoreErrors false) (p := Run.start ⟨s.store, u⟩)
    (shows_clusterOperator wholeCluster_lawful settings) hs
  exact (clean_saveStore (s := { s with store := _ }) hafter).after fun _ t ht =>
    ⟨fun _ _ => ht, fun _ _ => ht⟩

/-- A copy leaves clean files clean. -/
theorem clean_runCopy (settings : Settings) (source : String)
    (ignoreErrors ignoreSchedulerConfig : Bool) :
    Does Clean (runCopy host settings source ignoreErrors ignoreSchedulerConfig)
      (fun _ => Clean) Clean := by
  rw [runCopy]
  refine does_unless (M := Clean) (fun _ ht _ => ht) (fun _ ht _ => ht) ?_
  refine (clean_openStore _ none).bind fun origin => does_of_and fun horigin => ?_
  refine (clean_openStore _ (some origin)).bind fun target => does_of_and fun htarget => ?_
  refine (clean_checkTasks settings).bind fun _ => does_perform fun u => ?_
  obtain ⟨htargetAfter, horiginAfter⟩ :=
    (clusterOperator settings TwoStores.targetCluster).capturable_copyFrom
      (commandOptions settings ignoreErrors ignoreSchedulerConfig)
      (p := Run.start ⟨origin.store, target.store, u⟩) TwoStores.lawful_source
      TwoStores.lawful_target rfl (fun _ _ => rfl) horigin htarget "source" false
  refine Does.bind (clean_saveStore (s := { origin with store := _ }) ?_) fun _ =>
    (clean_saveStore (s := { target with store := _ }) htargetAfter).after fun _ t ht =>
      ⟨fun _ _ => ht, fun _ _ => ht⟩
  exact cast (congrArg Store.Capturable horiginAfter.symm) horigin

/-- To load settings changes no file. -/
theorem does_loadSettings (config? dataDir? : Option String) :
    Does P (loadSettings host config? dataDir?) (fun _ => P) P := by
  rw [loadSettings.eq_def]
  extract_lets loaded
  have hloaded : ∀ settings, Does P (loaded settings) (fun _ => P) P :=
    fun settings => does_pure fun _ ht => ht
  cases config? with
  | none => exact hloaded _
  | some path =>
      have hread : Does P (onHost (host.readText path)) (fun _ => P) P :=
        (does_readText path).after fun _ _ ht => ht.1
      refine hread.bind fun reading => ?_
      cases reading with
      | unreadable => exact does_fail_bind fun _ ht => ht
      | notText => exact does_fail_bind fun _ ht => ht
      | text content =>
          simp only
          cases Settings.ofText content with
          | error e => exact does_fail_bind fun _ ht => ht
          | ok settings => exact hloaded settings

/-- **Every command leaves clean files clean.** A capture that succeeds has written what was
captured. -/
theorem does_carryOut (i : Invocation) : Does Clean (carryOut host i)
    (fun _ t => t.Clean ∧ ∀ path ignoreErrors, i.command = .capture (some path) ignoreErrors →
      HoldsCaptured t path) Clean := by
  rw [carryOut]
  refine (does_loadSettings i.config? i.dataDir?).bind fun settings => ?_
  cases hcommand : i.command with
  | capture output? ignoreErrors =>
      refine (does_runCapture settings output? ignoreErrors).after fun _ t ht => ⟨ht.1, ?_⟩
      intro path ignoreErrors' heq
      cases heq
      exact ht.2 path rfl
  | replay input ignoreErrors ignoreSchedulerConfig =>
      refine (clean_runReplay settings input ignoreErrors ignoreSchedulerConfig).bind fun _ => ?_
      exact does_pure fun t ht => ⟨ht, fun _ _ heq => by cases heq⟩
  | copy source ignoreErrors ignoreSchedulerConfig =>
      refine (clean_runCopy settings source ignoreErrors ignoreSchedulerConfig).bind fun _ => ?_
      exact does_pure fun t ht => ⟨ht, fun _ _ heq => by cases heq⟩
  | clear ignoreErrors =>
      refine (clean_runClear settings ignoreErrors).bind fun _ => ?_
      exact does_pure fun t ht => ⟨ht, fun _ _ heq => by cases heq⟩
  | config =>
      simp only
      cases settings.text? with
      | none => exact does_fail fun _ ht => ht
      | some text => exact does_pure fun t ht => ⟨ht, fun _ _ heq => by cases heq⟩

end Work

end ClusterSnapshot.CommandLine
