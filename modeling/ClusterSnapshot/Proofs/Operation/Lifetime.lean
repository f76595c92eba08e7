import ClusterSnapshot.Proofs.Operation.Keeping
import ClusterSnapshot.Proofs.Store.Address
import ClusterSnapshot.Proofs.Store.Serving
import ClusterSnapshot.Proofs.Store.Text

/-!
# The life of a store

A store begins empty. From then on objects are written and removed, the scheduler is restarted,
whole snapshots are replayed into it, it is cleared, others are copied into it, and it is kept as a
file and opened again. All this may fail half way. Still every text in it can be read, every object
is kept where it says that it is, and the configuration of the scheduler is the one that was set
last.

## Main results

* `Lived`: the lives of a cluster, with the configuration that was set last.
* `Lived.upkept`: **the invariant of a life**.
* `Lived.legible`: **what a store answers at any time of its life**.
-/

namespace ClusterSnapshot

open JsonForm (Sound Rereads)
open Number (InRange IsWhole64)
open Scheduler (Configuration)

variable {σ : Type} {k : Kind} {P : Number → Prop}

/-! ### The configuration that was set last -/

/-- The configuration that a call has set. -/
def Call.sets? (call : Call) : Option Configuration :=
  match call.request, call.failure? with
  | .restart config?, none => some (config?.getD .default)
  | _, _ => none

/-- The configuration that was set last when calls were made, if another one was set before. -/
def lastSet? (calls : List Call) (before? : Option Configuration) : Option Configuration :=
  calls.foldl (fun last? call => call.sets?.or last?) before?

/-- The last configuration of further calls counts, or else that of the first ones. -/
theorem lastSet?_append (calls calls' : List Call) (before? : Option Configuration) :
    lastSet? (calls ++ calls') before? = lastSet? calls' (lastSet? calls before?) :=
  List.foldl_append

/-- A call that only reads sets nothing. -/
theorem Call.sets?_of_reads {call : Call} (h : call.request.Reads) : call.sets? = none := by
  obtain ⟨cluster, r, failure?⟩ := call
  cases r with
  | list k ns? | get k name ns? | getConfig => rfl
  | apply k d | delete k name ns? | restart config? => cases h

/-- Calls that only read set no configuration. -/
theorem lastSet?_of_reads {calls : List Call} (h : ∀ call ∈ calls, call.request.Reads)
    (before? : Option Configuration) : lastSet? calls before? = before? := by
  induction calls with
  | nil => rfl
  | cons call rest ih =>
      obtain ⟨hcall, hrest⟩ := List.forall_mem_cons.mp h
      rw [lastSet?, List.foldl_cons, Call.sets?_of_reads hcall]
      exact ih hrest

/-- A call that failed sets nothing. -/
theorem Call.sets?_of_failure {call : Call} (h : call.failure?.isSome) : call.sets? = none := by
  obtain ⟨cluster, r, failure?⟩ := call
  cases failure? with
  | none => cases h
  | some e => cases r <;> rfl

/-- The configuration that the scheduler is restarted with is sound if what is handed in is. -/
theorem Request.sound_of_restart [NumberRange P] {config? : Option Configuration}
    (h : (Request.restart config?).HandsInSound P) :
    Sound P nestingLimit (config?.getD .default) := by
  cases config? with
  | none => exact Configuration.sound_default
  | some config => exact h config rfl

/-! ### Lives -/

/-- **The lives of a cluster**, with the configuration that was set last in it. What is handed in
survives being written and has numbers with a property. -/
inductive Lived (P : Number → Prop) : Cluster → Option Configuration → Prop
  | fresh (uid : Nat → String) : Lived P ⟨.empty, ⟨uid, 0⟩⟩ none
  | put {c c' : Cluster} {last? : Option Configuration} {k : Kind} {d : Desired k} {o : Stored k} :
    Lived P c last? → Sound P nestingLimit d → c.put d = .ok (o, c') → Lived P c' last?
  | remove {c : Cluster} {last? : Option Configuration} (k : Kind) (name : String)
    (ns? : Option String) : Lived P c last? → Lived P (c.afterRemove k name ns?) last?
  | setActiveConfig {c : Cluster} {last? : Option Configuration} {config : Configuration} :
    Lived P c last? → Sound P nestingLimit config → Lived P (c.afterConfig config) (some config)
  /-- A request is made, as to create an object or to restart the scheduler. -/
  | request {c : Cluster} {last? : Option Configuration} (name : String) (external : Bool)
    (faults : List Fault) {r : Request} : Lived P c last? → r.HandsInSound P →
    Lived P ((Cluster.faultyServer name external faults).serve r c).2
      (lastSet? [(Cluster.faultyServer name external faults).call r c] last?)
  | replay {c : Cluster} {last? : Option Configuration} {name : String} {external : Bool}
    {faults : List Fault} (op : Operator Cluster) (options : Options) {s : Replay} :
    Lived P c last? → op.server = Cluster.faultyServer name external faults → s.AllSound P →
    Lived P (op.replay s options (Run.start c)).2.state
      (lastSet? (op.replay s options (Run.start c)).2.calls last?)
  | clear {c : Cluster} {last? : Option Configuration} {name : String} {external : Bool}
    {faults : List Fault} (op : Operator Cluster) (options : Options) :
    Lived P c last? → op.server = Cluster.faultyServer name external faults →
    Lived P (op.clear options (Run.start c)).2.state
      (lastSet? (op.clear options (Run.start c)).2.calls last?)
  /-- Another cluster is copied into this one, both of them parts of some state. -/
  | copy {σ : Type} {target source : Part σ Cluster} {s : σ} {last? other? : Option Configuration}
    {name name' : String} {external external' : Bool} {faults faults' : List Fault}
    (op : Operator σ) (options : Options) :
    Lived P (target.get s) last? → Lived P (source.get s) other? →
    target.Lawful → source.Lawful →
    op.server = (Cluster.faultyServer name external faults).within target →
    Lived P
      (target.get (op.copyFrom ((Cluster.faultyServer name' external' faults').within source)
        options (Run.start s)).2.state)
      (lastSet? (op.copyFrom ((Cluster.faultyServer name' external' faults').within source) options
        (Run.start s)).2.calls last?)
  /-- The store is opened again, its writes being counted in 64 bits. -/
  | reopen {c : Cluster} {last? : Option Configuration} {s : Store} :
    Lived P c last? → c.store.revision < UInt64.size → Store.ofText? c.store.text = some s →
    Lived P ⟨s, c.uids⟩ last?

/-! ### The invariant of a life -/

namespace Cluster

/-- A well formed cluster that keeps the configuration that was set last. -/
structure Upkept (P : Number → Prop) (c : Cluster) (last? : Option Configuration) : Prop where
  wellFormed : c.WellFormed P
  scheduler : c.store.scheduler? = last?.map JsonForm.text
  sound : ∀ config ∈ last?, Sound P nestingLimit config

variable {c : Cluster} {last? : Option Configuration}

/-- A cluster is kept up when a configuration is set, which is then the last one. -/
theorem Upkept.afterConfig (h : c.Upkept P last?) {config : Configuration}
    (hconfig : Sound P nestingLimit config) : (c.afterConfig config).Upkept P (some config) :=
  ⟨h.wellFormed.afterConfig hconfig, rfl, fun _ hc => by cases hc; exact hconfig⟩

/-- A cluster is kept up when an object is put. -/
theorem Upkept.put [NumberRange P] (h : c.Upkept P last?) {d : Desired k}
    (hd : Sound P nestingLimit d) {o : Stored k} {c' : Cluster} (hput : c.put d = .ok (o, c')) :
    c'.Upkept P last? := by
  obtain ⟨hrefusal, -, rfl⟩ := put_ok h.wellFormed.readable hput
  exact ⟨h.wellFormed.afterPut hd hrefusal, h.scheduler, h.sound⟩

/-- A cluster is kept up when an object is removed. -/
theorem Upkept.remove (h : c.Upkept P last?) (k : Kind) (name : String) (ns? : Option String) :
    (c.afterRemove k name ns?).Upkept P last? :=
  ⟨h.wellFormed.afterRemove name ns?, h.scheduler, h.sound⟩

/-- What is read of the configuration is the reread one that was set last. -/
theorem Upkept.activeConfig_eq [NumberRange P] (h : c.Upkept P last?) :
    c.store.activeConfig = .ok ((last?.map Rereads.reread).getD .default) := by
  rw [Store.activeConfig, h.scheduler]
  cases last? with
  | none => rfl
  | some config => exact Store.decode_ok (JsonForm.ofText?_text (h.sound config rfl))

/-- What a cluster is asked for is answered with what survives being written. -/
theorem Upkept.answersSound [NumberRange P] (h : c.Upkept P last?) (external : Bool) {r : Request}
    {x : r.Answer} (hx : (Cluster.serve external r c).1 = .ok x) : r.AnswersSound P x := by
  cases r with
  | list k ns? =>
      change c.serveList k ns? = .ok x at hx
      rw [serveList, Store.list_eq h.wellFormed.readable] at hx
      obtain rfl : c.store.listed k ns? = x := Except.ok.inj hx
      exact fun o ho => (h.wellFormed.of_find? ((h.wellFormed.mem_listed ns?).mp ho).1).1
  | getConfig =>
      change c.serveConfig external = .ok x at hx
      rw [serveConfig, h.activeConfig_eq] at hx
      split at hx
      · cases hx
      · obtain rfl : (last?.map Rereads.reread).getD .default = x := Except.ok.inj hx
        cases last? with
        | none => exact Configuration.sound_default
        | some config => exact Rereads.sound_reread (h.sound config rfl)
  | get k name ns? | apply k d | delete k name ns? | restart config? => trivial

/-- **A cluster that is asked** keeps the configuration that was set last. -/
theorem Upkept.served [NumberRange P] (h : c.Upkept P last?) {call : Call} {c' : Cluster}
    (hserved : c.Served call.request call.failure? c') (hr : call.request.HandsInSound P) :
    c'.Upkept P (lastSet? [call] last?) := by
  obtain ⟨name, r, failure?⟩ := call
  cases hserved with
  | put hrefusal => exact h.put hr (put_eq h.wellFormed.readable hrefusal)
  | removed => exact h.remove _ _ _
  | restarted => exact h.afterConfig (Request.sound_of_restart hr)
  | read hreads =>
      rw [lastSet?, List.foldl_cons, Call.sets?_of_reads hreads]
      exact h
  | failed =>
      rw [lastSet?, List.foldl_cons, Call.sets?_of_failure rfl]
      exact h

/-- A cluster is kept up by whatever is asked of it, whether or not it fails. -/
theorem Upkept.serve_faulty [NumberRange P] (h : c.Upkept P last?) (name : String) (external : Bool)
    (faults : List Fault) {r : Request} (hr : r.HandsInSound P) :
    ((faultyServer name external faults).serve r c).2.Upkept P
      (lastSet? [(faultyServer name external faults).call r c] last?) :=
  h.served (served_faulty h.wellFormed.readable name external faults r) hr

/-- A cluster that is kept up answers soundly, unless it fails. -/
theorem Upkept.answersSound_faulty [NumberRange P] (h : c.Upkept P last?) (name : String)
    (external : Bool) (faults : List Fault) {r : Request} {x : r.Answer}
    (hx : ((faultyServer name external faults).serve r c).1 = .ok x) : r.AnswersSound P x := by
  cases hf : faults.find? (·.fits r) with
  | some f =>
      rw [faultyServer_of_fault hf] at hx
      cases hx
  | none =>
      rw [faultyServer_of_none hf] at hx
      exact h.answersSound external hx

/-- The cluster that is seen of a state is kept well formed, and the calls that were made say which
configuration was set last. -/
def UpkeptThrough (view : σ → Cluster) (P : Number → Prop) (before? : Option Configuration)
    (t : σ × List Call) : Prop :=
  (view t.1).Upkept P (lastSet? t.2 before?)

/-- What was kept up through all calls is so after them. -/
theorem UpkeptThrough.upkept {view : σ → Cluster} {before? : Option Configuration} {p : Progress σ}
    (h : UpkeptThrough view P before? (Sight.record.see p)) :
    (view p.state).Upkept P (lastSet? p.calls before?) := h

/-- **The server of a cluster keeps it well formed**, and keeps the configuration that was set
last. -/
theorem keeps_upkept [NumberRange P] {view : σ → Cluster} {server : Server σ} {name : String}
    {external : Bool} {faults : List Fault}
    (hserver : server.Shows view (faultyServer name external faults))
    (before? : Option Configuration) :
    server.Keeps (UpkeptThrough view P before?) (Request.HandsInSound P)
      (Request.AnswersSound P) where
  serves r hr t ht := by
    have hserved := Upkept.serve_faulty ht name external faults hr
    have hcall : (server.call r t.1).sets? =
        ((faultyServer name external faults).call r (view t.1)).sets? := by
      rw [Server.call, Server.call, hserver]
      rfl
    rw [hserver] at hserved
    change (view (server.serve r t.1).2).Upkept P (lastSet? (t.2 ++ [server.call r t.1]) before?)
    rw [lastSet?_append, lastSet?, List.foldl_cons, List.foldl_nil, hcall]
    exact hserved
  answers r _ t ht x hx := by
    refine Upkept.answersSound_faulty ht name external faults ?_
    rw [hserver]
    exact hx

/-- A server that is only read is left as it is. -/
theorem keeps_read [NumberRange P] {part : Part σ Cluster} (hpart : part.Lawful) {s : σ}
    {other? : Option Configuration} (hs : (part.get s).Upkept P other?) (name : String)
    (external : Bool) (faults : List Fault) :
    ((faultyServer name external faults).within part).Keeps
      (fun t => t.1 = s ∧ ∀ call ∈ t.2, call.request.Reads) Request.Reads
      (Request.AnswersSound P) where
  serves r hr t ht := by
    obtain ⟨hstate, hcalls⟩ := ht
    refine ⟨?_, List.forall_mem_append.mpr ⟨hcalls, List.forall_mem_singleton.mpr hr⟩⟩
    change part.set ((faultyServer name external faults).serve r (part.get t.1)).2 t.1 = s
    rw [serve_of_reads hr, hpart.set_get, hstate]
  answers r _ t ht x hx := by
    rw [← ht.1] at hs
    exact hs.answersSound_faulty name external faults hx

end Cluster

/-- **The invariant of a life.** -/
theorem Lived.upkept [NumberRange P] {c : Cluster} {last? : Option Configuration}
    (h : Lived P c last?) : c.Upkept P last? := by
  induction h with
  | fresh uid => exact ⟨(Reachable.fresh uid).wellFormed, rfl, fun _ hc => by cases hc⟩
  | put _ hd hput ih => exact ih.put hd hput
  | remove k name ns? _ ih => exact ih.remove k name ns?
  | setActiveConfig _ hconfig ih => exact ih.afterConfig hconfig
  | request name external faults _ hr ih => exact ih.serve_faulty name external faults hr
  | @replay c last? name external faults op options s _ hop hs ih =>
      have hshows : op.server.Shows id (Cluster.faultyServer name external faults) :=
        hop ▸ Server.shows_self _
      have hkeeps := Cluster.keeps_upkept (P := P) hshows last?
      have hreplay := op.keeps_replay hkeeps (fun _ hr => hr) hs options
      have hstart : Cluster.UpkeptThrough id P last? (Sight.record.see (Run.start c)) := ih
      exact (hreplay.apply hstart).2.upkept
  | @clear c last? name external faults op options _ hop ih =>
      have hshows : op.server.Shows id (Cluster.faultyServer name external faults) :=
        hop ▸ Server.shows_self _
      have hkeeps := Cluster.keeps_upkept (P := P) hshows last?
      have hclear := op.keeps_clear hkeeps (fun _ hr => hr.handsInSound) options
      have hstart : Cluster.UpkeptThrough id P last? (Sight.record.see (Run.start c)) := ih
      exact (hclear.apply hstart).2.upkept
  | @copy σ target source s last? other? name name' external external' faults faults' op options _ _
      htarget hsource hop ih ihSource =>
      have hshows : op.server.Shows target.get (Cluster.faultyServer name external faults) :=
        hop ▸ Server.shows_within htarget _
      have hread := Cluster.keeps_read hsource ihSource name' external' faults'
      have hwrite := Cluster.keeps_upkept (P := P) hshows last?
      have hstep : ∀ t : σ × List Call, (t.1 = s ∧ ∀ call ∈ t.2, call.request.Reads) →
          Cluster.UpkeptThrough target.get P last? t := by
        intro t ht
        rw [Cluster.UpkeptThrough, ht.1, lastSet?_of_reads ht.2]
        exact ih
      exact (op.keeps_copyFrom hread hwrite hstep options
        ⟨rfl, fun _ hcall => absurd hcall List.not_mem_nil⟩).upkept
  | @reopen c last? s _ hcount hread ih =>
      rw [Store.ofText?_text hcount] at hread
      obtain rfl := Option.some.inj hread
      exact ih

/-! ### What a store answers -/

/-- What every object says that is kept under a key: the key is made of its own namespace and name,
it has a namespace if and only if its kind has them, and it has all that a store assigns. -/
structure Stored.FiledUnder (key : String) (o : Stored k) : Prop where
  key : objectKey o.metadata.ns? o.metadata.name = key
  name : o.metadata.name ≠ ""
  namespaced : k.isNamespaced = true → ∃ ns, ns ≠ "" ∧ o.metadata.ns? = some ns
  unscoped : k.isNamespaced = false → o.metadata.ns? = none
  apiVersion : o.apiVersion? = some k.apiVersion
  kind : o.kind? = some k.name
  uid : o.metadata.uid?.isSome = true
  version : o.metadata.resourceVersion?.isSome = true
  extra : ∀ e ∈ o.metadata.extra.entries, e.1 ∉ Metadata.serverPopulated

/-- A proper object is filed under its key. -/
theorem Stored.Proper.filedUnder {o : Stored k} {c : Cluster} (h : o.Proper c) :
    o.FiledUnder o.key where
  key := rfl
  name := h.name
  namespaced hk := by
    obtain ⟨ns, hns, hhome⟩ := Kind.home_of_namespaced hk o.metadata.ns?
    exact ⟨ns, hns, h.home.symm.trans hhome⟩
  unscoped hk := h.home.symm.trans (Kind.home_of_not_namespaced hk _)
  apiVersion := h.apiVersion
  kind := h.kind
  uid := by
    obtain ⟨i, -, huid⟩ := h.uid
    rw [huid, Option.isSome_some]
  version := by
    obtain ⟨n, -, -, hversion⟩ := h.version
    rw [hversion, Option.isSome_some]
  extra := h.extra

/-- **What a store answers** in which a configuration was set last. All its objects can be read, and
no question fails because of a text that cannot. The configuration is the one that was set, each of
its real numbers read once more: so it is the very same one if and only if each of its numbers is
read again as itself, as whole numbers are. -/
structure Cluster.Legible (c : Cluster) (last? : Option Configuration) : Prop where
  entries : ∀ (k : Kind) (key text : String), (c.store.tables.get k).find? key = some text →
    ∃ o : Stored k, JsonForm.ofText? text = some o ∧ o.FiledUnder key
  get : ∀ (k : Kind) (name : String) (ns? : Option String), ∃ o?, c.store.get k name ns? = .ok o?
  list : ∀ (k : Kind) (ns? : Option String), ∃ os, c.store.list k ns? = .ok os
  put : ∀ (k : Kind) (d : Desired k) (reason : String), c.put d ≠ .error (.deserialize reason)
  activeConfig : c.store.activeConfig = .ok ((last?.map Rereads.reread).getD .default)
  activeConfig_iff : ∀ config ∈ last?, (c.store.activeConfig = .ok config ↔
    (JsonForm.toJson config).document.AllNumbers Number.Steady)
  activeConfig_whole : ∀ config ∈ last?, Sound IsWhole64 nestingLimit config →
    c.store.activeConfig = .ok config

/-- An object is refused for what it lacks or brings, never for a text of the store. -/
theorem Cluster.put_ne_deserialize {c : Cluster} (hc : c.store.Readable) (d : Desired k)
    (reason : String) : c.put d ≠ .error (.deserialize reason) := by
  cases hrefusal : Desired.refusal? d with
  | none =>
      rw [put_eq hc hrefusal]
      exact nofun
  | some e =>
      rw [put_of_refusal hrefusal]
      intro he
      rw [Except.error.inj he, Desired.refusal?] at hrefusal
      split at hrefusal
      · cases hrefusal
      · split at hrefusal <;> cases hrefusal

/-- **At any time of its life, all that a store holds can be read**, every object is where it says
that it is, and the configuration is the one that was set last. -/
theorem Lived.legible {c : Cluster} {last? : Option Configuration} (h : Lived InRange c last?) :
    c.Legible last? := by
  have hupkept := h.upkept
  have hreadable := hupkept.wellFormed.readable
  have hconfig := hupkept.activeConfig_eq
  have hiff : ∀ config ∈ last?, (c.store.activeConfig = .ok config ↔
      (JsonForm.toJson config).document.AllNumbers Number.Steady) := by
    intro config hlast
    obtain rfl : last? = some config := hlast
    rw [hconfig, Option.map_some, Option.getD_some, Except.ok.injEq]
    exact JsonForm.reread_eq_self_iff (hupkept.sound config rfl)
  refine ⟨fun k key text htext => ?_, fun k name ns? => ⟨_, Store.get_eq hreadable k name ns?⟩,
    fun k ns? => ⟨_, Store.list_eq hreadable k ns?⟩,
    fun k d reason => Cluster.put_ne_deserialize hreadable d reason, hconfig, hiff, ?_⟩
  · obtain ⟨o, hread, -, rfl, hproper⟩ := hupkept.wellFormed.entries k key text htext
    exact ⟨o, hread, hproper.filedUnder⟩
  · intro config hlast hwhole
    exact (hiff config hlast).mpr (hwhole.numbers.mono fun _ => Number.IsWhole64.steady)

/-- A store in which the scheduler was restarted and a pod was created. -/
theorem Lived.legible_pod :
    let server := Cluster.faultyServer "target" false []
    let restarted := (server.serve (.restart none) ⟨.empty, ⟨toString, 0⟩⟩).2
    let c := (server.serve (.apply .pod (.plain .pod "web" (some "team"))) restarted).2
    Lived InRange c (some .default) ∧ c.Legible (some .default) ∧ c.store.revision = 1 := by
  intro server restarted c
  have hrestarted : Lived InRange restarted (some .default) :=
    .request "target" false [] (.fresh toString) (fun config hconfig => by cases hconfig)
  have hlived : Lived InRange c (some .default) :=
    .request "target" false [] hrestarted (Desired.sound_plain .pod "web" (some "team"))
  exact ⟨hlived, legible hlived, rfl⟩

/-- A configuration with one real number among its free values. -/
def Scheduler.Configuration.ofReal (x : Binary64) : Configuration :=
  ⟨none, none, none, [], [], KeyMap.insert ∅ "x" (.number (.real x))⟩

namespace Scheduler.Configuration

/-- A configuration with a real number is sound. -/
theorem sound_ofReal {x : Binary64} (hx : x.Normal) : Sound InRange nestingLimit (ofReal x) := by
  refine sound_iff.mpr ⟨JsonForm.sound_none, .inl rfl, .inl rfl, fun e he => ?_⟩
  obtain rfl : e = ("x", .number (.real x)) := List.mem_singleton.mp he
  have hfree : "x" ∉ form.members.names := by decide
  exact ⟨hfree, JsonForm.sound_json_iff.mpr ⟨trivial, hx⟩⟩

/-- A configuration with a real number is reread with its number. -/
theorem reread_ofReal (x : Binary64) : Rereads.reread (ofReal x) = ofReal x.reread := rfl

/-- Configurations with different numbers are different. -/
theorem ofReal_injective : Function.Injective ofReal := by
  intro x y h
  have hextra := congrArg (fun config => config.extra.find? "x") h
  exact Number.real.inj (Json.number.inj (Option.some.inj hextra))

end Scheduler.Configuration

/-- Real numbers are not read exactly: a store can answer another configuration than the one that
was read from a text and then set. -/
theorem Cluster.activeConfig_ne_lastSet :
    let odd := Configuration.ofReal ⟨false, 7436265140089273, 906⟩
    let even := Configuration.ofReal ⟨false, 7436265140089274, 906⟩
    let c := Cluster.afterConfig ⟨.empty, ⟨toString, 0⟩⟩ odd
    JsonForm.ofText? (JsonForm.text even) = some odd ∧ Lived InRange c (some odd) ∧
      c.store.activeConfig = .ok even ∧ even ≠ odd := by
  intro odd even c
  have hodd : Sound InRange nestingLimit odd :=
    Configuration.sound_ofReal ⟨by decide, by decide, by decide⟩
  have heven : Sound InRange nestingLimit even :=
    Configuration.sound_ofReal ⟨by decide, by decide, by decide⟩
  -- the text of each of the two neighbours is read as the other one
  have hup : Binary64.reread ⟨false, 7436265140089273, 906⟩ = ⟨false, 7436265140089274, 906⟩ := by
    decide +kernel
  have hdown : Binary64.reread ⟨false, 7436265140089274, 906⟩ = ⟨false, 7436265140089273, 906⟩ := by
    decide +kernel
  have hset : Rereads.reread odd = even := by
    rw [Configuration.reread_ofReal, hup]
  have hread : Rereads.reread even = odd := by
    rw [Configuration.reread_ofReal, hdown]
  refine ⟨?_, .setActiveConfig (.fresh toString) hodd, ?_, fun heq => ?_⟩
  · rw [JsonForm.ofText?_text heven, hread]
  · exact (Store.decode_ok (JsonForm.ofText?_text hodd)).trans (congrArg Except.ok hset)
  · have hsame := Configuration.ofReal_injective heq
    revert hsame
    decide

end ClusterSnapshot
