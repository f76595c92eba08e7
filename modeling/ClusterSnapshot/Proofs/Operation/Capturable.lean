import ClusterSnapshot.Proofs.Operation.Keeping
import ClusterSnapshot.Proofs.Operation.RoundTrip
import ClusterSnapshot.Proofs.Store.Capturable
import ClusterSnapshot.Proofs.Store.Serving

/-!
# Operations on stores that can be captured

A snapshot is *sound* if it can be written and read again. A capturable store gives a sound
snapshot, and to replay one keeps a store capturable, whatever else goes wrong. So do clearing and
copying. Nothing is nested deeper on its way from a snapshot into a store, through other stores, and
back into a snapshot.

## Main results

* `Operator.capturable_replay`, `Operator.capturable_clear`, `Operator.capturable_copyFrom`:
  **what operations leave can be captured**.
* `Operator.captured_sound`: **what is captured is sound**.
-/

namespace ClusterSnapshot

open JsonForm (Sound)
open Number (IsWhole64)
open Scheduler (Configuration)

variable {σ : Type} {k : Kind}

/-- What is to be brought in for a sound snapshot is sound. -/
theorem Snapshot.sound_toReplay {s : Snapshot} (h : Sound IsWhole64 nestingLimit s) :
    Sound IsWhole64 nestingLimit s.toReplay := by
  have hparts : (∀ k, ∀ o ∈ s.objects.get k, Sound IsWhole64 Snapshot.objectRoom o) ∧
      ∀ config ∈ s.schedulerConfig?, Sound IsWhole64 (Snapshot.objectRoom + 1) config :=
    Contents.forall_sound h
  refine Contents.sound_of_forall (fun k d hd => ?_) hparts.2
  rw [Snapshot.toReplay, ByKind.get_ofFn] at hd
  obtain ⟨o, ho, rfl⟩ := List.mem_map.mp hd
  exact Stored.sound_toDesired (hparts.1 k o ho)

/-- A sound replay brings in objects that could stand in a snapshot. -/
theorem Replay.sound_of_mem_admitted_sound {s : Replay} (hs : Sound IsWhole64 nestingLimit s)
    {i : Item} (hi : i ∈ s.admitted) : Sound IsWhole64 Snapshot.objectRoom i.2 := by
  obtain ⟨d, hd, hadmitted⟩ := Replay.mem_admitted.mp hi
  exact Desired.sound_of_admitted? hadmitted ((Contents.forall_sound hs).1 _ d hd)

namespace Store.Capturable

variable {c : Cluster}

/-- To bring in an object with room for a snapshot keeps a store capturable. -/
theorem bringIn (h : c.store.Capturable) {i : Item}
    (hi : Sound IsWhole64 Snapshot.objectRoom i.2) : (c.bringIn i).store.Capturable := by
  obtain ⟨k, d⟩ := i
  cases hrefusal : Desired.refusal? d with
  | some e =>
      rw [Cluster.bringIn_of_refusal hrefusal]
      exact h
  | none =>
      rw [Cluster.bringIn_eq h.readable hrefusal]
      exact h.afterPut (Cluster.sound_prepared hi) ((c.refusal?_prepared d).trans hrefusal)

/-- A store stays capturable when the scheduler is restarted with room for a snapshot. -/
theorem restarted (h : c.store.Capturable) {config? : Option Configuration}
    (hconfig : ∀ config ∈ config?, Sound IsWhole64 (Snapshot.objectRoom + 1) config)
    (external : Bool) : (c.restarted external config?).store.Capturable := by
  rw [Cluster.restarted]
  split
  · exact h
  · refine h.setActiveConfig ?_
    cases config? with
    | none => exact Configuration.sound_default
    | some config => exact hconfig config rfl

/-- A store stays capturable at the beginning of a replay. -/
theorem configured (h : c.store.Capturable) {config? : Option Configuration}
    (hconfig : ∀ config ∈ config?, Sound IsWhole64 (Snapshot.objectRoom + 1) config)
    (external : Bool) (options : Options) :
    (c.configured external options config?).store.Capturable := by
  rw [Cluster.configured]
  split
  · exact h
  · exact h.restarted hconfig external

/-- The configuration of a capturable store can stand in a snapshot. -/
theorem exists_activeConfig (h : c.store.Capturable) :
    ∃ config, c.store.activeConfig = .ok config ∧
      Sound IsWhole64 (Snapshot.objectRoom + 1) config := by
  cases hscheduler : c.store.scheduler? with
  | none =>
      refine ⟨.default, ?_, Configuration.sound_default⟩
      rw [Store.activeConfig, hscheduler]
  | some text =>
      obtain ⟨config, rfl, hconfig⟩ := h.config text hscheduler
      refine ⟨config, ?_, hconfig⟩
      rw [Store.activeConfig, hscheduler]
      exact Store.decode_ok (JsonForm.ofText?_text_whole (hconfig.mono (by decide)))

/-- The configuration is answered, unless somebody else runs the scheduler. -/
theorem serveConfig_cases (h : c.store.Capturable) (external : Bool) :
    c.serveConfig external = .error .disabled ∨ ∃ config,
      c.serveConfig external = .ok config ∧ Sound IsWhole64 (Snapshot.objectRoom + 1) config := by
  obtain ⟨config, hactive, hconfig⟩ := h.exists_activeConfig
  cases external with
  | true => exact .inl rfl
  | false =>
      refine .inr ⟨config, ?_, hconfig⟩
      rw [Cluster.serveConfig, hactive]
      rfl

/-- The objects of the user in a capturable store have room for a snapshot. -/
theorem mem_userObjects (h : c.store.Capturable) {o : Stored k} (ho : o ∈ c.userObjects k) :
    Sound IsWhole64 Snapshot.objectRoom o := by
  have hlisted : o ∈ c.store.listed k none := List.mem_of_mem_filter ho
  obtain ⟨key, hfind, -⟩ := (Cluster.mem_listed c.store none).mp hlisted
  exact (h.of_find? hfind).1

/-- **What is captured of a capturable store is sound.** -/
theorem sound_userPart (h : c.store.Capturable) {config? : Option Configuration}
    (hconfig : ∀ config ∈ config?, Sound IsWhole64 (Snapshot.objectRoom + 1) config) :
    Sound IsWhole64 nestingLimit (c.userPart config?) := by
  refine Contents.sound_of_forall (fun k o ho => ?_) hconfig
  rw [Cluster.userPart, ByKind.get_ofFn] at ho
  exact h.mem_userObjects ho

/-- What a clearing asks for keeps a store capturable. -/
theorem serve_clears (h : c.store.Capturable) {r : Request} (hr : r.Clears) (external : Bool) :
    (Cluster.serve external r c).2.store.Capturable := by
  cases r with
  | list k ns? => exact h
  | delete k name ns? =>
      change (c.serveDelete k name ns?).2.store.Capturable
      rw [Cluster.serveDelete_snd]
      exact h.remove k name ns?
  | restart config? =>
      cases config? with
      | none =>
          have hrestart : (c.serveRestart external none).2 = c.restarted external none := by
            rw [Cluster.serveRestart, Cluster.restarted]
            split <;> rfl
          change (c.serveRestart external none).2.store.Capturable
          rw [hrestart]
          exact h.restarted (fun _ hc => by cases hc) external
      | some config => exact hr.elim
  | get k name ns? | apply k d | getConfig => exact hr.elim

/-- What a clearing is told of is sound. -/
theorem answersSound_clears (h : c.store.Capturable) {r : Request} (hr : r.Clears)
    (external : Bool) {x : r.Answer} (hx : (Cluster.serve external r c).1 = .ok x) :
    r.AnswersSound IsWhole64 x := by
  cases r with
  | list k ns? =>
      change c.serveList k ns? = .ok x at hx
      rw [Cluster.serveList, Store.list_eq h.readable] at hx
      obtain rfl : c.store.listed k ns? = x := Except.ok.inj hx
      intro o ho
      obtain ⟨key, hfind, -⟩ := (Cluster.mem_listed c.store ns?).mp ho
      exact (h.of_find? hfind).1.mono (by decide)
  | delete k name ns? | restart config? => trivial
  | get k name ns? | apply k d | getConfig => exact hr.elim

end Store.Capturable

namespace Operator

variable (op : Operator σ) (options : Options) {view : σ → Cluster} {name : String}
  {external : Bool}

/-- **A replay** of what is sound keeps a store capturable. -/
theorem capturable_replay (h : op.server.Shows view (Cluster.server name external)) {s : Replay}
    (hs : Sound IsWhole64 nestingLimit s) {p : Progress σ} (hp : (view p.state).store.Capturable) :
    (view (op.replay s options p).2.state).store.Capturable := by
  have hstep : ∀ i ∈ s.admitted, ∀ c : Cluster, c.store.Capturable →
      (c.bringIn i).store.Capturable :=
    fun i hi c hc => hc.bringIn (Replay.sound_of_mem_admitted_sound hs hi)
  exact (brings_replay h s p).keeps hstep
    (hp.configured (Contents.forall_sound hs).2 external options)

/-- To replay only the configuration keeps a store capturable. -/
theorem capturable_replayConfig (h : op.server.Shows view (Cluster.server name external))
    {s : Replay} (hs : Sound IsWhole64 nestingLimit s) {p : Progress σ}
    (hp : (view p.state).store.Capturable) :
    (view (op.replayConfig s options p).2.state).store.Capturable := by
  rw [(replayConfig_apply h s p).2]
  exact hp.configured (Contents.forall_sound hs).2 external options

/-- So a server of a capturable store keeps it so while it is cleared. -/
theorem keeps_capturable {server : Server σ}
    (h : server.Shows view (Cluster.server name external)) :
    server.Keeps (fun t => (view t.1).store.Capturable) Request.Clears
      (Request.AnswersSound IsWhole64) where
  serves r hr t ht := by
    have hview : view (server.making [r] t).1 = (Cluster.serve external r (view t.1)).2 :=
      (congrArg Prod.snd (h r t.1)).symm
    rw [hview]
    exact ht.serve_clears hr external
  answers r hr t ht x hx := by
    have hanswer : (Cluster.serve external r (view t.1)).1 = .ok x :=
      (congrArg Prod.fst (h r t.1)).trans hx
    exact ht.answersSound_clears hr external hanswer

/-- **A clearing** keeps a store capturable. -/
theorem capturable_clear (h : op.server.Shows view (Cluster.server name external)) {p : Progress σ}
    (hp : (view p.state).store.Capturable) :
    (view (op.clear options p).2.state).store.Capturable :=
  ((op.keeps_clear (keeps_capturable h) (fun _ hr => hr) options).apply hp).2

/-- **What is captured is sound.** A capture of a capturable store succeeds and changes nothing. -/
theorem captured_sound {s : σ} {c : Cluster} (hreads : op.server.Reads external c s)
    (hc : c.store.Capturable) (hdecorate : op.decorate = id) {p : Progress σ} (hp : p.state = s) :
    ∃ config?, (op.capture options p).1 = .ok (c.userPart config?) ∧
      (op.capture options p).2.state = s ∧ Sound IsWhole64 nestingLimit (c.userPart config?) := by
  have hcases := hc.serveConfig_cases external
  have hdisabled : ∀ e, c.serveConfig external = .error e → e = .disabled := by
    intro e he
    rcases hcases with hnone | ⟨config, hsome, -⟩
    · exact (Except.error.inj (hnone.symm.trans he)).symm
    · rw [hsome] at he
      cases he
  have hconfig : ∀ config ∈ (c.serveConfig external).toOption,
      Sound IsWhole64 (Snapshot.objectRoom + 1) config := by
    intro config hmem
    rcases hcases with hnone | ⟨config', hsome, hsound⟩
    · rw [hnone] at hmem
      cases hmem
    · rw [hsome] at hmem
      obtain rfl := Option.some.inj hmem
      exact hsound
  obtain ⟨hresult, hstate⟩ := capture_reads hreads hc.readable hdisabled options hp
  have hplain : ∀ s : Snapshot, op.decorated s = s := fun s => by
    rw [decorated, hdecorate]
    exact Snapshot.set_pod_id s
  exact ⟨_, hresult.trans (congrArg Except.ok (hplain _)), hstate, hc.sound_userPart hconfig⟩

/-- **A copy** keeps the store that it writes to capturable, and leaves the other one as it is. -/
theorem capturable_copyFrom {source target : Part σ Cluster} (hsource : source.Lawful)
    (htarget : target.Lawful) (hop : op.server = (Cluster.server name external).within target)
    (hapart : ∀ c s, (source.get (target.set c s)).store = (source.get s).store)
    {p : Progress σ} (hfrom : (source.get p.state).store.Capturable)
    (hto : (target.get p.state).store.Capturable) (name' : String) (external' : Bool) :
    (target.get (op.copyFrom ((Cluster.server name' external').within source) options
        p).2.state).store.Capturable ∧
      (source.get (op.copyFrom ((Cluster.server name' external').within source) options
        p).2.state).store = (source.get p.state).store := by
  let reader := (Operator.new ((Cluster.server name' external').within source)).withMaxConcurrency
    op.maxConcurrency
  obtain ⟨config?, hresult, hstate, hsound⟩ := reader.captured_sound options
    (Cluster.reads_within hsource name' external' p.state) hfrom rfl rfl
  have hreplaySound := Snapshot.sound_toReplay hsound
  have hall : (Snapshot.toReplay ((source.get p.state).userPart config?)).AllSound IsWhole64 :=
    ⟨fun k d hd => ((Contents.forall_sound hreplaySound).1 k d hd).mono (by decide),
      fun config hc => ((Contents.forall_sound hreplaySound).2 config hc).mono (by decide)⟩
  have hshows : op.server.Shows target.get (Cluster.server name external) :=
    hop ▸ Server.shows_within htarget _
  have hkeeps : op.server.Keeps
      (fun t => (source.get t.1).store = (source.get p.state).store) (fun _ => True)
      (fun _ _ => True) :=
    ⟨fun r _ t ht => by rw [hop]; exact (hapart _ _).trans ht, fun _ _ _ _ _ _ => trivial⟩
  have hcopy : op.copyFrom ((Cluster.server name' external').within source) options p = _ :=
    Attempt.bind_apply (reader.capture options) _ p
  rw [hcopy, hresult]
  generalize (reader.capture options p).2 = q at hstate
  have hafter := (Attempt.bind_report
    (op.replay (Snapshot.toReplay ((source.get p.state).userPart config?)) options)
    (.copied ((source.get p.state).userPart config?).objectCount) q).2
  simp only [hafter]
  exact ⟨op.capturable_replay options hshows hreplaySound (hstate ▸ hto),
    ((op.keeps_replay hkeeps (fun _ _ => trivial) hall options).apply
      (congrArg (fun s => (source.get s).store) hstate)).2⟩

end Operator

end ClusterSnapshot
