import ClusterSnapshot.Operation.Copy
import ClusterSnapshot.Proofs.Operation.Capture
import ClusterSnapshot.Proofs.Operation.Cut
import ClusterSnapshot.Proofs.Operation.Removal

/-!
# The number of tasks only changes batches

Each operation follows a course that the number of tasks has no part in. So two runs of it that
differ in that number do the same, unless one of them is ended by a call. A replay and a copy then
make the very same calls in the same order. A clearing makes them in some order, since it lists
kinds while removals are waiting.

## Main results

* `Operator.follows_replay`, `Operator.follows_copyFrom`: the courses of a replay and a copy.
* `Operator.same_for_every_limit`: **runs that differ in the number of tasks do the same**.
-/

namespace ClusterSnapshot

variable {σ : Type}

/-! ### The course of a replay -/

namespace Server

variable {server : Server σ}

/-- More calls do not undo that one has ended the operation. -/
theorem halted_making (rs : List Request) (t : σ × List Call) (h : Halted t.2) :
    Halted (server.making rs t).2 :=
  halted_append.mpr (.inl h)

/-- A refusal ends the operation. -/
theorem halted_handing {items : List Item} {t : σ × List Call} {e : OperationError}
    (h : server.refusal? items t.1 = some e) : Halted (server.handing items t).2 := by
  obtain ⟨call, hcall, hfatal⟩ := List.exists_of_findSome?_eq_some h
  exact halted_append.mpr (.inr ⟨call, hcall,
    Call.stops?_of_fatal (Option.isSome_of_eq_some hfatal)⟩)

end Server

/-- Stages at which objects are handed in follow their course. -/
theorem HandedInStages.follows {server : Server σ} {options : Options} {limit : Nat}
    {stages : List (Stage × List Item)} {result : Except OperationError Unit} {p q : Progress σ}
    (h : HandedInStages server options limit stages p result q) :
    Attempt.Follows .record (Halted ·.2) options (server.handing (stages.flatMap (·.2))) () p
      (result, q) := by
  cases hlenient : options.ignoreErrors with
  | true =>
      obtain ⟨rfl, hsee⟩ := h.of_lenient hlenient
      exact .through hsee
  | false =>
      obtain ⟨rfl, hsee, -⟩ | ⟨earlier, stage, taken, dropped, later, e, rfl, rfl, hsee, -,
        hrefused, -⟩ := h.of_strict hlenient
      · exact .through hsee
      · have hended : Halted (server.handing (earlier.flatMap (·.2) ++ taken)
            (Sight.record.see p)).2 := by
          rw [Server.handing_append]
          exact Server.halted_handing hrefused
        refine .stopped hlenient ?_ ?_
        · rw [hsee]
          exact hended
        · rw [List.flatMap_append, List.flatMap_cons, List.append_assoc, ← List.append_assoc,
            Server.handing_append]
          exact Server.halted_making _ _ hended

namespace Operator

variable {op : Operator σ}

/-- The first stage of a replay follows its course. -/
theorem follows_replayConfig (op : Operator σ) (s : Replay) (options : Options) (p : Progress σ) :
    Attempt.Follows .record (Halted ·.2) options
      (op.server.making (s.configRequests options.ignoreSchedulerConfig)) () p
      (op.replayConfig s options p) := by
  obtain ⟨hsee, -, hresult⟩ := op.replayConfig_record s options p
  generalize op.replayConfig s options p = done at hsee hresult
  obtain ⟨result, q⟩ := done
  subst hresult
  cases hfatal : (op.server.calls (s.configRequests options.ignoreSchedulerConfig)
      p.state).findSome? Call.fatal? with
  | none => exact .through hsee
  | some e =>
      cases hlenient : options.ignoreErrors with
      | true => exact .through hsee
      | false =>
          obtain ⟨call, hcall, hcallFatal⟩ := List.exists_of_findSome?_eq_some hfatal
          have hended : Halted (op.server.making
              (s.configRequests options.ignoreSchedulerConfig) (Sight.record.see p)).2 :=
            halted_append.mpr (.inr ⟨call, hcall,
              Call.stops?_of_fatal (Option.isSome_of_eq_some hcallFatal)⟩)
          exact .stopped hlenient (hsee ▸ hended) hended

/-- **The course of a replay**: all that it is to ask for. -/
theorem follows_replay (op : Operator σ) (s : Replay) (options : Options) (p : Progress σ) :
    Attempt.Follows .record (Halted ·.2) options
      (op.server.handing s.admitted ∘
        op.server.making (s.configRequests options.ignoreSchedulerConfig)) () p
      (op.replay s options p) := by
  rw [replay_eq, ← s.flatMap_stages]
  exact (op.follows_replayConfig s options p).bind
    (fun q _ => (op.handedInStages_replayObjects s options q).follows)
    fun t => Server.halted_making _ t

/-- **The course of a capture**: all its questions. -/
theorem follows_capture (op : Operator σ) (options : Options) (p : Progress σ) :
    Attempt.Follows .record (Halted ·.2) options (op.server.making captureRequests)
      (op.decorated (op.server.userPart p.state)) p (op.capture options p) := by
  have hcaptured := op.captured_capture options p
  generalize op.capture options p = done at hcaptured
  cases hcaptured with
  | done hsee _ => exact .through hsee
  | stopped hstrict hhalted hstops _ =>
      exact .stopped hstrict hhalted (halted_append.mpr
        (.inr (halted_iff_findSome?.mpr (Option.isSome_of_eq_some hstops))))

/-- What a copy hands in that begins in a state. -/
def copied (source : Server σ) (s : σ) : Replay :=
  Snapshot.toReplay ((Operator.new source).decorated (source.userPart s))

/-- **The course of a copy**: that of a capture of the source, and then that of the replay. -/
theorem follows_copyFrom (op : Operator σ) (source : Server σ) (options : Options)
    (p : Progress σ) :
    Attempt.Follows .record (Halted ·.2) options
      ((op.server.handing (copied source p.state).admitted ∘
        op.server.making ((copied source p.state).configRequests options.ignoreSchedulerConfig)) ∘
          source.making captureRequests) () p
      (op.copyFrom source options p) := by
  rw [copyFrom]
  refine (follows_capture ((Operator.new source).withMaxConcurrency op.maxConcurrency) options
    p).bind (fun q _ => ?_) fun t h => Server.halted_making _ _ (Server.halted_making _ t h)
  have hreport : ∀ q : Progress σ, Attempt.Follows .record (Halted ·.2) options id () q
      ((Attempt.report (.copied (Contents.objectCount ((Operator.new source).decorated
        (source.userPart p.state)))) : Attempt σ Unit) q) := fun _ => .through rfl
  exact (op.follows_replay (copied source p.state) options q).bind (fun q _ => hreport q)
    fun _ => id

end Operator

/-! ### Runs that differ in the number of tasks -/

/-- A run that no call ends: its options are lenient, or no call of it has failed in a way that ends
a strict operation. -/
def Unended (options : Options) (done : Except OperationError Unit × Progress σ) : Prop :=
  options.ignoreErrors = true ∨ ∀ call ∈ done.2.calls, call.stops? = none

/-- Two runs that do the same: both succeed, leave the same state and have made calls that are
alike. -/
structure SameRun (alike : List Call → List Call → Prop)
    (done done' : Except OperationError Unit × Progress σ) : Prop where
  succeeds : done.1 = .ok ()
  result : done'.1 = done.1
  state : done'.2.state = done.2.state
  calls : alike done'.2.calls done.2.calls

/-- What was not ended is lenient or was not halted. -/
theorem Unended.not_halted {options : Options} {done : Except OperationError Unit × Progress σ}
    (h : Unended options done) : options.ignoreErrors = true ∨ ¬ Halted done.2.calls := by
  refine h.imp_right fun hfree => ?_
  rintro ⟨call, hcall, hstops⟩
  rw [hfree call hcall] at hstops
  cases hstops

/-- Runs that follow one course do the same, call by call. -/
theorem SameRun.of_follows {options : Options} {course : σ × List Call → σ × List Call}
    {p : Progress σ} {done done' : Except OperationError Unit × Progress σ}
    (h : Attempt.Follows .record (Halted ·.2) options course () p done)
    (h' : Attempt.Follows .record (Halted ·.2) options course () p done')
    (hfree : Unended options done) : SameRun Eq done done' := by
  obtain ⟨hok, hok', hsee, hsee'⟩ := h.same h' hfree.not_halted
  have hsame := hsee'.trans hsee.symm
  exact ⟨hok, hok'.trans hok.symm, congrArg Prod.fst hsame, congrArg Prod.snd hsame⟩

/-- Runs that follow one course with their calls sorted do the same in some order. -/
theorem SameRun.of_follows_sorted {options : Options} {course : σ × SortedCalls → σ × SortedCalls}
    {p : Progress σ} {done done' : Except OperationError Unit × Progress σ}
    (h : Attempt.Follows .sorted (·.2.Halts) options course () p done)
    (h' : Attempt.Follows .sorted (·.2.Halts) options course () p done')
    (hfree : Unended options done) : SameRun List.Perm done done' := by
  obtain ⟨hok, hok', hsee, hsee'⟩ :=
    h.same h' (hfree.not_halted.imp_right fun hnot hhalts => hnot (halts_sortCalls.mp hhalts))
  have hsame := hsee'.trans hsee.symm
  exact ⟨hok, hok'.trans hok.symm, congrArg Prod.fst hsame,
    perm_of_sortCalls_eq (congrArg Prod.snd hsame)⟩

/-- **Runs that differ in the number of tasks do the same**, unless the first is strict and ended by
a call. Whatever servers answer, a replay and a copy succeed in both, leave the same state and make
the same calls with the same outcomes in the same order. Whatever is in a cluster and whichever
requests are made to fail, a clearing does so too, but for the order of its calls. -/
theorem Operator.same_for_every_limit (server source : Server σ)
    (decorate : Stored .pod → Stored .pod) (name : String) (external : Bool) (faults : List Fault)
    (options : Options) (n m : Nat) :
    (∀ (s : Replay) (c : σ),
      let run := fun limit =>
        Operator.replay ⟨server, limit, decorate⟩ s options (Run.start c)
      Unended options (run n) → SameRun Eq (run n) (run m)) ∧
    (∀ c : σ,
      let run := fun limit =>
        Operator.copyFrom ⟨server, limit, decorate⟩ source options (Run.start c)
      Unended options (run n) → SameRun Eq (run n) (run m)) ∧
    ∀ c : Cluster,
      let run := fun limit =>
        Operator.clear ⟨Cluster.faultyServer name external faults, limit, decorate⟩ options
          (Run.start c)
      Unended options (run n) → SameRun List.Perm (run n) (run m) := by
  have hapart : (Cluster.faultyServer name external faults).Apart :=
    (Cluster.apart_server name external).withFaults faults
  refine ⟨?_, ?_, ?_⟩
  · intro s c run hfree
    exact .of_follows (follows_replay ⟨server, n, decorate⟩ s options (Run.start c))
      (follows_replay ⟨server, m, decorate⟩ s options (Run.start c)) hfree
  · intro c run hfree
    exact .of_follows (follows_copyFrom ⟨server, n, decorate⟩ source options (Run.start c))
      (follows_copyFrom ⟨server, m, decorate⟩ source options (Run.start c)) hfree
  · intro c run hfree
    exact .of_follows_sorted
      (follows_clear ⟨Cluster.faultyServer name external faults, n, decorate⟩ hapart options
        (Run.start c))
      (follows_clear ⟨Cluster.faultyServer name external faults, m, decorate⟩ hapart options
        (Run.start c)) hfree

/-- A cluster that refuses pods and has lost its nodes is copied onto itself and cleared, with
lenient options and one task or three at a time; and strict options bring two namespaces into a
cluster whose scheduler is run by somebody else. -/
theorem Operator.same_for_every_limit_pods :
    let fresh : Cluster := ⟨.empty, ⟨toString, 0⟩⟩
    let web : Desired .pod := Desired.plain .pod "web" (some "team")
    let c := fresh.afterPut web
    let faults : List Fault :=
      [⟨"apply", some .pod, none, .backend "full"⟩, ⟨"list", some .node, none, .backend "lost"⟩]
    let faulty := Cluster.faultyServer "source" false faults
    let server := Cluster.server "target" true
    let s := Replay.ofNamespaces ["team", "guests"]
    SameRun Eq (Operator.copyFrom ⟨faulty, 1, id⟩ faulty .lenient (Run.start c))
        (Operator.copyFrom ⟨faulty, 3, id⟩ faulty .lenient (Run.start c)) ∧
      SameRun List.Perm (Operator.clear ⟨faulty, 1, id⟩ .lenient (Run.start c))
        (Operator.clear ⟨faulty, 3, id⟩ .lenient (Run.start c)) ∧
      Unended .strict (Operator.replay ⟨server, 1, id⟩ s .strict (Run.start fresh)) ∧
      SameRun Eq (Operator.replay ⟨server, 1, id⟩ s .strict (Run.start fresh))
        (Operator.replay ⟨server, 3, id⟩ s .strict (Run.start fresh)) := by
  intro fresh web c faults faulty server s
  obtain ⟨-, hcopy, hclear⟩ :=
    same_for_every_limit faulty faulty id "source" false faults .lenient 1 3
  obtain ⟨hreplay, -, -⟩ := same_for_every_limit server server id "" true [] .strict 1 3
  have hfree : Unended .strict (Operator.replay ⟨server, 1, id⟩ s .strict (Run.start fresh)) := by
    have hfollows := follows_replay ⟨server, 1, id⟩ s .strict (Run.start fresh)
    have hcourse : ((server.handing s.admitted
        (server.making (s.configRequests false) (fresh, []))).2.all
          fun call => call.stops?.isNone) = true := by
      decide +kernel
    generalize Operator.replay ⟨server, 1, id⟩ s .strict (Run.start fresh) = done at hfollows
    cases hfollows with
    | @through q hsee =>
        refine .inr fun call hcall => ?_
        have hcalls : q.calls = (server.handing s.admitted
          (server.making (s.configRequests false) (fresh, []))).2 := congrArg Prod.snd hsee
        rw [hcalls] at hcall
        exact Option.isNone_iff_eq_none.mp (List.all_eq_true.mp hcourse call hcall)
    | stopped _ _ hhalted =>
        obtain ⟨call, hcall, hstops⟩ := hhalted
        have hnone := Option.isNone_iff_eq_none.mp (List.all_eq_true.mp hcourse call hcall)
        rw [hnone] at hstops
        cases hstops
  exact ⟨hcopy c (.inl rfl), hclear c (.inl rfl), hfree, hreplay s fresh hfree⟩

end ClusterSnapshot
