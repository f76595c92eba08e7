import ClusterSnapshot.Proofs.Operation.Accounts

/-!
# Lenient operations attempt everything

With lenient options no failure ends an operation, none is passed over in silence, and nothing is
left out. In a clearing, kinds are listed while removals of others wait, and what a server answers
may depend on these. So it is not told beforehand which requests a clearing makes. But each list
calls for removals, and until these are made the group owes them.

## Main results

* `Server.Clears`: the requests of a clearing, one after the other.
* `Operator.captured_lenient`, `Operator.replayed_lenient`, `Operator.copied_lenient`,
  `Operator.cleared_lenient`: what each operation comes to.
* `Operator.lenient_accounts`: **lenient operations succeed, account for every fault and attempt
  everything**.
-/

namespace ClusterSnapshot

variable {σ : Type} {k : Kind}

/-- A list that ends with some element is split at that element or before it. -/
theorem eq_or_exists_of_concat_eq {α : Type} {l before rest : List α} {last x : α}
    (h : l ++ [last] = before ++ x :: rest) :
    (l = before ∧ last = x ∧ rest = []) ∨
      ∃ rest', l = before ++ x :: rest' ∧ rest = rest' ++ [last] := by
  cases rest using List.reverseRecOn with
  | nil =>
      obtain ⟨hl, hlast⟩ := List.append_inj' h rfl
      exact .inl ⟨hl, List.singleton_inj.mp hlast, rfl⟩
  | append_singleton rest' last' =>
      rw [← List.cons_append, ← List.append_assoc] at h
      obtain ⟨hl, hlast⟩ := List.append_inj' h rfl
      exact .inr ⟨rest', hl, by rw [List.singleton_inj.mp hlast]⟩

/-! ### The requests of a clearing -/

/-- **The requests of a clearing** that has listed some kinds, while some removals wait: a list
calls for the removals of what it is answered with, and they are made in turn. -/
inductive Server.Clears (server : Server σ) (s : σ) :
    List Kind → List Address → List Request → Prop
  | start : Clears server s [] [] []
  | list {kinds : List Kind} {waiting : List Address} {requests : List Request} {k : Kind} :
    Clears server s kinds waiting requests → k ∉ kinds →
    Clears server s (kinds ++ [k])
      (waiting ++ server.userAddresses (server.after requests s) k) (requests ++ [.list k none])
  | remove {kinds : List Kind} {a : Address} {waiting : List Address} {requests : List Request} :
    Clears server s kinds (a :: waiting) requests →
    Clears server s kinds waiting (requests ++ [a.removal])

namespace Server

variable {server : Server σ} {s : σ} {kinds : List Kind} {waiting : List Address}
  {requests : List Request}

/-- The requests that remove nothing list the kinds. -/
theorem Clears.lists (h : server.Clears s kinds waiting requests) :
    (requests.filter fun r => r.removed?.isNone) = kinds.map (Request.list · none) := by
  induction h with
  | start => rfl
  | list _ _ ih =>
      rw [List.filter_append, ih, List.map_append]
      rfl
  | remove _ ih =>
      rw [List.filter_append, ih]
      exact List.append_nil _

/-- What waits is of a kind that was listed. -/
theorem Clears.kind_mem (h : server.Clears s kinds waiting requests) :
    ∀ a ∈ waiting, a.kind ∈ kinds := by
  induction h with
  | start => exact fun a ha => absurd ha List.not_mem_nil
  | list _ _ ih =>
      intro a ha
      rcases List.mem_append.mp ha with ha | ha
      · exact List.mem_append_left _ (ih a ha)
      · rw [kind_of_mem_userAddresses ha]
        exact List.mem_append_right _ (List.mem_singleton_self _)
  | remove _ ih => exact fun a ha => ih a (List.mem_cons_of_mem _ ha)

/-- **What a list calls for** is removed after it, or waits. -/
theorem Clears.removals (h : server.Clears s kinds waiting requests) {before rest : List Request}
    (hsplit : requests = before ++ .list k none :: rest) :
    ((rest.filterMap Request.removed? ++ waiting).filter fun a => a.kind = k) =
      server.userAddresses (server.after before s) k := by
  induction h generalizing rest with
  | start => exact absurd hsplit.symm (by simp)
  | @list kinds waiting requests j hrest hj ih =>
      have hwaiting := hrest.kind_mem
      rcases eq_or_exists_of_concat_eq hsplit with ⟨rfl, hlast, rfl⟩ | ⟨rest', rfl, rfl⟩
      · -- This list is the last request: what it calls for waits, and nothing else of the kind.
        obtain ⟨rfl, -⟩ := Request.list.inj hlast
        have hnone : waiting.filter (fun a => a.kind = j) = [] :=
          List.filter_eq_nil_iff.mpr fun a ha => by
            rw [decide_eq_true_iff]
            rintro rfl
            exact hj (hwaiting a ha)
        have hall : (server.userAddresses (server.after requests s) j).filter
            (fun a => a.kind = j) = server.userAddresses (server.after requests s) j :=
          List.filter_eq_self.mpr fun a ha => by simp [kind_of_mem_userAddresses ha]
        rw [List.filterMap_nil, List.nil_append, List.filter_append, hnone, hall, List.nil_append]
      · -- Another kind was listed later, which calls for nothing of this kind.
        have hk : k ∈ kinds := by
          have hmem : Request.list k none ∈ kinds.map (Request.list · none) := by
            rw [← hrest.lists, List.mem_filter]
            exact ⟨List.mem_append_right _ List.mem_cons_self, rfl⟩
          obtain ⟨k', hk', heq⟩ := List.mem_map.mp hmem
          obtain ⟨rfl, -⟩ := Request.list.inj heq
          exact hk'
        have hnone : (server.userAddresses (server.after (before ++ .list k none :: rest') s)
            j).filter (fun a => a.kind = k) = [] :=
          List.filter_eq_nil_iff.mpr fun a ha => by
            rw [decide_eq_true_iff, kind_of_mem_userAddresses ha]
            rintro rfl
            exact hj hk
        rw [List.filterMap_append, ← List.append_assoc, List.filter_append, hnone,
          List.append_nil, ← ih rfl, List.append_assoc]
        rfl
  | @remove kinds a waiting requests _ ih =>
      rcases eq_or_exists_of_concat_eq hsplit with ⟨-, hlast, -⟩ | ⟨rest', rfl, rfl⟩
      · cases hlast
      · rw [List.filterMap_append, List.append_assoc, ← ih rfl]
        rfl

/-- What a list calls for is removed after it if nothing waits when the scheduler is restarted. -/
theorem Clears.removals_restart (h : server.Clears s kinds [] requests)
    {before rest : List Request}
    (hsplit : requests ++ [.restart none] = before ++ .list k none :: rest) :
    ((rest.filterMap Request.removed?).filter fun a => a.kind = k) =
      server.userAddresses (server.after before s) k := by
  rcases eq_or_exists_of_concat_eq hsplit with ⟨-, hlast, -⟩ | ⟨rest', hbefore, rfl⟩
  · cases hlast
  · have hremovals := h.removals hbefore
    rw [List.append_nil] at hremovals
    have hrestart : [Request.restart none].filterMap Request.removed? = [] := rfl
    rw [List.filterMap_append, hrestart, List.append_nil]
    exact hremovals

end Server

/-! ### What a clearing owes -/

/-- To remove an object makes the request, and fails if this ends it. -/
theorem Operator.acts_deleteOne_record (server : Server σ) (options : Options) (o : Stored k) :
    Run.Acts .record (Attempt.task (deleteOne server options k o.metadata.name o.metadata.ns?))
      fun t => ((options.ruling (server.call o.address.removal t.1).stops?).elim (.done ()) .failed,
        server.making [o.address.removal] t) :=
  acts_deleteOne_seen options o (Run.acts_request_record server o.address.removal) fun _ _ => rfl

/-- What is owed are the removals that lists have called for. All faults are accounted for. -/
def Ledger.ofRemovals (server : Server σ) (s : σ) : Ledger σ (List Kind) Address :=
  .blameless (fun kinds waiting p => p.errors = p.faults ∧ ∃ requests,
    server.Clears s kinds waiting requests ∧
      Sight.record.see p = server.making requests (s, [])) fun _ h => h

namespace Operator

variable {op : Operator σ} {server : Server σ} {options : Options} {s : σ} {kinds : List Kind}
  {p : Progress σ} (hlenient : options.ignoreErrors = true)

include hlenient

/-- The task that removes an object does what it owes. -/
theorem keptBy_deleteOne (o : Stored k) : (Ledger.ofRemovals server s).KeptBy
    (Attempt.task (deleteOne server options k o.metadata.name o.metadata.ns?)) o.address := by
  rintro kinds waiting p ⟨hcounts, requests, hclears, hsee⟩
  obtain ⟨⟨x, hx⟩, haccounts⟩ :=
    (accounts_deleteOne server hlenient k o.metadata.name o.metadata.ns?).task p
  rw [hx]
  refine ⟨⟨by omega, requests ++ [o.address.removal], hclears.remove, ?_⟩, rfl, rfl⟩
  rw [(acts_deleteOne_record server options o).snd p, hsee, Server.making_append]

/-- Kinds that are listed call for removals, and the group takes these on. -/
theorem owing_spawnDeletions {later : List Kind} (hfresh : ∀ k ∈ later, k ∉ kinds)
    (hnodup : later.Nodup) {g : TaskGroup σ Unit}
    (h : TaskGroup.Owing (Ledger.ofRemovals server s) kinds [] g p) :
    ∃ g', (spawnDeletions server options g later p).1 = .ok g' ∧
      TaskGroup.Owing (Ledger.ofRemovals server s) (kinds ++ later) [] g'
        (spawnDeletions server options g later p).2 := by
  induction later generalizing kinds g p with
  | nil =>
      refine ⟨g, rfl, ?_⟩
      rw [List.append_nil]
      exact h
  | cons k rest ih =>
      obtain ⟨hk, hrest⟩ := List.forall_mem_cons.mp hfresh
      obtain ⟨hother, hnodup⟩ := List.nodup_cons.mp hnodup
      have hact := acts_listUserObjects server options k
      have hlisted : (listUserObjects server options k p).1 =
          .ok (userOnly (server.serve (.list k none) p.state).1) := by
        refine (hact.fst p).trans ?_
        rcases options.listed_cases (server.serve (.list k none) p.state).1 with h | ⟨e, hstrict, -⟩
        · exact h
        · rw [hlenient] at hstrict
          cases hstrict
      have haccounts : (listUserObjects server options k p).2.errors + p.faults =
          p.errors + (listUserObjects server options k p).2.faults + 0 :=
        (accounts_listUserObjects server hlenient k p).2
      -- The list calls for removals while others wait.
      have hpromised : TaskGroup.Owing (Ledger.ofRemovals server s) (kinds ++ [k])
          (server.userAddresses p.state k ++ []) g (listUserObjects server options k p).2 := by
        refine h.promise ?_ rfl
        rintro waiting ⟨hcounts, requests, hclears, hsee⟩
        obtain ⟨hstate, -⟩ := Prod.mk.inj hsee
        refine ⟨by omega, requests ++ [.list k none], ?_, ?_⟩
        · rw [List.append_nil] at hclears ⊢
          rw [hstate]
          exact hclears.list hk
        · refine (hact.snd p).trans ?_
          rw [hsee, Server.making_append]
      have hkept : List.Forall₂ (Ledger.ofRemovals server s).KeptBy
          ((userOnly (server.serve (.list k none) p.state).1).map fun o =>
            Attempt.task (deleteOne server options k o.metadata.name o.metadata.ns?))
          (server.userAddresses p.state k) := by
        rw [Server.userAddresses, List.forall₂_map_left_iff, List.forall₂_map_right_iff]
        exact List.forall₂_same.mpr fun o _ => keptBy_deleteOne hlenient o
      have htaken := hpromised.spawnAll (fun _ => rfl) hkept
      have hfresh' : ∀ j ∈ rest, j ∉ kinds ++ [k] := by
        intro j hj hmem
        rcases List.mem_append.mp hmem with hmem | hmem
        · exact hrest j hj hmem
        · rw [List.mem_singleton.mp hmem] at hj
          exact hother hj
      obtain ⟨g', hg', howing⟩ := ih hfresh' hnodup htaken
      rw [spawnDeletions, Attempt.bind_apply, hlisted]
      rw [List.append_assoc] at howing
      exact ⟨g', hg', howing⟩

omit hlenient in
/-- A stage of a clearing that has taken on removals waits for them. -/
theorem clearStage_of_spawned (stage : Stage) {g : TaskGroup σ Unit} {q : Progress σ}
    (hspawned : spawnDeletions op.server options (.new op.maxConcurrency) kinds p = (.ok g, q)) :
    op.clearStage options stage kinds p =
      (Except.mapError (.clearStage stage) (Except.map (fun _ => ()) (g.wait q).1),
        (g.wait q).2) := by
  rw [clearStage, Attempt.mapError_apply, Attempt.bind_apply, hspawned]
  simp only
  rw [Attempt.bind_apply]
  simp only [ExceptT.mk]
  cases (g.wait q).1 <;> rfl

/-- A stage of a clearing leaves none of its removals open. -/
theorem owes_clearStage (op : Operator σ) (stage : Stage) (later : List Kind)
    (hfresh : ∀ k ∈ later, k ∉ kinds) (hnodup : later.Nodup)
    (h : (Ledger.ofRemovals op.server s).owes kinds [] p) :
    ∃ q, op.clearStage options stage later p = (.ok (), q) ∧
      (Ledger.ofRemovals op.server s).owes (kinds ++ later) [] q := by
  obtain ⟨g, hg, howing⟩ := owing_spawnDeletions hlenient hfresh hnodup
    (TaskGroup.owing_new (α := Unit) op.maxConcurrency h rfl)
  obtain ⟨howes, outputs, hresult⟩ := howing.wait
  have hok : (g.wait _).1 = .ok outputs := hresult
  rw [clearStage_of_spawned stage (Prod.ext hg rfl), hok]
  exact ⟨_, rfl, howes⟩

/-- **A lenient clearing** succeeds, accounts for its faults and leaves no removal open. -/
theorem cleared_lenient (op : Operator σ) (c : σ) :
    ∃ q requests, op.clear options (Run.start c) = (.ok (), q) ∧ q.errors = q.faults ∧
      op.server.Clears c clearingOrder [] requests ∧
      q.calls = op.server.calls (requests ++ [.restart none]) c := by
  have hstart : (Ledger.ofRemovals op.server c).owes [] [] (Run.start c) :=
    ⟨rfl, [], .start, rfl⟩
  obtain ⟨q₁, hfirst, howes⟩ :=
    owes_clearStage hlenient op .volumes [.volume] (by simp) (by simp) hstart
  obtain ⟨q₂, hsecond, howes⟩ :=
    owes_clearStage hlenient op .cluster clearedKinds (by decide) (by decide) howes
  obtain ⟨q₃, hthird, hcounts, requests, hclears, hsee⟩ :=
    owes_clearStage hlenient op .namespaces [.ns] (by decide) (by decide) howes
  have hrestart := accounts_restartScheduler op.server hlenient none q₃
  change (∃ x, (restartScheduler op.server options none q₃).1 = .ok x) ∧
    (restartScheduler op.server options none q₃).2.errors + q₃.faults =
      q₃.errors + (restartScheduler op.server options none q₃).2.faults + 0 at hrestart
  have hasked : Sight.record.see (restartScheduler op.server options none q₃).2 =
      op.server.making [.restart none] (Sight.record.see q₃) :=
    (acts_restartScheduler_record none).snd q₃
  rw [clear, Attempt.bind_apply, hfirst]
  simp only
  rw [Attempt.bind_apply, hsecond]
  simp only
  rw [Attempt.bind_apply, hthird]
  simp only
  rw [Attempt.bind_apply, Attempt.mapError_apply]
  generalize restartScheduler op.server options none q₃ = restarted at hrestart hasked ⊢
  obtain ⟨result, r⟩ := restarted
  obtain ⟨⟨x, rfl⟩, haccounts⟩ := hrestart
  obtain ⟨q, hq, hcalls, herrors⟩ := Attempt.report_apply (e := .cleared) Level.noConfusion r
  rw [hsee, ← Server.making_append] at hasked
  refine ⟨q, requests, hq, ?_, hclears, hcalls.trans (congrArg Prod.snd hasked)⟩
  have hfaults : q.faults = r.faults := congrArg (List.countP Call.isFault) hcalls
  simp only at haccounts
  omega

/-! ### Captures, replays and copies -/

/-- **A lenient capture** succeeds, accounts for its faults and asks all its questions. -/
theorem captured_lenient (op : Operator σ) (p : Progress σ) :
    ∃ snapshot q, op.capture options p = (.ok snapshot, q) ∧
      q.errors + p.faults = p.errors + q.faults ∧
      Sight.record.see q = op.server.making captureRequests (Sight.record.see p) := by
  obtain ⟨-, haccounts⟩ := accounts_capture hlenient op p
  have hcaptured := op.captured_capture options p
  change (op.capture options p).2.errors + p.faults =
    p.errors + (op.capture options p).2.faults + 0 at haccounts
  generalize op.capture options p = done at hcaptured haccounts
  cases hcaptured with
  | @done q hsee _ => exact ⟨_, q, rfl, haccounts, hsee⟩
  | stopped hstrict =>
      rw [hlenient] at hstrict
      cases hstrict

/-- **A lenient replay** succeeds, accounts for its faults and for claims that are named only in
part, and hands in everything that is not reserved. -/
theorem replayed_lenient (op : Operator σ) (s : Replay) (p : Progress σ) :
    ∃ q calls, op.replay s options p = (.ok (), q) ∧
      q.errors + p.faults = p.errors + q.faults + s.claimsNamedInPart ∧
      q.calls = p.calls ++ calls ∧
      List.Forall₂ Item.HandedInAs s.unreserved
        (calls.filterMap fun call => call.request.applied?) := by
  obtain ⟨hok, hsee⟩ := op.replay_lenient s options hlenient p
  obtain ⟨-, haccounts⟩ := accounts_replay hlenient op s p
  refine ⟨(op.replay s options p).2, _, Prod.ext hok rfl, haccounts, congrArg Prod.snd hsee, ?_⟩
  have hconfig : (s.configRequests options.ignoreSchedulerConfig).filterMap
      Request.applied? = [] := by
    rw [Replay.configRequests]
    split <;> rfl
  change List.Forall₂ _ _ ((op.server.calls _ p.state).filterMap _)
  rw [Server.filterMap_calls, Replay.requestsUpTo, List.filterMap_append, hconfig]
  exact Server.handedInAs_submissions s.admits _

/-- **A lenient copy** succeeds, accounts for its faults and for captured claims that are named only
in part, and hands in everything that it has captured and that is not reserved. -/
theorem copied_lenient (op : Operator σ) (source : Server σ) (c : σ) :
    ∃ s q r, ((Operator.new source).withMaxConcurrency op.maxConcurrency).capture options
        (Run.start c) = (.ok s, q) ∧
      op.copyFrom source options (Run.start c) = (.ok (), r) ∧
      r.errors = r.faults + (Snapshot.toReplay s).claimsNamedInPart ∧
      List.Forall₂ Item.HandedInAs (Snapshot.toReplay s).unreserved
        (r.calls.filterMap fun call => call.request.applied?) := by
  obtain ⟨s, q, hcaptured, hcounts, hsee⟩ := captured_lenient hlenient
    ((Operator.new source).withMaxConcurrency op.maxConcurrency) (Run.start c)
  obtain ⟨q', calls, hreplayed, hcounts', hcalls, hhanded⟩ :=
    replayed_lenient hlenient op (Snapshot.toReplay s) q
  obtain ⟨r, hr, hreported, herrors⟩ :=
    Attempt.report_apply (e := .copied s.objectCount) Level.noConfusion q'
  have hasked : q.calls.filterMap (fun call => call.request.applied?) = [] := by
    have hcalls : q.calls = source.calls captureRequests c := congrArg Prod.snd hsee
    rw [hcalls, Server.filterMap_calls]
    rfl
  refine ⟨s, q, r, hcaptured, ?_, ?_, ?_⟩
  · rw [copyFrom, Attempt.bind_apply, hcaptured]
    simp only
    rw [Attempt.bind_apply, hreplayed]
    exact hr
  · have hfaults : r.faults = q'.faults := congrArg (List.countP Call.isFault) hreported
    change q.errors + 0 = 0 + q.faults at hcounts
    omega
  · rw [hreported, hcalls, List.filterMap_append, hasked]
    exact hhanded

end Operator

/-- **Lenient operations account for what fails and attempt everything.** Whatever servers answer
and however many tasks may be under way, each operation succeeds. It reports as many errors as calls
have failed, but for failures that nobody minds; a replay and a copy report besides each bound
volume that is to be handed in and names its claim only in part. A capture asks for every kind and
for the configuration. A replay hands in every object that is not reserved, and so does a copy with
what it has captured. A clearing lists every kind, and after a list it removes each object of the
kind that was listed and is not reserved. -/
theorem Operator.lenient_accounts (server source : Server σ) (limit : Nat)
    (decorate : Stored .pod → Stored .pod) (ignoreConfig : Bool) (c : σ) :
    let op : Operator σ := ⟨server, limit, decorate⟩
    let options : Options := ⟨true, ignoreConfig⟩
    (let done := op.capture options (Run.start c)
     done.2.errors = done.2.faults ∧ done.2.calls.map (·.request) = captureRequests ∧
        ∃ s, done.1 = .ok s) ∧
    (∀ s : Replay,
      let done := op.replay s options (Run.start c)
      done.1 = .ok () ∧ done.2.errors = done.2.faults + s.claimsNamedInPart ∧
        List.Forall₂ Item.HandedInAs s.unreserved
          (done.2.calls.filterMap fun call => call.request.applied?)) ∧
    (let captured := ((Operator.new source).withMaxConcurrency limit).capture options (Run.start c)
     let done := op.copyFrom source options (Run.start c)
     ∃ s, captured.1 = .ok s ∧ done.1 = .ok () ∧
        done.2.errors = done.2.faults + (Snapshot.toReplay s).claimsNamedInPart ∧
        List.Forall₂ Item.HandedInAs (Snapshot.toReplay s).unreserved
          (done.2.calls.filterMap fun call => call.request.applied?)) ∧
    (let done := op.clear options (Run.start c)
     let requests := done.2.calls.map (·.request)
     done.1 = .ok () ∧ done.2.errors = done.2.faults ∧
        (requests.filter fun r => r.removed?.isNone) =
          clearingOrder.map (Request.list · none) ++ [.restart none] ∧
        ∀ before k rest, requests = before ++ .list k none :: rest →
          ((rest.filterMap Request.removed?).filter fun a => a.kind = k) =
            server.userAddresses (server.after before c) k) := by
  intro op options
  have hlenient : options.ignoreErrors = true := rfl
  refine ⟨?_, fun s => ?_, ?_, ?_⟩
  · obtain ⟨s, q, hdone, hcounts, hsee⟩ := captured_lenient hlenient op (Run.start c)
    have hcalls : q.calls = server.calls captureRequests c := congrArg Prod.snd hsee
    rw [hdone]
    refine ⟨hcounts.trans (Nat.zero_add _), ?_, s, rfl⟩
    simp only
    rw [hcalls]
    exact Server.map_request_calls _ _
  · obtain ⟨q, calls, hdone, hcounts, hcalls, hhanded⟩ :=
      replayed_lenient hlenient op s (Run.start c)
    rw [hdone]
    refine ⟨rfl, ?_, ?_⟩
    · exact hcounts.trans (congrArg (· + _) (Nat.zero_add _))
    · simp only
      rw [hcalls]
      exact hhanded
  · obtain ⟨s, q, r, hcaptured, hdone, hcounts, hhanded⟩ := copied_lenient hlenient op source c
    rw [hdone]
    exact ⟨s, congrArg Prod.fst hcaptured, rfl, hcounts, hhanded⟩
  · obtain ⟨q, requests, hdone, hcounts, hclears, hcalls⟩ :=
      cleared_lenient hlenient op c
    have hrequests : q.calls.map (·.request) = requests ++ [.restart none] := by
      rw [hcalls]
      exact Server.map_request_calls _ _
    rw [hdone]
    refine ⟨rfl, hcounts, ?_, ?_⟩
    · simp only
      rw [hrequests, List.filter_append, hclears.lists]
      rfl
    · simp only
      rw [hrequests]
      exact fun before k rest hsplit => hclears.removals_restart hsplit

end ClusterSnapshot
