import ClusterSnapshot.Operation.Clearing
import ClusterSnapshot.Proofs.Operation.Course
import ClusterSnapshot.Proofs.Store.Address
import ClusterSnapshot.Proofs.Store.Serving

/-!
# The course of a clearing

The objects of a kind are listed while removals of kinds before may still be waiting. A server that
keeps kinds apart answers the same whenever that is, so what a clearing lists and what it removes
can be told from the state in which it begins. Only how lists and removals follow each other depends
on the turns; so they are seen apart, each in order.

## Main results

* `Server.Apart`: a server that keeps kinds apart.
* `Operator.spawned_spawnDeletions`: a group has taken on the removals of all objects of its kinds,
  or a list has ended the stage.
* `Operator.follows_clear`: **the course of a clearing**.
-/

namespace ClusterSnapshot

variable {σ : Type} {k : Kind}

/-! ### Removals -/

/-- The address of the object that a request removes. -/
def Request.removed? : Request → Option Address
  | .delete k name ns? => some ⟨k, ns?, name⟩
  | _ => none

/-- The request to remove the object at an address. -/
def Address.removal (a : Address) : Request := .delete a.kind a.name a.ns?

/-- The kinds in the order in which their objects are removed. -/
def clearingOrder : List Kind := [.volume] ++ Operator.clearedKinds ++ [.ns]

/-- Whether a call removes something. -/
def Call.removes (call : Call) : Bool := call.request.removed?.isSome

/-- The calls that remove something, and apart from them the others. -/
abbrev SortedCalls := List Call × List Call

/-- One more call. -/
def SortedCalls.note (calls : SortedCalls) (call : Call) : SortedCalls :=
  if call.removes then (calls.1 ++ [call], calls.2) else (calls.1, calls.2 ++ [call])

/-- Whether a call has ended the operation. -/
def SortedCalls.Halts (calls : SortedCalls) : Prop := Halted calls.1 ∨ Halted calls.2

/-- The calls, sorted. -/
def sortCalls (calls : List Call) : SortedCalls :=
  (calls.filter Call.removes, calls.filter fun call => !call.removes)

/-- The state is seen, and the calls are seen sorted. -/
abbrev Sight.sorted : Sight σ (σ × SortedCalls) :=
  ⟨fun p => (p.state, sortCalls p.calls), fun _ _ => rfl⟩

/-- One more call is sorted in after the others. -/
theorem sortCalls_append (calls : List Call) (call : Call) :
    sortCalls (calls ++ [call]) = (sortCalls calls).note call := by
  rw [sortCalls, sortCalls, SortedCalls.note, List.filter_append, List.filter_append]
  cases h : call.removes <;> simp [h]

/-- Calls that are the same when they are sorted are the same in some order. -/
theorem perm_of_sortCalls_eq {calls calls' : List Call} (h : sortCalls calls = sortCalls calls') :
    calls.Perm calls' := by
  obtain ⟨hremovals, hothers⟩ := Prod.mk.inj h
  have hperm := List.filter_append_perm Call.removes calls
  rw [hremovals, hothers] at hperm
  exact hperm.symm.trans (List.filter_append_perm _ _)

/-- Sorting loses no call that ends an operation. -/
theorem halts_sortCalls {calls : List Call} : (sortCalls calls).Halts ↔ Halted calls := by
  rw [SortedCalls.Halts, ← halted_append]
  exact exists_congr fun call =>
    and_congr_left fun _ => (List.filter_append_perm Call.removes calls).mem_iff

namespace Server

variable (server : Server σ)

/-- **A server that keeps kinds apart**: to list changes nothing, and what is listed of a kind does
not depend on removals of other kinds. -/
structure Apart : Prop where
  list_state : ∀ (k : Kind) (s : σ), (server.serve (.list k none) s).2 = s
  list_removal : ∀ (a : Address) (k : Kind) (s : σ), a.kind ≠ k →
    (server.serve (.list k none) (server.serve a.removal s).2).1 =
      (server.serve (.list k none) s).1

/-- The addresses of the objects of a kind that are listed of the user. -/
def userAddresses (s : σ) (k : Kind) : List Address :=
  (userOnly (server.serve (.list k none) s).1).map Stored.address

/-- To remove an object, as an act that is seen with the calls sorted. -/
def removing (options : Options) (a : Address) : Act (σ × SortedCalls) (Ending Unit) := fun t =>
  ((options.ruling (server.call a.removal t.1).stops?).elim (.done ()) .failed,
    (server.serve a.removal t.1).2, t.2.note (server.call a.removal t.1))

/-- The course of a stage that clears some kinds. -/
def clearing (kinds : List Kind) (t : σ × SortedCalls) : σ × SortedCalls :=
  let removals := (kinds.flatMap (server.userAddresses t.1)).map Address.removal
  (server.after removals t.1, t.2.1 ++ server.calls removals t.1,
    t.2.2 ++ server.calls (kinds.map (Request.list · none)) t.1)

/-- The course of one more request that removes nothing. -/
def askingAside (r : Request) (t : σ × SortedCalls) : σ × SortedCalls :=
  ((server.serve r t.1).2, t.2.1, t.2.2 ++ [server.call r t.1])

variable {server} {options : Options}

/-- Removals heed the requests that they make. -/
theorem heeds_removing (addresses : List Address) :
    List.Forall₂ (options.Heeds server SortedCalls.note)
      (addresses.map (server.removing options)) (addresses.map Address.removal) := by
  rw [List.forall₂_map_left_iff, List.forall₂_map_right_iff]
  refine List.forall₂_same.mpr fun a _ => ⟨fun _ => rfl, fun t => ?_, fun t => ?_⟩
  all_goals
    rw [removing]
    cases options.ruling (server.call a.removal t.1).stops? <;> rfl

/-- Removals are all seen among the removals. -/
theorem foldl_note_removals (addresses : List Address) (s : σ) (calls : SortedCalls) :
    (server.calls (addresses.map Address.removal) s).foldl SortedCalls.note calls =
      (calls.1 ++ server.calls (addresses.map Address.removal) s, calls.2) := by
  induction addresses generalizing s calls with
  | nil => exact Prod.ext (List.append_nil _).symm rfl
  | cons a rest ih =>
      rw [List.map_cons, Server.calls, List.foldl_cons, ih]
      exact Prod.ext (List.append_assoc _ [_] _) rfl

/-- Removals in order make their requests and note them. -/
theorem inOrder_removing (addresses : List Address) (t : σ × SortedCalls) :
    (inOrder (addresses.map (server.removing options)) t).2 =
      (server.after (addresses.map Address.removal) t.1,
        t.2.1 ++ server.calls (addresses.map Address.removal) t.1, t.2.2) := by
  rw [Options.inOrder_heeding (heeds_removing addresses), foldl_note_removals]

/-- What else was asked for does not matter to removals. -/
theorem removing_shift (a : Address) (calls : List Call) (t : σ × SortedCalls) :
    server.removing options a (t.1, t.2.1, t.2.2 ++ calls) =
      ((server.removing options a t).1, (server.removing options a t).2.1,
        (server.removing options a t).2.2.1, (server.removing options a t).2.2.2 ++ calls) := rfl

namespace Apart

variable (h : server.Apart)

include h

/-- To list changes nothing. -/
theorem after_lists (kinds : List Kind) (s : σ) :
    server.after (kinds.map (Request.list · none)) s = s := by
  induction kinds with
  | nil => rfl
  | cons k rest ih =>
      rw [List.map_cons, Server.after, List.foldl_cons, h.list_state]
      exact ih

/-- The first kind is listed first. -/
theorem calls_lists_cons (k : Kind) (rest : List Kind) (s : σ) :
    server.calls ((k :: rest).map (Request.list · none)) s =
      server.call (.list k none) s :: server.calls (rest.map (Request.list · none)) s := by
  rw [List.map_cons, Server.calls, h.list_state]

/-- What is listed of a kind does not depend on removals of other kinds. -/
theorem list_removals {addresses : List Address} (hkind : ∀ a ∈ addresses, a.kind ≠ k) (s : σ) :
    (server.serve (.list k none) (server.after (addresses.map Address.removal) s)).1 =
      (server.serve (.list k none) s).1 := by
  induction addresses generalizing s with
  | nil => rfl
  | cons a rest ih =>
      obtain ⟨ha, hrest⟩ := List.forall_mem_cons.mp hkind
      rw [List.map_cons, Server.after, List.foldl_cons]
      exact (ih hrest _).trans (h.list_removal a k s ha)

/-- Removals of other kinds leave the objects of a kind alone. -/
theorem userAddresses_removals {addresses : List Address} (hkind : ∀ a ∈ addresses, a.kind ≠ k)
    (s : σ) :
    server.userAddresses (server.after (addresses.map Address.removal) s) k =
      server.userAddresses s k := by
  rw [userAddresses, userAddresses, h.list_removals hkind]

/-- The call that lists a kind does not depend on removals of other kinds. -/
theorem call_list_removals {addresses : List Address} (hkind : ∀ a ∈ addresses, a.kind ≠ k)
    (s : σ) :
    server.call (.list k none) (server.after (addresses.map Address.removal) s) =
      server.call (.list k none) s := by
  rw [call, call, h.list_removals hkind]

/-- Removals of other kinds leave the listings of some kinds alone. -/
theorem calls_lists_removals {kinds : List Kind} {addresses : List Address}
    (hkinds : ∀ k ∈ kinds, ∀ a ∈ addresses, a.kind ≠ k) (s : σ) :
    server.calls (kinds.map (Request.list · none))
        (server.after (addresses.map Address.removal) s) =
      server.calls (kinds.map (Request.list · none)) s := by
  induction kinds with
  | nil => rfl
  | cons k rest ih =>
      obtain ⟨hk, hrest⟩ := List.forall_mem_cons.mp hkinds
      rw [h.calls_lists_cons, h.calls_lists_cons, h.call_list_removals hk, ih hrest]

end Apart

/-- The addresses of a kind are of that kind. -/
theorem kind_of_mem_userAddresses {s : σ} {a : Address} (h : a ∈ server.userAddresses s k) :
    a.kind = k := by
  obtain ⟨o, -, rfl⟩ := List.mem_map.mp h
  rfl

end Server

/-! ### Clusters keep kinds apart -/

/-- The server of a cluster keeps kinds apart. -/
theorem Cluster.apart_server (name : String) (external : Bool) :
    (Cluster.server name external).Apart := by
  refine ⟨fun _ _ => rfl, fun a k c hk => ?_⟩
  have hremoved : ((Cluster.server name external).serve a.removal c).2 =
      c.afterRemove a.kind a.name a.ns? := c.serveDelete_snd a.kind a.name a.ns?
  have htable : (c.afterRemove a.kind a.name a.ns?).store.tables.get k = c.store.tables.get k :=
    ByKind.get_set_of_ne _ _ hk
  rw [hremoved]
  change asAnswer ((c.afterRemove a.kind a.name a.ns?).store.list k none) =
    asAnswer (c.store.list k none)
  rw [Store.list, Store.list, htable]

/-- A server keeps kinds apart even if some requests are made to fail. -/
theorem Server.Apart.withFaults {server : Server σ} (h : server.Apart) (faults : List Fault) :
    (server.withFaults faults).Apart := by
  have hserve : ∀ (r : Request) (s : σ), (server.withFaults faults).serve r s =
      ((faults.find? (·.fits r)).elim (server.serve r s) fun f => (.error f.error, s)) := by
    intro r s
    cases hf : faults.find? (·.fits r) <;> simp only [Server.withFaults, hf, Option.elim]
  refine ⟨fun k s => ?_, fun a k s hk => ?_⟩
  · rw [hserve]
    cases faults.find? (·.fits (.list k none)) with
    | none => exact h.list_state k s
    | some f => rfl
  · rw [hserve, hserve, hserve]
    cases faults.find? (·.fits (.list k none)) with
    | some f => rfl
    | none =>
        cases faults.find? (·.fits a.removal) with
        | none => exact h.list_removal a k s hk
        | some f => rfl

/-! ### Tasks of a clearing -/

namespace Operator

open Server

variable {server : Server σ} {options : Options}

/-- A request is seen among the calls it belongs to. -/
theorem acts_request_sorted (server : Server σ) (r : Request) :
    Run.Acts .sorted (Run.request server r) fun t =>
      ((server.serve r t.1).1, (server.serve r t.1).2, t.2.note (server.call r t.1)) := by
  intro p
  have hrecord : server.asking r (Sight.record.see p) = _ := Run.acts_request_record server r p
  obtain ⟨hanswer, hsee⟩ := Prod.mk.inj hrecord
  obtain ⟨hstate, hcalls⟩ := Prod.mk.inj hsee
  refine Prod.ext hanswer (Prod.ext hstate ?_)
  change _ = sortCalls (Run.request server r p).2.calls
  rw [← hcalls]
  exact (sortCalls_append p.calls _).symm

/-- To remove an object fails if it is ended by the request. Of the request so much is seen as
`noted` says, and of reports nothing. -/
theorem acts_deleteOne_seen {τ : Type} {sight : Sight σ τ} {state : τ → σ} {noted : τ → τ}
    (options : Options) (o : Stored k)
    (hrequest : Run.Acts sight (Run.request server o.address.removal) fun t =>
      ((server.serve o.address.removal (state t)).1, noted t))
    (hreport : ∀ e p, sight.see (Run.report e p).2 = sight.see p) :
    Run.Acts sight (Attempt.task (deleteOne server options k o.metadata.name o.metadata.ns?))
      fun t => ((options.ruling (server.call o.address.removal (state t)).stops?).elim (.done ())
        .failed, noted t) := by
  have hdelete : Run.Acts sight (deleteOne server options k o.metadata.name o.metadata.ns?).run
      fun t => ((options.ruling (server.call o.address.removal (state t)).stops?).elim (.ok ())
        .error, noted t) := by
    refine Attempt.acts_andThen hrequest ?_
    intro t answer t' hanswer p hp
    obtain ⟨rfl, rfl⟩ := Prod.mk.inj hanswer
    rw [← hp, Server.call]
    generalize hserved : (server.serve o.address.removal (state t)).1 = answer
    simp only [Address.removal, Stored.address, Options.ruling]
    rcases answer with e | _
    · cases e with
      | notFound what => cases options.ignoreErrors <;> rfl
      | disabled | backend message =>
          simp only [Call.stops?]
          split
          · exact congrArg _ (hreport _ p).symm
          · rfl
    · cases options.ignoreErrors <;> rfl
  intro p
  have htask := hdelete.map Ending.ofExcept p
  rw [Act.map_apply] at htask
  refine Eq.trans (congrArg (·, noted (sight.see p)) ?_) htask
  cases options.ruling (server.call o.address.removal (state (sight.see p))).stops? <;> rfl

/-- To remove an object, as it is seen with the calls sorted. -/
theorem acts_deleteOne (server : Server σ) (options : Options) (o : Stored k) :
    Run.Acts .sorted
      (Attempt.task (deleteOne server options k o.metadata.name o.metadata.ns?))
      (server.removing options o.address) :=
  acts_deleteOne_seen options o (acts_request_sorted server o.address.removal) fun _ _ => rfl

/-- The tasks that remove objects. -/
theorem acts_deletions (server : Server σ) (options : Options) (items : List (Stored k)) :
    List.Forall₂ (Run.Acts .sorted)
      (items.map fun o => Attempt.task (deleteOne server options k o.metadata.name
        o.metadata.ns?))
      ((items.map Stored.address).map (server.removing options)) := by
  rw [List.map_map, List.forall₂_map_left_iff, List.forall₂_map_right_iff]
  exact List.forall₂_same.mpr fun o _ => acts_deleteOne server options o

/-- To list takes no steps. -/
theorem steps_listUserObjects (server : Server σ) (options : Options) (k : Kind)
    (p : Progress σ) : (listUserObjects server options k p).2.steps = p.steps := by
  have hkeeps : Run.Ensures (fun q => q.steps = p.steps)
      (listUserObjects server options k).run fun _ => True := by
    refine Attempt.ensures_andThen
      (Run.ensures_steps_request server (.list k none) p.steps) fun answer _ => ?_
    cases (answer : Except RequestError (List (Stored k))) with
    | ok items => exact Run.ensures_pure trivial
    | error e =>
        simp only
        split
        · exact fun q hq => ⟨trivial, hq⟩
        · exact Run.ensures_pure trivial
  exact (hkeeps p rfl).2

/-! ### Stages of a clearing -/

/-- Where a stage has come to whose kinds are to be listed: all have been and the group has taken on
the removals, or it is strict and a list has ended it. -/
inductive Spawned (server : Server σ) (options : Options) (limit steps : Nat)
    (t : σ × SortedCalls) (addresses : List Address) (kinds : List Kind) :
    Except OperationError (TaskGroup σ Unit) × Progress σ → Prop
  | listed {g : TaskGroup σ Unit} {q : Progress σ} :
    TaskGroup.Reached .sorted limit steps
      (t.1, t.2.1, t.2.2 ++ server.calls (kinds.map (Request.list · none)) t.1)
      ((addresses ++ kinds.flatMap (server.userAddresses t.1)).map (server.removing options)) g q →
    Spawned server options limit steps t addresses kinds (.ok g, q)
  | stopped {e : OperationError} {q : Progress σ} : options.ignoreErrors = false →
    Halted q.calls → Halted (server.calls (kinds.map (Request.list · none)) t.1) →
    Spawned server options limit steps t addresses kinds (.error e, q)

/-- When one more kind has been listed before. -/
theorem Spawned.of_next (hapart : server.Apart) {limit steps : Nat} {t : σ × SortedCalls}
    {addresses : List Address} {k : Kind} {rest : List Kind}
    {done : Except OperationError (TaskGroup σ Unit) × Progress σ}
    (h : Spawned server options limit steps
      (t.1, t.2.1, t.2.2 ++ [server.call (.list k none) t.1])
      (addresses ++ server.userAddresses t.1 k) rest done) :
    Spawned server options limit steps t addresses (k :: rest) done := by
  cases h with
  | listed hreached =>
      refine .listed ?_
      rw [hapart.calls_lists_cons, List.flatMap_cons, ← List.append_assoc, ← List.singleton_append,
        ← List.append_assoc]
      exact hreached
  | stopped hstrict hhalted hlists =>
      refine .stopped hstrict hhalted ?_
      rw [hapart.calls_lists_cons, ← List.singleton_append, halted_append]
      exact .inr hlists

/-- The state that is seen while removals run. -/
theorem state_of_reached {limit steps : Nat} {t : σ × SortedCalls} {addresses : List Address}
    {g : TaskGroup σ Unit} {p : Progress σ}
    (h : TaskGroup.Reached .sorted limit steps t (addresses.map (server.removing options)) g p) :
    ∃ ran rest, addresses = ran ++ rest ∧
      p.state = server.after (ran.map Address.removal) t.1 := by
  obtain ⟨acts, acts', hoffered, hsee⟩ := h.exists_ran
  obtain ⟨ran, rest, rfl, rfl, -⟩ := List.map_eq_append_iff.mp hoffered
  rw [inOrder_removing] at hsee
  exact ⟨ran, rest, rfl, congrArg Prod.fst hsee⟩

/-- While removals of other kinds run, a list is answered as it would have been in the beginning. -/
theorem listUserObjects_apply (hapart : server.Apart) (options : Options) {ran : List Address}
    (hother : ∀ a ∈ ran, a.kind ≠ k) {s : σ} {p : Progress σ}
    (hp : p.state = server.after (ran.map Address.removal) s) :
    ∃ q, listUserObjects server options k p =
        (options.listed k (server.serve (.list k none) s).1, q) ∧ q.state = p.state ∧
      q.calls = p.calls ++ [server.call (.list k none) s] ∧ q.steps = p.steps := by
  obtain ⟨hanswer, hsee⟩ := Prod.mk.inj (acts_listUserObjects server options k p)
  obtain ⟨hstate, hcalls⟩ := Prod.mk.inj hsee
  refine ⟨(listUserObjects server options k p).2, Prod.ext ?_ rfl, ?_, ?_,
    steps_listUserObjects server options k p⟩
  · rw [← hapart.list_removals hother, ← hp]
    exact hanswer.symm
  · exact hstate.symm.trans (hapart.list_state k p.state)
  · rw [← hapart.call_list_removals hother, ← hp]
    exact hcalls.symm

/-- **A group takes on the removals** of all objects of its kinds. When those of a kind are listed,
removals of kinds before may be waiting, but they do not matter. -/
theorem spawned_spawnDeletions (hapart : server.Apart) (options : Options) {limit steps : Nat}
    {kinds : List Kind} (hkinds : kinds.Nodup) {t : σ × SortedCalls} {addresses : List Address}
    (haddresses : ∀ a ∈ addresses, a.kind ∉ kinds) {g : TaskGroup σ Unit} {p : Progress σ}
    (h : TaskGroup.Reached .sorted limit steps t (addresses.map (server.removing options)) g p) :
    Spawned server options limit steps t addresses kinds
      (spawnDeletions server options g kinds p) := by
  induction kinds generalizing t addresses g p with
  | nil =>
      refine .listed ?_
      rw [List.flatMap_nil, List.append_nil, List.map_nil, Server.calls, List.append_nil]
      exact h
  | cons k rest ih =>
      obtain ⟨hk, hrest⟩ := List.nodup_cons.mp hkinds
      obtain ⟨ran, waiting, rfl, hstate⟩ := state_of_reached h
      have hother : ∀ a ∈ ran, a.kind ≠ k := fun a ha hkind =>
        haddresses a (List.mem_append_left _ ha) (hkind ▸ List.mem_cons_self)
      obtain ⟨q, hlist, hq, hcalls, hsteps⟩ := listUserObjects_apply hapart options hother hstate
      rw [spawnDeletions, Attempt.bind_apply, hlist]
      obtain hlisted | ⟨e, hstrict, herror, hlisted⟩ :=
        options.listed_cases (server.serve (.list k none) t.1).1
      · rw [hlisted]
        -- The question is seen aside, so the group is where it was before.
        have hsee : Sight.sorted.see q = ((Sight.sorted.see p).1, (Sight.sorted.see p).2.1,
            (Sight.sorted.see p).2.2 ++ [server.call (.list k none) t.1]) := by
          refine Prod.ext hq ?_
          change sortCalls q.calls = _
          rw [hcalls, sortCalls_append]
          rfl
        have hasked := h.shift (φ := fun t' =>
          (t'.1, t'.2.1, t'.2.2 ++ [server.call (.list k none) t.1]))
          (List.forall_mem_map.mpr fun a _ => removing_shift a _) hsee hsteps
        have hanswers : ∀ f ∈ (ran ++ waiting).map (server.removing options) ++
            (server.userAddresses t.1 k).map (server.removing options), TaskGroup.Answers f := by
          rw [← List.map_append]
          exact Options.answers_of_heeding (heeds_removing _)
        have hspawned := hasked.spawnAll
          (acts_deletions server options (userOnly (server.serve (.list k none) t.1).1)) hanswers
        rw [← List.map_append] at hspawned
        have hnext : ∀ a ∈ ran ++ waiting ++ server.userAddresses t.1 k, a.kind ∉ rest := by
          intro a ha
          rcases List.mem_append.mp ha with ha | ha
          · exact fun hmem => haddresses a ha (List.mem_cons_of_mem k hmem)
          · rw [kind_of_mem_userAddresses ha]
            exact hk
        exact (ih hrest hnext hspawned).of_next hapart
      · rw [hlisted]
        have hends : Halted [server.call (.list k none) t.1] := by
          refine ⟨_, List.mem_singleton_self _, ?_⟩
          rw [Server.call, herror]
          rfl
        refine .stopped hstrict ?_ ?_
        · rw [hcalls, halted_append]
          exact .inr hends
        · rw [hapart.calls_lists_cons, ← List.singleton_append, halted_append]
          exact .inl hends

/-- A group that has only removals to carry out carries out all of them, or it is strict and one of
them has ended it. -/
theorem carriedOut_removing {limit steps : Nat} {t : σ × SortedCalls} {addresses : List Address}
    {result : Except OperationError (List Unit)} {q : Progress σ}
    (h : TaskGroup.CarriedOut .sorted limit steps t (addresses.map (server.removing options)) result
      q) :
    (∃ outputs, result = .ok outputs ∧ Sight.sorted.see q =
      (server.after (addresses.map Address.removal) t.1,
        t.2.1 ++ server.calls (addresses.map Address.removal) t.1, t.2.2)) ∨
    ∃ e, result = .error e ∧ options.ignoreErrors = false ∧ Halted q.calls ∧
      Halted (server.calls (addresses.map Address.removal) t.1) := by
  generalize hfs : addresses.map (server.removing options) = fs at h
  cases h with
  | done hsee _ _ _ =>
      rw [← hfs, inOrder_removing] at hsee
      exact .inl ⟨_, rfl, hsee⟩
  | failed hsee hfailure _ =>
      obtain ⟨taken, dropped, rfl, rfl, -⟩ := List.map_eq_append_iff.mp hfs
      rw [inOrder_removing] at hsee
      rw [Options.firstFailure?_heeding (heeds_removing taken), Options.ruling] at hfailure
      split at hfailure <;> rename_i hlenient
      · cases hfailure
      · have hended : Halted (server.calls (taken.map Address.removal) t.1) :=
          halted_iff_findSome?.mpr (Option.isSome_of_eq_some hfailure)
        have hcalls : (sortCalls q.calls).1 =
            t.2.1 ++ server.calls (taken.map Address.removal) t.1 :=
          congrArg (fun seen : σ × SortedCalls => seen.2.1) hsee
        refine .inr ⟨_, rfl, Bool.eq_false_iff.mpr hlenient, halts_sortCalls.mp (.inl ?_), ?_⟩
        · rw [hcalls, halted_append]
          exact .inr hended
        · rw [List.map_append, Server.calls_append, halted_append]
          exact .inl hended

/-- **The course of a stage of a clearing.** -/
theorem follows_clearStage (op : Operator σ) (hapart : op.server.Apart) (options : Options)
    (stage : Stage) {kinds : List Kind} (hkinds : kinds.Nodup) (p : Progress σ) :
    Attempt.Follows .sorted (·.2.Halts) options (op.server.clearing kinds) () p
      (op.clearStage options stage kinds p) := by
  have hnone : ∀ a ∈ ([] : List Address), a.kind ∉ kinds := fun a ha => absurd ha List.not_mem_nil
  have hspawned := spawned_spawnDeletions hapart options hkinds hnone
    (TaskGroup.reached_new op.maxConcurrency p)
  refine Attempt.Follows.mapError ?_ (.clearStage stage)
  rw [Attempt.bind_apply]
  generalize spawnDeletions op.server options (.new op.maxConcurrency) kinds p = done at hspawned
  cases hspawned with
  | stopped hstrict hhalted hlists =>
      refine .stopped hstrict (halts_sortCalls.mpr hhalted) (.inr ?_)
      exact halted_append.mpr (.inr hlists)
  | listed hreached =>
      rw [List.nil_append] at hreached
      have hcarried := hreached.wait (Options.answers_of_heeding (heeds_removing _))
      simp only [Attempt.bind_apply, ExceptT.mk]
      obtain ⟨outputs, hok, hsee⟩ | ⟨e, herror, hstrict, hhalted, hremovals⟩ :=
        carriedOut_removing hcarried
      · rw [hok]
        exact .through hsee
      · rw [herror]
        exact .stopped hstrict (halts_sortCalls.mpr hhalted)
          (.inl (halted_append.mpr (.inr hremovals)))

/-! ### The whole clearing -/

/-- The course of a restart of the scheduler. -/
theorem follows_restartScheduler (server : Server σ) (options : Options) (p : Progress σ) :
    Attempt.Follows .sorted (·.2.Halts) options (server.askingAside (.restart none)) () p
      (restartScheduler server options none p) := by
  have hact : Run.Acts .record (restartScheduler server options none).run _ :=
    acts_restartScheduler_record none
  obtain ⟨hresult, hsee⟩ := Prod.mk.inj (hact p)
  change _ = (restartScheduler server options none p).1 at hresult
  change _ = Sight.record.see (restartScheduler server options none p).2 at hsee
  generalize restartScheduler server options none p = done at hresult hsee
  obtain ⟨result, q⟩ := done
  obtain ⟨hstate, hcalls⟩ := Prod.mk.inj hsee
  have hsorted : Sight.sorted.see q = server.askingAside (.restart none) (Sight.sorted.see p) := by
    refine Prod.ext hstate.symm ?_
    change sortCalls q.calls = _
    rw [← hcalls]
    exact sortCalls_append p.calls _
  obtain rfl : options.verdict (server.call (.restart none) p.state) = result := hresult
  rw [Options.verdict]
  cases hfatal : (server.call (.restart none) p.state).fatal? with
  | none => exact .through hsorted
  | some e =>
      cases hlenient : options.ignoreErrors with
      | true => exact .through hsorted
      | false =>
          have hhalts : (server.askingAside (.restart none) (Sight.sorted.see p)).2.Halts :=
            .inr (halted_append.mpr (.inr ⟨_, List.mem_singleton_self _,
              Call.stops?_of_fatal (Option.isSome_of_eq_some hfatal)⟩))
          exact .stopped hlenient (hsorted ▸ hhalts) hhalts

end Operator

namespace Server

variable {server : Server σ}

/-- What has halted stays so through a clearing. -/
theorem halts_clearing (kinds : List Kind) (t : σ × SortedCalls) (h : t.2.Halts) :
    (server.clearing kinds t).2.Halts :=
  h.imp (fun h => halted_append.mpr (.inl h)) fun h => halted_append.mpr (.inl h)

/-- What has halted stays so when something is asked aside. -/
theorem halts_askingAside (r : Request) (t : σ × SortedCalls) (h : t.2.Halts) :
    (server.askingAside r t).2.Halts :=
  h.imp_right fun h => halted_append.mpr (.inl h)

/-- To clear some kinds and then others is to clear all of them. -/
theorem clearing_clearing (hapart : server.Apart) {kinds kinds' : List Kind}
    (hkinds : (kinds ++ kinds').Nodup) (t : σ × SortedCalls) :
    server.clearing kinds' (server.clearing kinds t) = server.clearing (kinds ++ kinds') t := by
  have hdisjoint := (List.nodup_append.mp hkinds).2.2
  have hother : ∀ k ∈ kinds', ∀ a ∈ kinds.flatMap (server.userAddresses t.1), a.kind ≠ k := by
    intro k hk a ha
    obtain ⟨j, hj, ha⟩ := List.mem_flatMap.mp ha
    rw [kind_of_mem_userAddresses ha]
    exact hdisjoint j hj k hk
  have haddresses : kinds'.flatMap (server.userAddresses (server.after
      ((kinds.flatMap (server.userAddresses t.1)).map Address.removal) t.1)) =
        kinds'.flatMap (server.userAddresses t.1) :=
    List.flatMap_congr fun k hk => hapart.userAddresses_removals (hother k hk) _
  have hlists := hapart.calls_lists_removals hother t.1
  simp only [clearing, haddresses, hlists, List.flatMap_append, List.map_append, after_append,
    calls_append, hapart.after_lists, List.append_assoc]

end Server

namespace Operator

/-- **The course of a clearing**: all removals of objects of the user, each kind's after those of
the kinds before, and then a restart of the scheduler. -/
theorem follows_clear (op : Operator σ) (hapart : op.server.Apart) (options : Options)
    (p : Progress σ) :
    Attempt.Follows .sorted (·.2.Halts) options
      (op.server.askingAside (.restart none) ∘ op.server.clearing clearingOrder) () p
      (op.clear options p) := by
  have hstage := fun (stage : Stage) (kinds : List Kind) (hkinds : kinds.Nodup) =>
    op.follows_clearStage hapart options stage hkinds
  have hreport : ∀ q : Progress σ, Attempt.Follows .sorted (·.2.Halts) options id () q
      ((Attempt.report .cleared : Attempt σ Unit) q) := fun _ => .through rfl
  have hid : ∀ t : σ × SortedCalls, t.2.Halts → (id t).2.Halts := fun _ => id
  have hrestart : ∀ t : σ × SortedCalls, t.2.Halts →
      ((id ∘ op.server.askingAside (.restart none)) t).2.Halts :=
    fun t => Server.halts_askingAside _ t
  have hkeep : ∀ (kinds : List Kind) (course : σ × SortedCalls → σ × SortedCalls),
      (∀ t, t.2.Halts → (course t).2.Halts) →
        ∀ t : σ × SortedCalls, t.2.Halts → ((course ∘ op.server.clearing kinds) t).2.Halts :=
    fun kinds course h t ht => h _ (Server.halts_clearing kinds t ht)
  have hcourse : (((id ∘ op.server.askingAside (.restart none)) ∘ op.server.clearing [.ns]) ∘
      op.server.clearing clearedKinds) ∘ op.server.clearing [.volume] =
        op.server.askingAside (.restart none) ∘ op.server.clearing clearingOrder := by
    funext t
    simp only [Function.comp_apply, id_eq]
    rw [Server.clearing_clearing hapart (by decide), Server.clearing_clearing hapart (by decide)]
    rfl
  rw [← hcourse, clear]
  refine (hstage .volumes [.volume] (by decide) p).bind (fun q _ => ?_)
    (hkeep _ _ (hkeep _ _ hrestart))
  refine (hstage .cluster clearedKinds (by decide) q).bind (fun q _ => ?_) (hkeep _ _ hrestart)
  refine (hstage .namespaces [.ns] (by decide) q).bind (fun q _ => ?_) hrestart
  exact ((follows_restartScheduler op.server options q).mapError (.clearStage .scheduler)).bind
    (fun q _ => hreport q) hid

end Operator

end ClusterSnapshot
