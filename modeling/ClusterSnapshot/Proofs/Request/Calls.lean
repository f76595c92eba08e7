import ClusterSnapshot.Proofs.Request.Run

/-!
# The calls of a run

When requests are made to a server one after the other, the server says how each of them ends and
what state it leaves, and with that it says which calls a run has made.

## Main results

* `Server.making`: **what requests do**, as seen with the calls.
* `Run.acts_request_record`: a run that makes a request is seen to do so.
-/

namespace ClusterSnapshot

variable {σ : Type}

/-- Whether a request only reads. -/
def Request.Reads : Request → Prop
  | .list _ _ | .get _ _ _ | .getConfig => True
  | .apply _ _ | .delete _ _ _ | .restart _ => False

namespace Server

/-- The call that a request is when it is made in a state. -/
def call (server : Server σ) (r : Request) (s : σ) : Call :=
  ⟨server.cluster, r,
    match (server.serve r s).1 with
    | .ok _ => none
    | .error e => some e⟩

/-- The state after requests that are made one after the other. -/
def after (server : Server σ) (requests : List Request) (s : σ) : σ :=
  requests.foldl (fun s r => (server.serve r s).2) s

/-- The calls that requests are when they are made one after the other. -/
def calls (server : Server σ) : List Request → σ → List Call
  | [], _ => []
  | r :: rest, s => server.call r s :: server.calls rest (server.serve r s).2

/-- What requests do that are made one after the other, as seen with the calls. -/
def making (server : Server σ) (requests : List Request) (t : σ × List Call) : σ × List Call :=
  (server.after requests t.1, t.2 ++ server.calls requests t.1)

variable {server : Server σ}

/-- Further requests are made in the state after the first ones. -/
theorem after_append (rs rs' : List Request) (s : σ) :
    server.after (rs ++ rs') s = server.after rs' (server.after rs s) :=
  List.foldl_append

/-- The calls of further requests follow those of the first ones. -/
theorem calls_append (rs rs' : List Request) (s : σ) :
    server.calls (rs ++ rs') s = server.calls rs s ++ server.calls rs' (server.after rs s) := by
  induction rs generalizing s with
  | nil => rfl
  | cons r rest ih =>
      rw [List.cons_append, calls, ih, calls, List.cons_append]
      rfl

/-- Further requests are made after the first ones. -/
theorem making_append (rs rs' : List Request) (t : σ × List Call) :
    server.making (rs ++ rs') t = server.making rs' (server.making rs t) := by
  rw [making, making, making, after_append, calls_append, List.append_assoc]

/-- The calls say which requests were made. -/
@[simp] theorem map_request_calls (rs : List Request) (s : σ) :
    (server.calls rs s).map Call.request = rs := by
  induction rs generalizing s with
  | nil => rfl
  | cons r rest ih =>
      rw [calls, List.map_cons, ih]
      rfl

/-- A call is made for one of the requests. -/
theorem request_mem_of_mem_calls {rs : List Request} {s : σ} {call : Call}
    (h : call ∈ server.calls rs s) : call.request ∈ rs := by
  rw [← server.map_request_calls rs s]
  exact List.mem_map_of_mem h

/-- As many calls as requests have a property of requests. -/
theorem countP_calls (p : Request → Bool) (rs : List Request) (s : σ) :
    (server.calls rs s).countP (fun call => p call.request) = rs.countP p := by
  have hmap : (List.map Call.request (server.calls rs s)).countP p = _ := List.countP_map
  rw [map_request_calls] at hmap
  exact hmap.symm

/-- What requests show is what their calls show. -/
theorem filterMap_calls {β : Type} (f : Request → Option β) (rs : List Request) (s : σ) :
    (server.calls rs s).filterMap (fun call => f call.request) = rs.filterMap f := by
  have hmap : (List.map Call.request (server.calls rs s)).filterMap f = _ := List.filterMap_map
  rw [map_request_calls] at hmap
  exact hmap.symm

/-- To make a request, as an act that is seen with the calls. -/
def asking (server : Server σ) (r : Request) :
    Act (σ × List Call) (Except RequestError r.Answer) :=
  fun t => ((server.serve r t.1).1, server.making [r] t)

end Server

namespace Run

/-- **A run that makes a request** is seen to do so. -/
theorem acts_request_record (server : Server σ) (r : Request) :
    Acts .record (Run.request server r) (server.asking r) := by
  intro p
  simp only [Server.asking, Server.making, Server.after, Server.calls, Server.call, Run.request,
    List.foldl_cons, List.foldl_nil]
  rcases server.serve r p.state with ⟨answer, state⟩
  cases answer <;> rfl

end Run

end ClusterSnapshot
