import ClusterSnapshot.Event
import ClusterSnapshot.Request.Basic

/-!
# Running requests against clusters

A cluster is known only by how it answers: `Server σ` says how a request is served over a state of
type `σ`, which may hold more than the cluster. A `Run σ α` is a computation that makes requests;
besides the state it keeps every call in order, and every event.

A run may set tasks going, and then takes turns with them. A turn has `stepsPerTurn` steps at most.
-/

namespace ClusterSnapshot

/-- How a cluster answers requests. -/
structure Server (σ : Type) where
  /-- The name under which its calls are listed. -/
  cluster : String
  serve : (r : Request) → σ → Except RequestError r.Answer × σ

/-- A part of a state that can be read and replaced. -/
structure Part (σ τ : Type) where
  get : σ → τ
  set : τ → σ → σ

/-- The server of a cluster whose state is a part of a larger one. -/
def Server.within {σ τ : Type} (part : Part σ τ) (server : Server τ) : Server σ where
  cluster := server.cluster
  serve r s :=
    let (answer, t) := server.serve r (part.get s)
    (answer, part.set t s)

/-- The steps that a run may take in one turn. -/
def stepsPerTurn : Nat := 128

/-- What a run has come to: the state, the calls made and the events reported so far. -/
structure Progress (σ : Type) where
  state : σ
  calls : List Call
  events : List Event
  /-- The steps that are left in this turn. -/
  steps : Nat

/-- A computation that makes requests. -/
abbrev Run (σ α : Type) := StateM (Progress σ) α

/-- What is reported when a request was served. -/
def Request.events : Request → List Event
  | .restart config? =>
    let config := config?.getD .default
    [.schedulerRestarted config.profiles.length config.extenders.length]
  | _ => []

namespace Run

variable {σ α : Type}

/-- Reports an event. -/
def report (e : Event) : Run σ Unit := modify fun p => { p with events := p.events ++ [e] }

/-- Makes a request and keeps the call. -/
def request (server : Server σ) (r : Request) : Run σ (Except RequestError r.Answer) := fun p =>
  match server.serve r p.state with
  | (.ok answer, state) =>
    (.ok answer, { p with state, calls := p.calls ++ [⟨server.cluster, r, none⟩],
                          events := p.events ++ r.events })
  | (.error e, state) =>
    (.error e, { p with state, calls := p.calls ++ [⟨server.cluster, r, some e⟩] })

/-- Takes a step. -/
def step : Run σ Unit := modify fun p => { p with steps := p.steps - 1 }

/-- Begins another turn. -/
def beginTurn : Run σ Unit := modify fun p => { p with steps := stepsPerTurn }

/-- The progress before anything was done. -/
def start (s : σ) : Progress σ := ⟨s, [], [], stepsPerTurn⟩

end Run

end ClusterSnapshot
