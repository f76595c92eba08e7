import ClusterSnapshot.Event
import ClusterSnapshot.Extender.DecisionLog

/-!
# The extender proxy

A proxy stands between the scheduler and its extenders. A call names an extender by its position
and is passed on to it. An answer is recorded under the extender's name before it is handed back; a
failure leaves the record as it was.
-/

namespace ClusterSnapshot.Extender

/-- An extender: its name, and what it answers to the calls of every phase. -/
structure Client where
  name : String
  answer : (p : Phase) → p.Args → Except CallError p.Result

/-- The extenders by position, and the decisions recorded so far. -/
structure Proxy where
  extenders : List Client
  log : DecisionLog

namespace Proxy

/-- A proxy without extenders. -/
def new (log : DecisionLog) : Proxy := ⟨[], log⟩

/-- The proxy with one more extender, at the next position. -/
def withExtender (proxy : Proxy) (client : Client) : Proxy :=
  { proxy with extenders := proxy.extenders ++ [client] }

/-- The names of the extenders by position. -/
def extenderNames (proxy : Proxy) : List String := proxy.extenders.map (·.name)

/-- What a call comes to. -/
structure Outcome (p : Phase) where
  answer : Except CallError p.Result
  proxy : Proxy
  events : List Event

/-- Passes a call on to the extender at a position. -/
def call (proxy : Proxy) (p : Phase) (position : Nat) (args : p.Args) : Outcome p :=
  match proxy.extenders[position]? with
  | none => ⟨.error (.unknown position), proxy, []⟩
  | some client =>
    match client.answer p args with
    | .error e => ⟨.error e, proxy, [.extenderFailed client.name p e]⟩
    | .ok result =>
      let log := proxy.log.record (.ofArgs p args) client.name ⟨p, result⟩
      ⟨.ok result, { proxy with log }, []⟩

end Proxy

end ClusterSnapshot.Extender
