import ClusterSnapshot.Extender.Proxy
import ClusterSnapshot.Path
import ClusterSnapshot.Scheduler.Configuration
import Mathlib.Data.List.Forall2

/-!
# Calls that are sent to one address

A routed configuration sends the calls to all extenders to one address, and only the verb tells
which extender and which phase a call is for. `calledAt?` reads a verb from the other end, as the
proxy at that address has to: the phase, and the position of an extender.

## Main results

* `calledAt?_routedVerb`: what a verb was made from is read off it.
* `Configuration.routed_apart`: **the verbs of a routed configuration lead apart, each to its own
  extender**, and nothing is left of where the calls went before.
-/

namespace ClusterSnapshot.Scheduler

open Extender (Phase Client Proxy DecisionLog DecisionKey)

/-! ### Verbs -/

/-- What is called under a verb: the phase that its first name gives, and the position that its
second one writes in decimal. -/
def calledAt? (verb : String) : Option (Phase × Nat) :=
  match Path.names verb with
  | [phase, digits] =>
    let position := Nat.ofDigitChars 10 digits.toList 0
    if toString position = digits then (Phase.ofName? phase).map (·, position) else none
  | _ => none

/-- Two names with a slash between them are read as these names. -/
theorem names_slash {a b : String} (ha : '/' ∉ a.toList) (hb : '/' ∉ b.toList) :
    Path.names (a ++ "/" ++ b) = [a, b] := by
  have hchars : (a ++ "/" ++ b).toList = a.toList ++ '/' :: b.toList := by
    rw [String.toList_append, String.toList_append, List.append_assoc]
    rfl
  rw [Path.names, hchars, List.splitOn_append_cons_self_of_not_mem ha,
    List.splitOn_eq_singleton hb, List.map_cons, List.map_cons, List.map_nil, String.ofList_toList,
    String.ofList_toList]

/-- A position is written without a slash. -/
theorem slash_not_mem_repr (n : Nat) : '/' ∉ n.repr.toList := by
  intro hslash
  have hdigit : '/'.isDigit = true := by
    refine Nat.isDigit_of_mem_toDigits (b := 10) (by decide) (by decide) (n := n) ?_
    rwa [Nat.repr, String.toList_ofList] at hslash
  exact absurd hdigit (by decide)

/-- **What a verb was made from is read off it.** -/
theorem calledAt?_routedVerb (p : Phase) (position : Nat) :
    calledAt? (routedVerb p.name position) = some (p, position) := by
  have hphase : '/' ∉ p.name.toList := by cases p <;> decide
  have hname : Phase.ofName? p.name = some p := by cases p <;> decide
  have hposition : Nat.ofDigitChars 10 (toString position).toList 0 = position := by
    rw [show (toString position).toList = Nat.toDigits 10 position from String.toList_ofList,
      Nat.ofDigitChars_ten_toDigits]
  have hslash : '/' ∉ (toString position).toList := slash_not_mem_repr position
  rw [calledAt?, routedVerb, names_slash hphase hslash]
  simp only [hposition, hname, ↓reduceIte, Option.map_some]

/-! ### Extenders -/

namespace ExtenderConfig

/-- The verb that is set for a phase. -/
def verb? (e : ExtenderConfig) : Phase → Option String
  | .filter => e.filterVerb?
  | .prioritize => e.prioritizeVerb?
  | .preempt => e.preemptVerb?
  | .bind => e.bindVerb?

/-- **An extender's settings that send its calls to `url`**: the same verbs are set, whatever they
are, and everything else is as it was. -/
structure SentTo (url : String) (e e' : ExtenderConfig) : Prop where
  urlPrefix : e'.urlPrefix = url
  isSet : ∀ p, (e'.verb? p).isSome = (e.verb? p).isSome
  weight : e'.weight = e.weight
  extra : e'.extra = e.extra

variable (e : ExtenderConfig) (url : String) (position : Nat)

/-- An extender that is routed has a verb for the phases that it had one for. -/
theorem verb?_routeThrough (p : Phase) :
    (e.routeThrough url position).verb? p =
      (e.verb? p).map fun _ => routedVerb p.name position := by
  cases p <;> rfl

/-- An extender that is routed is sent to the server, and else as it was. -/
theorem sentTo_routeThrough : e.SentTo url (e.routeThrough url position) where
  urlPrefix := rfl
  isSet p := by rw [verb?_routeThrough, Option.isSome_map]
  weight := rfl
  extra := rfl

/-- Where the calls went before does not matter. -/
theorem routeThrough_routeThrough (url' : String) :
    (e.routeThrough url position).routeThrough url' position = e.routeThrough url' position := by
  simp only [routeThrough, Option.map_map, Function.comp_def]

end ExtenderConfig

/-! ### Configurations -/

namespace Configuration

/-- **A configuration that sends the calls to all extenders to `url`**: the extenders stay in their
order, and everything else is as it was. -/
structure SentTo (url : String) (c c' : Configuration) : Prop where
  apiVersion : c'.apiVersion? = c.apiVersion?
  kind : c'.kind? = c.kind?
  parallelism : c'.parallelism? = c.parallelism?
  profiles : c'.profiles = c.profiles
  extra : c'.extra = c.extra
  extenders : List.Forall₂ (ExtenderConfig.SentTo url) c.extenders c'.extenders

/-- The verb that is set for a phase of the extender at a position. -/
def verbAt? (c : Configuration) (position : Nat) (p : Phase) : Option String :=
  c.extenders[position]?.bind (·.verb? p)

/-- **The verbs of a configuration are apart**: no text is set twice. -/
def VerbsApart (c : Configuration) : Prop :=
  ∀ i j p q verb, c.verbAt? i p = some verb → c.verbAt? j q = some verb → i = j ∧ p = q

/-- **The verbs of a configuration reach clients by position.** Under each of them a proxy that took
the clients in this order hands the call to the client at the extender's position: it answers what
that client answers, and if this is no failure, records it under that client's name. -/
def Reaches (c : Configuration) (clients : List Client) : Prop :=
  ∀ position p verb, c.verbAt? position p = some verb →
    ∃ id client, calledAt? verb = some (p, id) ∧ clients[position]? = some client ∧
      ∀ (log : DecisionLog) (args : p.Args),
        let proxy := clients.foldl Proxy.withExtender (.new log)
        (proxy.call p id args).answer = client.answer p args ∧
          (proxy.call p id args).proxy.log = match client.answer p args with
            | .ok result => log.record (.ofArgs p args) client.name ⟨p, result⟩
            | .error _ => log

variable (c : Configuration) (url : String)

/-- Each extender is routed with its position. -/
theorem getElem?_routed (position : Nat) :
    (c.routeExtendersThrough url).extenders[position]? =
      c.extenders[position]?.map (·.routeThrough url position) := by
  rw [routeExtendersThrough, List.getElem?_map, List.getElem?_zipIdx, Option.map_map, Nat.zero_add]
  rfl

/-- A routed verb is the one of its place, and is set if one was set there. -/
theorem verbAt?_routed (position : Nat) (p : Phase) :
    (c.routeExtendersThrough url).verbAt? position p =
      (c.verbAt? position p).map fun _ => routedVerb p.name position := by
  rw [verbAt?, getElem?_routed, verbAt?]
  cases c.extenders[position]? with
  | none => rfl
  | some e => exact e.verb?_routeThrough url position p

/-- What is called under a routed verb is its place. -/
theorem calledAt?_of_routed {c : Configuration} {url : String} {position : Nat} {p : Phase}
    {verb : String} (h : (c.routeExtendersThrough url).verbAt? position p = some verb) :
    calledAt? verb = some (p, position) := by
  rw [verbAt?_routed, Option.map_eq_some_iff] at h
  obtain ⟨_, -, rfl⟩ := h
  exact calledAt?_routedVerb p position

/-- A configuration that is routed is sent to the server, and else as it was. -/
theorem sentTo_routed : c.SentTo url (c.routeExtendersThrough url) where
  apiVersion := rfl
  kind := rfl
  parallelism := rfl
  profiles := rfl
  extra := rfl
  extenders := by
    rw [List.forall₂_iff_get]
    refine ⟨by simp [routeExtendersThrough], fun i h h' => ?_⟩
    have hget := c.getElem?_routed url i
    rw [List.getElem?_eq_getElem h', List.getElem?_eq_getElem h, Option.map_some] at hget
    rw [List.get_eq_getElem, List.get_eq_getElem, Option.some.inj hget]
    exact ExtenderConfig.sentTo_routeThrough _ url i

/-- All verbs of a configuration that is routed are different. -/
theorem verbsApart_routed : (c.routeExtendersThrough url).VerbsApart := by
  intro i j p q verb hi hj
  have hsame := (calledAt?_of_routed hi).symm.trans (calledAt?_of_routed hj)
  obtain ⟨rfl, rfl⟩ := Prod.mk.inj (Option.some.inj hsame)
  exact ⟨rfl, rfl⟩

end Configuration

end ClusterSnapshot.Scheduler

namespace ClusterSnapshot.Extender.Proxy

/-- Clients are taken in their order. -/
theorem foldl_withExtender (clients : List Client) (proxy : Proxy) :
    clients.foldl withExtender proxy = { proxy with extenders := proxy.extenders ++ clients } := by
  induction clients generalizing proxy with
  | nil => rw [List.foldl_nil, List.append_nil]
  | cons client rest ih =>
      rw [List.foldl_cons, ih, withExtender, List.append_assoc]
      rfl

end ClusterSnapshot.Extender.Proxy

namespace ClusterSnapshot.Scheduler.Configuration

open Extender (Phase Client Proxy)

variable (c : Configuration) (url : String)

/-- With a client for each extender, every path reaches the client of its extender. -/
theorem reaches_routed {clients : List Client} (hclients : clients.length = c.extenders.length) :
    (c.routeExtendersThrough url).Reaches clients := by
  intro position p verb hverb
  have hposition : position < clients.length := by
    rw [verbAt?_routed, Option.map_eq_some_iff] at hverb
    obtain ⟨verb, hverb, -⟩ := hverb
    obtain ⟨e, he, -⟩ := Option.bind_eq_some_iff.mp hverb
    exact hclients ▸ (List.getElem?_eq_some_iff.mp he).1
  have hclient : clients[position]? = some clients[position] := List.getElem?_eq_getElem hposition
  refine ⟨position, clients[position], calledAt?_of_routed hverb, hclient, fun log args => ?_⟩
  have hextenders : (clients.foldl Proxy.withExtender (.new log)).extenders = clients := by
    rw [Proxy.foldl_withExtender]
    rfl
  have hlog : (clients.foldl Proxy.withExtender (.new log)).log = log := by
    rw [Proxy.foldl_withExtender]
    rfl
  simp only [Proxy.call, hextenders, hclient]
  cases clients[position].answer p args with
  | error e => exact ⟨rfl, hlog⟩
  | ok result => exact ⟨rfl, by rw [hlog]⟩

/-- To route once more is to route to the last server only. -/
theorem route_routed (url' : String) :
    (c.routeExtendersThrough url).routeExtendersThrough url' = c.routeExtendersThrough url' := by
  have hextenders : ((c.routeExtendersThrough url).routeExtendersThrough url').extenders =
      (c.routeExtendersThrough url').extenders := by
    refine List.ext_getElem? fun position => ?_
    rw [getElem?_routed, getElem?_routed, getElem?_routed, Option.map_map]
    cases c.extenders[position]? with
    | none => rfl
    | some e => exact congrArg some (e.routeThrough_routeThrough url position url')
  exact congrArg (fun extenders => { c with extenders }) hextenders

/-- **A routed configuration leads every call to its own extender.** It sends all calls to the new
address and keeps everything else. No two of its verbs have the same text, whatever the verbs were.
Each verb names the phase and the position under which a proxy with one client for every extender
reaches the client of that extender. Routing it once more leaves nothing of the first time. -/
theorem routed_apart (url url' : String) (clients : List Client)
    (hclients : clients.length = c.extenders.length) :
    c.SentTo url (c.routeExtendersThrough url) ∧
      (c.routeExtendersThrough url).VerbsApart ∧
      (c.routeExtendersThrough url).Reaches clients ∧
      (c.routeExtendersThrough url).routeExtendersThrough url' = c.routeExtendersThrough url' :=
  ⟨c.sentTo_routed url, c.verbsApart_routed url, c.reaches_routed url hclients,
    c.route_routed url url'⟩

/-- Two extenders with the same address and the same verb, of which the second one does not bind. -/
theorem routed_apart_two :
    let extender (bindVerb? : Option String) : ExtenderConfig :=
      ⟨"http://x", some "run", none, none, bindVerb?, 2, ∅⟩
    let c := { Configuration.default with extenders := [extender (some "run"), extender none] }
    let client (name : String) : Client := ⟨name, fun p _ => .error (.client name p "busy")⟩
    let routed := c.routeExtendersThrough "http://proxy"
    routed.extenders.map (·.filterVerb?) = [some "filter/0", some "filter/1"] ∧
      routed.extenders.map (·.bindVerb?) = [some "bind/0", none] ∧
      routed.Reaches [client "a", client "b"] ∧
      routed.routeExtendersThrough "http://y" = c.routeExtendersThrough "http://y" := by
  intro extender c client routed
  obtain ⟨-, -, hreaches, hagain⟩ :=
    c.routed_apart "http://proxy" "http://y" [client "a", client "b"] rfl
  exact ⟨rfl, rfl, hreaches, hagain⟩

end ClusterSnapshot.Scheduler.Configuration
