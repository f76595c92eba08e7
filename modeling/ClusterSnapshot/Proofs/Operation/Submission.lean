import ClusterSnapshot.Proofs.Operation.BringingIn
import ClusterSnapshot.Proofs.Operation.Trace

/-!
# The calls of a lenient replay

A lenient replay goes through to the end, whatever fails. It restarts the scheduler, if it is to,
and then hands in every object that is not reserved, kind by kind and each once. It asks for a claim
right before it hands in the volume that is bound to it.

## Main results

* `Server.HandsIn`: the calls that hand in one object.
* `Operator.handsIn_lenient`: **the calls of a lenient replay**.
-/

namespace ClusterSnapshot

variable {σ : Type} {k : Kind}

/-! ### What is handed in -/

/-- One object as it is handed in for another: without an identity and without the members that only
a store assigns, and else with the same header and the same metadata. -/
structure Desired.HandedInAs (d d' : Desired k) : Prop where
  apiVersion : d'.apiVersion? = d.apiVersion?
  kind : d'.kind? = d.kind?
  name : d'.metadata.name? = d.metadata.name?
  ns : d'.metadata.ns? = d.metadata.ns?
  uid : d'.metadata.uid? = none
  labels : d'.metadata.labels = d.metadata.labels
  annotations : d'.metadata.annotations = d.metadata.annotations
  extra : ∀ key, d'.metadata.extra.find? key =
    if key ∈ Metadata.serverPopulated then none else d.metadata.extra.find? key

/-- The body of a volume. -/
def Object.volumeBody {M : Type} (volume : Object .volume M) : VolumeBody := volume.body

/-- The body with another reference to a claim. -/
def VolumeBody.withClaimRef (b : VolumeBody) (ref : ObjectReference) : VolumeBody :=
  { b with spec := { b.spec with claimRef? := some ref } }

/-- **The calls that hand in an object** to a server in some state. -/
inductive Server.HandsIn (server : Server σ) : (k : Kind) → Desired k → σ → List Call → Prop
  /-- An object that is no volume is handed in with its body. -/
  | object {k : Kind} {d d' : Desired k} {s : σ} : k ≠ .volume →
    d.HandedInAs d' → d'.body = d.body →
    HandsIn server k d s [server.call (.apply k d') s]
  /-- So is a volume that was not bound or has no reference to a claim. -/
  | free {d d' : Desired .volume} {s : σ} :
    d.isBound = false ∨ d.volumeBody.spec.claimRef? = none →
    d.HandedInAs d' → d'.body = d.body →
    HandsIn server .volume d s [server.call (.apply .volume d') s]
  /-- A bound volume is handed in without the identity of its claim if the claim is not fully
  named. -/
  | unnamed {d d' : Desired .volume} {ref : ObjectReference} {s : σ} : d.isBound = true →
    d.volumeBody.spec.claimRef? = some ref → ref.name? = none ∨ ref.ns? = none →
    d.HandedInAs d' → d'.volumeBody = d.volumeBody.withClaimRef { ref with uid? := none } →
    HandsIn server .volume d s [server.call (.apply .volume d') s]
  /-- Else the claim is asked for, and the volume is handed in right after with the identity that
  the claim has, if it is there. -/
  | bound {d d' : Desired .volume} {ref : ObjectReference} {name ns : String} {s : σ}
    {answer : Except RequestError (Stored .claim)} : d.isBound = true →
    d.volumeBody.spec.claimRef? = some ref → ref.name? = some name → ref.ns? = some ns →
    (server.serve (.get .claim name (some ns)) s).1 = answer →
    d.HandedInAs d' →
    d'.volumeBody = d.volumeBody.withClaimRef
      { ref with uid? := answer.toOption.bind (·.metadata.uid?) } →
    HandsIn server .volume d s [server.call (.get .claim name (some ns)) s,
      server.call (.apply .volume d') (server.serve (.get .claim name (some ns)) s).2]

/-- The calls that hand in objects one after the other. -/
inductive Server.HandsInAll (server : Server σ) : List Item → σ → List Call → Prop
  | nil {s : σ} : HandsInAll server [] s []
  | cons {k : Kind} {d : Desired k} {rest : List Item} {s : σ} {calls calls' : List Call} :
    server.HandsIn k d s calls →
    HandsInAll server rest (server.after (calls.map Call.request) s) calls' →
    HandsInAll server (⟨k, d⟩ :: rest) s (calls ++ calls')

/-- The objects that are not reserved, in the order of a replay. -/
def Replay.unreserved (s : Replay) : List Item :=
  replayOrder.flatMap fun k =>
    ((s.objects.get k).filter fun d => !Desired.isExcluded d).map (Sigma.mk k)

/-- The object that a request hands in. -/
def Request.applied? : Request → Option Item
  | .apply k d => some ⟨k, d⟩
  | _ => none

/-- One item as it is handed in for another. -/
inductive Item.HandedInAs : Item → Item → Prop
  | mk {k : Kind} {d d' : Desired k} : d.HandedInAs d' → HandedInAs ⟨k, d⟩ ⟨k, d'⟩

/-! ### Objects that are admitted -/

/-- One object that is admitted for another. -/
inductive Item.Admits : Item → Item → Prop
  | mk {k : Kind} {d d' : Desired k} : Desired.admitted? d = some d' → Admits ⟨k, d⟩ ⟨k, d'⟩

/-- An object that is admitted is handed in as it was admitted. -/
theorem Desired.handedInAs_of_admitted? {d d' : Desired k} (h : admitted? d = some d') :
    d.HandedInAs d' ∧ d'.body = d.body := by
  obtain ⟨-, rfl⟩ := admitted?_eq_some h
  exact ⟨⟨rfl, rfl, rfl, rfl, rfl, rfl, rfl, fun _ => KeyMap.find?_eraseAll _ _ _⟩, rfl⟩

/-- Another identity for the claim changes nothing else of the body. -/
theorem Object.volumeBody_withClaimUid {M : Type} (volume : Object .volume M)
    (uid? : Option String) :
    (volume.withClaimUid uid?).volumeBody =
      { volume.volumeBody with spec := { volume.volumeBody.spec with
        claimRef? := volume.volumeBody.spec.claimRef?.map fun r => { r with uid? } } } := rfl

/-- An object with the same header and metadata is handed in for the same. -/
theorem Desired.HandedInAs.withClaimUid {d d' : Desired .volume} (h : d.HandedInAs d')
    (uid? : Option String) : d.HandedInAs (d'.withClaimUid uid?) :=
  ⟨h.apiVersion, h.kind, h.name, h.ns, h.uid, h.labels, h.annotations, h.extra⟩

namespace Server

variable {server : Server σ}

/-- The calls that hand in a volume that is admitted. -/
theorem handsIn_submission_volume {d d' : Desired .volume} (h : Desired.admitted? d = some d')
    (s : σ) :
    server.HandsIn .volume d s (server.calls (server.submission ⟨.volume, d'⟩ s) s) := by
  obtain ⟨has, hbody⟩ := Desired.handedInAs_of_admitted? h
  have hboundRef : d'.boundRef? = if d.isBound then d.volumeBody.spec.claimRef? else none :=
    congrArg (fun b : VolumeBody => if b.isBound then b.spec.claimRef? else none) hbody
  cases href : d'.boundRef? with
  | none =>
      have hfree : d.isBound = false ∨ d.volumeBody.spec.claimRef? = none := by
        rw [hboundRef] at href
        cases hbound : d.isBound <;> simp_all
      simp only [submission, Desired.lookups, prepared, href]
      exact .free hfree has hbody
  | some ref =>
      obtain ⟨hbound, hclaim⟩ : d.isBound = true ∧ d.volumeBody.spec.claimRef? = some ref := by
        rw [hboundRef] at href
        cases hbound : d.isBound <;> simp_all
      have hvolume : ∀ uid?, (d'.withClaimUid uid?).volumeBody =
          d.volumeBody.withClaimRef { ref with uid? } := by
        intro uid?
        have hsame : d'.volumeBody = d.volumeBody := hbody
        rw [Object.volumeBody_withClaimUid, hsame, hclaim]
        rfl
      simp only [submission, Desired.lookups, prepared, href, Option.bind_some,
        ObjectReference.lookup?, claimUid?]
      cases hname : ref.name? with
      | none => exact .unnamed hbound hclaim (.inl hname) (has.withClaimUid none) (hvolume none)
      | some name =>
          cases hns : ref.ns? with
          | none => exact .unnamed hbound hclaim (.inr hns) (has.withClaimUid none) (hvolume none)
          | some ns => exact .bound hbound hclaim hname hns rfl (has.withClaimUid _) (hvolume _)

/-- **The calls that hand in an object that is admitted.** -/
theorem handsIn_submission {d d' : Desired k} (h : Desired.admitted? d = some d') (s : σ) :
    server.HandsIn k d s (server.calls (server.submission ⟨k, d'⟩ s) s) := by
  by_cases hk : k = .volume
  · subst hk
    exact handsIn_submission_volume h s
  · obtain ⟨has, hbody⟩ := Desired.handedInAs_of_admitted? h
    rw [submission, lookups_of_ne hk, prepared_of_ne hk]
    exact .object hk has hbody

/-- Submissions hand in every item. -/
theorem handsInAll_submissions {items items' : List Item}
    (h : List.Forall₂ Item.Admits items items') (s : σ) :
    server.HandsInAll items s (server.calls (server.submissions items' s) s) := by
  induction h generalizing s with
  | nil => exact .nil
  | @cons i i' rest rest' hi _ ih =>
      obtain ⟨hadmitted⟩ := hi
      rw [submissions, calls_append]
      refine .cons (handsIn_submission hadmitted s) ?_
      rw [map_request_calls]
      exact ih _

/-- An object that is prepared is handed in for the same. -/
theorem handedInAs_prepared {d d' : Desired k} (h : d.HandedInAs d') (s : σ) :
    d.HandedInAs (server.prepared k d' s) := by
  by_cases hk : k = .volume
  · subst hk
    rw [prepared]
    split
    · exact h.withClaimUid _
    · exact h
  · rw [prepared_of_ne hk]
    exact h

/-- A submission applies its item as it is prepared. -/
theorem applied?_submission (i : Item) (s : σ) :
    (server.submission i s).filterMap Request.applied? = [⟨i.1, server.prepared i.1 i.2 s⟩] := by
  have hlookups : (Desired.lookups i.1 i.2).filterMap Request.applied? = [] := by
    refine List.filterMap_eq_nil_iff.mpr fun r hr => ?_
    obtain ⟨name, ns?, rfl⟩ := Desired.mem_lookups hr
    rfl
  rw [submission, List.filterMap_append, hlookups]
  rfl

/-- What is handed in is what is admitted. -/
theorem handedInAs_submissions {items items' : List Item}
    (h : List.Forall₂ Item.Admits items items') (s : σ) :
    List.Forall₂ Item.HandedInAs items
      ((server.submissions items' s).filterMap Request.applied?) := by
  induction h generalizing s with
  | nil => exact .nil
  | @cons i i' rest rest' hi _ ih =>
      obtain ⟨hadmitted⟩ := hi
      rw [submissions, List.filterMap_append, applied?_submission]
      exact .cons ⟨handedInAs_prepared (Desired.handedInAs_of_admitted? hadmitted).1 s⟩ (ih _)

end Server

/-- The admitted objects of a kind are those that are not reserved. -/
theorem admits_filterMap (ds : List (Desired k)) :
    List.Forall₂ Item.Admits ((ds.filter fun d => !Desired.isExcluded d).map (Sigma.mk k))
      ((ds.filterMap Desired.admitted?).map (Sigma.mk k)) := by
  induction ds with
  | nil => exact .nil
  | cons d rest ih =>
      cases hexcluded : Desired.isExcluded d with
      | true =>
          have hnone : Desired.admitted? d = none := if_pos hexcluded
          rw [List.filter_cons_of_neg (by simp [hexcluded]), List.filterMap_cons_none hnone]
          exact ih
      | false =>
          obtain ⟨d', hd'⟩ := Desired.exists_admitted hexcluded
          rw [List.filter_cons_of_pos (by simp [hexcluded]), List.filterMap_cons_some hd']
          exact .cons ⟨hd'⟩ ih

/-- What is admitted was admitted for what is not reserved, one by one. -/
theorem Replay.admits (s : Replay) : List.Forall₂ Item.Admits s.unreserved s.admitted := by
  rw [unreserved, admitted]
  induction replayOrder with
  | nil => exact .nil
  | cons k rest ih =>
      rw [List.flatMap_cons, List.flatMap_cons]
      exact List.rel_append (admits_filterMap _) ih

/-! ### The order of a replay -/

/-- The kinds of what is replayed follow each other as they are to. -/
theorem Replay.ordered_unreserved (s : Replay) :
    (s.unreserved.map (·.1)).Pairwise fun j k => replayOrder.idxOf j ≤ replayOrder.idxOf k := by
  have hkind : ∀ {k : Kind} {i : Item},
      i ∈ ((s.objects.get k).filter fun d => !Desired.isExcluded d).map (Sigma.mk k) →
        i.1 = k := by
    intro k i hi
    obtain ⟨d, -, rfl⟩ := List.mem_map.mp hi
    rfl
  have horder : replayOrder.Pairwise fun j k => replayOrder.idxOf j ≤ replayOrder.idxOf k := by
    decide
  rw [unreserved, List.pairwise_map, List.pairwise_flatMap]
  refine ⟨fun k _ => ?_, horder.imp fun hjk i hi i' hi' => ?_⟩
  · refine List.pairwise_iff_getElem.mpr fun m n hm hn _ => ?_
    rw [hkind (List.getElem_mem hm), hkind (List.getElem_mem hn)]
  · rw [hkind hi, hkind hi']
    exact hjk

/-- Items are handed in with their kinds. -/
theorem map_fst_of_handedInAs {items items' : List Item}
    (h : List.Forall₂ Item.HandedInAs items items') : items.map (·.1) = items'.map (·.1) := by
  induction h with
  | nil => rfl
  | cons hi _ ih =>
      obtain ⟨-⟩ := hi
      rw [List.map_cons, List.map_cons, ih]

/-- **The calls of a lenient replay.** It succeeds, and its calls are: to restart the scheduler,
unless that is to be left alone; then, one after the other, those that hand in each object that is
not reserved. Each object is so handed in once and in the order of the kinds, whatever fails. -/
theorem Operator.handsIn_lenient (op : Operator σ) (s : Replay) (ignoreConfig : Bool) (c : σ) :
    let done := op.replay s ⟨true, ignoreConfig⟩ (Run.start c)
    let first := if ignoreConfig then [] else [op.server.call (.restart s.schedulerConfig?) c]
    let handedIn := done.2.calls.filterMap fun call => call.request.applied?
    done.1 = .ok () ∧
      (∃ rest, done.2.calls = first ++ rest ∧
        op.server.HandsInAll s.unreserved (op.server.after (first.map Call.request) c) rest) ∧
      List.Forall₂ Item.HandedInAs s.unreserved handedIn ∧
      (handedIn.map (·.1)).Pairwise fun j k => replayOrder.idxOf j ≤ replayOrder.idxOf k := by
  intro done first handedIn
  obtain ⟨hok, hsee⟩ :=
    op.replay_lenient s ⟨true, ignoreConfig⟩ rfl (Run.start c)
  have hcalls : done.2.calls =
      op.server.calls (s.requestsUpTo op.server ignoreConfig c s.admitted) c :=
    congrArg Prod.snd hsee
  have hfirst : op.server.calls (s.configRequests ignoreConfig) c = first := by
    simp only [first, Replay.configRequests]
    cases ignoreConfig <;> rfl
  have hconfig : (s.configRequests ignoreConfig).filterMap Request.applied? = [] := by
    cases ignoreConfig <;> rfl
  have hhandedIn : List.Forall₂ Item.HandedInAs s.unreserved handedIn := by
    have heq : handedIn =
        (s.requestsUpTo op.server ignoreConfig c s.admitted).filterMap Request.applied? := by
      rw [← op.server.map_request_calls (s.requestsUpTo op.server ignoreConfig c s.admitted) c,
        List.filterMap_map, ← hcalls]
      rfl
    rw [heq, Replay.requestsUpTo, List.filterMap_append, hconfig]
    exact Server.handedInAs_submissions s.admits _
  refine ⟨hok, ⟨op.server.calls (op.server.submissions s.admitted
    (op.server.after (s.configRequests ignoreConfig) c))
    (op.server.after (s.configRequests ignoreConfig) c), ?_, ?_⟩, hhandedIn, ?_⟩
  · rw [hcalls, Replay.requestsUpTo, Server.calls_append, hfirst]
  · rw [← hfirst, Server.map_request_calls]
    exact Server.handsInAll_submissions s.admits _
  · rw [← map_fst_of_handedInAs hhandedIn]
    exact s.ordered_unreserved

end ClusterSnapshot
