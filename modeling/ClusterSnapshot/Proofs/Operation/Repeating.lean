import ClusterSnapshot.Proofs.Operation.Claims
import ClusterSnapshot.Proofs.Store.Writing

/-!
# Replays that are repeated

A lenient replay that is repeated leaves the cluster as the first one left it, but for the versions
of the objects. What the first replay created the second one finds under the same key, so that no
identity is new; and when volumes are handed in, which comes last, their claims have the identities
that they had at the end of the first replay. Hence both replays make the same calls.

## Main results

* `Cluster.WellFormed.calls_submissions_congr`: what is asked of two clusters while the same objects
  are handed in.
* `Cluster.SameButVersions`: what it is to differ in nothing but versions.
* `Replay.repeated`: **a replay that is repeated changes nothing but versions**.
-/

namespace ClusterSnapshot

open JsonForm (Sound)
open Number (InRange)

variable {P : Number → Prop} {k : Kind}

/-! ### Clusters with the same claims -/

namespace Cluster

variable {c c' : Cluster} {items : List Item}

/-- Whether two clusters have the same claims, with the same identities. -/
def SameClaims (c c' : Cluster) : Prop := ∀ key, c'.identity? .claim key = c.identity? .claim key

/-- A look-up is served with the identity that the object has. -/
theorem uid?_serveGet (hc : c.store.Readable) (k : Kind) (name : String) (ns? : Option String) :
    (c.serveGet k name ns?).map (·.metadata.uid?) =
      (c.identity? k (objectKey (k.scope ns?) name)).elim (.error (missing k name ns?)) .ok := by
  rw [serveGet_eq hc, identity?]
  cases (c.store.objects k).find? (objectKey (k.scope ns?) name) <;> rfl

/-- Clusters with the same claims give volumes the same identities for them. -/
theorem SameClaims.claimUid?_eq (h : c.SameClaims c') (hc : c.store.Readable)
    (hc' : c'.store.Readable) (ref : ObjectReference) : c'.claimUid? ref = c.claimUid? ref := by
  have hserved : ∀ (c : Cluster) name ns,
      (c.serveGet .claim name (some ns)).toOption.bind (·.metadata.uid?) =
        ((c.serveGet .claim name (some ns)).map (·.metadata.uid?)).toOption.join := by
    intro c name ns
    cases c.serveGet .claim name (some ns) <;> rfl
  rw [claimUid?, claimUid?]
  simp only [hserved, uid?_serveGet hc, uid?_serveGet hc', h _]

/-- So they prepare all objects alike. -/
theorem SameClaims.prepared_eq (h : c.SameClaims c') (hc : c.store.Readable)
    (hc' : c'.store.Readable) (d : Desired k) : c'.prepared k d = c.prepared k d := by
  cases k with
  | volume => simp only [prepared, rebound, h.claimUid?_eq hc hc']
  | pod | node | claim | storageClass | priorityClass | ns => rfl

/-! ### Requests to a cluster -/

variable {name : String} {external : Bool}

/-- A server of a cluster prepares objects as the cluster does. -/
theorem server_prepared (name : String) (external : Bool) (d : Desired k) (c : Cluster) :
    (server name external).prepared k d c = c.prepared k d := by
  cases k with
  | volume => exact (c.rebound_eq d).symm
  | pod | node | claim | storageClass | priorityClass | ns => rfl

/-- To ask for claims leaves the cluster alone. -/
theorem after_lookups (name : String) (external : Bool) (d : Desired k) (c : Cluster) :
    (server name external).after (Desired.lookups k d) c = c := by
  refine List.foldlRecOn (motive := fun c' => c' = c) _ _ rfl fun c' hc' r hr => ?_
  obtain ⟨name, ns?, rfl⟩ := Desired.mem_lookups hr
  exact hc'

/-- The requests that hand in an object bring it in. -/
theorem after_submission (name : String) (external : Bool) (i : Item) (c : Cluster) :
    (server name external).after ((server name external).submission i c) c = c.bringIn i := by
  rw [Server.submission, Server.after_append, after_lookups, server_prepared]
  rfl

/-- To submit items is to bring them in. -/
theorem after_submissions (name : String) (external : Bool) (items : List Item) (c : Cluster) :
    (server name external).after ((server name external).submissions items c) c =
      items.foldl Cluster.bringIn c := by
  induction items generalizing c with
  | nil => rfl
  | cons i rest ih => rw [Server.submissions, Server.after_append, after_submission, ih]; rfl

/-- Whether an object is refused depends on nothing but the object. -/
theorem call_apply (hc : c.store.Readable) (d : Desired k) :
    (server name external).call (.apply k d) c =
      ⟨name, .apply k d, (Desired.refusal? d).map .ofStore⟩ := by
  have hserved : ((server name external).serve (.apply k d) c).1 = (c.serveApply d).1 := rfl
  rw [Server.call, hserved, serveApply]
  cases hrefusal : Desired.refusal? d with
  | some e => rw [put_of_refusal hrefusal]; rfl
  | none => rw [put_eq hc hrefusal]; rfl

/-- Clusters with the same claims answer alike when they are asked for claims. -/
theorem SameClaims.calls_lookups (h : c.SameClaims c') (hc : c.store.Readable)
    (hc' : c'.store.Readable) (d : Desired k) :
    (server name external).calls (Desired.lookups k d) c' =
      (server name external).calls (Desired.lookups k d) c := by
  have hcall : ∀ name' ns?, (server name external).call (.get .claim name' ns?) c' =
      (server name external).call (.get .claim name' ns?) c := by
    intro name' ns?
    have hserved : ∀ c : Cluster, ((server name external).serve (.get .claim name' ns?) c).1 =
        c.serveGet .claim name' ns? := fun _ => rfl
    have hsame : (c'.serveGet .claim name' ns?).map (·.metadata.uid?) =
        (c.serveGet .claim name' ns?).map (·.metadata.uid?) := by
      rw [uid?_serveGet hc, uid?_serveGet hc', h]
    rw [Server.call, Server.call, hserved, hserved]
    revert hsame
    cases c.serveGet .claim name' ns? <;> cases c'.serveGet .claim name' ns? <;>
      simp [Except.map]
  cases k with
  | volume =>
      rw [Desired.lookups]
      cases hlookup : d.boundRef?.bind ObjectReference.lookup? with
      | none => rfl
      | some r =>
          obtain ⟨name', ns?, rfl⟩ : ∃ name' ns?, r = .get .claim name' ns? := by
            exact Desired.mem_lookups (d := d) (by rw [Desired.lookups, hlookup]; simp)
          exact congrArg (· :: []) (hcall name' ns?)
  | pod | node | claim | storageClass | priorityClass | ns => rfl

/-- Clusters with the same claims are asked alike when an object is handed in. -/
theorem SameClaims.calls_submission (h : c.SameClaims c') (hc : c.store.Readable)
    (hc' : c'.store.Readable) (i : Item) :
    (server name external).calls ((server name external).submission i c') c' =
      (server name external).calls ((server name external).submission i c) c := by
  rw [Server.calls_submission, Server.calls_submission, h.calls_lookups hc hc', Server.submitted,
    Server.submitted, after_lookups, after_lookups, call_apply hc, call_apply hc', server_prepared,
    server_prepared, h.prepared_eq hc hc']

/-- An object that is no volume is handed in alike whatever claims there are. -/
theorem calls_submission_of_ne (hc : c.store.Readable) (hc' : c'.store.Readable) {i : Item}
    (hi : i.1 ≠ .volume) :
    (server name external).calls ((server name external).submission i c') c' =
      (server name external).calls ((server name external).submission i c) c := by
  rw [Server.calls_submission, Server.calls_submission, Server.submitted, Server.submitted,
    Server.lookups_of_ne hi, Server.prepared_of_ne hi, Server.prepared_of_ne hi]
  exact congrArg (fun call => [call]) ((call_apply hc' _).trans (call_apply hc _).symm)

/-- Volumes that are brought in leave the claims alone. -/
theorem WellFormed.sameClaims_bringInAll [NumberRange P] (hc : c.WellFormed P)
    (hitems : ∀ i ∈ items, Sound P nestingLimit i.2)
    (hvolumes : ∀ i ∈ items, i.1 = .volume) :
    c.SameClaims (items.foldl Cluster.bringIn c) := by
  induction items generalizing c with
  | nil => exact fun _ => rfl
  | cons i rest ih =>
      obtain ⟨hi, hrest⟩ := List.forall_mem_cons.mp hitems
      obtain ⟨hvolume, hvolumes⟩ := List.forall_mem_cons.mp hvolumes
      have htables := hc.tables_bringIn (k := .claim) i (by rw [hvolume]; decide)
      refine fun key => (ih (hc.bringIn hi) hrest hvolumes key).trans ?_
      rw [identity?, identity?, Store.objects, Store.objects, htables]

/-- **What is asked of two clusters** while the same objects are handed in, volumes last, is the
same if they then have the same claims. -/
theorem WellFormed.calls_submissions_congr [NumberRange P] (hc : c.WellFormed P)
    (hc' : c'.WellFormed P) (hitems : ∀ i ∈ items, Sound P nestingLimit i.2)
    (horder : items.Pairwise fun i j => i.1 = .volume → j.1 = .volume)
    (hclaims : (items.foldl Cluster.bringIn c).SameClaims (items.foldl Cluster.bringIn c')) :
    (server name external).calls ((server name external).submissions items c') c' =
      (server name external).calls ((server name external).submissions items c) c := by
  induction items generalizing c c' with
  | nil => rfl
  | cons i rest ih =>
      obtain ⟨hi, hrest⟩ := List.forall_mem_cons.mp hitems
      obtain ⟨hfirst, horder'⟩ := List.pairwise_cons.mp horder
      have hsame : (server name external).calls ((server name external).submission i c') c' =
          (server name external).calls ((server name external).submission i c) c := by
        by_cases hvolume : i.1 = .volume
        · -- From here on there are volumes only, so the claims are those at the end.
          have hvolumes : ∀ j ∈ i :: rest, j.1 = .volume :=
            List.forall_mem_cons.mpr ⟨hvolume, fun j hj => hfirst j hj hvolume⟩
          have hnow : c.SameClaims c' := fun key =>
            (hc'.sameClaims_bringInAll hitems hvolumes key).symm.trans
              ((hclaims key).trans (hc.sameClaims_bringInAll hitems hvolumes key))
          exact hnow.calls_submission hc.readable hc'.readable i
        · exact calls_submission_of_ne hc.readable hc'.readable hvolume
      have hothers := ih (hc.bringIn hi) (hc'.bringIn hi) hrest horder' hclaims
      rw [Server.submissions, Server.submissions, Server.calls_append, Server.calls_append, hsame,
        after_submission, after_submission, hothers]

/-! ### Identities that are there -/

/-- An object that is there keeps its identity, so that none is spent. -/
theorem uids_afterPut (c : Cluster) {d : Desired k}
    (h : (c.identity? k (Desired.storeKey d)).isSome) : (c.afterPut d).uids = c.uids := by
  rw [identity?, Option.isSome_map] at h
  obtain ⟨o, ho⟩ := Option.isSome_iff_exists.mp h
  change c.putUids d = c.uids
  rw [putUids, ho]

/-- What is brought in has an identity then. -/
theorem WellFormed.isSome_identity?_bringInAll [NumberRange P] (hc : c.WellFormed P)
    (hitems : ∀ i ∈ items, Sound P nestingLimit i.2) {i : Item} (hi : i ∈ items)
    (hrefusal : Desired.refusal? i.2 = none) :
    ((items.foldl Cluster.bringIn c).identity? i.1 (Desired.storeKey i.2)).isSome := by
  have hleft := hc.find?_bringInAll hitems i.1 (Desired.storeKey i.2)
  obtain ⟨d, hd⟩ := exists_lastAt? hi rfl hrefusal
  rw [hd] at hleft
  obtain ⟨o, -, hfind⟩ := hleft
  rw [identity?, hfind]
  rfl

/-- If what is brought in is there already, no identity is spent. -/
theorem WellFormed.uids_bringInAll [NumberRange P] (hc : c.WellFormed P)
    (hitems : ∀ i ∈ items, Sound P nestingLimit i.2)
    (hthere : ∀ i ∈ items, Desired.refusal? i.2 = none →
      (c.identity? i.1 (Desired.storeKey i.2)).isSome) :
    (items.foldl Cluster.bringIn c).uids = c.uids := by
  induction items generalizing c with
  | nil => rfl
  | cons i rest ih =>
      obtain ⟨hi, hrest⟩ := List.forall_mem_cons.mp hitems
      obtain ⟨hfirst, hothers⟩ := List.forall_mem_cons.mp hthere
      obtain ⟨k, d⟩ := i
      cases hrefusal : Desired.refusal? d with
      | some e =>
          have hsame : c.bringIn ⟨k, d⟩ = c := bringIn_of_refusal hrefusal
          rw [List.foldl_cons, hsame]
          exact ih hc hrest hothers
      | none =>
          have hput : c.bringIn ⟨k, d⟩ = c.afterPut (c.prepared k d) :=
            bringIn_eq hc.readable hrefusal
          have huids : (c.bringIn ⟨k, d⟩).uids = c.uids := by
            rw [hput]
            exact c.uids_afterPut (by rw [c.storeKey_prepared]; exact hfirst hrefusal)
          refine (ih (hc.bringIn hi) hrest fun j hj hj' => ?_).trans huids
          rw [hput, identity?_afterPut (sound_prepared hi)]
          split
          · rfl
          · exact hothers j hj hj'

/-! ### Clusters that differ in versions only -/

end Cluster

/-- The object with another version. -/
def Stored.withVersion (o : Stored k) (version? : Option String) : Stored k :=
  o.mapMetadata fun m => { m with resourceVersion? := version? }

/-- Whether what is at a key is the same, or one object was written with another version. -/
inductive SameButVersion (k : Kind) : Option String → Option String → Prop
  | same (text? : Option String) : SameButVersion k text? text?
  | rewritten (o : Stored k) (version version' : String) :
    SameButVersion k (some (JsonForm.text (o.withVersion (some version))))
      (some (JsonForm.text (o.withVersion (some version'))))

/-- Whether a cluster holds an object at a key. -/
def Cluster.Holds (c : Cluster) (key : String) (o : Stored k) : Prop :=
  (c.store.tables.get k).find? key = some (JsonForm.text o) ∧
    (c.store.objects k).find? key = some o.reread

/-- **Clusters that differ in versions only**: at every key there is the same text, or that of the
same object with another version; so the objects are the same, their identities and the references
to claims included. The configuration is the same, and no identity was spent. -/
structure Cluster.SameButVersions (c c' : Cluster) : Prop where
  texts : ∀ k key, SameButVersion k ((c.store.tables.get k).find? key)
    ((c'.store.tables.get k).find? key)
  objects : ∀ k key, ((c'.store.objects k).find? key).map (·.withVersion none) =
    ((c.store.objects k).find? key).map (·.withVersion none)
  scheduler : c'.store.scheduler? = c.store.scheduler?
  uids : c'.uids = c.uids

/-- What is written twice for an object, the second time over the first, differs in its version
only. -/
theorem Stored.WrittenFor.eq_withVersion {before once twice : Cluster} {d : Desired k}
    {o o' : Stored k} (h : Stored.WrittenFor before once d o)
    (h' : Stored.WrittenFor once twice d o')
    (huid : o'.metadata.uid? = o.metadata.uid?)
    (hprepared : twice.prepared k d = once.prepared k d) :
    o' = o.withVersion o'.metadata.resourceVersion? := by
  have hextra : o'.metadata.extra = o.metadata.extra :=
    KeyMap.ext_find? fun key => (h'.extra key).trans (h.extra key).symm
  have hbody : o'.body = o.body := by rw [h'.body, hprepared, h.body]
  change (⟨o'.apiVersion?, o'.kind?, ⟨o'.metadata.name, o'.metadata.ns?, o'.metadata.uid?,
    o'.metadata.resourceVersion?, o'.metadata.creationTimestamp?, o'.metadata.labels,
    o'.metadata.annotations, o'.metadata.extra⟩, o'.body⟩ : Stored k) =
      ⟨o.apiVersion?, o.kind?, { o.metadata with resourceVersion? := _ }, o.body⟩
  simp only [h'.apiVersion, h.apiVersion, h'.kind, h.kind, h'.name, h.name, h'.home, h.home,
    h'.created, h.created, h'.labels, h.labels, h'.annotations, h.annotations, hextra, huid, hbody]

namespace Replay

variable {s : Replay}

/-- What a replay has left at a key stays there when it is repeated. -/
theorem identity?_overlays {before once twice : Cluster} {external : Bool} {options : Options}
    (h : s.Overlays external options before once) (h' : s.Overlays external options once twice)
    (k : Kind) (key : String) : twice.identity? k key = once.identity? k key := by
  obtain ⟨index, hidentified⟩ := h'.identified
  cases hthere : once.identity? k key with
  | some uid? => exact hidentified.kept k key uid? hthere
  | none =>
      have hleft := h.left k key
      have hleft' := h'.left k key
      cases hlast : s.lastNamed? k key with
      | some d =>
          rw [hlast] at hleft
          obtain ⟨o, -, -, hfind⟩ := hleft
          rw [Cluster.identity?, hfind] at hthere
          cases hthere
      | none =>
          rw [hlast] at hleft'
          rw [← hthere, Cluster.identity?, Cluster.identity?, Store.find?_objects,
            Store.find?_objects, hleft']

/-- What is at a key after a replay was repeated: the same text, or that of the same object with
another version. -/
theorem left_repeated {before once twice : Cluster} {external : Bool} {options : Options}
    (honce : once.WellFormed P) (htwice : twice.WellFormed P)
    (h : s.Overlays external options before once) (h' : s.Overlays external options once twice)
    (k : Kind) (key : String) :
    (twice.store.tables.get k).find? key = (once.store.tables.get k).find? key ∨
      ∃ (o : Stored k) (version version' : String),
        once.Holds key (o.withVersion (some version)) ∧
        twice.Holds key (o.withVersion (some version')) := by
  have hidentity := identity?_overlays h h'
  have hclaims : once.SameClaims twice := hidentity .claim
  have hleft := h.left k key
  have hleft' := h'.left k key
  cases hlast : s.lastNamed? k key with
  | none =>
      rw [hlast] at hleft'
      exact .inl hleft'
  | some d =>
      rw [hlast] at hleft hleft'
      obtain ⟨o, hwritten, hholds⟩ := hleft
      obtain ⟨o', hwritten', hholds'⟩ := hleft'
      obtain ⟨n, -, -, hversion⟩ := hwritten.version
      obtain ⟨n', -, -, hversion'⟩ := hwritten'.version
      have huid : o'.metadata.uid? = o.metadata.uid? := by
        have hsame := hidentity k key
        rw [Cluster.identity?, Cluster.identity?, hholds.2, hholds'.2] at hsame
        exact Option.some.inj hsame
      have ho : o = o.withVersion (some (toString n)) := by rw [← hversion]; rfl
      have ho' : o' = o.withVersion (some (toString n')) := by
        rw [← hversion']
        exact hwritten.eq_withVersion hwritten' huid
          (hclaims.prepared_eq honce.readable htwice.readable d)
      exact .inr ⟨o, _, _, ho ▸ hholds, ho' ▸ hholds'⟩

/-- A replay that is repeated overlays the cluster with what is there. -/
theorem sameButVersions_overlays {before once twice : Cluster} {external : Bool}
    {options : Options} (honce : once.WellFormed P) (htwice : twice.WellFormed P)
    (h : s.Overlays external options before once) (h' : s.Overlays external options once twice)
    (huids : twice.uids = once.uids) : once.SameButVersions twice := by
  have hleft := fun k key => left_repeated honce htwice h h' k key
  refine ⟨fun k key => ?_, fun k key => ?_, ?_, huids⟩
  · rcases hleft k key with hsame | ⟨o, version, version', hholds, hholds'⟩
    · rw [hsame]
      exact .same _
    · rw [hholds.1, hholds'.1]
      exact .rewritten o version version'
  · rcases hleft k key with hsame | ⟨o, version, version', hholds, hholds'⟩
    · rw [Store.find?_objects, Store.find?_objects, hsame]
    · rw [hholds.2, hholds'.2]
      rfl
  · rw [h'.scheduler, h.scheduler]
    split <;> rfl

/-- What a lenient replay of a cluster comes to: the state and the calls. -/
theorem replay_cluster (s : Replay) (name : String) (external : Bool) (limit : Nat)
    (ignoreConfig : Bool) (c : Cluster) :
    let server := Cluster.server name external
    let options : Options := ⟨true, ignoreConfig⟩
    let configured := c.configured external options s.schedulerConfig?
    let replayed := (Cluster.operator name external limit).replay s options (Run.start c)
    replayed.1 = .ok () ∧ replayed.2.state = s.admitted.foldl Cluster.bringIn configured ∧
      replayed.2.calls = server.calls (s.configRequests ignoreConfig) c ++
        server.calls (server.submissions s.admitted configured) configured := by
  intro server options configured replayed
  obtain ⟨hok, hsee⟩ := (Cluster.operator name external limit).replay_lenient s options rfl
    (Run.start c)
  have hconfigured : server.after (s.configRequests ignoreConfig) c = configured := by
    cases ignoreConfig <;> cases external <;> rfl
  have hrequests : s.requestsUpTo server ignoreConfig c s.admitted =
      s.configRequests ignoreConfig ++ server.submissions s.admitted configured := by
    rw [Replay.requestsUpTo, hconfigured]
  have hstate : replayed.2.state =
      server.after (s.requestsUpTo server ignoreConfig c s.admitted) c := congrArg Prod.fst hsee
  have hcalls : replayed.2.calls =
      server.calls (s.requestsUpTo server ignoreConfig c s.admitted) c := congrArg Prod.snd hsee
  refine ⟨hok, ?_, ?_⟩
  · rw [hstate, hrequests, Server.after_append, hconfigured, Cluster.after_submissions]
  · rw [hcalls, hrequests, Server.calls_append, hconfigured]

/-- A lenient replay into a well formed cluster leaves an overlay, and a well formed cluster. -/
theorem overlays_replay {c : Cluster} (hs : s.AllSound InRange) (hc : c.WellFormed InRange)
    (name : String) (external : Bool) (limit : Nat) (ignoreConfig : Bool) :
    let replayed := (Cluster.operator name external limit).replay s ⟨true, ignoreConfig⟩
      (Run.start c)
    s.Overlays external ⟨true, ignoreConfig⟩ c replayed.2.state ∧
      replayed.2.state.WellFormed InRange := by
  intro replayed
  obtain ⟨-, hstate, -⟩ := s.replay_cluster name external limit ignoreConfig c
  have hafter : replayed.2.state = _ := hstate
  rw [hafter]
  refine ⟨overlays_bringInAll hs hc external _, ?_⟩
  exact (hc.configured hs.config external _).bringInAll
    fun i hi => Replay.sound_of_mem_admitted hs hi

/-- **A replay that is repeated changes nothing but versions.** With lenient options a replay into a
reachable cluster and the same replay after it both succeed, whatever number of tasks each of them
runs at a time. The second leaves what the first has left, but for the versions of what both have
written, and both have made the same calls, each of which has ended in the same way. -/
theorem repeated {c : Cluster} (hs : s.AllSound InRange) (hc : Reachable InRange c)
    (name : String) (external : Bool) (limit limit' : Nat) (ignoreConfig : Bool) :
    let once := (Cluster.operator name external limit).replay s ⟨true, ignoreConfig⟩
      (Run.start c)
    let twice := (Cluster.operator name external limit').replay s ⟨true, ignoreConfig⟩
      (Run.start once.2.state)
    once.1 = .ok () ∧ twice.1 = .ok () ∧ once.2.state.SameButVersions twice.2.state ∧
      twice.2.calls = once.2.calls := by
  intro once twice
  obtain ⟨hok, hstate, hcalls⟩ := s.replay_cluster name external limit ignoreConfig c
  obtain ⟨hok', hstate', hcalls'⟩ :=
    s.replay_cluster name external limit' ignoreConfig once.2.state
  have hitems : ∀ i ∈ s.admitted, Sound InRange nestingLimit i.2 :=
    fun i hi => Replay.sound_of_mem_admitted hs hi
  have hconfigured := hc.wellFormed.configured hs.config external ⟨true, ignoreConfig⟩
  obtain ⟨hoverlays, honce⟩ := overlays_replay hs hc.wellFormed name external limit ignoreConfig
  obtain ⟨hoverlays', htwice⟩ := overlays_replay hs honce name external limit' ignoreConfig
  have hagain := honce.configured hs.config external ⟨true, ignoreConfig⟩
  -- What the second replay brings in is there since the first.
  have huids : twice.2.state.uids = once.2.state.uids := by
    refine hstate' ▸ (hagain.uids_bringInAll hitems fun i hi hrefusal => ?_).trans
      (uids_configured _ _ _ _)
    rw [Cluster.identity?, Cluster.objects_configured, hstate]
    exact hconfigured.isSome_identity?_bringInAll hitems hi hrefusal
  refine ⟨hok, hok', sameButVersions_overlays honce htwice hoverlays hoverlays' huids, ?_⟩
  have hconfig : (Cluster.server name external).calls (s.configRequests ignoreConfig) once.2.state =
      (Cluster.server name external).calls (s.configRequests ignoreConfig) c := by
    cases ignoreConfig <;> cases external <;> rfl
  rw [hcalls, hcalls', hconfig]
  refine congrArg _ (hconfigured.calls_submissions_congr hagain hitems s.pairwise_admitted ?_)
  intro key
  rw [← hstate, ← hstate']
  exact identity?_overlays hoverlays hoverlays' .claim key

/-- A bound volume and its claim: the first replay creates them, the second one updates them, and
the volume refers to the claim after both. -/
theorem repeated_disk :
    let c : Cluster := ⟨.empty, ⟨toString, 0⟩⟩
    let disk : Desired .volume :=
      .boundVolume "disk" ⟨none, none, some "data", some "team", some "stale", none⟩
    let s : Replay := { Replay.single disk with
      objects := (Replay.single disk).objects.set .claim
        [Desired.plain .claim "data" (some "team")] }
    let once := (Cluster.operator "target" false 1).replay s ⟨true, false⟩ (Run.start c)
    let twice := (Cluster.operator "target" false 4).replay s ⟨true, false⟩
      (Run.start once.2.state)
    s.AllSound InRange ∧ Reachable InRange c ∧ once.2.state.SameButVersions twice.2.state ∧
      twice.2.calls = once.2.calls ∧ once.2.state.store.revision = 2 ∧
      twice.2.state.store.revision = 4 ∧
      ∃ uid, ∀ after ∈ [once.2.state, twice.2.state],
        ∃ (volume : Stored .volume) (claim : Stored .claim),
          after.store.get .volume "disk" none = .ok (some volume) ∧
          after.store.get .claim "data" (some "team") = .ok (some claim) ∧
          claim.metadata.uid? = some uid ∧
          volume.claimRef? = some ⟨none, none, some "data", some "team", some uid, none⟩ := by
  intro c disk s
  have hs : s.AllSound InRange :=
    (Replay.allSound_single (Desired.sound_boundVolume _ _)).setObjects
      (List.forall_mem_singleton.mpr (Desired.sound_plain .claim "data" (some "team")))
  have hc : Reachable InRange c := .fresh _
  obtain ⟨-, -, hsame, hcalls⟩ := repeated hs hc "target" false 1 4 false
  obtain ⟨hoverlays, honce⟩ := overlays_replay hs hc.wellFormed "target" false 1 false
  obtain ⟨hoverlays', htwice⟩ := overlays_replay hs honce "target" false 4 false
  have hcount : s.unreserved.countP (fun i => i.2.metadata.name != "") = 2 := by decide
  have hrevision := hoverlays.revision
  have hrevision' := hoverlays'.revision
  rw [hcount] at hrevision hrevision'
  rw [hrevision] at hrevision'
  have hdisk : s.lastNamed? .volume "disk" = some disk := rfl
  have hdata : s.lastNamed? .claim (objectKey (Kind.scope .claim (some "team")) "data") =
    some (Desired.plain .claim "data" (some "team")) := rfl
  obtain ⟨volume, claim, uid, hvolume, hclaim, huid, href⟩ :=
    bound_of_overlays hoverlays honce hdisk hdata rfl rfl rfl rfl
  obtain ⟨volume', claim', uid', hvolume', hclaim', huid', href'⟩ :=
    bound_of_overlays hoverlays' htwice hdisk hdata rfl rfl rfl rfl
  -- the claim has kept its identity
  obtain rfl : uid' = uid := by
    have hkept := identity?_overlays hoverlays hoverlays' .claim
      (objectKey (Kind.scope .claim (some "team")) "data")
    rw [Cluster.identity?_of_get honce.readable hclaim,
      Cluster.identity?_of_get htwice.readable hclaim', huid, huid'] at hkept
    exact Option.some.inj (Option.some.inj hkept)
  refine ⟨hs, hc, hsame, hcalls, hrevision, hrevision', uid', ?_⟩
  rw [List.forall_mem_cons, List.forall_mem_singleton]
  exact ⟨⟨volume, claim, hvolume, hclaim, huid, href⟩,
    ⟨volume', claim', hvolume', hclaim', huid', href'⟩⟩

end Replay

end ClusterSnapshot
