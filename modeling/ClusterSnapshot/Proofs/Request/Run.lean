import ClusterSnapshot.Request.Run

/-!
# What runs do to a cluster

A run keeps a record of all that it does. What it does to the cluster itself is less: an *act* gives
a result and changes the cluster. The cluster may be only a part of the state of a run, and is then
seen through a *view*. What is seen of a run may also be more than its state, as when the calls that
it makes are seen too.

## Main results

* `Run.Acts.bind`, `Run.Acts.andThen`: **the act of a run is made of the acts of its parts**.
* `inOrder_append`: acts one after the other.
-/

namespace ClusterSnapshot

variable {σ τ α β : Type}

/-- A result, and a change of a state. -/
abbrev Act (τ α : Type) := StateM τ α

/-- The result of an act is converted. -/
theorem Act.map_apply (g : α → β) (f : Act τ α) (t : τ) :
    (g <$> f : Act τ β) t = (g (f t).1, (f t).2) := rfl

/-! ### Acts one after the other -/

/-- Acts one after the other: their results, and the state after them. -/
def inOrder : List (Act τ α) → τ → List α × τ
  | [], t => ([], t)
  | f :: rest, t => ((f t).1 :: (inOrder rest (f t).2).1, (inOrder rest (f t).2).2)

/-- Further acts are done after the first ones. -/
theorem inOrder_append (fs gs : List (Act τ α)) (t : τ) :
    inOrder (fs ++ gs) t = ((inOrder fs t).1 ++ (inOrder gs (inOrder fs t).2).1,
      (inOrder gs (inOrder fs t).2).2) := by
  induction fs generalizing t with
  | nil => rfl
  | cons f rest ih => simp [inOrder, ih]

/-- A change of the state that does not matter to any of the acts does not matter to all of them. -/
theorem inOrder_shift {φ : τ → τ} {fs : List (Act τ α)}
    (h : ∀ f ∈ fs, ∀ t, f (φ t) = ((f t).1, φ (f t).2)) (t : τ) :
    inOrder fs (φ t) = ((inOrder fs t).1, φ (inOrder fs t).2) := by
  induction fs generalizing t with
  | nil => rfl
  | cons f rest ih =>
      obtain ⟨hf, hrest⟩ := List.forall_mem_cons.mp h
      rw [inOrder, hf, ih hrest]
      rfl

/-! ### Acts of runs -/

/-- What is seen of the progress of a run. The steps that are left in a turn are never seen. -/
structure Sight (σ τ : Type) where
  see : Progress σ → τ
  see_steps : ∀ p steps, see { p with steps } = see p

/-- The state is seen through a view. -/
abbrev Sight.state (view : σ → τ) : Sight σ τ := ⟨fun p => view p.state, fun _ _ => rfl⟩

/-- The state is seen and the calls that were made. -/
abbrev Sight.record : Sight σ (σ × List Call) := ⟨fun p => (p.state, p.calls), fun _ _ => rfl⟩

/-- **A run acts** on what is seen of its progress, whatever was done before. -/
def Run.Acts (sight : Sight σ τ) (r : Run σ α) (f : Act τ α) : Prop :=
  ∀ p, f (sight.see p) = ((r p).1, sight.see (r p).2)

/-- A server of a part of the state answers as the other one does, of which it shows the state. -/
def Server.Shows (view : σ → τ) (server : Server σ) (base : Server τ) : Prop :=
  ∀ r s, base.serve r (view s) = ((server.serve r s).1, view (server.serve r s).2)

/-- What is put into a part is there, and to put in what is there changes nothing. -/
structure Part.Lawful (part : Part σ τ) : Prop where
  get_set : ∀ t s, part.get (part.set t s) = t
  set_get : ∀ s, part.set (part.get s) s = s

/-- A server shows itself. -/
theorem Server.shows_self (server : Server σ) : server.Shows id server := fun _ _ => rfl

/-- A server within a part shows the part. -/
theorem Server.shows_within {part : Part σ τ} (h : part.Lawful) (server : Server τ) :
    (server.within part).Shows part.get server :=
  fun r s => Prod.ext rfl (h.get_set (server.serve r (part.get s)).2 s).symm

namespace Run

variable {sight : Sight σ τ} {view : σ → τ} {r : Run σ α} {f : Act τ α}

/-- A run that acts gives the result of its act. -/
theorem Acts.fst (h : Acts sight r f) (p : Progress σ) : (r p).1 = (f (sight.see p)).1 :=
  (congrArg Prod.fst (h p)).symm

/-- A run that acts changes what is seen like its act. -/
theorem Acts.snd (h : Acts sight r f) (p : Progress σ) :
    sight.see (r p).2 = (f (sight.see p)).2 :=
  (congrArg Prod.snd (h p)).symm

/-- One run after the other acts as one after the other. -/
theorem Acts.bind (h : Acts sight r f) {r' : α → Run σ β} {f' : α → Act τ β}
    (h' : ∀ x, Acts sight (r' x) (f' x)) : Acts sight (r >>= r') (f >>= f') := by
  intro p
  change f' (f (sight.see p)).1 (f (sight.see p)).2 = _
  rw [← h.fst p, ← h.snd p]
  exact h' _ _

/-- One run after the other, which goes by the result of the first and what is seen after it. -/
theorem Acts.andThen (h : Acts sight r f) {next : α → Run σ β} {f' : Act τ β}
    (hnext : ∀ t x t', f t = (x, t') → ∀ p, sight.see p = t' →
      f' t = ((next x p).1, sight.see (next x p).2)) :
    Acts sight (r >>= next) f' :=
  fun p => hnext (sight.see p) _ _ (h p) _ rfl

/-- To convert the result of a run is to convert that of its act. -/
theorem Acts.map (h : Acts sight r f) (g : α → β) : Acts sight (g <$> r) (g <$> f) := by
  intro p
  change (g (f (sight.see p)).1, (f (sight.see p)).2) = _
  rw [← h.fst p, ← h.snd p]
  rfl

/-- **A request acts** as it is served. -/
theorem Acts.request {server : Server σ} {base : Server τ} (h : server.Shows view base)
    (r : Request) : Acts (.state view) (Run.request server r) (base.serve r) := by
  intro p
  refine (h r p.state).trans ?_
  rw [Run.request]
  rcases server.serve r p.state with ⟨answer, state⟩
  cases answer <;> rfl

/-- A run that makes a request and then goes by the answer. -/
theorem acts_request_bind {server : Server σ} {base : Server τ} (h : server.Shows view base)
    (r : Request) {next : Except RequestError r.Answer → Run σ α}
    (hnext : ∀ t answer t', base.serve r t = (answer, t') → ∀ p, view p.state = t' →
      f t = ((next answer p).1, view (next answer p).2.state)) :
    Acts (.state view) (Run.request server r >>= next) f :=
  (Acts.request h r).andThen hnext

end Run

end ClusterSnapshot
