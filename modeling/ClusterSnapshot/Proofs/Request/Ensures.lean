import ClusterSnapshot.Proofs.Request.Calls

/-!
# What runs keep

A run *ensures* something of its result if it keeps an invariant of its progress. What is ensured by
parts is ensured by the whole. Of invariants those count most that are about the state and the calls
that were made: a run keeps them if the server does for all requests that the run makes.

## Main results

* `Run.Ensures.bind`: **one run after the other**.
* `Server.Keeps.ensures_request`: **a request keeps what the server keeps**.
-/

namespace ClusterSnapshot

variable {σ α β : Type}

namespace Run

/-- A run that keeps an invariant and gives a result with some property. -/
def Ensures (I : Progress σ → Prop) (r : Run σ α) (Q : α → Prop) : Prop :=
  ∀ p, I p → Q (r p).1 ∧ I (r p).2

variable {I : Progress σ → Prop} {r : Run σ α} {Q : α → Prop}

/-- **One run after the other** ensures what the second does after the first. -/
theorem Ensures.bind (h : Ensures I r Q) {f : α → Run σ β} {Q' : β → Prop}
    (hf : ∀ x, Q x → Ensures I (f x) Q') : Ensures I (r >>= f) Q' :=
  fun p hp => hf _ (h p hp).1 _ (h p hp).2

/-- To convert a result ensures what was ensured. -/
theorem Ensures.map (h : Ensures I r Q) {g : α → β} {Q' : β → Prop} (hg : ∀ x, Q x → Q' (g x)) :
    Ensures I (g <$> r) Q' :=
  fun p hp => ⟨hg _ (h p hp).1, (h p hp).2⟩

/-- To give a result ensures everything. -/
theorem ensures_pure {x : α} (h : Q x) : Ensures I (pure x : Run σ α) Q := fun _ hp => ⟨h, hp⟩

/-- A request takes no steps, and neither does a report. -/
theorem ensures_steps_request (server : Server σ) (r : Request) (steps : Nat) :
    Ensures (fun p => p.steps = steps) (Run.request server r) fun _ => True := by
  intro p hp
  refine ⟨trivial, ?_⟩
  rw [Run.request]
  split <;> exact hp

/-- A report takes no step. -/
theorem ensures_steps_report (e : Event) (steps : Nat) :
    Ensures (fun p : Progress σ => p.steps = steps) (Run.report e) fun _ => True :=
  fun _ hp => ⟨trivial, hp⟩

/-- A run that keeps an invariant of the state and the calls. -/
abbrev Keeps (J : σ × List Call → Prop) (r : Run σ α) (Q : α → Prop) : Prop :=
  Ensures (fun p => J (Sight.record.see p)) r Q

/-- A report makes no call. -/
theorem keeps_report (J : σ × List Call → Prop) (e : Event) :
    Keeps J (Run.report e) fun _ => True :=
  fun _ hp => ⟨trivial, hp⟩

end Run

/-- A server that keeps an invariant with each of some requests, of which the answers have some
property. -/
structure Server.Keeps (server : Server σ) (J : σ × List Call → Prop) (allowed : Request → Prop)
    (good : (r : Request) → r.Answer → Prop) : Prop where
  serves : ∀ r, allowed r → ∀ t, J t → J (server.making [r] t)
  answers : ∀ r, allowed r → ∀ t, J t → ∀ x, (server.serve r t.1).1 = .ok x → good r x

/-- **A request keeps what the server keeps.** -/
theorem Server.Keeps.ensures_request {server : Server σ} {J : σ × List Call → Prop}
    {allowed : Request → Prop} {good : (r : Request) → r.Answer → Prop}
    (h : server.Keeps J allowed good) {r : Request} (hr : allowed r) :
    Run.Keeps J (Run.request server r) fun answer => ∀ x, answer = .ok x → good r x := by
  intro p hp
  have hasked : ((server.serve r p.state).1, server.making [r] (Sight.record.see p)) =
      ((Run.request server r p).1, Sight.record.see (Run.request server r p).2) :=
    Run.acts_request_record server r p
  obtain ⟨hanswer, hsee⟩ := Prod.mk.inj hasked
  refine ⟨?_, ?_⟩
  · rw [← hanswer]
    exact h.answers r hr _ hp
  · change J (Sight.record.see (Run.request server r p).2)
    rw [← hsee]
    exact h.serves r hr _ hp

end ClusterSnapshot
