import ClusterSnapshot.Proofs.Request.Ensures

/-!
# Runs that account for what fails

A call that has failed is a *fault*, unless the failure is one that nobody minds: the scheduler is
run by somebody else, or an object that is to be removed is gone already. A run *accounts* for its
faults if it reports an error for each of them. It may report some more errors, and then it is said
how many.

## Main results

* `Run.Accounts.bind`: **one run after the other**.
* `Run.accounts_request_bind`: what is done with an answer has to account for it.
-/

namespace ClusterSnapshot

variable {σ α β : Type}

/-! ### Faults and errors -/

/-- Whether nobody minds that a request has failed in this way. -/
def Request.tolerates : Request → RequestError → Bool
  | .getConfig, .disabled | .restart _, .disabled | .delete _ _ _, .notFound _ => true
  | _, _ => false

/-- Whether a call has failed in a way that somebody minds. -/
def Call.isFault (call : Call) : Bool := call.failure?.any fun e => !call.request.tolerates e

/-- The faults among the calls of a run so far. -/
def Progress.faults (p : Progress σ) : Nat := p.calls.countP Call.isFault

/-- The errors among the events of a run so far. -/
def Progress.errors (p : Progress σ) : Nat := p.events.countP fun e => e.level = .error

/-- The faults that an answer makes. -/
def Request.faults (r : Request) : Except RequestError r.Answer → Nat
  | .ok _ => 0
  | .error e => if r.tolerates e then 0 else 1

namespace Run

/-- **A run that accounts for its faults**: it reports so many errors more than it has faults, and
gives a result with some property. -/
def Accounts (extra : Nat) (r : Run σ α) (Q : α → Prop) : Prop :=
  ∀ p, Q (r p).1 ∧ (r p).2.errors + p.faults = p.errors + (r p).2.faults + extra

variable {r : Run σ α} {Q : α → Prop} {Q' : β → Prop} {m n : Nat}

/-- To give a result reports nothing. -/
theorem accounts_pure {x : α} (h : Q x) : Accounts 0 (pure x : Run σ α) Q := fun _ => ⟨h, rfl⟩

/-- **One run after the other** accounts for the faults of both. -/
theorem Accounts.bind (h : Accounts m r Q) {f : α → Run σ β}
    (hf : ∀ x, Q x → Accounts n (f x) Q') : Accounts (m + n) (r >>= f) Q' := by
  intro p
  obtain ⟨hx, hfirst⟩ := h p
  obtain ⟨hy, hsecond⟩ := hf _ hx (r p).2
  refine ⟨hy, ?_⟩
  change (f (r p).1 (r p).2).2.errors + _ = _ + (f (r p).1 (r p).2).2.faults + _
  omega

/-- To convert a result reports nothing more. -/
theorem Accounts.map (h : Accounts n r Q) {g : α → β} (hg : ∀ x, Q x → Q' (g x)) :
    Accounts n (g <$> r) Q' :=
  fun p => ⟨hg _ (h p).1, (h p).2⟩

/-- To report something that is no error. -/
theorem accounts_report {e : Event} (h : e.level ≠ .error) :
    Accounts 0 (report e : Run σ Unit) fun _ => True := by
  intro p
  refine ⟨trivial, ?_⟩
  change (p.events ++ [e]).countP _ + p.faults = p.errors + p.faults
  rw [List.countP_append, List.countP_singleton, if_neg (by simpa using h)]
  rfl

/-- To report an error. -/
theorem accounts_report_error {e : Event} (h : e.level = .error) :
    Accounts 1 (report e : Run σ Unit) fun _ => True := by
  intro p
  refine ⟨trivial, ?_⟩
  change (p.events ++ [e]).countP _ + p.faults = p.errors + p.faults + 1
  rw [List.countP_append, List.countP_singleton, if_pos (by simpa using h), Progress.errors]
  omega

/-- What is reported when a request was served is no error. -/
theorem level_of_mem_events {r : Request} {e : Event} (h : e ∈ r.events) : e.level ≠ .error := by
  cases r with
  | restart config? =>
      obtain rfl := List.mem_singleton.mp h
      exact Level.noConfusion
  | list k ns? | get k name ns? | apply k d | delete k name ns? | getConfig => cases h

/-- A request reports no error itself. -/
theorem request_counts (server : Server σ) (r : Request) (p : Progress σ) :
    (request server r p).2.errors = p.errors ∧
      (request server r p).2.faults = p.faults + r.faults (request server r p).1 := by
  rw [request]
  rcases server.serve r p.state with ⟨answer, state⟩
  cases answer with
  | ok x =>
      have hnone : r.events.countP (fun e => e.level = .error) = 0 :=
        List.countP_eq_zero.mpr fun e he => by simpa using level_of_mem_events he
      refine ⟨?_, ?_⟩
      · change (p.events ++ r.events).countP _ = _
        rw [List.countP_append, hnone]
        rfl
      · change (p.calls ++ [_]).countP _ = _
        rw [List.countP_append]
        rfl
  | error e =>
      refine ⟨rfl, ?_⟩
      change (p.calls ++ [_]).countP _ = _
      rw [List.countP_append, List.countP_singleton, Request.faults]
      cases htolerates : r.tolerates e <;> simp [Call.isFault, htolerates, Progress.faults]

/-- **What is done with an answer** has to account for it. -/
theorem accounts_request_bind (server : Server σ) (r : Request)
    {next : Except RequestError r.Answer → Run σ α}
    (h : ∀ answer, Accounts (r.faults answer + n) (next answer) Q) :
    Accounts n (request server r >>= next) Q := by
  intro p
  obtain ⟨herrors, hfaults⟩ := request_counts server r p
  obtain ⟨hx, hcounts⟩ := h (request server r p).1 (request server r p).2
  refine ⟨hx, ?_⟩
  change (next (request server r p).1 (request server r p).2).2.errors + _ =
    _ + (next (request server r p).1 (request server r p).2).2.faults + _
  omega

end Run

end ClusterSnapshot
