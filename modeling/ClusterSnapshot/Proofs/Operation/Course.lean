import ClusterSnapshot.Proofs.Operation.Trace

/-!
# The course of an attempt

What an attempt is to ask for can be told from the state in which it begins. An attempt that follows
such a *course* does all of it and succeeds, or it is strict and has made a call that ends it, and
then that call shows in the course as well. So when nothing ends an attempt, it does what every
other one does that follows the same course.

## Main results

* `Attempt.Follows.bind`: one attempt after the other.
* `Attempt.Follows.same`: **attempts that follow one course do the same** unless a call ends one.
* `TaskGroup.made_carryOut`: what a group does whose tasks make one request each.
-/

namespace ClusterSnapshot

variable {σ τ α β : Type}

/-! ### Calls that end an operation -/

/-- The failure with which a strict operation ends when this call has failed. That an object is gone
already ends no removal, and that the scheduler is run by somebody else ends nothing. -/
def Call.stops? (call : Call) : Option OperationError :=
  match call.request, call.failure? with
  | .list k _, some e => some (.list k e)
  | .delete _ _ _, some (.notFound _) => none
  | .delete k name _, some e => some (.delete k name e)
  | .getConfig, some .disabled => none
  | .getConfig, some e => some (.schedulerConfig e)
  | _, _ => call.fatal?

/-- What comes of a task when the failure is known that would end it. -/
def Options.ruling (options : Options) (failure? : Option OperationError) :
    Option OperationError :=
  if options.ignoreErrors then none else failure?

/-- Whether one of some calls ends an operation. -/
def Halted (calls : List Call) : Prop := ∃ call ∈ calls, call.stops?.isSome = true

/-- Calls have halted if some of either part have. -/
theorem halted_append {calls calls' : List Call} :
    Halted (calls ++ calls') ↔ Halted calls ∨ Halted calls' := by
  simp only [Halted, List.mem_append, or_and_right, exists_or]

/-- Calls have halted if one of them stops. -/
theorem halted_iff_findSome? {calls : List Call} :
    Halted calls ↔ (calls.findSome? Call.stops?).isSome = true := by
  rw [List.findSome?_isSome_iff]
  rfl

/-- A fatal call stops. -/
theorem Call.stops?_of_fatal {call : Call} (h : call.fatal?.isSome = true) :
    call.stops?.isSome = true := by
  obtain ⟨cluster, r, failure?⟩ := call
  cases r <;> simp_all [stops?, fatal?]

/-- A call that has not failed ends nothing. -/
theorem Call.stops?_of_granted {call : Call} (h : call.failure? = none) : call.stops? = none := by
  obtain ⟨cluster, r, failure?⟩ := call
  obtain rfl : failure? = none := h
  cases r <;> rfl

/-! ### Courses -/

/-- **An attempt follows a course.** Seen with `sight`, it does what the course says and succeeds,
or it is strict and has been halted, and then so is the course. -/
inductive Attempt.Follows (sight : Sight σ τ) (halted : τ → Prop) (options : Options)
    (course : τ → τ) (x : α) (p : Progress σ) : Except OperationError α × Progress σ → Prop
  | through {q : Progress σ} : sight.see q = course (sight.see p) →
    Follows sight halted options course x p (.ok x, q)
  | stopped {e : OperationError} {q : Progress σ} : options.ignoreErrors = false →
    halted (sight.see q) → halted (course (sight.see p)) →
    Follows sight halted options course x p (.error e, q)

namespace Attempt

variable {sight : Sight σ τ} {halted : τ → Prop} {options : Options} {course course' : τ → τ}
  {x : α} {y : β} {p : Progress σ}

/-- **One attempt after the other** follows one course after the other. -/
theorem Follows.bind {a : Attempt σ α} (h : Follows sight halted options course x p (a p))
    {next : α → Attempt σ β}
    (hnext : ∀ q, sight.see q = course (sight.see p) →
      Follows sight halted options course' y q (next x q))
    (hkeep : ∀ t, halted t → halted (course' t)) :
    Follows sight halted options (course' ∘ course) y p ((a >>= next) p) := by
  rw [bind_apply]
  generalize a p = done at h
  cases h with
  | @through q hsee =>
      have hafter := hnext q hsee
      simp only
      generalize next x q = done' at hafter
      cases hafter with
      | through hsee' => exact .through (hsee'.trans (congrArg course' hsee))
      | stopped hstrict hhalted hcourse =>
          rw [hsee] at hcourse
          exact .stopped hstrict hhalted hcourse
  | stopped hstrict hhalted hcourse => exact .stopped hstrict hhalted (hkeep _ hcourse)

/-- Another word for a failure does not change the course. -/
theorem Follows.mapError {a : Attempt σ α} (h : Follows sight halted options course x p (a p))
    (f : OperationError → OperationError) :
    Follows sight halted options course x p (a.mapError f p) := by
  rw [mapError_apply]
  generalize a p = done at h
  cases h with
  | through hsee => exact .through hsee
  | stopped hstrict hhalted hcourse => exact .stopped hstrict hhalted hcourse

/-- **Attempts that follow one course do the same**, unless a call ends the first one. -/
theorem Follows.same {done done' : Except OperationError α × Progress σ}
    (h : Follows sight halted options course x p done)
    (h' : Follows sight halted options course x p done')
    (hfree : options.ignoreErrors = true ∨ ¬ halted (sight.see done.2)) :
    done.1 = .ok x ∧ done'.1 = .ok x ∧ sight.see done.2 = course (sight.see p) ∧
      sight.see done'.2 = course (sight.see p) := by
  cases h with
  | stopped hstrict hhalted _ =>
      rw [hstrict] at hfree
      exact absurd hhalted (hfree.resolve_left Bool.false_ne_true)
  | through hsee =>
      cases h' with
      | through hsee' => exact ⟨rfl, rfl, hsee, hsee'⟩
      | stopped hstrict _ hcourse =>
          rw [hstrict, hsee] at hfree
          exact absurd hcourse (hfree.resolve_left Bool.false_ne_true)

end Attempt

/-! ### Tasks that make one request each -/

/-- An act that makes a request and fails if it is ended by it. Of the calls so much is kept as
`note` says. -/
structure Options.Heeds {κ : Type} (options : Options) (server : Server σ) (note : κ → Call → κ)
    (f : Act (σ × κ) (Ending α)) (r : Request) : Prop where
  makes : ∀ t, (f t).2 = ((server.serve r t.1).2, note t.2 (server.call r t.1))
  fails : ∀ t, (f t).1.failure? = options.ruling (server.call r t.1).stops?
  answers : TaskGroup.Answers f

namespace Options

variable {κ : Type} {note : κ → Call → κ} {options : Options} {server : Server σ}
  {fs : List (Act (σ × κ) (Ending α))} {rs : List Request}

/-- Acts that heed their requests make them one after the other. -/
theorem inOrder_heeding (h : List.Forall₂ (options.Heeds server note) fs rs) (t : σ × κ) :
    (inOrder fs t).2 = (server.after rs t.1, (server.calls rs t.1).foldl note t.2) := by
  induction h generalizing t with
  | nil => rfl
  | cons hf _ ih =>
      rw [inOrder, ih, hf.makes]
      rfl

/-- The first failure of such acts is that of the first call that stops. -/
theorem firstFailure?_heeding (h : List.Forall₂ (options.Heeds server note) fs rs) (t : σ × κ) :
    TaskGroup.firstFailure? (inOrder fs t).1 =
      options.ruling ((server.calls rs t.1).findSome? Call.stops?) := by
  induction h generalizing t with
  | nil => simp [inOrder, TaskGroup.firstFailure?, Server.calls, ruling]
  | @cons f r fs rs hf _ ih =>
      rw [inOrder, TaskGroup.firstFailure?_cons, ih, hf.fails, hf.makes, Server.calls,
        List.findSome?_cons, ruling, ruling, ruling]
      cases options.ignoreErrors with
      | true => rfl
      | false =>
          cases (server.call r t.1).stops? with
          | none => rfl
          | some e => rfl

/-- Acts that heed what stops them are never lost. -/
theorem answers_of_heeding (h : List.Forall₂ (options.Heeds server note) fs rs) :
    ∀ f ∈ fs, TaskGroup.Answers f :=
  ((List.forall₂_and_left fs rs).mp (h.imp fun _ _ hf => ⟨hf.answers, hf⟩)).1

end Options

/-- What requests do, as seen with all calls. -/
theorem Server.making_eq (server : Server σ) (rs : List Request) (t : σ × List Call) :
    server.making rs t = (server.after rs t.1,
      (server.calls rs t.1).foldl (fun calls call => calls ++ [call]) t.2) := by
  have hfoldl : ∀ calls calls' : List Call,
      calls'.foldl (fun calls call => calls ++ [call]) calls = calls ++ calls' := by
    intro calls calls'
    induction calls' generalizing calls with
    | nil => exact (List.append_nil _).symm
    | cons call rest ih => rw [List.foldl_cons, ih, List.append_assoc, List.singleton_append]
  rw [hfoldl]
  rfl

/-- What a group has done whose tasks make one request each: all of it, or it is strict and has been
halted, and then its failure is the first that ends a strict operation. -/
inductive TaskGroup.Made (server : Server σ) (options : Options)
    (fs : List (Act (σ × List Call) (Ending α))) (rs : List Request) (p : Progress σ) :
    Except OperationError (List α) → Progress σ → Prop
  | done {outputs : List α} {q : Progress σ} :
    Sight.record.see q = server.making rs (Sight.record.see p) →
    firstFailure? (inOrder fs (Sight.record.see p)).1 = none →
    outputs.Perm (outputsOf (inOrder fs (Sight.record.see p)).1) →
    Made server options fs rs p (.ok outputs) q
  | stopped {e : OperationError} {q : Progress σ} : options.ignoreErrors = false →
    Halted q.calls → (server.calls rs p.state).findSome? Call.stops? = some e →
    firstFailure? (inOrder fs (Sight.record.see p)).1 = some e →
    Made server options fs rs p (.error e) q

/-- **What a group does whose tasks make one request each.** -/
theorem TaskGroup.made_carryOut (limit : Nat) {server : Server σ} {options : Options}
    {tasks : List (Run σ (Ending α))} {fs : List (Act (σ × List Call) (Ending α))}
    {rs : List Request} (htasks : List.Forall₂ (Run.Acts .record) tasks fs)
    (hheeds : List.Forall₂ (options.Heeds server fun calls call => calls ++ [call]) fs rs)
    (p : Progress σ) :
    Made server options fs rs p (carryOut limit tasks p).1 (carryOut limit tasks p).2 := by
  have hmaking : ∀ {fs : List (Act (σ × List Call) (Ending α))} {rs : List Request},
      List.Forall₂ (options.Heeds server fun calls call => calls ++ [call]) fs rs → ∀ t,
        (inOrder fs t).2 = server.making rs t :=
    fun h t => (Options.inOrder_heeding h t).trans (server.making_eq _ t).symm
  have hcarried := carriedOut_carryOut limit htasks (Options.answers_of_heeding hheeds) p
  generalize (carryOut limit tasks p).1 = result, (carryOut limit tasks p).2 = q at hcarried
  cases hcarried with
  | done hsee hnone houtputs _ => exact .done (hsee.trans (hmaking hheeds _)) hnone houtputs
  | @failed taken dropped e _ hsee hfailure _ =>
      have htaken : List.Forall₂ (options.Heeds server fun calls call => calls ++ [call]) taken
          (rs.take taken.length) := by
        have htake := List.forall₂_take taken.length hheeds
        rwa [List.take_left] at htake
      have hcalls : q.calls = p.calls ++ server.calls (rs.take taken.length) p.state :=
        congrArg Prod.snd (hsee.trans (hmaking htaken _))
      have hall : firstFailure? (inOrder (taken ++ dropped) (Sight.record.see p)).1 = some e := by
        rw [inOrder_append, firstFailure?_append, hfailure]
        rfl
      rw [Options.firstFailure?_heeding htaken, Options.ruling] at hfailure
      split at hfailure <;> rename_i hlenient
      · cases hfailure
      · change (server.calls (rs.take taken.length) p.state).findSome? Call.stops? = some e
          at hfailure
        refine .stopped (Bool.eq_false_iff.mpr hlenient) ?_ ?_ hall
        · rw [hcalls, halted_append]
          exact .inr (halted_iff_findSome?.mpr (Option.isSome_of_eq_some hfailure))
        · rw [← List.take_append_drop taken.length rs, Server.calls_append,
            List.findSome?_append, hfailure]
          rfl

end ClusterSnapshot
