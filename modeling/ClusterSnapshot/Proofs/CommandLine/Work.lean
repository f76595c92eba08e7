import ClusterSnapshot.CommandLine.Commands
import ClusterSnapshot.Proofs.CommandLine.FileTree

/-!
# What the work of a command does

The work of a command on files as a value is specified by what holds of the files before it, what
holds of its result and the files if it is done, and what holds of the files if it ends before.
There is a rule for every way to put work together, and one for every action of the host.

## Main results

* `Work.Does.bind`: **one piece of work after the other**.
* `Work.does_readText`, `Work.does_writeText`: the actions of the host on texts.
* `Work.does_openStore`: a store is opened.
* `Work.does_perform`: an operation is performed, and what it leaves is kept.
-/

namespace ClusterSnapshot.CommandLine

open FileTree (host)

variable {α β σ : Type}

/-- **What work does**: from files with a property it gives a result and files with another one, or
ends before it is done and leaves files with a third. -/
def Work.Does (P : FileTree → Prop) (w : Work (StateM FileTree) α) (Q : α → FileTree → Prop)
    (R : FileTree → Prop) : Prop :=
  ∀ l t, P t → (∀ x, (w l t).1.1 = .ok x → Q x (w l t).2) ∧
    ∀ e, (w l t).1.1 = .error e → R (w l t).2

namespace Work

variable {P P' R : FileTree → Prop} {Q : α → FileTree → Prop} {Q' : β → FileTree → Prop}
  {w : Work (StateM FileTree) α}

/-! ### Rules -/

/-- More may be known before. -/
theorem Does.before (h : Does P w Q R) (hP : ∀ t, P' t → P t) : Does P' w Q R :=
  fun l t ht => h l t (hP t ht)

/-- Less may be said after. -/
theorem Does.after (h : Does P w Q R) {Q' : α → FileTree → Prop} (hQ : ∀ x t, Q x t → Q' x t) :
    Does P w Q' R :=
  fun l t ht => ⟨fun x hx => hQ x _ ((h l t ht).1 x hx), (h l t ht).2⟩

/-- What follows is done with the result and the files, unless the work has ended. -/
theorem bind_apply (w : Work (StateM FileTree) α) (f : α → Work (StateM FileTree) β) (l : Ledger)
    (t : FileTree) : (w >>= f) l t = match (w l t).1.1 with
      | .ok x => f x (w l t).1.2 (w l t).2
      | .error e => ((.error e, (w l t).1.2), (w l t).2) := by
  change ExceptT.bindCont f (w l t).1.1 (w l t).1.2 (w l t).2 = _
  cases (w l t).1.1 <;> rfl

/-- What is known beforehand and has nothing to do with files may be assumed. -/
theorem does_of_and {A : Prop} (h : A → Does P w Q R) : Does (fun t => P t ∧ A) w Q R :=
  fun l t ht => h ht.2 l t ht.1

/-- **One piece of work after the other.** -/
theorem Does.bind (h : Does P w Q R) {f : α → Work (StateM FileTree) β}
    (hf : ∀ x, Does (Q x) (f x) Q' R) : Does P (w >>= f) Q' R := by
  intro l t ht
  obtain ⟨hok, herror⟩ := h l t ht
  rw [bind_apply]
  cases hresult : (w l t).1.1 with
  | ok x => exact hf x _ _ (hok x hresult)
  | error e => exact ⟨fun x hx => (by cases hx), fun _ _ => herror e hresult⟩

/-- To give a result leaves the files as they are. -/
theorem does_pure {x : α} (h : ∀ t, P t → Q x t) : Does P (pure x) Q R := by
  refine fun l t ht => ⟨fun y hy => ?_, fun e he => by cases he⟩
  obtain rfl : x = y := Except.ok.inj hy
  exact h t ht

/-- To end the work leaves the files as they are. -/
theorem does_throw {e : Halt} (h : ∀ t, P t → R t) :
    Does P (throw e : Work (StateM FileTree) α) Q R :=
  fun _ t ht => ⟨fun _ hx => (by cases hx), fun _ _ => h t ht⟩

/-- To fail leaves the files as they are. -/
theorem does_fail {e : Failure} (h : ∀ t, P t → R t) :
    Does P (fail e : Work (StateM FileTree) α) Q R := does_throw h

/-- What the host does is done. -/
theorem does_onHost {x : StateM FileTree α} (h : ∀ t, P t → Q (x t).1 (x t).2) :
    Does P (onHost x) Q R := by
  refine fun l t ht => ⟨fun y hy => ?_, fun e he => by cases he⟩
  obtain rfl : (x t).1 = y := Except.ok.inj hy
  exact h t ht

/-- Nothing follows a failure. -/
theorem does_fail_bind {e : Failure} {f : α → Work (StateM FileTree) β} (h : ∀ t, P t → R t) :
    Does P (fail e >>= f) Q' R := (does_fail h : Does P (fail e) (fun _ _ => False) R).bind
  fun _ _ _ hf => hf.elim

/-- Work that goes on if an action of the host succeeds, and fails if it does not. -/
theorem does_unless {x : StateM FileTree Bool} {e : Failure} {M : FileTree → Prop}
    {next : Unit → Work (StateM FileTree) β} (hyes : ∀ t, P t → (x t).1 = true → M (x t).2)
    (hno : ∀ t, P t → (x t).1 = false → R (x t).2) (hnext : Does M (next ()) Q' R) :
    Does P (onHost x >>= fun done => if done = true then next () else fail e >>= next) Q' R := by
  have hask : Does P (onHost x)
      (fun done t => (done = true → M t) ∧ (done = false → R t)) R :=
    does_onHost fun t ht => ⟨hyes t ht, hno t ht⟩
  refine hask.bind fun done => ?_
  cases done with
  | true => exact hnext.before fun t ht => ht.1 rfl
  | false => exact does_fail_bind fun t ht => ht.2 rfl

/-- To read a text changes no file. -/
theorem does_readText (path : String) : Does P (onHost (host.readText path))
    (fun reading t => P t ∧ t.reading path = reading) R := by
  refine does_onHost fun t ht => ?_
  rw [FileTree.host_readText_apply]
  exact ⟨ht, rfl⟩

/-- Work that goes on if a text can be written, and fails if it cannot. -/
theorem does_writeText {path content : String} {e : Failure} {M : FileTree → Prop}
    {next : Unit → Work (StateM FileTree) β}
    (hyes : ∀ t, P t → ∀ t', t.write? path content = some t' → M t')
    (hno : ∀ t, P t → t.write? path content = none → R t) (hnext : Does M (next ()) Q' R) :
    Does P (onHost (host.writeText path content) >>= fun done =>
      if done = true then next () else fail e >>= next) Q' R := by
  refine does_unless (fun t ht hdone => ?_) (fun t ht hdone => ?_) hnext
  · rw [FileTree.host_writeText_apply] at hdone ⊢
    obtain ⟨t', hwritten⟩ := Option.isSome_iff_exists.mp hdone
    rw [hwritten, Option.getD_some]
    exact hyes t ht t' hwritten
  · rw [FileTree.host_writeText_apply] at hdone ⊢
    have hnone := Option.not_isSome_iff_eq_none.mp (Bool.eq_false_iff.mp hdone)
    rw [hnone, Option.getD_none]
    exact hno t ht hnone

/-! ### Stores -/

/-- The store that is kept at a path; an empty one if nothing is there. -/
def kept? (t : FileTree) (path : String) : Option Store :=
  match t.find? path with
  | none => some .empty
  | some (.text content) => Store.ofText? content
  | some .directory => none

/-- The store that is opened at a path, and the files once it is. -/
def opened? (t : FileTree) (path : String) : Option (Store × FileTree) :=
  (kept? t path).bind fun s => (t.write? path s.text).map (s, ·)

/-- **To open a store** is to make its directory and then to open what is kept there, unless that is
open already. -/
theorem does_openStore {dataDir : String} {other? : Option OpenStore} {M : FileTree → Prop}
    {Q : OpenStore → FileTree → Prop}
    (hmade : ∀ t, P t → (host.makeDirectories dataDir t).1 = true →
      M (host.makeDirectories dataDir t).2)
    (hfailed : ∀ t, P t → (host.makeDirectories dataDir t).1 = false →
      R (host.makeDirectories dataDir t).2)
    (hopened : ∀ t, M t → ∀ s t', opened? t (storePath dataDir) = some (s, t') →
      Q ⟨storePath dataDir, s⟩ t')
    (hclosed : ∀ t, M t → other? ≠ none ∨ opened? t (storePath dataDir) = none → R t) :
    Does P (openStore host dataDir other?) Q R := by
  rw [openStore]
  extract_lets path keep look apart
  -- what is kept is opened by writing it again
  have hkeep : ∀ store?, Does (fun t => M t ∧ kept? t path = store?) (keep store?) Q R := by
    intro store?
    cases store? with
    | none => exact does_fail fun t ht => hclosed t ht.1 (.inr (by rw [opened?, ht.2]; rfl))
    | some s =>
        have hopen : ∀ {t}, kept? t path = some s →
            opened? t path = (t.write? path s.text).map (s, ·) := fun h => by
          rw [opened?, h, Option.bind_some]
        refine does_writeText (M := fun t => Q ⟨path, s⟩ t) (fun t ht t' hwritten => ?_)
          (fun t ht hnone => ?_) (does_pure fun _ ht => ht)
        · exact hopened t ht.1 s t' (by rw [hopen ht.2, hwritten, Option.map_some])
        · exact hclosed t ht.1 (.inr (by rw [hopen ht.2, hnone, Option.map_none]))
  have hlook : Does M (look ()) Q R := by
    have hask : Does M (onHost (host.pathExists path))
        (fun found t => M t ∧ (t.find? path).isSome = found) R :=
      does_onHost fun t ht => ⟨ht, rfl⟩
    refine hask.bind fun found => ?_
    cases found with
    | false =>
        refine (hkeep (some .empty)).before fun t ht => ⟨ht.1, ?_⟩
        rw [kept?, Option.not_isSome_iff_eq_none.mp (Bool.eq_false_iff.mp ht.2)]
    | true =>
        refine (does_readText path).bind fun r => ?_
        cases r with
        | text content =>
            refine (hkeep (Store.ofText? content)).before fun t ht => ⟨ht.1.1, ?_⟩
            rw [kept?, FileTree.reading_eq_text.mp ht.2]
        | unreadable =>
            refine (hkeep none).before fun t ht => ⟨ht.1.1, ?_⟩
            rw [kept?, FileTree.find?_of_unreadable ht.2 ht.1.2]
        | notText =>
            refine (hkeep none).before fun t ht => ⟨ht.1.1, ?_⟩
            exact absurd ht.2 FileTree.reading_ne_notText
  refine does_unless hmade hfailed ?_
  cases other? with
  | none => exact hlook
  | some other =>
      have hask : Does M (onHost (host.sameFile path other.path)) (fun _ => M) R :=
        does_onHost fun _ ht => ht
      refine hask.bind fun same => ?_
      cases same with
      | true => exact does_fail_bind fun t ht => hclosed t ht (.inl (Option.some_ne_none other))
      | false => exact hlook

/-- To save a store writes its text, if it can be written. -/
theorem does_saveStore {s : OpenStore} {Q : Unit → FileTree → Prop}
    (h : ∀ t, P t → Q () ((t.write? s.path s.store.text).getD t)) :
    Does P (saveStore host s) Q R := by
  have hwrite : Does P (onHost (host.writeText s.path s.store.text)) (fun _ t => Q () t) R := by
    refine does_onHost fun t ht => ?_
    rw [FileTree.host_writeText_apply]
    exact h t ht
  exact hwrite.bind fun _ => does_pure fun _ ht => ht

/-- **To perform an operation** is to keep what it leaves, and to fail afterwards if it failed. -/
theorem does_perform {operation : Operation} {attempt : Attempt σ α} {start : UidSource → σ}
    {uids : σ → UidSource} {save : σ → Work (StateM FileTree) Unit}
    (h : ∀ u, Does P (save (attempt (Run.start (start u))).2.state)
      (fun _ t => (∀ x, (attempt (Run.start (start u))).1 = .ok x → Q x t) ∧
        ∀ e, (attempt (Run.start (start u))).1 = .error e → R t) R) :
    Does P (perform operation attempt start uids save) Q R := by
  intro l t ht
  let done := attempt (Run.start (start l.uids))
  rw [perform]
  change (∀ x, ((save done.2.state >>= _)
    (⟨uids done.2.state, l.events ++ done.2.events⟩ : Ledger) t).1.1 = _ → _) ∧ _
  refine (h l.uids).bind (fun _ => ?_) _ t ht
  cases (attempt (Run.start (start l.uids))).1 with
  | ok x => exact does_pure fun t ht => ht.1 x rfl
  | error e => exact does_fail fun t ht => ht.2 e rfl

/-- A command breaks off if there are to be too many tasks. -/
theorem does_checkTasks {settings : Settings} {Q : Unit → FileTree → Prop}
    (hfew : ∀ t, P t → overloaded settings = false → Q () t)
    (hmany : ∀ t, P t → overloaded settings = true → R t) :
    Does P (checkTasks settings : Work (StateM FileTree) Unit) Q R := by
  rw [checkTasks]
  split
  · rename_i h
    exact does_throw fun t ht => hmany t ht h
  · rename_i h
    exact does_pure fun t ht => hfew t ht (Bool.eq_false_iff.mpr h)

end Work

end ClusterSnapshot.CommandLine
