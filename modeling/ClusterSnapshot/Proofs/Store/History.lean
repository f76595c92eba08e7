import Mathlib.Data.List.Induction
import Mathlib.Logic.Function.Basic
import ClusterSnapshot.Proofs.Store.Reachable

/-!
# The history of stores

Stores side by side take the identities of their objects from one source. What happens to them is a
list of moments: at each of them an object is written or removed in one of the stores, or nothing is
done to any object. If no two identities of the source are the same, then no two objects ever share
one, and an object keeps its own until it is removed. The versions of objects tell the order in
which they were written.

## Main results

* `World.Step`: **what is done at a moment**.
* `Chronicle.laws`: **the laws of identities and versions**.
-/

namespace ClusterSnapshot

variable {ι : Type}

/-- Stores side by side, with one source of identities. -/
structure World (ι : Type) where
  stores : ι → Store
  uids : UidSource

/-- Where an object may be: at a key in the table of its kind in one of the stores. -/
structure Place (ι : Type) where
  store : ι
  kind : Kind
  key : String
  deriving DecidableEq

/-- What is done to objects at a moment. -/
inductive Deed (ι : Type) where
  | wrote (x : Place ι)
  | removed (x : Place ι)
  | nothing

/-- What is done, and the stores right after. -/
structure Moment (ι : Type) where
  deed : Deed ι
  world : World ι

/-- The metadata of the object at a key, if there is one. -/
def Store.metadata? (s : Store) (k : Kind) (key : String) : Option Metadata :=
  ((s.objects k).find? key).map (·.metadata)

/-- Whether an object is written in a store. -/
def Deed.writes [DecidableEq ι] (i : ι) : Deed ι → Bool
  | .wrote x => x.store = i
  | .removed _ | .nothing => false

/-! ### What is done at a moment -/

namespace World

/-- Empty stores, of whose identities none is taken. -/
def fresh (uid : Nat → String) : World ι := ⟨fun _ => .empty, ⟨uid, 0⟩⟩

/-- The metadata of the object at a place, if there is one. -/
def metadata? (w : World ι) (x : Place ι) : Option Metadata :=
  (w.stores x.store).metadata? x.kind x.key

/-- All texts of all stores can be read. -/
def Readable (w : World ι) : Prop := ∀ i, (w.stores i).Readable

/-- An object is written at a place, and counted as a write of its store. -/
structure Writes (w : World ι) (x : Place ι) (w' : World ι) (m : Metadata) : Prop where
  found : w'.metadata? x = some m
  version : m.resourceVersion? = some (toString (w'.stores x.store).revision)
  counted : (w'.stores x.store).revision = (w.stores x.store).revision + 1
  uncounted : ∀ i ≠ x.store, (w'.stores i).revision = (w.stores i).revision
  others : ∀ y ≠ x, w'.metadata? y = w.metadata? y

/-- **What is done at a moment.** -/
inductive Step (w : World ι) : Deed ι → World ι → Prop
  /-- A new object gets the next identity. -/
  | created {x : Place ι} {w' : World ι} {m : Metadata} : w.metadata? x = none → w.Writes x w' m →
    m.uid? = some (w.uids.uid w.uids.spent) →
    w'.uids = { w.uids with spent := w.uids.spent + 1 } → Step w (.wrote x) w'
  /-- An object that is there keeps its identity. -/
  | updated {x : Place ι} {w' : World ι} {m₀ m : Metadata} : w.metadata? x = some m₀ →
    w.Writes x w' m → m.uid? = m₀.uid? → w'.uids = w.uids → Step w (.wrote x) w'
  | removed {x : Place ι} {w' : World ι} : w'.metadata? x = none →
    (∀ y ≠ x, w'.metadata? y = w.metadata? y) →
    (∀ i, (w'.stores i).revision = (w.stores i).revision) → w'.uids = w.uids →
    Step w (.removed x) w'
  | nothing {w' : World ι} : (∀ y, w'.metadata? y = w.metadata? y) →
    (∀ i, (w'.stores i).revision = (w.stores i).revision) → w'.uids = w.uids → Step w .nothing w'

variable {w w' : World ι} {d : Deed ι} {x : Place ι} {m m' : Metadata}

/-- A place with an object is not one without. -/
theorem ne_of_metadata? {y : Place ι} (hx : w.metadata? x = some m) (hy : w.metadata? y = none) :
    x ≠ y := by
  rintro rfl
  rw [hy] at hx
  cases hx

/-- A write takes back no version of any store. -/
theorem Writes.revision_le (h : w.Writes x w' m) (i : ι) :
    (w.stores i).revision ≤ (w'.stores i).revision := by
  by_cases hi : i = x.store
  · subst hi
    exact h.counted ▸ Nat.le_succ _
  · exact (h.uncounted i hi).ge

/-- A step leaves the source of identities alone. -/
theorem Step.uid_eq (h : w.Step d w') : w'.uids.uid = w.uids.uid := by
  cases h with
  | created _ _ _ huids | updated _ _ _ huids | removed _ _ _ huids | nothing _ _ huids =>
      rw [huids]

/-- A step takes no identity back. -/
theorem Step.spent_le (h : w.Step d w') : w.uids.spent ≤ w'.uids.spent := by
  cases h with
  | created _ _ _ huids =>
      rw [huids]
      exact Nat.le_succ _
  | updated _ _ _ huids | removed _ _ _ huids | nothing _ _ huids => rw [huids]

/-- A step takes back no version of any store. -/
theorem Step.revision_le (h : w.Step d w') (i : ι) :
    (w.stores i).revision ≤ (w'.stores i).revision := by
  cases h with
  | created _ hwrites _ _ | updated _ hwrites _ _ => exact hwrites.revision_le i
  | removed _ _ hrevision _ | nothing _ hrevision _ => exact (hrevision i).ge

/-- A store gets a new version with every write, and with nothing else. -/
theorem Step.revision_eq [DecidableEq ι] (h : w.Step d w') (i : ι) :
    (w'.stores i).revision = (w.stores i).revision + if d.writes i then 1 else 0 := by
  have hwrote : ∀ {x m}, w.Writes x w' m →
      (w'.stores i).revision =
        (w.stores i).revision + if (Deed.wrote x).writes i then 1 else 0 := by
    intro x m hwrites
    by_cases hi : x.store = i
    · subst hi
      rw [hwrites.counted, Deed.writes, if_pos (by simp)]
    · rw [hwrites.uncounted i (Ne.symm hi), Deed.writes, if_neg (by simpa using hi), Nat.add_zero]
  cases h with
  | created _ hwrites _ _ | updated _ hwrites _ _ => exact hwrote hwrites
  | removed _ _ hrevision _ | nothing _ hrevision _ => exact hrevision i

/-- **Where an identity comes from**: the object had it already, or it was created with the next
one. -/
theorem Step.origin (h : w.Step d w') (hm : w'.metadata? x = some m') :
    (∃ m, w.metadata? x = some m ∧ m'.uid? = m.uid?) ∨
      (w.metadata? x = none ∧ d = .wrote x ∧ m'.uid? = some (w.uids.uid w.uids.spent) ∧
        w.uids.spent < w'.uids.spent) := by
  cases h with
  | @created y _ m hnone hwrites huid huids =>
      by_cases hx : x = y
      · subst hx
        obtain rfl : m = m' := Option.some.inj (hwrites.found.symm.trans hm)
        exact .inr ⟨hnone, rfl, huid, by rw [huids]; exact Nat.lt_succ_self _⟩
      · exact .inl ⟨m', (hwrites.others x hx).symm.trans hm, rfl⟩
  | @updated y _ m₀ m hsome hwrites huid huids =>
      by_cases hx : x = y
      · subst hx
        obtain rfl : m = m' := Option.some.inj (hwrites.found.symm.trans hm)
        exact .inl ⟨m₀, hsome, huid⟩
      · exact .inl ⟨m', (hwrites.others x hx).symm.trans hm, rfl⟩
  | @removed y _ hnone hothers _ _ =>
      have hx := ne_of_metadata? hm hnone
      exact .inl ⟨m', (hothers x hx).symm.trans hm, rfl⟩
  | nothing hsame _ _ => exact .inl ⟨m', (hsame x).symm.trans hm, rfl⟩

/-- **An object keeps its identity** unless it is removed. -/
theorem Step.kept (h : w.Step d w') (hm : w.metadata? x = some m) (hd : d ≠ .removed x) :
    ∃ m', w'.metadata? x = some m' ∧ m'.uid? = m.uid? := by
  cases h with
  | @created y _ _ hnone hwrites _ _ =>
      have hx := ne_of_metadata? hm hnone
      exact ⟨m, (hwrites.others x hx).trans hm, rfl⟩
  | @updated y _ m₀ m₁ hsome hwrites huid _ =>
      by_cases hx : x = y
      · subst hx
        obtain rfl : m₀ = m := Option.some.inj (hsome.symm.trans hm)
        exact ⟨m₁, hwrites.found, huid⟩
      · exact ⟨m, (hwrites.others x hx).trans hm, rfl⟩
  | @removed y _ _ hothers _ _ =>
      have hx : x ≠ y := fun hx => hd (hx ▸ rfl)
      exact ⟨m, (hothers x hx).trans hm, rfl⟩
  | nothing hsame _ _ => exact ⟨m, (hsame x).trans hm, rfl⟩

/-- **Where a version comes from**: the object was written at this moment, or was there before. -/
theorem Step.written (h : w.Step d w') (hm : w'.metadata? x = some m) :
    (d = .wrote x ∧ m.resourceVersion? = some (toString (w'.stores x.store).revision) ∧
        (w'.stores x.store).revision = (w.stores x.store).revision + 1) ∨
      (d ≠ .wrote x ∧ w.metadata? x = some m) := by
  have hwrote : ∀ {y m₁}, w.Writes y w' m₁ → d = .wrote y →
      (d = .wrote x ∧ m.resourceVersion? = some (toString (w'.stores x.store).revision) ∧
          (w'.stores x.store).revision = (w.stores x.store).revision + 1) ∨
        (d ≠ .wrote x ∧ w.metadata? x = some m) := by
    rintro y m₁ hwrites rfl
    by_cases hx : x = y
    · subst hx
      obtain rfl : m₁ = m := Option.some.inj (hwrites.found.symm.trans hm)
      exact .inl ⟨rfl, hwrites.version, hwrites.counted⟩
    · exact .inr ⟨fun heq => hx (Deed.wrote.inj heq).symm, (hwrites.others x hx).symm.trans hm⟩
  cases h with
  | created _ hwrites _ _ | updated _ hwrites _ _ => exact hwrote hwrites rfl
  | @removed y _ hnone hothers _ _ =>
      have hx := ne_of_metadata? hm hnone
      exact .inr ⟨nofun, (hothers x hx).symm.trans hm⟩
  | nothing hsame _ _ => exact .inr ⟨nofun, (hsame x).symm.trans hm⟩

end World

/-! ### Chronicles -/

/-- The stores after what has happened so far. -/
def now (w₀ : World ι) (past : List (Moment ι)) : World ι :=
  (past.getLast?.map (·.world)).getD w₀

/-- After one more moment the world is that of the moment. -/
theorem now_concat (w₀ : World ι) (past : List (Moment ι)) (t : Moment ι) :
    now w₀ (past ++ [t]) = t.world := by
  rw [now, List.getLast?_concat]
  rfl

/-- **What can have happened** to stores: one step after the other, with all texts readable after
each of them. -/
inductive Chronicle (w₀ : World ι) : List (Moment ι) → Prop
  | nil : Chronicle w₀ []
  | snoc {past : List (Moment ι)} {t : Moment ι} : Chronicle w₀ past →
    (now w₀ past).Step t.deed t.world → t.world.Readable → Chronicle w₀ (past ++ [t])

namespace Chronicle

variable {w₀ : World ι} {past early late : List (Moment ι)} {t : Moment ι} {x y : Place ι}
  {m m' : Metadata}

/-- What is known of a chronicle with one more moment. -/
theorem of_concat (h : Chronicle w₀ (past ++ [t])) :
    Chronicle w₀ past ∧ (now w₀ past).Step t.deed t.world ∧ t.world.Readable := by
  generalize hall : past ++ [t] = all at h
  cases h with
  | nil => simp at hall
  | snoc hpast hstep hreadable =>
      obtain ⟨rfl, heq⟩ := List.append_inj' hall rfl
      obtain rfl := List.singleton_inj.mp heq
      exact ⟨hpast, hstep, hreadable⟩

/-- What happened up to some moment is a chronicle of its own. -/
theorem of_append (h : Chronicle w₀ (early ++ late)) : Chronicle w₀ early := by
  induction late using List.reverseRecOn with
  | nil => rwa [List.append_nil] at h
  | append_singleton late t ih =>
      rw [← List.append_assoc] at h
      exact ih h.of_concat.1

/-- To show something of what happens after some moment, one moment after the other. -/
theorem later {p : List (Moment ι) → Prop} (h : Chronicle w₀ (early ++ late)) (hearly : p early)
    (hstep : ∀ past t, Chronicle w₀ past → (now w₀ past).Step t.deed t.world → t ∈ late →
      p past → p (past ++ [t])) : p (early ++ late) := by
  induction late using List.reverseRecOn with
  | nil => rwa [List.append_nil]
  | append_singleton late t ih =>
      rw [← List.append_assoc] at h ⊢
      obtain ⟨hpast, hnext, -⟩ := h.of_concat
      exact hstep _ t hpast hnext (by simp) (ih hpast fun past t' hc hs ht' =>
        hstep past t' hc hs (List.mem_append_left _ ht'))

/-! ### Identities -/

/-- A chronicle has one source of identities. -/
theorem uid_eq (h : Chronicle w₀ past) : (now w₀ past).uids.uid = w₀.uids.uid := by
  induction h with
  | nil => rfl
  | snoc _ hstep _ ih => rw [now_concat, hstep.uid_eq, ih]

/-- No identity is taken back later. -/
theorem spent_le (h : Chronicle w₀ (early ++ late)) :
    (now w₀ early).uids.spent ≤ (now w₀ (early ++ late)).uids.spent := by
  refine h.later (p := fun past => (now w₀ early).uids.spent ≤ (now w₀ past).uids.spent) (le_refl _)
    fun past t _ hstep _ ih => ?_
  rw [now_concat]
  exact ih.trans hstep.spent_le

section

variable {uid : Nat → String}

/-- Nothing is there in a fresh world. -/
theorem metadata?_fresh (uid : Nat → String) (x : Place ι) :
    (World.fresh uid).metadata? x = none := by
  have hempty : Store.empty.objects x.kind = (∅ : KeyMap (Stored x.kind)) := by
    rw [Store.objects, Store.empty, ByKind.get_ofFn]
    rfl
  rw [World.metadata?, Store.metadata?]
  exact congrArg (Option.map _) (congrArg (KeyMap.find? · x.key) hempty)

/-- Every object has an identity that was taken. -/
theorem identified (h : Chronicle (World.fresh uid) past)
    (hm : (now (World.fresh uid) past).metadata? x = some m) :
    ∃ n < (now (World.fresh uid) past).uids.spent, m.uid? = some (uid n) := by
  induction h generalizing m with
  | nil => exact absurd hm (by simp [now, metadata?_fresh])
  | @snoc past t hpast hstep _ ih =>
      rw [now_concat] at hm ⊢
      rcases hstep.origin hm with ⟨m₀, hm₀, huid⟩ | ⟨-, -, huid, hlt⟩
      · obtain ⟨n, hn, hm₀⟩ := ih hm₀
        exact ⟨n, hn.trans_le hstep.spent_le, huid.trans hm₀⟩
      · rw [hpast.uid_eq] at huid
        exact ⟨_, hlt, huid⟩

/-- No two objects share an identity. -/
theorem unique (h : Chronicle (World.fresh uid) past) (huid : Function.Injective uid)
    (hx : (now (World.fresh uid) past).metadata? x = some m)
    (hy : (now (World.fresh uid) past).metadata? y = some m') (heq : m.uid? = m'.uid?) : x = y := by
  induction h generalizing m m' with
  | nil => exact absurd hx (by simp [now, metadata?_fresh])
  | @snoc past t hpast hstep _ ih =>
      rw [now_concat] at hx hy
      -- an identity that was taken before is not the next one
      have hnext : ∀ {z m₀}, (now (World.fresh uid) past).metadata? z = some m₀ →
          m₀.uid? ≠ some ((now (World.fresh uid) past).uids.uid
            (now (World.fresh uid) past).uids.spent) := by
        intro z m₀ hz heq
        obtain ⟨n, hn, hm₀⟩ := hpast.identified hz
        rw [hm₀, hpast.uid_eq] at heq
        exact absurd (huid (Option.some.inj heq)) hn.ne
      rcases hstep.origin hx with ⟨m₀, hm₀, huid₀⟩ | ⟨-, hdeed, huid₀, -⟩
      · rcases hstep.origin hy with ⟨m₁, hm₁, huid₁⟩ | ⟨-, -, huid₁, -⟩
        · exact ih hm₀ hm₁ (huid₀.symm.trans (heq.trans huid₁))
        · exact absurd (huid₀.symm.trans (heq.trans huid₁)) (hnext hm₀)
      · rcases hstep.origin hy with ⟨m₁, hm₁, huid₁⟩ | ⟨-, hdeed', -, -⟩
        · exact absurd (huid₁.symm.trans (heq.symm.trans huid₀)) (hnext hm₁)
        · exact Deed.wrote.inj (hdeed.symm.trans hdeed')

/-- An object that was not there at some moment has an identity that was taken later. -/
theorem taken_later (h : Chronicle (World.fresh uid) (early ++ late))
    (hnone : (now (World.fresh uid) early).metadata? x = none)
    (hm : (now (World.fresh uid) (early ++ late)).metadata? x = some m) :
    ∃ n, (now (World.fresh uid) early).uids.spent ≤ n ∧ m.uid? = some (uid n) := by
  revert m
  refine h.later (p := fun past => (now (World.fresh uid) early).uids.spent ≤
      (now (World.fresh uid) past).uids.spent ∧
      ∀ {m}, (now (World.fresh uid) past).metadata? x = some m →
        ∃ n, (now (World.fresh uid) early).uids.spent ≤ n ∧ m.uid? = some (uid n))
    ⟨le_refl _, fun hm => ?_⟩ (fun past t hpast hstep _ ih => ?_) |>.2
  · rw [hnone] at hm
    cases hm
  · rw [now_concat]
    refine ⟨ih.1.trans hstep.spent_le, fun hm => ?_⟩
    rcases hstep.origin hm with ⟨m₀, hm₀, huid⟩ | ⟨-, -, huid, -⟩
    · obtain ⟨n, hn, hm₀⟩ := ih.2 hm₀
      exact ⟨n, hn, huid.trans hm₀⟩
    · rw [hpast.uid_eq] at huid
      exact ⟨_, ih.1, huid⟩

end

/-- An object keeps its identity as long as it is not removed. -/
theorem kept (h : Chronicle w₀ (early ++ late)) (hm : (now w₀ early).metadata? x = some m)
    (hlate : ∀ t ∈ late, t.deed ≠ .removed x) :
    ∃ m', (now w₀ (early ++ late)).metadata? x = some m' ∧ m'.uid? = m.uid? := by
  refine h.later (p := fun past => ∃ m', (now w₀ past).metadata? x = some m' ∧ m'.uid? = m.uid?)
    ⟨m, hm, rfl⟩ fun past t _ hstep ht ih => ?_
  obtain ⟨m₀, hm₀, huid₀⟩ := ih
  obtain ⟨m', hm', huid'⟩ := hstep.kept hm₀ (hlate t ht)
  rw [now_concat]
  exact ⟨m', hm', huid'.trans huid₀⟩

/-! ### Versions -/

/-- No version is taken back later. -/
theorem revision_le (h : Chronicle w₀ (early ++ late)) (i : ι) :
    ((now w₀ early).stores i).revision ≤ ((now w₀ (early ++ late)).stores i).revision := by
  refine h.later (p := fun past => ((now w₀ early).stores i).revision ≤
    ((now w₀ past).stores i).revision) (le_refl _) fun past t _ hstep _ ih => ?_
  rw [now_concat]
  exact ih.trans (hstep.revision_le i)

/-- A store counts its writes. -/
theorem counted [DecidableEq ι] (h : Chronicle w₀ past) (i : ι) :
    ((now w₀ past).stores i).revision =
      (w₀.stores i).revision + past.countP (·.deed.writes i) := by
  induction h with
  | nil => rfl
  | snoc _ hstep _ ih =>
      rw [now_concat, hstep.revision_eq i, ih, List.countP_append, List.countP_singleton,
        Nat.add_assoc]

/-- **The moment at which an object was last written**: its version is the number of writes in its
store right after. -/
structure LastWritten (past : List (Moment ι)) (x : Place ι) (m : Metadata)
    (before : List (Moment ι)) (t : Moment ι) (after : List (Moment ι)) : Prop where
  split : past = before ++ t :: after
  wrote : t.deed = .wrote x
  last : ∀ t' ∈ after, t'.deed ≠ .wrote x
  version : m.resourceVersion? = some (toString (t.world.stores x.store).revision)
  pos : 0 < (t.world.stores x.store).revision

variable {uid : Nat → String}

/-- What is there was written last at some moment. -/
theorem exists_lastWritten (h : Chronicle (World.fresh uid) past)
    (hm : (now (World.fresh uid) past).metadata? x = some m) :
    ∃ before t after, LastWritten past x m before t after := by
  induction h with
  | nil => exact absurd hm (by simp [now, metadata?_fresh])
  | @snoc past t _ hstep _ ih =>
      rw [now_concat] at hm
      rcases hstep.written hm with ⟨hdeed, hversion, hcounted⟩ | ⟨hdeed, hm₀⟩
      · exact ⟨past, t, [], rfl, hdeed, fun _ ht => absurd ht List.not_mem_nil, hversion,
          hcounted ▸ Nat.succ_pos _⟩
      · obtain ⟨before, t₀, after, hlast⟩ := ih hm₀
        refine ⟨before, t₀, after ++ [t], ?_, hlast.wrote, fun t' ht' => ?_, hlast.version,
          hlast.pos⟩
        · rw [hlast.split, List.append_assoc, List.cons_append]
        · rcases List.mem_append.mp ht' with ht' | ht'
          · exact hlast.last t' ht'
          · rwa [List.mem_singleton.mp ht']

/-- The version at that moment is not beyond the present one. -/
theorem LastWritten.revision_le {before after : List (Moment ι)}
    (hlast : LastWritten past x m before t after) (h : Chronicle w₀ past) :
    (t.world.stores x.store).revision ≤ ((now w₀ past).stores x.store).revision := by
  have hsplit : past = (before ++ [t]) ++ after := by
    rw [hlast.split, List.append_assoc, List.singleton_append]
  rw [hsplit] at h ⊢
  rw [← now_concat w₀ before t]
  exact h.revision_le x.store

/-- No two objects of a store share a version. -/
theorem version_unique (h : Chronicle (World.fresh uid) past) (hstore : x.store = y.store)
    (hx : (now (World.fresh uid) past).metadata? x = some m)
    (hy : (now (World.fresh uid) past).metadata? y = some m')
    (heq : m.resourceVersion? = m'.resourceVersion?) : x = y := by
  induction h with
  | nil => exact absurd hx (by simp [now, metadata?_fresh])
  | @snoc past t hpast hstep _ ih =>
      rw [now_concat] at hx hy
      -- what was written before has another version than what is written now
      have hbefore : ∀ {z m₀}, z.store = x.store →
          (now (World.fresh uid) past).metadata? z = some m₀ →
          (t.world.stores x.store).revision =
            ((now (World.fresh uid) past).stores x.store).revision + 1 →
          m₀.resourceVersion? ≠ some (toString (t.world.stores x.store).revision) := by
        intro z m₀ hz hm₀ hcounted hversion
        obtain ⟨before, t₀, after, hlast⟩ := hpast.exists_lastWritten hm₀
        have hle := hlast.revision_le hpast
        have hsame := toString_injective (Option.some.inj (hlast.version.symm.trans hversion))
        rw [hz] at hle hsame
        omega
      rcases hstep.written hx with ⟨hdeed, hversion, hcounted⟩ | ⟨-, hx₀⟩
      · rcases hstep.written hy with ⟨hdeed', -, -⟩ | ⟨-, hy₀⟩
        · exact Deed.wrote.inj (hdeed.symm.trans hdeed')
        · exact absurd (heq.symm.trans hversion) (hbefore hstore.symm hy₀ hcounted)
      · rcases hstep.written hy with ⟨-, hversion, hcounted⟩ | ⟨-, hy₀⟩
        · rw [← hstore] at hversion hcounted
          exact absurd (heq.trans hversion) (hbefore rfl hx₀ hcounted)
        · exact ih hx₀ hy₀

/-! ### The laws -/

/-- **The laws of identities and versions** of stores that began empty, after what has happened
so far. -/
structure Laws [DecidableEq ι] (uid : Nat → String) (past : List (Moment ι)) : Prop where
  /-- Whatever a table holds is an object. -/
  seen : ∀ (x : Place ι) (text : String),
    (((now (World.fresh uid) past).stores x.store).tables.get x.kind).find? x.key = some text →
      ((now (World.fresh uid) past).metadata? x).isSome
  identified : ∀ x m, (now (World.fresh uid) past).metadata? x = some m → m.uid?.isSome
  /-- No two objects share an identity, of whatever kinds and in whatever stores. -/
  unique : ∀ x y m m', (now (World.fresh uid) past).metadata? x = some m →
    (now (World.fresh uid) past).metadata? y = some m' → m.uid? = m'.uid? → x = y
  /-- An object that was there at some moment, and was not removed since, is there and has the
  identity that it had. -/
  kept : ∀ early late x m, past = early ++ late →
    (now (World.fresh uid) early).metadata? x = some m → (∀ t ∈ late, t.deed ≠ .removed x) →
      ∃ m', (now (World.fresh uid) past).metadata? x = some m' ∧ m'.uid? = m.uid?
  /-- An object that was not there at some moment has an identity that no object had until then. -/
  unseen : ∀ early late x m, past = early ++ late →
    (now (World.fresh uid) early).metadata? x = none →
      (now (World.fresh uid) past).metadata? x = some m →
        ∀ before, before <+: early → ∀ y m', (now (World.fresh uid) before).metadata? y = some m' →
          m'.uid? ≠ m.uid?
  /-- A store counts its writes, and nothing else. -/
  counted : ∀ i, ((now (World.fresh uid) past).stores i).revision =
    past.countP (·.deed.writes i)
  /-- The version of an object is the count right after it was last written. -/
  version : ∀ x m, (now (World.fresh uid) past).metadata? x = some m →
    ∃ before t after, LastWritten past x m before t after ∧
      (t.world.stores x.store).revision ≤ ((now (World.fresh uid) past).stores x.store).revision
  /-- No two objects of a store share a version, of whatever kinds. -/
  version_unique : ∀ x y m m', x.store = y.store →
    (now (World.fresh uid) past).metadata? x = some m →
      (now (World.fresh uid) past).metadata? y = some m' →
        m.resourceVersion? = m'.resourceVersion? → x = y

/-- Every store of a chronicle can be read. -/
theorem readable (h : Chronicle (World.fresh uid) past) :
    (now (World.fresh uid) past).Readable := by
  cases h with
  | nil =>
      intro i k key text htext
      change ((Store.empty.tables.get k).find? key) = some text at htext
      rw [Store.empty, ByKind.get_ofFn] at htext
      cases htext
  | snoc _ _ hreadable => rwa [now_concat]

/-- **The laws hold at every moment**, if no identity of the source comes twice. -/
theorem laws [DecidableEq ι] (h : Chronicle (World.fresh uid) past)
    (huid : Function.Injective uid) : Laws uid past where
  seen x text htext := by
    obtain ⟨o, ho⟩ := h.readable x.store x.kind x.key text htext
    rw [World.metadata?, Store.metadata?, Store.find?_objects, htext, Option.bind_some, ho]
    rfl
  identified x m hm := by
    obtain ⟨n, -, huid⟩ := h.identified hm
    rw [huid, Option.isSome_some]
  unique _ _ _ _ hx hy heq := h.unique huid hx hy heq
  kept early late x m hpast hm hlate := by
    subst hpast
    exact h.kept hm hlate
  unseen early late x m hpast hnone hm before hprefix y m' hm' heq := by
    subst hpast
    obtain ⟨rest, rfl⟩ := hprefix
    have hearly := h.of_append
    obtain ⟨n, hn, huid'⟩ := hearly.of_append.identified hm'
    obtain ⟨n', hn', huid''⟩ := h.taken_later hnone hm
    have hle := hearly.spent_le
    rw [huid', huid''] at heq
    have hsame := huid (Option.some.inj heq)
    omega
  counted i := (h.counted i).trans (Nat.zero_add _)
  version x m hm := by
    obtain ⟨before, t, after, hlast⟩ := h.exists_lastWritten hm
    exact ⟨before, t, after, hlast, hlast.revision_le h⟩
  version_unique _ _ _ _ hstore hx hy heq := h.version_unique hstore hx hy heq

end Chronicle

end ClusterSnapshot
