import Mathlib.Data.List.Forall2
import Mathlib.Logic.Relator
import ClusterSnapshot.Proofs.Json.Records

/-!
# One document in two forms

Values of two types may be written so much alike that a document of one of them is a document of
the other one as well. What the document denotes is then related. Two records with the same members
are read alike, member by member. A record with fewer members of its own finds the members that it
lacks in its rest.

## Main results

* `RecordForm.ReadsAs.readsAs`: **records with the same members are read alike**.
* `RecordForm.exists_restOf?`: **the rest of a record that lacks some members** is that of the other
  record, once the members are erased.
-/

namespace ClusterSnapshot

open Relator

/-- Whatever document denotes a value of the first type denotes a related one of the second. -/
def JsonForm.ReadsAs {α β : Type} [JsonForm α] [JsonForm β] (R : α → β → Prop) : Prop :=
  ∀ ⦃room : Nat⦄ ⦃d : Document⦄ ⦃x : α⦄, ofDocument? room d = some x →
    ∃ y : β, ofDocument? room d = some y ∧ R x y

namespace JsonForm

variable {α β : Type}

/-- A list that is read in one way is read in the other as a related list. -/
theorem exists_mapM {γ : Type} {f : γ → Option α} {g : γ → Option β} {R : α → β → Prop}
    (h : ∀ z x, f z = some x → ∃ y, g z = some y ∧ R x y) {zs : List γ} {xs : List α}
    (hxs : zs.mapM f = some xs) : ∃ ys, zs.mapM g = some ys ∧ List.Forall₂ R xs ys := by
  induction zs generalizing xs with
  | nil =>
      obtain rfl := Option.some.inj hxs
      exact ⟨[], rfl, .nil⟩
  | cons z rest ih =>
      simp only [List.mapM_cons, Option.bind_eq_bind, Option.bind_eq_some_iff] at hxs
      obtain ⟨x, hx, xs, hrest, hxs⟩ := hxs
      obtain rfl := Option.some.inj hxs
      obtain ⟨y, hy, hR⟩ := h z x hx
      obtain ⟨ys, hys, hall⟩ := ih hrest
      refine ⟨y :: ys, ?_, .cons hR hall⟩
      simp only [List.mapM_cons, hy, hys, Option.bind_eq_bind, Option.bind_some]
      rfl

/-- Lists are read alike if their items are. -/
theorem ReadsAs.list [JsonForm α] [JsonForm β] {R : α → β → Prop} (h : ReadsAs R) :
    ReadsAs (List.Forall₂ R) := by
  intro room d xs hxs
  cases room with
  | zero => cases d <;> cases hxs
  | succ room =>
      cases d with
      | array items => exact exists_mapM (fun _ _ hx => h hx) hxs
      | _ => cases hxs

end JsonForm

/-! ### Records with the same members -/

variable {ρ σ τ α α' β β' γ : Type} {room : Nat}

/-- Whatever one member is read as, the other one of the same name is read as something related. -/
structure Member.ReadsAs (m : Member α) (n : Member α') (R : α → α' → Prop) : Prop where
  name : n.name = m.name
  reads : ∀ {room : Nat} {d? : Option Document} {x : α}, m.read? room d? = some x →
    ∃ y, n.read? room d? = some y ∧ R x y

namespace Member

variable {R : α → α' → Prop} {name : String}

/-- A member is read as it is read. -/
theorem readsAs_self (m : Member α) : m.ReadsAs m Eq := ⟨rfl, fun h => ⟨_, h, rfl⟩⟩

/-- Members that are required are read alike if their values are. -/
theorem readsAs_required [JsonForm α] [JsonForm α'] (h : JsonForm.ReadsAs R) :
    (required name).ReadsAs (required name) R := by
  refine ⟨rfl, fun hx => ?_⟩
  obtain ⟨d, rfl, hread⟩ := Option.bind_eq_some_iff.mp hx
  exact h hread

/-- Members with related defaults are read alike if their values are. -/
theorem readsAs_defaulted [JsonForm α] [JsonForm α'] (h : JsonForm.ReadsAs R) {x : α} {y : α'}
    (hxy : R x y) : (defaulted name x).ReadsAs (defaulted name y) R := by
  refine ⟨rfl, fun {room d? z} hz => ?_⟩
  cases d? with
  | none =>
      obtain rfl := Option.some.inj hz
      exact ⟨y, rfl, hxy⟩
  | some d => exact h hz

end Member

/-- Whatever some members are read as, the others of the same names are read as something
related. -/
structure Members.ReadsAs (ms : Members ρ β) (ns : Members σ β') (R : β → β' → Prop) : Prop where
  names : ns.names = ms.names
  reads : ∀ {room : Nat} {find : String → Option Document} {f : β},
    ms.read? room find = some f → ∃ g, ns.read? room find = some g ∧ R f g

namespace Members

variable {R : β → β' → Prop} {S : α → α' → Prop}

/-- No members at all are read as what is related. -/
theorem ReadsAs.build {f : β} {g : β'} (h : R f g) :
    (build f : Members ρ β).ReadsAs (build g : Members σ β') R := by
  refine ⟨rfl, fun hf => ?_⟩
  obtain rfl := Option.some.inj hf
  exact ⟨g, rfl, h⟩

/-- One more pair of members that are read alike. -/
theorem ReadsAs.and {ms : Members ρ (α → β)} {ns : Members σ (α' → β')} {m : Member α}
    {n : Member α'} {field : ρ → α} {field' : σ → α'} (h : ms.ReadsAs ns (S ⇒ R))
    (hm : m.ReadsAs n S) : (ms.and m field).ReadsAs (ns.and n field') R := by
  refine ⟨by simp only [Members.and, h.names, hm.name], fun hread => ?_⟩
  obtain ⟨f, x, hf, hx, rfl⟩ := read?_and.mp hread
  obtain ⟨g, hg, hfg⟩ := h.reads hf
  obtain ⟨y, hy, hxy⟩ := hm.reads hx
  exact ⟨g y, read?_and.mpr ⟨g, y, hg, hm.name ▸ hy, rfl⟩, hfg hxy⟩

/-- Both go on with the members of the same part. -/
theorem ReadsAs.andPart {ms : Members ρ (α → β)} {ns : Members σ (α → β')}
    {part : Members τ (γ → α)} {field : ρ → τ} {field' : σ → τ} (h : ms.ReadsAs ns (Eq ⇒ R)) :
    (ms.andPart part field).ReadsAs (ns.andPart part field') (Eq ⇒ R) := by
  refine ⟨by simp only [Members.andPart, h.names], fun hread => ?_⟩
  obtain ⟨f, p, hf, hp, rfl⟩ := read?_andPart.mp hread
  obtain ⟨g, hg, hfg⟩ := h.reads hf
  exact ⟨_, read?_andPart.mpr ⟨g, p, hg, hp, rfl⟩, fun x y hxy => hfg (congrArg p hxy)⟩

/-- What is made of members in related ways is related. -/
theorem ReadsAs.through {ms : Members ρ α} {ns : Members σ α'} {f : α → β} {g : α' → β'}
    (h : ms.ReadsAs ns S) (hfg : (S ⇒ R) f g) : (ms.through f).ReadsAs (ns.through g) R := by
  refine ⟨h.names, fun hread => ?_⟩
  obtain ⟨x, hx, rfl⟩ := read?_through.mp hread
  obtain ⟨y, hy, hxy⟩ := h.reads hx
  exact ⟨g y, read?_through.mpr ⟨y, hy, rfl⟩, hfg hxy⟩

end Members

namespace RecordForm

variable {form : RecordForm ρ} {form' : RecordForm σ} {R : ρ → σ → Prop} {d : Document}
  {named : List (String × Document)}

/-- Two records have the same members, which are read alike, and both have a rest or none has. -/
structure ReadsAs (form : RecordForm ρ) (form' : RecordForm σ) (R : ρ → σ → Prop) : Prop where
  members : form.members.ReadsAs form'.members (Eq ⇒ R)
  rest : form'.rest?.isSome = form.rest?.isSome

/-- Both records find the same members in a document. -/
theorem ReadsAs.named?_eq (h : form.ReadsAs form' R) (d : Document) :
    form'.named? d = form.named? d := by
  cases d with
  | object members => simp only [named?, h.members.names]
  | array items => simp only [named?, h.members.names, h.rest]
  | _ => rfl

/-- Both records have the same rest. -/
theorem ReadsAs.restOf?_eq (h : form.ReadsAs form' R) (named : List (String × Document)) :
    form'.restOf? room named = form.restOf? room named := by
  have hrest := h.rest
  rw [restOf?, restOf?, h.members.names]
  cases hf : form.rest? <;> cases hf' : form'.rest? <;> simp_all

/-- **Records with the same members are read alike.** -/
theorem ReadsAs.readsAs (h : form.ReadsAs form' R) :
    @JsonForm.ReadsAs ρ σ form.jsonForm form'.jsonForm R := by
  intro room d r hr
  cases room with
  | zero => cases hr
  | succ room =>
      change form.ofDocument? (room + 1) d = some r at hr
      simp only [ofDocument?, Option.bind_eq_bind, Option.bind_eq_some_iff] at hr
      obtain ⟨named, hnamed, f, hf, rest, hrest, hr⟩ := hr
      obtain rfl := Option.some.inj hr
      obtain ⟨g, hg, hfg⟩ := h.members.reads hf
      refine ⟨g rest, ?_, hfg rfl⟩
      change form'.ofDocument? (room + 1) d = some (g rest)
      simp only [ofDocument?, h.named?_eq, hnamed, hg, h.restOf?_eq, hrest, Option.bind_eq_bind,
        Option.bind_some]
      rfl

/-! ### Records that lack members -/

/-- Only objects are read as records with a rest, and each member of their own occurs once. -/
theorem named?_of_rest (hrest : form.rest?.isSome) (h : form.named? d = some named) :
    ∃ members, d = .object members ∧ Document.keyed? members = some named ∧
      ((named.map (·.1)).filter (form.members.names.contains ·)).Nodup := by
  cases d with
  | object members =>
      simp only [named?, Option.bind_eq_bind, Option.bind_eq_some_iff] at h
      obtain ⟨l, hl, h⟩ := h
      split at h
      · rename_i hnodup
        obtain rfl := Option.some.inj h
        exact ⟨members, rfl, hl, hnodup⟩
      · cases h
  | array items => simp [named?, hrest] at h
  | _ => cases h

/-- An object with a member that occurs twice is refused less often by a record that lacks
members. -/
theorem named?_of_subset (hrest : form.rest?.isSome)
    (hsubset : form'.members.names ⊆ form.members.names) (h : form.named? d = some named) :
    form'.named? d = some named := by
  obtain ⟨members, rfl, hkeyed, hnodup⟩ := named?_of_rest hrest h
  have hfewer : (named.map (·.1)).filter (form'.members.names.contains ·) =
      ((named.map (·.1)).filter (form.members.names.contains ·)).filter
        (form'.members.names.contains ·) := by
    rw [List.filter_filter]
    refine List.filter_congr fun name _ => ?_
    have hmem : name ∈ form'.members.names → name ∈ form.members.names := fun h => hsubset h
    simpa using hmem
  simp only [named?, hkeyed, Option.bind_eq_bind, Option.bind_some]
  rw [if_pos]
  rw [hfewer]
  exact hnodup.filter _

/-- A member of its own is found where it stands, as it occurs once. -/
theorem valueAt?_of_mem {names : List String} {name : String}
    (hnodup : ((named.map (·.1)).filter (names.contains ·)).Nodup) (h : (name, d) ∈ named)
    (hname : name ∈ names) : KeyMap.valueAt? name named = some d := by
  induction named with
  | nil => cases h
  | cons e rest ih =>
      obtain ⟨name', d'⟩ := e
      rw [List.map_cons, List.filter_cons] at hnodup
      rw [KeyMap.valueAt?]
      rcases List.mem_cons.mp h with heq | hmem
      · cases heq
        exact if_pos rfl
      · have hin : name ∈ (rest.map (·.1)).filter (names.contains ·) :=
          List.mem_filter.mpr ⟨List.mem_map_of_mem hmem, by simpa using hname⟩
        have hne : name' ≠ name := by
          rintro rfl
          rw [if_pos (by simpa using hname)] at hnodup
          exact (List.nodup_cons.mp hnodup).1 hin
        rw [if_neg hne]
        split at hnodup
        · exact ih (List.nodup_cons.mp hnodup).2 hmem
        · exact ih hnodup hmem

/-- The members that are no members of a record, as free values. -/
def others? (names : List String) (room : Nat) (named : List (String × Document)) :
    Option (List (String × Json)) :=
  (named.filter fun e => !names.contains e.1).mapM fun (k, d) => (d.value? room).map (k, ·)

/-- The rest of a record is made of all members without a field. -/
theorem restOf?_eq_some (hrest : form.rest?.isSome) {rest : KeyMap Json} :
    form.restOf? room named = some rest ↔
      ∃ entries, others? form.members.names room named = some entries ∧
        KeyMap.ofEntries entries = rest := by
  obtain ⟨r, hr⟩ := Option.isSome_iff_exists.mp hrest
  simp only [restOf?, hr, Option.bind_eq_bind, Option.bind_eq_some_iff, others?]
  exact exists_congr fun entries => and_congr_right fun _ => Option.some_inj

/-- A member is one of the others unless it has a field. -/
theorem others?_cons (names : List String) (e : String × Document) :
    others? names room (e :: named) =
      if e.1 ∈ names then others? names room named
      else (e.2.value? room).bind fun v =>
        (others? names room named).map fun entries => (e.1, v) :: entries := by
  rw [others?, List.filter_cons]
  by_cases he : e.1 ∈ names
  · rw [if_neg (by simpa using he), if_pos he, others?]
  · rw [if_pos (by simpa using he), if_neg he, others?, List.mapM_cons]
    obtain ⟨k, d⟩ := e
    simp only [Option.bind_eq_bind]
    cases d.value? room with
    | none => rfl
    | some v =>
        simp only [Option.map_some, Option.bind_some]
        exact Option.map_eq_bind.symm

/-- Who lacks members finds them among the others. -/
theorem exists_others? {names names' ks : List String} (hsubset : names' ⊆ names)
    (hks : ∀ name ∈ names, name ∉ names' → name ∈ ks)
    (hfree : ∀ e ∈ named, e.1 ∈ names → e.1 ∉ names' → (e.2.value? room).isSome)
    {entries : List (String × Json)} (h : others? names room named = some entries) :
    ∃ entries', others? names' room named = some entries' ∧
      (entries'.filter fun e => e.1 ∉ ks) = entries.filter fun e => e.1 ∉ ks := by
  induction named generalizing entries with
  | nil =>
      obtain rfl := Option.some.inj h
      exact ⟨[], rfl, rfl⟩
  | cons e rest ih =>
      obtain ⟨hfirst, hrest⟩ := List.forall_mem_cons.mp hfree
      rw [others?_cons] at h
      rw [others?_cons]
      by_cases he : e.1 ∈ names
      · rw [if_pos he] at h
        obtain ⟨entries', hentries', heq⟩ := ih hrest h
        by_cases he' : e.1 ∈ names'
        · rw [if_pos he']
          exact ⟨entries', hentries', heq⟩
        · obtain ⟨v, hv⟩ := Option.isSome_iff_exists.mp (hfirst he he')
          rw [if_neg he', hv, hentries']
          refine ⟨(e.1, v) :: entries', rfl, ?_⟩
          rw [List.filter_cons_of_neg (by simpa using hks _ he he'), heq]
      · rw [if_neg he, Option.bind_eq_some_iff] at h
        obtain ⟨v, hv, h⟩ := h
        obtain ⟨entries₁, hentries₁, rfl⟩ := Option.map_eq_some_iff.mp h
        obtain ⟨entries', hentries', heq⟩ := ih hrest hentries₁
        rw [if_neg fun he' => he (hsubset he'), hv, hentries']
        refine ⟨(e.1, v) :: entries', rfl, ?_⟩
        rw [List.filter_cons, List.filter_cons, heq]

/-- **The rest of a record that lacks some members** of another one is that of the other one, once
these members are erased. They can be read as free values. -/
theorem exists_restOf? (hrest : form.rest?.isSome) (hrest' : form'.rest?.isSome)
    (hsubset : form'.members.names ⊆ form.members.names) {ks : List String}
    (hks : ∀ name ∈ form.members.names, name ∉ form'.members.names → name ∈ ks)
    (hfree : ∀ e ∈ named, e.1 ∈ form.members.names → e.1 ∉ form'.members.names →
      (e.2.value? room).isSome)
    {rest : KeyMap Json} (h : form.restOf? room named = some rest) :
    ∃ rest', form'.restOf? room named = some rest' ∧ rest'.eraseAll ks = rest.eraseAll ks := by
  obtain ⟨entries, hentries, rfl⟩ := (restOf?_eq_some hrest).mp h
  obtain ⟨entries', hentries', heq⟩ := exists_others? hsubset hks hfree hentries
  refine ⟨_, (restOf?_eq_some hrest').mpr ⟨entries', hentries', rfl⟩, ?_⟩
  rw [KeyMap.eraseAll_ofEntries, KeyMap.eraseAll_ofEntries, heq]

end RecordForm

end ClusterSnapshot
