import ClusterSnapshot.Proofs.Json.TwoForms
import ClusterSnapshot.Proofs.Object.Contents

/-!
# Stored objects read as desired ones

A document that denotes a stored object also denotes one that is to be. The metadata is split up
differently: what a store assigns has fields of its own in the one form, and is found among all
other members in the other one. So the two denote the same but for that.

## Main results

* `Metadata.readsAs_desired`: metadata that is read in both forms.
* `Contents.readsAs`: **contents are read alike** if their metadata is.
-/

namespace ClusterSnapshot

open Members Member Relator

/-! ### Metadata -/

namespace Metadata

/-- The fields of desired metadata are fields of stored metadata. -/
theorem names_subset : DesiredMetadata.form.members.names ⊆ form.members.names := by decide

/-- The members that desired metadata has no fields for are assigned by a store. -/
theorem serverPopulated_of_not_mem {name : String} (h : name ∈ form.members.names)
    (hdesired : name ∉ DesiredMetadata.form.members.names) : name ∈ serverPopulated := by
  by_contra hserver
  exact not_mem_names hdesired hserver h

/-- A document of an optional text denotes a free value. -/
theorem isSome_value?_of_text? {room : Nat} {d : Document} {s? : Option String}
    (h : JsonForm.ofDocument? room d = some s?) : (d.value? room).isSome := by
  cases d with
  | null => rfl
  | string t? =>
      cases t? with
      | none => cases h
      | some t => rfl
  | _ => cases h

variable {room : Nat} {find : String → Option Document} {f : KeyMap Json → Metadata}

/-- What is read as the fields of stored metadata is read as the fields of desired metadata. -/
theorem read?_desired (h : form.members.read? room find = some f) :
    ∃ g, DesiredMetadata.form.members.read? room find = some g ∧
      ∀ rest rest' : KeyMap Json,
        rest'.eraseAll serverPopulated = rest.eraseAll serverPopulated →
          (g rest').stripServerPopulated = (f rest).toDesired := by
  simp only [form, RecordForm.withRest, read?_and, read?_build] at h
  obtain ⟨_, annotations, ⟨_, labels, ⟨_, _, ⟨_, _, ⟨_, uid?, ⟨_, ns?, ⟨_, name, rfl, hname, rfl⟩,
    hns, rfl⟩, huid, rfl⟩, -, rfl⟩, -, rfl⟩, hlabels, rfl⟩, hannotations, rfl⟩ := h
  refine ⟨DesiredMetadata.mk (some name) ns? uid? labels annotations, ?_, fun rest rest' heq => ?_⟩
  · have hname' : (Member.optional "name").read? room (find "name") = some (some name) := by
      obtain ⟨d, hd, hread⟩ := Option.bind_eq_some_iff.mp hname
      change find "name" = some d at hd
      rw [hd]
      cases d with
      | string s? =>
          cases s? with
          | none => cases hread
          | some s => exact congrArg (Option.map some) hread
      | _ => cases hread
    simp only [DesiredMetadata.form, RecordForm.withRest, read?_and, read?_build]
    exact ⟨_, _, ⟨_, _, ⟨_, _, ⟨_, _, ⟨_, _, rfl, hname', rfl⟩, hns, rfl⟩, huid, rfl⟩, hlabels,
      rfl⟩, hannotations, rfl⟩
  · simp only [DesiredMetadata.stripServerPopulated, toDesired, heq]

/-- Whatever stored metadata says of members that desired metadata has no fields for is a free
value. -/
theorem isSome_value?_of_read (h : form.members.read? room find = some f) {name : String}
    (hname : name ∈ form.members.names) (hdesired : name ∉ DesiredMetadata.form.members.names)
    {d : Document} (hd : find name = some d) : (d.value? room).isSome := by
  simp only [form, RecordForm.withRest, read?_and, read?_build] at h
  obtain ⟨_, _, ⟨_, _, ⟨_, created?, ⟨_, version?, -, hversion, rfl⟩, hcreated, rfl⟩, -, rfl⟩, -,
    rfl⟩ := h
  have hlacks : name = "resourceVersion" ∨ name = "creationTimestamp" := by
    have hall : ∀ n ∈ form.members.names, n ∉ DesiredMetadata.form.members.names →
        n = "resourceVersion" ∨ n = "creationTimestamp" := by decide
    exact hall name hname hdesired
  rcases hlacks with rfl | rfl
  · change (Member.optional "resourceVersion").read? room (find "resourceVersion") = _ at hversion
    rw [hd] at hversion
    exact isSome_value?_of_text? hversion
  · change (Member.optional "creationTimestamp").read? room (find "creationTimestamp") = _
      at hcreated
    rw [hd] at hcreated
    exact isSome_value?_of_text? hcreated

/-- **A document of stored metadata is one of desired metadata**, and says the same but for what
only a store assigns. -/
theorem readsAs_desired :
    JsonForm.ReadsAs fun (m : Metadata) (n : DesiredMetadata) =>
      n.stripServerPopulated = m.toDesired := by
  intro room d m hm
  cases room with
  | zero => cases hm
  | succ room =>
      change form.ofDocument? (room + 1) d = some m at hm
      simp only [RecordForm.ofDocument?, Option.bind_eq_bind, Option.bind_eq_some_iff] at hm
      obtain ⟨named, hnamed, f, hf, rest, hrest, hm⟩ := hm
      obtain rfl := Option.some.inj hm
      obtain ⟨-, -, -, hnodup⟩ := RecordForm.named?_of_rest rfl hnamed
      obtain ⟨g, hg, hfields⟩ := read?_desired hf
      obtain ⟨rest', hrest', heq⟩ : ∃ rest', DesiredMetadata.form.restOf? room named = some rest' ∧
          rest'.eraseAll serverPopulated = rest.eraseAll serverPopulated :=
        RecordForm.exists_restOf? rfl rfl names_subset (fun _ => serverPopulated_of_not_mem)
          (fun e he hown hlacks => isSome_value?_of_read hf hown hlacks
            (RecordForm.valueAt?_of_mem hnodup he hown)) hrest
      refine ⟨g rest', ?_, hfields rest rest' heq⟩
      change DesiredMetadata.form.ofDocument? (room + 1) d = some (g rest')
      simp only [RecordForm.ofDocument?, RecordForm.named?_of_subset rfl names_subset hnamed, hg,
        hrest', Option.bind_eq_bind, Option.bind_some]
      rfl

end Metadata

/-! ### Objects and contents -/

section

variable {M N L : Type} [JsonForm M] [JsonForm N] {f : M → L} {g : N → L}

/-- Objects are read alike if their metadata is. -/
theorem Object.readsAs {k : Kind} (h : JsonForm.ReadsAs fun (m : M) (n : N) => g n = f m) :
    JsonForm.ReadsAs fun (o : Object k M) (d : Object k N) =>
      d.mapMetadata g = o.mapMetadata f := by
  refine RecordForm.ReadsAs.readsAs ⟨?_, ?_⟩
  · refine .andPart (.and (.and (.and (.build ?_) (readsAs_self _)) (readsAs_self _))
      (readsAs_required h))
    rintro apiVersion? _ rfl kind? _ rfl m n hmn body _ rfl
    rw [Object.mapMetadata, Object.mapMetadata, hmn]
  · cases hrest : (Body.form k).rest? <;> simp [form, hrest]

/-- The contents with all metadata sent through a function. -/
def Contents.mapMetadata {M N : Type} (f : M → N) (c : Contents M) : Contents N where
  objects := .ofFn fun k => (c.objects.get k).map (Object.mapMetadata f)
  schedulerConfig? := c.schedulerConfig?

/-- **Contents are read alike** if their metadata is. -/
theorem Contents.readsAs (h : JsonForm.ReadsAs fun (m : M) (n : N) => g n = f m) :
    JsonForm.ReadsAs fun (c : Contents M) (c' : Contents N) =>
      c'.mapMetadata g = c.mapMetadata f := by
  have hlist : ∀ k, JsonForm.ReadsAs fun (os : List (Object k M)) (ds : List (Object k N)) =>
      ds.map (Object.mapMetadata g) = os.map (Object.mapMetadata f) := by
    intro k room d os hos
    obtain ⟨ds, hds, hall⟩ := (Object.readsAs h).list hos
    have hsame :
        List.Forall₂ Eq (os.map (Object.mapMetadata f)) (ds.map (Object.mapMetadata g)) := by
      rw [List.forall₂_map_left_iff, List.forall₂_map_right_iff]
      exact hall.imp fun _ _ hod => hod.symm
    rw [List.forall₂_eq_eq_eq] at hsame
    exact ⟨ds, hds, hsame.symm⟩
  refine RecordForm.ReadsAs.readsAs ⟨.through (S := fun c c' => c'.mapMetadata g = c.mapMetadata f)
    ?_ fun _ _ hc _ _ _ => hc, rfl⟩
  refine .and (.and (.and (.and (.and (.and (.and (.and (.build ?_)
    (readsAs_defaulted (hlist .pod) rfl)) (readsAs_defaulted (hlist .node) rfl))
    (readsAs_defaulted (hlist .volume) rfl)) (readsAs_defaulted (hlist .claim) rfl))
    (readsAs_defaulted (hlist .storageClass) rfl)) (readsAs_defaulted (hlist .priorityClass) rfl))
    (readsAs_self _)) (readsAs_defaulted (hlist .ns) rfl)
  intro pods pods' hpods nodes nodes' hnodes volumes volumes' hvolumes claims claims' hclaims
    classes classes' hclasses priorities priorities' hpriorities config? _ hconfig ns ns' hns
  subst hconfig
  exact congrArg (Contents.mk · config?) (ByKind.ext_get fun k => by cases k <;> assumption)

end

end ClusterSnapshot
