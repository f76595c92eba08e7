import ClusterSnapshot.Proofs.Object.Metadata
import ClusterSnapshot.Store.Text

/-!
# Stores that survive being kept as files

The texts of a store are kept as they are. So nothing is lost when a store is kept as a file and
opened again, as long as its writes can be counted in 64 bits.

## Main results

* `Store.ofText?_text`: **a store that is opened again is the same**.
-/

namespace ClusterSnapshot

open JsonForm (Sound)
open Members Member

namespace Store

variable {P : Number → Prop} {room : Nat}

/-- The fields of a store have different names. -/
theorem nodup_names : form.members.names.Nodup := by decide

/-- A store fits if its version has no more than 64 bits. -/
theorem fits [NumberRange P] {s : Store} (h : s.revision < UInt64.size) :
    form.Fits P (room + 1) s := by
  have htable : ∀ table : KeyMap String, Sound P (room + 1) table :=
    fun table => JsonForm.sound_map fun e _ => JsonForm.sound_text e.2
  refine ⟨⟨_, (.and (.and (.and (.and (.and (.and (.and (.and (.and .build ?_) ?_) ?_) ?_) ?_) ?_)
    ?_) ?_) ?_ : Shows _ _ _ _ _).through _, ?_⟩, fun _ he => absurd he List.not_mem_nil⟩
  · exact keeps_required (htable _)
  · exact keeps_required (htable _)
  · exact keeps_required (htable _)
  · exact keeps_required (htable _)
  · exact keeps_required (htable _)
  · exact keeps_required (htable _)
  · exact keeps_required (htable _)
  · exact keeps_text? _
  · exact keeps_required (JsonForm.sound_uint64 _)
  · have hrevision : (UInt64.ofNat s.revision).toNat = s.revision := UInt64.toNat_ofNat_of_lt h
    simp only [hrevision]

/-- **A store that is opened again is the same**, if its writes can be counted in 64 bits. -/
theorem ofText?_text {s : Store} (h : s.revision < UInt64.size) : ofText? s.text = some s := by
  have hsound : Sound Number.IsWhole64 nestingLimit s :=
    ((fits h : form.Fits Number.IsWhole64 1 s).sound nodup_names).mono (by decide)
  have hlist : s.text.toList = heading ++ (JsonForm.text s).toList := by
    rw [text, String.toList_append, String.toList_ofList]
  rw [ofText?, hlist]
  split
  · rename_i hnil
    exact absurd (List.append_eq_nil_iff.mp hnil).1 (by decide)
  · rw [if_pos (List.isPrefixOf_iff_prefix.mpr (List.prefix_append _ _)), List.drop_left,
      String.ofList_toList]
    exact JsonForm.ofText?_text_whole hsound

end Store

end ClusterSnapshot
