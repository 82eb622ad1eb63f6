-- Removal from an unordered array: the last element takes the place of the one
-- that goes, and no other element is lost.
import Mathlib.Data.List.Perm.Basic

namespace keychron_qmk.swap_remove

variable {α : Type*} {l : List α} {i : Nat}

/-- The array without the element at `i`, whose place the last element takes. -/
def swapRemove (l : List α) (i : Nat) : List α :=
  if i < l.length then
    match l.getLast? with
    | some last => (l.set i last).dropLast
    | none => l
  else l

theorem swapRemove_perm (h : i < l.length) : (swapRemove l i).Perm (l.eraseIdx i) := by
  rcases List.eq_nil_or_concat l with rfl | ⟨init, last, rfl⟩
  · simp at h
  simp only [List.concat_eq_append] at h ⊢
  have hremove : swapRemove (init ++ [last]) i = ((init ++ [last]).set i last).dropLast := by
    simp only [swapRemove, if_pos h, List.getLast?_append, List.getLast?_singleton, Option.some_or]
  rw [hremove]
  rcases Nat.lt_or_ge i init.length with hi | hi
  · rw [List.set_append_left i last hi, List.dropLast_concat, List.eraseIdx_append_of_lt_length hi]
    exact (List.set_perm_cons_eraseIdx hi last).trans (List.perm_append_singleton last _).symm
  · obtain rfl : i = init.length := by
      simp only [List.length_append, List.length_singleton] at h
      omega
    rw [List.eraseIdx_append_of_length_le (Nat.le_refl _)]
    simp

theorem nodup_swapRemove (hl : l.Nodup) : (swapRemove l i).Nodup := by
  rcases Nat.lt_or_ge i l.length with h | h
  · exact (swapRemove_perm h).nodup_iff.mpr (hl.sublist (List.eraseIdx_sublist ..))
  · simpa [swapRemove, Nat.not_lt.mpr h] using hl

theorem mem_swapRemove (hl : l.Nodup) (h : i < l.length) {x : α} :
    x ∈ swapRemove l i ↔ x ∈ l ∧ x ≠ l[i] := by
  rw [(swapRemove_perm h).mem_iff]
  have hperm : (l[i] :: l.eraseIdx i).Perm l := List.getElem_cons_eraseIdx_perm h
  have hnodup := hperm.nodup_iff.mpr hl
  rw [← hperm.mem_iff, List.mem_cons]
  constructor
  · intro hx
    refine ⟨.inr hx, ?_⟩
    rintro rfl
    exact (List.nodup_cons.mp hnodup).1 hx
  · rintro ⟨rfl | hx, hne⟩
    · exact absurd rfl hne
    · exact hx

end keychron_qmk.swap_remove
