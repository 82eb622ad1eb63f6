-- The last items of a list that grows at its end: what one more item does to them, and
-- a filter that keeps every item newer than one it keeps.
import Mathlib.Data.List.DropRight

namespace keychron_qmk.recent

variable {α β : Type*} {n : Nat}

theorem length_rtake (n : Nat) (l : List α) : (l.rtake n).length = min n l.length := by
  simp only [List.rtake, List.length_drop]
  omega

theorem rtake_map (f : α → β) (n : Nat) (l : List α) :
    (l.map f).rtake n = (l.rtake n).map f := by
  simp [List.rtake]

theorem rtake_append_singleton (hn : 0 < n) (l : List α) (a : α) :
    (l ++ [a]).rtake n =
      (if n < (l.rtake n).length + 1 then (l.rtake n).drop 1 else l.rtake n) ++ [a] := by
  obtain ⟨n, rfl⟩ := Nat.exists_eq_succ_of_ne_zero hn.ne'
  rw [List.rtake_concat_succ]
  congr 1
  rw [length_rtake]
  split
  · rw [List.rtake, List.rtake, List.drop_drop]
    congr 1
    omega
  · rw [List.rtake, List.rtake]
    congr 1
    omega

theorem filter_take {p : α → Bool} {l : List α} (h : l.Pairwise fun a b => p b → p a)
    (n : Nat) : (l.take n).filter p = (l.filter p).take n := by
  induction l generalizing n with
  | nil => simp
  | cons a l ih =>
    obtain ⟨ha, hl⟩ := List.pairwise_cons.mp h
    cases n with
    | zero => simp
    | succ n =>
      by_cases hp : p a
      · simp [hp, ih hl]
      · have hnone : l.filter p = [] :=
          List.filter_eq_nil_iff.mpr fun b hb hpb => hp (ha b hb hpb)
        simp [hp, ih hl, hnone]

theorem filter_rtake {p : α → Bool} {l : List α} (h : l.Pairwise fun a b => p a → p b)
    (n : Nat) : (l.rtake n).filter p = (l.filter p).rtake n := by
  rw [List.rtake_eq_reverse_take_reverse, List.rtake_eq_reverse_take_reverse,
    List.filter_reverse, filter_take (List.pairwise_reverse.mpr h), List.filter_reverse]

end keychron_qmk.recent
