-- What the edges between two sets join: a path goes from one side to the other
-- and back, any number of times.
import Mathlib.Data.Fintype.Defs

namespace keychron_qmk.bipartite

variable {α β : Type*}

/-- A path of edges from the one side to the other. -/
inductive Joined (P : α → β → Prop) : α → β → Prop
  | edge {a : α} {b : β} : P a b → Joined P a b
  | path {a a' : α} {b b' : β} : Joined P a b → P a' b → P a' b' → Joined P a b'

theorem Joined.last_edges {P : α → β → Prop} {a : α} {b : β} (h : Joined P a b) (hne : ¬ P a b) :
    ∃ a' b', a' ≠ a ∧ b' ≠ b ∧ Joined P a b' ∧ P a' b' ∧ P a' b := by
  induction h with
  | edge h => exact absurd h hne
  | @path a' b b' h hback hforth ih =>
    by_cases hsame : b = b'
    · subst hsame
      exact ih hne
    · refine ⟨a', b, ?_, hsame, h, hback, hforth⟩
      rintro rfl
      exact hne hforth

/-! ## Short paths -/

section Within

variable [Fintype α] [Fintype β]

/-- The pairs that a path of at most `2 * n + 1` edges joins. -/
def within (P : α → β → Bool) : Nat → α → β → Bool
  | 0 => P
  | n + 1 => fun a b => within P n a b || decide (∃ a' b', within P n a b' ∧ P a' b' ∧ P a' b)

theorem joined_of_within {P : α → β → Bool} {n : Nat} {a : α} {b : β} (h : within P n a b) :
    Joined (fun a b => P a b) a b := by
  induction n generalizing b with
  | zero => exact .edge h
  | succ n ih =>
    rcases Bool.or_eq_true_iff.mp h with h | h
    · exact ih h
    · obtain ⟨a', b', hjoined, hback, hforth⟩ := of_decide_eq_true h
      exact .path (ih hjoined) hback hforth

end Within

end keychron_qmk.bipartite
