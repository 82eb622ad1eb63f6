-- The replacement of every occurrence of a word in a text, from left to
-- right, where an inserted word is not looked at again.
import Mathlib.Data.List.Infix
import Mathlib.Tactic.Common

namespace keychron_qmk.replacement

theorem prefix_append_cons_iff {α : Type*} {old : List α} {c : α} (hc : c ∉ old) {a b : List α} :
    old <+: a ++ c :: b ↔ old <+: a := by
  constructor
  · intro h
    refine List.prefix_of_prefix_length_le h (List.prefix_append a (c :: b)) ?_
    by_contra hlong
    rw [Nat.not_le] at hlong
    apply hc
    obtain ⟨t, ht⟩ := h
    have hget : (old ++ t)[a.length]? = some c := by
      rw [ht]
      simp
    rw [List.getElem?_append_left hlong] at hget
    exact List.mem_of_getElem? hget
  · intro h
    exact h.trans (List.prefix_append a (c :: b))

variable {α : Type*} [DecidableEq α]

/-- Goes on after the next `skip` letters, the rest of an occurrence. -/
def replaceFrom (old new : List α) : Nat → List α → List α
  | _, [] => []
  | skip + 1, _ :: s => replaceFrom old new skip s
  | 0, c :: s =>
    if old <+: c :: s then new ++ replaceFrom old new (old.length - 1) s
    else c :: replaceFrom old new 0 s

def replace (old new s : List α) : List α := replaceFrom old new 0 s

variable {old : List α} (new : List α)

variable {a s : List α}

theorem replaceFrom_of_length_le {skip : Nat} (h : s.length ≤ skip) :
    replaceFrom old new skip s = [] := by
  induction s generalizing skip with
  | nil => cases skip <;> rfl
  | cons c s ih =>
    cases skip with
    | zero => cases h
    | succ skip => exact ih (Nat.le_of_succ_le_succ h)

@[simp] theorem replace_self (h : old ≠ []) : replace old new old = new := by
  cases old with
  | nil => exact absurd rfl h
  | cons c s =>
    have hprefix : c :: s <+: c :: s := List.prefix_rfl
    rw [replace, replaceFrom, if_pos hprefix, replaceFrom_of_length_le new (by simp)]
    simp

@[simp] theorem replace_nil : replace old new [] = [] := rfl

theorem replace_cons {c : α} (h : ¬ old <+: c :: s) :
    replace old new (c :: s) = c :: replace old new s :=
  if_neg h

theorem replaceFrom_append {b : List α} : replaceFrom old new a.length (a ++ b) =
    replaceFrom old new 0 b := by
  induction a with
  | nil => rfl
  | cons x a ih => exact ih

theorem replace_append (h : old ≠ []) (s : List α) :
    replace old new (old ++ s) = new ++ replace old new s := by
  cases old with
  | nil => exact absurd rfl h
  | cons c w =>
    have hprefix : c :: w <+: c :: (w ++ s) := List.prefix_append (c :: w) s
    rw [List.cons_append, replace, replaceFrom, if_pos hprefix, List.length_cons,
      Nat.add_sub_cancel, replaceFrom_append, replace]

theorem replace_letter (c : α) (s : List α) :
    replace [c] new s = s.flatMap fun x => if x = c then new else [x] := by
  induction s with
  | nil => rfl
  | cons x s ih =>
    rw [List.flatMap_cons, ← ih]
    split
    · rename_i heq
      rw [heq]
      exact replace_append new (List.cons_ne_nil c []) s
    · rename_i hne
      refine replace_cons new fun h => hne ?_
      exact (List.cons_prefix_cons.mp h).1.symm

theorem replace_of_not_infix (h : ¬ old <:+: s) : replace old new s = s := by
  unfold replace
  induction s with
  | nil => rfl
  | cons c s ih =>
    have hprefix : ¬ old <+: c :: s := fun hp => h hp.isInfix
    have hrest : ¬ old <:+: s := fun hi => h (List.infix_cons hi)
    rw [replaceFrom, if_neg hprefix, ih hrest]

theorem replaceFrom_append_cons {c : α} (hc : c ∉ old) (hne : old ≠ []) {skip : Nat} (b : List α)
    (hskip : skip ≤ a.length) :
    replaceFrom old new skip (a ++ c :: b) =
      replaceFrom old new skip a ++ c :: replaceFrom old new 0 b := by
  induction a generalizing skip with
  | nil =>
    obtain rfl : skip = 0 := Nat.le_zero.mp hskip
    have hprefix : ¬ old <+: c :: b := by
      intro h
      have h' := (prefix_append_cons_iff (a := []) hc).mp h
      exact hne (List.prefix_nil.mp h')
    exact if_neg hprefix
  | cons x a ih =>
    cases skip with
    | succ skip => exact ih (Nat.le_of_succ_le_succ hskip)
    | zero =>
      rw [List.cons_append, replaceFrom, replaceFrom]
      have hiff : old <+: x :: (a ++ c :: b) ↔ old <+: x :: a :=
        prefix_append_cons_iff (a := x :: a) hc
      by_cases hprefix : old <+: x :: a
      · have hlen := hprefix.length_le
        rw [if_pos (hiff.mpr hprefix), if_pos hprefix,
          ih (by simp only [List.length_cons] at hlen; omega), List.append_assoc]
      · rw [if_neg (mt hiff.mp hprefix), if_neg hprefix, ih (Nat.zero_le _)]
        rfl

theorem replace_append_cons {c : α} (hc : c ∉ old) (hne : old ≠ []) (a b : List α) :
    replace old new (a ++ c :: b) = replace old new a ++ c :: replace old new b :=
  replaceFrom_append_cons new hc hne b (Nat.zero_le _)

end keychron_qmk.replacement
