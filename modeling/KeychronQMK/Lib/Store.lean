-- Reads and writes of an array of a fixed length: one outside of it has no outcome.
import Mathlib.Data.List.TakeDrop
import Mathlib.Algebra.Order.Ring.Int

namespace keychron_qmk.bounded

variable {α : Type*}

def write (a : List α) (i : Int) (x : α) : Option (List α) :=
  if 0 ≤ i ∧ i < a.length then some (a.set i.toNat x) else none

def read (a : List α) (i : Nat) : Option α := a[i]?

/-- The `n` elements from `i` on, read one after another. -/
def load (a : List α) (i : Nat) : Nat → Option (List α)
  | 0 => some []
  | n + 1 => (read a i).bind fun x => (load a (i + 1) n).map (x :: ·)

/-- The elements written one after another, the first at `i`. -/
def store : List α → Int → List α → Option (List α)
  | a, _, [] => some a
  | a, i, x :: xs => (write a i x).bind fun a => store a (i + 1) xs

theorem write_nat (a : List α) (i : Nat) (x : α) :
    write a i x = if i < a.length then some (a.set i x) else none := by
  unfold write
  simp

/-- What is stored stands in its place, if there is room for it. -/
theorem store_nat (a : List α) (i : Nat) {xs : List α} (hne : xs ≠ []) :
    store a i xs =
      if i + xs.length ≤ a.length then some (a.take i ++ xs ++ a.drop (i + xs.length))
      else none := by
  induction xs generalizing a i with
  | nil => exact absurd rfl hne
  | cons x xs ih =>
    rw [store, write_nat]
    by_cases hi : i < a.length
    · rw [if_pos hi, Option.bind_some]
      have hset : (a.set i x).take (i + 1) = a.take i ++ [x] := by
        rw [List.take_add_one, List.take_set_of_le (Nat.le_refl i)]
        simp [hi]
      cases xs with
      | nil =>
        have hdrop : (a.set i x).drop (i + 1) = a.drop (i + 1) :=
          List.drop_set_of_lt (Nat.lt_succ_self i)
        have hwhole := List.take_append_drop (i + 1) (a.set i x)
        rw [hset, hdrop] at hwhole
        rw [store, List.length_singleton, if_pos (Nat.succ_le_of_lt hi), hwhole]
      | cons y ys =>
        have hnext : ((i : Int) + 1) = ((i + 1 : Nat) : Int) := by omega
        have hdrop : (a.set i x).drop (i + 1 + (y :: ys).length) =
            a.drop (i + (x :: y :: ys).length) := by
          rw [List.drop_set_of_lt (by omega)]
          congr 1
          simp only [List.length_cons]
          omega
        have hroom : i + 1 + (y :: ys).length = i + (x :: y :: ys).length := by
          simp only [List.length_cons]
          omega
        rw [hnext, ih _ _ (List.cons_ne_nil _ _), List.length_set, hset, hdrop, hroom,
          List.append_assoc (a.take i), List.singleton_append]
    · rw [if_neg hi, Option.bind_none, if_neg (by simp only [List.length_cons]; omega)]

theorem load_eq (a : List α) (i : Nat) {n : Nat} (hn : n ≠ 0) :
    load a i n = if i + n ≤ a.length then some ((a.drop i).take n) else none := by
  induction n generalizing i with
  | zero => exact absurd rfl hn
  | succ n ih =>
    rw [load, read]
    by_cases hi : i < a.length
    · rw [List.getElem?_eq_getElem hi, Option.bind_some, List.drop_eq_getElem_cons hi,
        List.take_succ_cons]
      cases n with
      | zero => simp [load, Nat.succ_le_of_lt hi]
      | succ n =>
        have hroom : i + 1 + (n + 1) = i + (n + 1 + 1) := by omega
        rw [ih _ (Nat.succ_ne_zero n), hroom]
        split <;> rfl
    · rw [List.getElem?_eq_none (by omega), Option.bind_none, if_neg (by omega)]

theorem store_neg (a : List α) {i : Int} (hi : i < 0) {xs : List α} (hne : xs ≠ []) :
    store a i xs = none := by
  obtain ⟨x, xs, rfl⟩ := List.exists_cons_of_ne_nil hne
  rw [store, write, if_neg (by omega), Option.bind_none]

theorem store_zero (a : List α) {xs : List α} (hroom : xs.length ≤ a.length) :
    store a 0 xs = some (xs ++ a.drop xs.length) := by
  cases xs with
  | nil => rfl
  | cons x xs =>
    have hstore := store_nat a 0 (List.cons_ne_nil x xs)
    rw [Nat.zero_add, if_pos hroom, List.take_zero, List.nil_append] at hstore
    exact hstore

end keychron_qmk.bounded
