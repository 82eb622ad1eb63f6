-- Bytes whose bits have names: the names of the bits that are set, in one word and in
-- rows of them, and what setting bits in a row adds to them.
import Mathlib.Data.List.Basic

namespace keychron_qmk.named_bits

variable {κ : Type*} {w : Nat}

def named : List κ → BitVec w → List κ
  | [], _ => []
  | k :: names, x => if x.getLsbD names.length then k :: named names x else named names x

def all_named : List (List κ) → List (BitVec w) → List κ
  | names :: rows, x :: words => named names x ++ all_named rows words
  | _, _ => []

variable {names : List κ} {rows : List (List κ)} {words : List (BitVec w)} {k : κ}

theorem named_zero (names : List κ) : named names (0#w) = [] := by
  induction names with
  | nil => rfl
  | cons k names ih => rw [named, BitVec.getLsbD_zero, if_neg Bool.false_ne_true, ih]

theorem mem_named_or {x y : BitVec w} :
    k ∈ named names (x ||| y) ↔ k ∈ named names x ∨ k ∈ named names y := by
  induction names with
  | nil => simp [named]
  | cons l names ih =>
    rw [named, named, named, BitVec.getLsbD_or]
    cases x.getLsbD names.length <;> cases y.getLsbD names.length <;> simp [ih] <;> tauto

theorem all_named_nil (rows : List (List κ)) : all_named rows ([] : List (BitVec w)) = [] := by
  cases rows <;> rfl

theorem all_named_zero (rows : List (List κ)) (n : Nat) :
    all_named rows (List.replicate n (0#w)) = [] := by
  induction n generalizing rows with
  | zero => exact all_named_nil rows
  | succ n ih =>
    cases rows with
    | nil => rfl
    | cons names rows => rw [List.replicate_succ, all_named, named_zero, ih, List.nil_append]

theorem all_named_take {n : Nat} (h : rows.length ≤ n) :
    all_named rows (words.take n) = all_named rows words := by
  induction rows generalizing words n with
  | nil => rfl
  | cons names rows ih =>
    cases words with
    | nil => rw [List.take_nil]
    | cons x words =>
      cases n with
      | zero => exact absurd h (Nat.not_succ_le_zero _)
      | succ n => rw [List.take_succ_cons, all_named, all_named, ih (Nat.le_of_succ_le_succ h)]

theorem mem_all_named_modify {i : Nat} (hnames : rows[i]? = some names) (hi : i < words.length)
    (y : BitVec w) : k ∈ all_named rows (words.modify i (· ||| y)) ↔
      k ∈ all_named rows words ∨ k ∈ named names y := by
  induction i generalizing rows words with
  | zero =>
    obtain ⟨rows, rfl⟩ := List.head?_eq_some_iff.mp (List.head?_eq_getElem? ▸ hnames)
    cases words with
    | nil => exact absurd hi (Nat.not_lt_zero _)
    | cons x words =>
      rw [List.modify_zero_cons, all_named, all_named, List.mem_append, List.mem_append,
        mem_named_or, or_right_comm]
  | succ i ih =>
    cases rows with
    | nil => cases hnames
    | cons row rows =>
      cases words with
      | nil => exact absurd hi (Nat.not_lt_zero _)
      | cons x words =>
        rw [List.modify_succ_cons, all_named, all_named, List.mem_append, List.mem_append,
          ih hnames (Nat.lt_of_succ_lt_succ hi), or_assoc]

end keychron_qmk.named_bits
