-- Numbers that are stored bit by bit: one bit of a word is assigned, and a
-- number is gathered from its bits.
import Mathlib.Logic.Function.Basic
import Mathlib.Data.List.Basic

namespace keychron_qmk.bitslice

variable {w : Nat}

/-- The word of one bit, as `1U << n`. -/
def mask (n : Nat) : BitVec w := 1#w <<< n

/-- The word with its bit `n` set to `v`, as `x ^= (-v ^ x) & mask`. -/
def assign (x : BitVec w) (n : Nat) (v : Bool) : BitVec w :=
  x ^^^ (((-(if v then 1#w else 0#w)) ^^^ x) &&& mask n)

theorem getLsbD_mask (n i : Nat) : (mask n : BitVec w).getLsbD i = decide (i = n ∧ n < w) := by
  unfold mask
  rw [← BitVec.twoPow_eq, BitVec.getLsbD_twoPow]
  by_cases h : n < w <;> simp [h, eq_comm]

theorem getLsbD_assign (x : BitVec w) (n : Nat) (v : Bool) (i : Nat) :
    (assign x n v).getLsbD i = if i = n ∧ n < w then v else x.getLsbD i := by
  have hall : (-(if v then 1#w else 0#w)).getLsbD i = (decide (i < w) && v) := by
    cases v with
    | false => simp
    | true => simp [BitVec.neg_one_eq_allOnes]
  unfold assign
  simp only [BitVec.getLsbD_xor, BitVec.getLsbD_and, hall, getLsbD_mask]
  by_cases h : i = n ∧ n < w
  · obtain ⟨rfl, hlt⟩ := h
    cases v <;> simp [hlt]
  · simp [h]

theorem and_mask_ne_zero (x : BitVec w) (n : Nat) : (x &&& mask n ≠ 0) ↔ x.getLsbD n = true := by
  constructor
  · intro h
    by_contra hclear
    apply h
    apply BitVec.eq_of_getLsbD_eq
    intro i _
    by_cases hi : i = n
    · simp [hi, hclear]
    · simp [getLsbD_mask, hi]
  · intro hset hzero
    have hbit := congrArg (fun y => y.getLsbD n) hzero
    have hlt : n < w := BitVec.lt_of_getLsbD hset
    simp only [BitVec.getLsbD_and, hset, getLsbD_mask, hlt] at hbit
    simp at hbit

theorem nat_and_sub_one_ne_zero (n : Nat) :
    n &&& (n - 1) ≠ 0 ↔ ∃ i j, i ≠ j ∧ n.testBit i ∧ n.testBit j := by
  constructor
  · intro h
    have hn : n ≠ 0 := by
      rintro rfl
      exact h rfl
    have htop : n.testBit n.log2 := Nat.testBit_log2 hn
    by_contra hnone
    apply h
    rw [Nat.and_sub_one_eq_zero_iff_isPowerOfTwo hn]
    refine ⟨n.log2, Nat.eq_of_testBit_eq fun i => ?_⟩
    rw [Nat.testBit_two_pow]
    by_cases hi : n.log2 = i
    · simpa [hi] using hi ▸ htop
    · rw [decide_eq_false hi]
      by_contra hbit
      exact hnone ⟨n.log2, i, hi, htop, by simpa using hbit⟩
  · rintro ⟨i, j, hij, hi, hj⟩ hzero
    have hn : n ≠ 0 := by
      rintro rfl
      simp at hi
    obtain ⟨k, rfl⟩ := (Nat.and_sub_one_eq_zero_iff_isPowerOfTwo hn).mp hzero
    simp only [Nat.testBit_two_pow, decide_eq_true_eq] at hi hj
    exact hij (hi.symm.trans hj)

/-- A word has more than one bit exactly when something is left of it once its lowest bit
is cleared. -/
theorem and_sub_one_ne_zero (x : BitVec w) :
    x &&& (x - 1) ≠ 0 ↔ ∃ i j, i ≠ j ∧ x.getLsbD i ∧ x.getLsbD j := by
  by_cases hx : x = 0
  · simp [hx]
  · have hpos : 1 ≤ x.toNat := by
      have hne : x.toNat ≠ 0 := fun h => hx (BitVec.eq_of_toNat_eq (by simpa using h))
      omega
    have hw : 1 % 2 ^ w = 1 := by
      exact Nat.mod_eq_of_lt (by omega)
    have hsub : (x - 1).toNat = x.toNat - 1 := by
      rw [BitVec.toNat_sub_of_le]
      · simp [hw]
      · rw [BitVec.le_def]
        simpa [hw] using hpos
    have hbits := nat_and_sub_one_ne_zero x.toNat
    rw [← hsub, ← BitVec.toNat_and] at hbits
    refine Iff.trans ?_ hbits
    refine not_congr ⟨fun h => ?_, fun h => BitVec.eq_of_toNat_eq ?_⟩
    · rw [h]
      rfl
    · rw [h]
      rfl

/-- The number whose bits below `n` are those of `f`, as the loop
`layer |= f(bit) << bit`. -/
def gather (f : Nat → Bool) (n : Nat) : BitVec w :=
  (List.range n).foldl (fun x b => x ||| (if f b then 1#w else 0#w) <<< b) 0#w

theorem getLsbD_gather (f : Nat → Bool) (n i : Nat) :
    (gather f n : BitVec w).getLsbD i = (decide (i < n ∧ i < w) && f i) := by
  unfold gather
  induction n with
  | zero => simp
  | succ n ih =>
    rw [List.range_succ, List.foldl_append]
    simp only [List.foldl_cons, List.foldl_nil, BitVec.getLsbD_or, ih]
    have hone : ((if f n then 1#w else 0#w) <<< n).getLsbD i =
        (decide (i = n ∧ n < w) && f n) := by
      cases f n with
      | false => simp
      | true =>
        rw [Bool.and_true]
        exact getLsbD_mask n i
    rw [hone]
    by_cases hi : i = n
    · subst hi
      by_cases hw : i < w <;> simp [hw]
    · have : i < n + 1 ↔ i < n := by omega
      simp [hi, this]

end keychron_qmk.bitslice
