-- A bitmap is an array of bytes. Bit `k` is bit `k % 8` of byte `k / 8`.
import Mathlib.Data.Finset.Card
import Mathlib.Data.Fintype.Basic
import Mathlib.Data.Nat.Bitwise
import Mathlib.Logic.Function.Basic

namespace keychron_qmk.bitmap

/-! ## One byte -/

def bitOf (k : UInt8) : UInt8 := 1 <<< (k &&& 7)

theorem toNat_bitOf (k : UInt8) : (bitOf k).toNat = 2 ^ (k.toNat % 8) := by
  have h7 : k.toNat &&& 7 = k.toNat % 8 := Nat.and_two_pow_sub_one_eq_mod k.toNat 3
  have hlt : 2 ^ (k.toNat % 8) < 256 :=
    calc 2 ^ (k.toNat % 8) ≤ 2 ^ 7 := Nat.pow_le_pow_right (by decide) (by omega)
      _ < 256 := by decide
  unfold bitOf
  simp [UInt8.toNat_shiftLeft, UInt8.toNat_and, h7, Nat.shiftLeft_eq, Nat.mod_eq_of_lt hlt]

theorem testBit_or_bitOf (x k : UInt8) (j : Nat) :
    (x ||| bitOf k).toNat.testBit j = (x.toNat.testBit j || decide (k.toNat % 8 = j)) := by
  rw [UInt8.toNat_or, Nat.testBit_or, toNat_bitOf, Nat.testBit_two_pow]

theorem testBit_and_not_bitOf (x k : UInt8) (j : Nat) :
    (x &&& ~~~(bitOf k)).toNat.testBit j = (x.toNat.testBit j && !decide (k.toNat % 8 = j)) := by
  have hlt : (bitOf k).toNat < 2 ^ 8 := (bitOf k).toNat_lt
  have hnot : (~~~(bitOf k)).toNat = 2 ^ 8 - ((bitOf k).toNat + 1) := by
    rw [UInt8.toNat_not, UInt8.size]
    omega
  rw [UInt8.toNat_and, Nat.testBit_and, hnot, Nat.testBit_two_pow_sub_succ hlt, toNat_bitOf,
    Nat.testBit_two_pow]
  rcases Nat.lt_or_ge j 8 with hj | hj
  · simp [hj]
  · have hx : x.toNat.testBit j = false :=
      Nat.testBit_lt_two_pow (x.toNat_lt.trans_le (Nat.pow_le_pow_right (by decide) hj))
    simp [hx]

theorem and_bitOf_eq_zero (x k : UInt8) :
    x &&& bitOf k = 0 ↔ x.toNat.testBit (k.toNat % 8) = false := by
  rw [← UInt8.toNat_inj, UInt8.toNat_and, toNat_bitOf, Nat.and_two_pow]
  cases x.toNat.testBit (k.toNat % 8) <;> simp

theorem or_eq_left {x m : UInt8} (h : x &&& m = m) : x ||| m = x := by
  rw [← h]
  apply UInt8.toNat_inj.mp
  apply Nat.eq_of_testBit_eq
  intro j
  rw [UInt8.toNat_or, UInt8.toNat_and, Nat.testBit_or, Nat.testBit_and]
  cases x.toNat.testBit j <;> rfl

theorem and_not_eq_left {x m : UInt8} (h : x &&& m = 0) : x &&& ~~~m = x := by
  apply UInt8.eq_of_toBitVec_eq
  have hzero : x.toBitVec &&& m.toBitVec = 0 := by rw [← UInt8.toBitVec_and, h]; rfl
  ext i hi
  have hbit : (x.toBitVec &&& m.toBitVec).getLsbD i = false := by rw [hzero]; simp
  rw [BitVec.getLsbD_and] at hbit
  simp only [UInt8.toBitVec_and, UInt8.toBitVec_not, ← BitVec.getLsbD_eq_getElem,
    BitVec.getLsbD_and, BitVec.getLsbD_not, hi, decide_true, Bool.true_and]
  cases hx : x.toBitVec.getLsbD i
  · rfl
  · rw [hx, Bool.true_and] at hbit
    rw [hbit]
    rfl

theorem or_bitOf_self {x k : UInt8} (h : x &&& bitOf k ≠ 0) : x ||| bitOf k = x := by
  have hset : x.toNat.testBit (k.toNat % 8) = true := by
    simpa using mt (and_bitOf_eq_zero x k).mpr h
  apply UInt8.toNat_inj.mp
  apply Nat.eq_of_testBit_eq
  intro j
  rw [testBit_or_bitOf]
  by_cases hj : k.toNat % 8 = j
  · rw [← hj, hset]
    rfl
  · simp [hj]

/-! ## The bitmap -/

variable {n : Nat}

/-- Bit `k`. Outside of the array it is not set. -/
def test (b : Fin n → UInt8) (k : Nat) : Bool :=
  if h : k / 8 < n then (b ⟨k / 8, h⟩).toNat.testBit (k % 8) else false

/-- The number of bits that are set. -/
def count (b : Fin n → UInt8) : Nat := ((Finset.range (8 * n)).filter fun k => test b k).card

@[simp] theorem test_zero (k : Nat) : test (fun _ : Fin n => 0) k = false := by
  simp [test]

@[simp] theorem count_zero : count (fun _ : Fin n => 0) = 0 := by
  simp [count]

theorem test_lt {b : Fin n → UInt8} {k : Nat} (h : test b k = true) : k < 8 * n := by
  unfold test at h
  split at h
  · omega
  · cases h

theorem count_le (b : Fin n → UInt8) : count b ≤ 8 * n := by
  simpa [count] using Finset.card_filter_le (Finset.range (8 * n)) fun k => test b k = true

section

variable (b : Fin n → UInt8) {i : Fin n} {k : UInt8} (hi : i.val = k.toNat / 8)
include hi

theorem and_bitOf_test : b i &&& bitOf k = 0 ↔ test b k.toNat = false := by
  have hk : k.toNat / 8 < n := hi ▸ i.isLt
  have hi' : i = ⟨k.toNat / 8, hk⟩ := Fin.ext hi
  rw [and_bitOf_eq_zero, test, dif_pos hk, hi']

theorem test_set (j : Nat) : test (Function.update b i (b i ||| bitOf k)) j =
    (test b j || decide (k.toNat = j)) := by
  unfold test
  by_cases hj : j / 8 < n
  · rw [dif_pos hj, dif_pos hj]
    by_cases he : (⟨j / 8, hj⟩ : Fin n) = i
    · have hdiv : j / 8 = i.val := congrArg Fin.val he
      have hbit : (k.toNat % 8 = j % 8) ↔ k.toNat = j := by omega
      rw [he, Function.update_self, testBit_or_bitOf]
      simp only [hbit]
    · have hne : k.toNat ≠ j := by
        rintro rfl
        exact he (Fin.ext hi.symm)
      rw [Function.update_of_ne he]
      simp [hne]
  · have hne : k.toNat ≠ j := by
      rintro rfl
      exact hj (hi ▸ i.isLt)
    rw [dif_neg hj, dif_neg hj]
    simp [hne]

theorem test_clear (j : Nat) : test (Function.update b i (b i &&& ~~~(bitOf k))) j =
    (test b j && !decide (k.toNat = j)) := by
  unfold test
  by_cases hj : j / 8 < n
  · rw [dif_pos hj, dif_pos hj]
    by_cases he : (⟨j / 8, hj⟩ : Fin n) = i
    · have hdiv : j / 8 = i.val := congrArg Fin.val he
      have hbit : (k.toNat % 8 = j % 8) ↔ k.toNat = j := by omega
      rw [he, Function.update_self, testBit_and_not_bitOf]
      simp only [hbit]
    · have hne : k.toNat ≠ j := by
        rintro rfl
        exact he (Fin.ext hi.symm)
      rw [Function.update_of_ne he]
      simp [hne]
  · rw [dif_neg hj, dif_neg hj]
    rfl

theorem count_set (h : test b k.toNat = false) :
    count (Function.update b i (b i ||| bitOf k)) = count b + 1 := by
  have hlt : k.toNat < 8 * n := by have := i.isLt; omega
  unfold count
  simp only [test_set b hi]
  rw [← Finset.card_insert_of_notMem (a := k.toNat) (by simp [h])]
  congr 1
  ext j
  simp only [Finset.mem_filter, Finset.mem_range, Finset.mem_insert, Bool.or_eq_true,
    decide_eq_true_eq]
  constructor
  · rintro ⟨hj, hb | rfl⟩
    · exact .inr ⟨hj, hb⟩
    · exact .inl rfl
  · rintro (rfl | ⟨hj, hb⟩)
    · exact ⟨hlt, .inr rfl⟩
    · exact ⟨hj, .inl hb⟩

theorem count_clear (h : test b k.toNat = true) :
    count (Function.update b i (b i &&& ~~~(bitOf k))) + 1 = count b := by
  have hlt : k.toNat < 8 * n := by have := i.isLt; omega
  unfold count
  simp only [test_clear b hi]
  rw [← Finset.card_erase_add_one (s := (Finset.range (8 * n)).filter fun k => test b k)
    (a := k.toNat) (by simp [h, hlt])]
  congr 2
  ext j
  simp only [Finset.mem_filter, Finset.mem_range, Finset.mem_erase, Bool.and_eq_true,
    Bool.not_eq_true', decide_eq_false_iff_not]
  constructor
  · rintro ⟨hj, hb, hne⟩
    exact ⟨Ne.symm hne, hj, hb⟩
  · rintro ⟨hne, hj, hb⟩
    exact ⟨hj, hb, Ne.symm hne⟩

end

end keychron_qmk.bitmap
