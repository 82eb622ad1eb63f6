-- The square root of the joystick axes (`keyboards/keychron/common/analog_matrix/sqrt.c`):
-- Newton's steps from above, in 32 bits.
import Mathlib.Data.Nat.Sqrt
import Mathlib.Tactic.Linarith

namespace keychron_qmk.analog_matrix

/-! ## The root of a number -/

def sqrt_loop (n x y : Nat) : Nat :=
  if y < x then sqrt_loop n y ((y + n / y) / 2) else x
termination_by x

def sqrt_uint32 (n : Nat) : Nat := sqrt_loop n n ((n + 1) / 2)

variable {n x : Nat}

theorem newton_step_above (hx : 0 < x) : n < ((x + n / x) / 2 + 1) * ((x + n / x) / 2 + 1) := by
  have hn : n < x * (n / x + 1) := Nat.lt_mul_div_succ n hx
  generalize n / x = q at *
  have hsum : x + (q + 1) ≤ 2 * ((x + q) / 2 + 1) := by omega
  generalize (x + q) / 2 + 1 = z at *
  have hsquare : (x + (q + 1)) * (x + (q + 1)) ≤ (2 * z) * (2 * z) := Nat.mul_self_le_mul_self hsum
  have hmean : 4 * (x * (q + 1)) ≤ (x + (q + 1)) * (x + (q + 1)) := by
    nlinarith [sq_nonneg ((x : Int) - (q + 1)), mul_self_nonneg ((x : Int) - (q + 1))]
  linarith

theorem sqrt_loop_eq (hn : 0 < n) (hx : 0 < x) (h : n < (x + 1) * (x + 1)) :
    sqrt_loop n x ((x + n / x) / 2) = Nat.sqrt n := by
  induction x using Nat.strong_induction_on with
  | _ x ih =>
    rw [sqrt_loop]
    split
    · rename_i hlt
      have hpos : 0 < (x + n / x) / 2 := by
        rcases Nat.lt_or_ge 1 x with h1 | h1
        · exact Nat.div_pos (Nat.le_add_right_of_le h1) (by decide)
        · have : x = 1 := by omega
          subst this
          omega
      exact ih _ hlt hpos (newton_step_above hx)
    · rename_i hge
      have hle : x ≤ n / x := by omega
      exact Nat.eq_sqrt.mpr ⟨(Nat.le_div_iff_mul_le hx).mp hle, h⟩

theorem sqrt_uint32_eq : sqrt_uint32 n = Nat.sqrt n := by
  rcases Nat.eq_zero_or_pos n with rfl | hn
  · rw [sqrt_uint32, sqrt_loop, if_neg (Nat.lt_irrefl 0), Nat.sqrt_zero]
  · have hstart := sqrt_loop_eq hn hn (by nlinarith)
    rwa [Nat.div_self hn] at hstart

/-! ## The root in 32 bits -/

namespace uint32

/-- The loop behind the first estimate. It has no result when a turn divides by zero. -/
def sqrt_loop (n x y : UInt32) : Option UInt32 :=
  if y < x then
    if y = 0 then none else sqrt_loop n y ((y + n / y) / 2)
  else some x
termination_by x.toNat

def sqrt_uint32 (n : UInt32) : Option UInt32 := sqrt_loop n n ((n + 1) / 2)

theorem add_div_le {n x : Nat} (hx : 0 < x) (hle : x ≤ n) : x + n / x ≤ n + 1 := by
  have hproduct : x * (n / x) ≤ n := Nat.mul_div_le n x
  nlinarith

variable {n x : UInt32}

theorem toNat_step (hx : 0 < x.toNat) (hle : x.toNat ≤ n.toNat) (hn : n.toNat < 2 ^ 32 - 1) :
    ((x + n / x) / 2).toNat = (x.toNat + n.toNat / x.toNat) / 2 := by
  have hsum := add_div_le hx hle
  rw [UInt32.toNat_div, UInt32.toNat_add, UInt32.toNat_div, Nat.mod_eq_of_lt (by omega)]
  rfl

theorem sqrt_loop_zero (hx : 0 < x) : sqrt_loop n x 0 = none := by
  rw [sqrt_loop, if_pos hx, if_pos rfl]

theorem sqrt_loop_refines {y : UInt32} (hn : n.toNat < 2 ^ 32 - 1) (hx : 0 < x.toNat)
    (hle : x.toNat ≤ n.toNat) (hy : y.toNat = (x.toNat + n.toNat / x.toNat) / 2) :
    (sqrt_loop n x y).map UInt32.toNat =
      some (analog_matrix.sqrt_loop n.toNat x.toNat y.toNat) := by
  have hquotient : 1 ≤ n.toNat / x.toNat := Nat.div_pos hle hx
  have hpos : 0 < y.toNat := by omega
  induction x, y using sqrt_loop.induct n with
  | case1 x hlt => exact absurd hpos (Nat.lt_irrefl 0)
  | case2 x y hlt hne ih =>
    have hyn : y.toNat ≤ n.toNat := (Nat.le_of_lt (UInt32.lt_iff_toNat_lt.mp hlt)).trans hle
    have hnext := toNat_step hpos hyn hn
    have hdiv : 1 ≤ n.toNat / y.toNat := Nat.div_pos hyn hpos
    rw [sqrt_loop, if_pos hlt, if_neg hne, ih hpos hyn hnext hdiv (by omega), hnext,
      analog_matrix.sqrt_loop.eq_def n.toNat x.toNat, if_pos (UInt32.lt_iff_toNat_lt.mp hlt)]
  | case3 x y hge =>
    rw [sqrt_loop, if_neg hge, analog_matrix.sqrt_loop, if_neg (mt UInt32.lt_iff_toNat_lt.mpr hge),
      Option.map_some]

theorem sqrt_uint32_refines (hn : n ≠ 0xFFFFFFFF) :
    (sqrt_uint32 n).map UInt32.toNat = some (analog_matrix.sqrt_uint32 n.toNat) := by
  have hlast : n.toNat < 2 ^ 32 - 1 :=
    Nat.lt_of_le_of_ne (Nat.le_pred_of_lt n.toNat_lt) fun h => hn (UInt32.toNat_inj.mp h)
  have hstart : ((n + 1) / 2).toNat = (n.toNat + 1) / 2 := by
    rw [UInt32.toNat_div, UInt32.toNat_add, Nat.mod_eq_of_lt]
    · rfl
    · exact Nat.add_lt_of_lt_sub hlast
  rw [sqrt_uint32, analog_matrix.sqrt_uint32, ← hstart]
  rcases Nat.eq_zero_or_pos n.toNat with hzero | hpos
  · obtain rfl : n = 0 := UInt32.toNat_inj.mp hzero
    rw [sqrt_loop, if_neg (by decide), analog_matrix.sqrt_loop, if_neg (by decide),
      Option.map_some]
  · refine sqrt_loop_refines hlast hpos (Nat.le_refl _) ?_
    rw [hstart, Nat.div_self hpos]

/-- The loop ends without a division by zero and gives the root, for all numbers but the
last one. -/
theorem sqrt_is_floor_iff (n : UInt32) :
    (∃ r, sqrt_uint32 n = some r ∧ r.toNat = n.toNat.sqrt) ↔ n ≠ 0xFFFFFFFF := by
  constructor
  · rintro ⟨r, hr, -⟩ rfl
    exact Option.some_ne_none r (hr.symm.trans (sqrt_loop_zero (by decide)))
  · intro hn
    obtain ⟨r, hr, hroot⟩ := Option.map_eq_some_iff.mp (sqrt_uint32_refines hn)
    exact ⟨r, hr, hroot.trans sqrt_uint32_eq⟩

/-- The first estimate behind the last number is 0, by which the first turn divides. -/
theorem the_root_of_the_last_number_divides_by_zero : sqrt_uint32 0xFFFFFFFF = none :=
  sqrt_loop_zero (by decide)

end uint32

end keychron_qmk.analog_matrix
