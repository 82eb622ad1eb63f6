-- The arcs of an ellipse on the grid: in each column where it is flat the row next to it,
-- which falls by one at most, and when the arcs of the columns and of the rows meet.
import KeychronQMK.Lib.DigitalCurve
import Mathlib.Tactic.Linarith
import Mathlib.Tactic.Ring

namespace keychron_qmk.ellipse_arc

open digital_curve

/-- By how much a point and the one below it are outside of the ellipse, together. -/
def excess (a b : Nat) (x y : Int) : Int :=
  2 * (b * b) * (x * x) + a * a * (y * y + (y - 1) * (y - 1)) - 2 * (a * a) * (b * b)

/-- The row for each column, from the top: one down when that is not further out. -/
def row (a b : Nat) : Nat → Int
  | 0 => b
  | n + 1 => if 0 ≤ excess a b (n + 1) (row a b n) then row a b n - 1 else row a b n

/-- In the column the ellipse is not steeper than a diagonal. -/
def InArc (a b n : Nat) : Prop := b * b * n ≤ a * a * row a b n

/-- A point next to the ellipse in its column, where that is flat. -/
def Flat (a b : Nat) (q : Nat × Nat) : Prop :=
  excess a b q.1 q.2 < 0 ∧ 0 ≤ excess a b q.1 (q.2 + 1) ∧ b * b * q.1 ≤ a * a * q.2

/-- A point where the ellipse is flat and one where it is steep are the same or touch. -/
def ArcsTouch (a b : Nat) : Prop :=
  ∃ p q : Nat × Nat, Flat a b p ∧ Flat b a q.swap ∧
    p.1 ≤ q.1 + 1 ∧ q.1 ≤ p.1 + 1 ∧ p.2 ≤ q.2 + 1 ∧ q.2 ≤ p.2 + 1

variable {a b : Nat} {x y : Int} {n : Nat}

/-! ## The excess -/

theorem excess_right : excess a b (x + 1) y = excess a b x y + b * b * (4 * x + 2) := by
  unfold excess
  ring

theorem excess_up : excess a b x (y + 1) = excess a b x y + 4 * (a * a * y) := by
  unfold excess
  ring

theorem square_nonneg (a : Nat) : (0 : Int) ≤ a * a := mul_self_nonneg _

theorem excess_mono_row {y' : Int} (hy : 0 ≤ y) (hle : y ≤ y') :
    excess a b x y ≤ excess a b x y' := by
  have ha := square_nonneg a
  obtain ⟨k, rfl⟩ : ∃ k : Nat, y' = y + k := ⟨(y' - y).toNat, by omega⟩
  induction k with
  | zero => rw [Int.natCast_zero, Int.add_zero]
  | succ k ih =>
    rw [Int.natCast_succ, ← Int.add_assoc, excess_up]
    have hstep : (0 : Int) ≤ a * a * (y + k) := mul_nonneg ha (by omega)
    omega

theorem excess_mono_column {x' : Int} (hx : 0 ≤ x) (hle : x ≤ x') :
    excess a b x y ≤ excess a b x' y := by
  have hb := square_nonneg b
  obtain ⟨k, rfl⟩ : ∃ k : Nat, x' = x + k := ⟨(x' - x).toNat, by omega⟩
  induction k with
  | zero => rw [Int.natCast_zero, Int.add_zero]
  | succ k ih =>
    rw [Int.natCast_succ, ← Int.add_assoc, excess_right]
    have hstep : (0 : Int) ≤ b * b * (4 * (x + k) + 2) := mul_nonneg hb (by omega)
    omega

theorem row_unique {y' : Int} (hy : 0 ≤ y) (hy' : 0 ≤ y') (hin : excess a b x y < 0)
    (hout : 0 ≤ excess a b x (y + 1)) (hin' : excess a b x y' < 0)
    (hout' : 0 ≤ excess a b x (y' + 1)) : y = y' := by
  by_contra hne
  rcases Int.lt_or_gt_of_ne hne with hlt | hlt
  · have hmono := excess_mono_row (a := a) (b := b) (x := x) (by omega : 0 ≤ y + 1) hlt
    omega
  · have hmono := excess_mono_row (a := a) (b := b) (x := x) (by omega : 0 ≤ y' + 1) hlt
    omega

/-! ## The rows of the columns -/

section

variable (ha : 0 < a) (hb : 0 < b)

include ha hb

theorem squares_pos : (0 : Int) < a * a ∧ (0 : Int) < b * b :=
  ⟨by positivity, by positivity⟩

theorem row_nonneg (h : InArc a b n) : 0 ≤ row a b n := by
  obtain ⟨hA, hB⟩ := squares_pos ha hb
  by_contra hneg
  have hleft : (0 : Int) ≤ b * b * n := by positivity
  have hright : a * a * row a b n < 0 := mul_neg_of_pos_of_neg hA (by omega)
  unfold InArc at h
  omega

theorem row_next (h : ∀ i ≤ n, InArc a b i) :
    excess a b n (row a b n) < 0 ∧ 0 ≤ excess a b n (row a b n + 1) := by
  obtain ⟨hA, hB⟩ := squares_pos ha hb
  induction n with
  | zero =>
    have hAb : (a * a : Int) ≤ a * a * b := le_mul_of_one_le_right hA.le (by exact_mod_cast hb)
    unfold excess row
    constructor <;> push_cast <;> ring_nf at * <;> omega
  | succ n ih =>
    obtain ⟨hin, hout⟩ := ih fun i hi => h i (Nat.le_succ_of_le hi)
    have hflat := h (n + 1) (Nat.le_refl _)
    unfold InArc at hflat
    rw [row] at hflat ⊢
    push_cast at hflat ⊢
    have hmono := excess_mono_column (a := a) (b := b) (y := row a b n + 1)
      (by omega : (0 : Int) ≤ n) (by omega : (n : Int) ≤ n + 1)
    split
    · rename_i hfall
      rw [if_pos hfall] at hflat
      refine ⟨?_, by rwa [Int.sub_add_cancel]⟩
      have hup := excess_up (a := a) (b := b) (x := n + 1) (y := row a b n - 1)
      rw [Int.sub_add_cancel, excess_right] at hup
      have hexpand : (b * b * (4 * n + 2) : Int) = 4 * (b * b * (n + 1)) - 2 * (b * b) := by ring
      omega
    · rename_i hstay
      exact ⟨Int.not_le.mp hstay, Int.le_trans hout hmono⟩

theorem column_lt (h : ∀ i ≤ n, InArc a b i) : n < a := by
  obtain ⟨hA, hB⟩ := squares_pos ha hb
  have hin := (row_next ha hb h).1
  by_contra hout
  have hsquare : (a * a : Int) ≤ n * n := by exact_mod_cast Nat.mul_self_le_mul_self (by omega)
  have hcolumns : (b * b : Int) * (a * a) ≤ b * b * (n * n) :=
    mul_le_mul_of_nonneg_left hsquare hB.le
  have hrows : (0 : Int) ≤
      a * a * (row a b n * row a b n + (row a b n - 1) * (row a b n - 1)) :=
    mul_nonneg hA.le (add_nonneg (mul_self_nonneg _) (mul_self_nonneg _))
  unfold excess at hin
  have hexpand : (2 * (b * b) * (n * n) : Int) = 2 * (b * b * (n * n)) := by ring
  have hswap : (2 * (a * a) * (b * b) : Int) = 2 * (b * b * (a * a)) := by ring
  omega

theorem exists_last : ∃ n, (∀ i ≤ n, InArc a b i) ∧ ¬ InArc a b (n + 1) := by
  have hsome : ∃ n, ¬ InArc a b n := by
    by_contra hall
    exact Nat.lt_irrefl a (column_lt ha hb fun i _ => not_not.mp fun hi => hall ⟨i, hi⟩)
  classical
  obtain ⟨n, hn, hfirst⟩ : ∃ n, ¬ InArc a b n ∧ ∀ i < n, InArc a b i :=
    ⟨Nat.find hsome, Nat.find_spec hsome, fun i hi => not_not.mp (Nat.find_min hsome hi)⟩
  cases n with
  | zero =>
    refine absurd ?_ hn
    unfold InArc row
    positivity
  | succ n => exact ⟨n, fun i hi => hfirst i (Nat.lt_succ_of_le hi), hn⟩

theorem falls (h : ∀ i ≤ n, InArc a b i) : Falls (fun i => (row a b i).toNat) n := by
  intro i hi
  have hnext := row_nonneg ha hb (h (i + 1) hi)
  dsimp only
  rw [row] at hnext ⊢
  split_ifs at hnext ⊢ <;> omega

/-- The points next to the ellipse where it is flat are those of its rows, up to the last
column. -/
theorem flat_iff (h : ∀ i ≤ n, InArc a b i) (hlast : ¬ InArc a b (n + 1)) (q : Nat × Nat) :
    Flat a b q ↔ columns (fun i => (row a b i).toNat) n q := by
  obtain ⟨hA, hB⟩ := squares_pos ha hb
  constructor
  · rintro ⟨hin, hout, hflat⟩
    have hflat : (b * b * q.1 : Int) ≤ a * a * q.2 := by exact_mod_cast hflat
    rcases Nat.lt_or_ge n q.1 with hbehind | hle
    · -- Behind the last column, where the ellipse is steep, the row would be too high.
      exfalso
      obtain ⟨hin₀, hout₀⟩ := row_next ha hb h
      have hrow := row_nonneg ha hb (h n (Nat.le_refl n))
      have hcolumn : (b * b * (n + 1) : Int) ≤ a * a * q.2 :=
        Int.le_trans (mul_le_mul_of_nonneg_left (by omega) hB.le) hflat
      have hin₁ : excess a b (n + 1) q.2 < 0 :=
        Int.lt_of_le_of_lt (excess_mono_column (by omega) (by omega)) hin
      have hhigh : ∀ y : Int, (q.2 : Int) ≤ y → (b * b * (n + 1) : Int) ≤ a * a * y :=
        fun y hy => Int.le_trans hcolumn (mul_le_mul_of_nonneg_left hy hA.le)
      unfold InArc at hlast
      rw [row] at hlast
      split at hlast
      · rename_i hfall
        refine hlast (hhigh _ (not_lt.mp fun hlt => ?_))
        have hmono := excess_mono_row (a := a) (b := b) (x := n + 1) hrow
          (by omega : row a b n ≤ q.2)
        omega
      · refine hlast (hhigh _ (not_lt.mp fun hlt => ?_))
        have hmono := excess_mono_row (a := a) (b := b) (x := n + 1) (by omega)
          (by omega : row a b n + 1 ≤ q.2)
        have hcolumn := excess_mono_column (a := a) (b := b) (y := row a b n + 1)
          (by omega : (0 : Int) ≤ n) (by omega : (n : Int) ≤ n + 1)
        omega
    · have hupto : ∀ i ≤ q.1, InArc a b i := fun i hi => h i (Nat.le_trans hi hle)
      obtain ⟨hin', hout'⟩ := row_next ha hb hupto
      have hsame := row_unique (by omega) (row_nonneg ha hb (h _ hle)) hin hout hin' hout'
      exact ⟨q.1, hle, Prod.ext rfl (by dsimp only; omega)⟩
  · rintro ⟨i, hi, rfl⟩
    have hrow := row_nonneg ha hb (h i hi)
    have hnext := row_next ha hb fun j hj => h j (Nat.le_trans hj hi)
    have hin := h i hi
    unfold Flat
    rw [Int.toNat_of_nonneg hrow]
    refine ⟨hnext.1, hnext.2, ?_⟩
    zify
    rwa [Int.toNat_of_nonneg hrow]

theorem ends_in_order {p q : Nat × Nat} (hp : Flat a b p) (hq : Flat b a q.swap)
    (hnear : p.2 ≤ q.2 + 1) : p.1 ≤ q.1 := by
  obtain ⟨hA, hB⟩ := squares_pos ha hb
  by_contra hpass
  obtain ⟨hin, -, hflat⟩ := hp
  obtain ⟨-, hout, hsteep⟩ := hq
  dsimp only [Prod.swap] at hout hsteep
  have hflat : (b * b * p.1 : Int) ≤ a * a * p.2 := by exact_mod_cast hflat
  have hsteep : (a * a * q.2 : Int) ≤ b * b * q.1 := by exact_mod_cast hsteep
  -- The one end is further to the right, and so it is higher up, by one.
  have hright : (b * b * q.1 : Int) < b * b * p.1 := mul_lt_mul_of_pos_left (by omega) hB
  have hup : (q.2 : Int) < p.2 := lt_of_mul_lt_mul_left (by omega) hA.le
  have hrow : (p.2 : Int) = q.2 + 1 := by omega
  have hcolumn := excess_mono_column (a := a) (b := b) (y := p.2) (by omega : (0 : Int) ≤ q.1 + 1)
    (by omega : (q.1 : Int) + 1 ≤ p.1)
  rw [hrow] at hcolumn hin
  unfold excess at hin hout hcolumn
  have hbetween : (0 : Int) ≤ b * b * (2 * q.1 + 1) := by positivity
  have habove : (0 : Int) ≤ a * a * (2 * q.2 + 1) := by positivity
  ring_nf at hin hout hcolumn hbetween habove
  omega

end

/-! ## Both arcs -/

section

variable (ha : 0 < a) (hb : 0 < b)

include ha hb

theorem ends_meet {m : Nat} (hn : ∀ i ≤ n, InArc a b i) (hnlast : ¬ InArc a b (n + 1))
    (hm : ∀ j ≤ m, InArc b a j) (hmlast : ¬ InArc b a (m + 1)) (htouch : ArcsTouch a b) :
    ((row b a m).toNat, m) = (n, (row a b n).toNat) ∨
      Step ((row b a m).toNat, m) (n, (row a b n).toNat) := by
  have hp := (flat_iff ha hb hn hnlast (n, (row a b n).toNat)).mpr ⟨n, Nat.le_refl n, rfl⟩
  have hq := (flat_iff hb ha hm hmlast (m, (row b a m).toNat)).mpr ⟨m, Nat.le_refl m, rfl⟩
  obtain ⟨p, q, hp', hq', -, hright, hup, -⟩ := htouch
  obtain ⟨i, hi, rfl⟩ := (flat_iff ha hb hn hnlast p).mp hp'
  obtain ⟨j, hj, rfl⟩ := columns_swap.mp ((flat_iff hb ha hm hmlast q.swap).mp hq')
  have hfall := (falls ha hb hn).le hi
  have hfall' := (falls hb ha hm).le hj
  dsimp only at hfall hfall' hright hup
  have hcolumn : n ≤ (row b a m).toNat :=
    ends_in_order ha hb (q := ((row b a m).toNat, m)) hp hq (by dsimp only; omega)
  have hrow : m ≤ (row a b n).toNat :=
    ends_in_order hb ha (q := ((row a b n).toNat, n)) hq hp (by dsimp only; omega)
  by_cases hsame : ((row b a m).toNat, m) = (n, (row a b n).toNat)
  · exact .inl hsame
  · refine .inr ⟨?_, ?_, hsame⟩ <;> dsimp only <;> omega

theorem quarter (htouch : ArcsTouch a b) :
    Quarter a b fun q => Flat a b q ∨ Flat b a q.swap := by
  obtain ⟨n, hn, hnlast⟩ := exists_last ha hb
  obtain ⟨m, hm, hmlast⟩ := exists_last hb ha
  have hquarter : Quarter a b _ := quarter_of_arcs (falls ha hb hn) (falls hb ha hm)
    (ends_meet ha hb hn hnlast hm hmlast htouch)
  refine hquarter.congr fun q => ?_
  rw [flat_iff ha hb hn hnlast, flat_iff hb ha hm hmlast, columns_swap]

theorem flat_top {y : Nat} (h : Flat a b (0, y)) : y = b := by
  obtain ⟨n, hn, hnlast⟩ := exists_last ha hb
  obtain ⟨i, -, hi⟩ := (flat_iff ha hb hn hnlast _).mp h
  obtain ⟨rfl, hy⟩ := Prod.mk.inj hi
  exact hy.trans (Int.toNat_natCast b)

theorem flat_off_axis {x : Nat} (h : Flat a b (x, 0)) : False := by
  have hflat : b * b * x ≤ a * a * 0 := h.2.2
  have hzero : x = 0 := by
    rw [Nat.mul_zero, Nat.le_zero, Nat.mul_eq_zero] at hflat
    exact hflat.resolve_left (by positivity)
  subst hzero
  exact Nat.ne_of_lt hb (flat_top ha hb h)

end

theorem flat_pos {q : Nat × Nat} (h : Flat a b q) : 0 < a ∧ 0 < b := by
  have hin := h.1
  refine ⟨Nat.pos_of_ne_zero ?_, Nat.pos_of_ne_zero ?_⟩
  · rintro rfl
    have hcolumns : (0 : Int) ≤ b * b * (q.1 * q.1) := by positivity
    unfold excess at hin
    ring_nf at hin hcolumns
    omega
  · rintro rfl
    have hrows := mul_nonneg (square_nonneg a)
      (add_nonneg (mul_self_nonneg (q.2 : Int)) (mul_self_nonneg ((q.2 : Int) - 1)))
    unfold excess at hin
    ring_nf at hin hrows
    omega

end keychron_qmk.ellipse_arc
