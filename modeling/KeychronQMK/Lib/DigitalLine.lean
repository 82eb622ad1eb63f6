-- Lines of points of the grid: what makes a list of points one, and the walk of Bresenham
-- with its error, which gives one for every slope.
import Mathlib.Algebra.Order.Field.Basic
import Mathlib.Algebra.Order.Ring.Rat
import Mathlib.Data.List.Nodup
import Mathlib.Data.List.Range
import Mathlib.Tactic.FieldSimp
import Mathlib.Tactic.Linarith
import Mathlib.Tactic.Ring

namespace keychron_qmk.digital_line

abbrev Point := Int × Int

/-! ## Lines -/

/-- Next to each other, at a side or at a corner. -/
def Touching (p q : Point) : Prop := p ≠ q ∧ |q.1 - p.1| ≤ 1 ∧ |q.2 - p.2| ≤ 1

/-- The place of the segment at a part of the way. -/
def along (p q : Point) (t : ℚ) : ℚ × ℚ := (p.1 + t * (q.1 - p.1), p.2 + t * (q.2 - p.2))

def HalfStep (p q r : Point) : Prop :=
  ∃ t, 0 ≤ t ∧ t ≤ 1 ∧
    if |q.2 - p.2| ≤ |q.1 - p.1| then (along p q t).1 = r.1 ∧ |(along p q t).2 - r.2| ≤ 1 / 2
    else (along p q t).2 = r.2 ∧ |(along p q t).1 - r.1| ≤ 1 / 2

/-- The points of a line between two points, in their order. -/
structure Line (p q : Point) (points : List Point) : Prop where
  length : (points.length : Int) = max |q.1 - p.1| |q.2 - p.2| + 1
  nodup : points.Nodup
  first : p ∈ points
  last : q ∈ points
  connected : points.IsChain Touching
  near : ∀ r ∈ points, HalfStep p q r

theorem HalfStep.symm {p q r : Point} (h : HalfStep p q r) : HalfStep q p r := by
  obtain ⟨t, hzero, hone, hnear⟩ := h
  have hback : along q p (1 - t) = along p q t := by
    unfold along
    ext <;> dsimp only <;> ring
  refine ⟨1 - t, by linarith, by linarith, ?_⟩
  rwa [hback, abs_sub_comm p.1, abs_sub_comm p.2]

theorem Line.symm {p q : Point} {points : List Point} (h : Line p q points) :
    Line q p points where
  length := by rw [h.length, abs_sub_comm q.1, abs_sub_comm q.2]
  nodup := h.nodup
  first := h.last
  last := h.first
  connected := h.connected
  near r hr := (h.near r hr).symm

/-! ## The walk -/

/-- The error after some steps in both directions, on the way to a point. -/
def err (w h : Nat) (a : Nat × Nat) : Int := (a.2 + 1) * w - (a.1 + 1) * h

/-- A turn steps in one direction, or in both. -/
def next (w h : Nat) (a : Nat × Nat) : Nat × Nat :=
  (if -h ≤ 2 * err w h a then a.1 + 1 else a.1, if 2 * err w h a ≤ w then a.2 + 1 else a.2)

def walk (w h : Nat) : Nat → Nat × Nat
  | 0 => (0, 0)
  | n + 1 => next w h (walk w h n)

section

variable {w h n : Nat} {a : Nat × Nat}

theorem err_swap : err h w a.swap = -err w h a := by
  unfold err
  dsimp only [Prod.fst_swap, Prod.snd_swap]
  ring

theorem next_swap : next h w a.swap = (next w h a).swap := by
  unfold next
  rw [err_swap]
  ext <;> simp only [Prod.fst_swap, Prod.snd_swap] <;> congr 1 <;> rw [eq_iff_iff] <;> omega

theorem walk_swap : walk h w n = (walk w h n).swap := by
  induction n with
  | zero => rfl
  | succ n ih => rw [walk, ih, next_swap, walk]

theorem err_next : err w h (next w h a) = err w h a +
    (if 2 * err w h a ≤ w then (w : Int) else 0) -
      (if -h ≤ 2 * err w h a then (h : Int) else 0) := by
  unfold next
  unfold err
  split <;> split <;> push_cast <;> ring

/-- On the way to a point that is not higher than wide, each turn steps to the side and
stays within half a step of the slope. -/
theorem walk_flat (hhw : h ≤ w) (n : Nat) :
    (walk w h n).1 = n ∧
      |2 * (err w h (walk w h n) - w + h)| ≤ w := by
  induction n with
  | zero =>
    refine ⟨rfl, ?_⟩
    unfold err walk
    simp
  | succ n ih =>
    obtain ⟨hfirst, herr⟩ := ih
    rw [walk, err_next]
    rw [abs_le] at herr ⊢
    have hside : -(h : Int) ≤ 2 * err w h (walk w h n) := by omega
    refine ⟨?_, ?_⟩
    · unfold next
      rw [if_pos hside, hfirst]
    · rw [if_pos hside]
      split <;> omega

theorem walk_near (w h n : Nat) :
    (if h ≤ w then (walk w h n).1 else (walk w h n).2) = n ∧
      |2 * (err w h (walk w h n) - w + h)| ≤ max w h := by
  split
  · rename_i hhw
    rw [Nat.max_eq_left hhw]
    exact walk_flat hhw n
  · rename_i hwh
    obtain ⟨hfirst, herr⟩ := walk_flat (Nat.le_of_not_le hwh) n
    rw [walk_swap, err_swap] at herr
    rw [walk_swap] at hfirst
    refine ⟨hfirst, ?_⟩
    rw [abs_le] at herr ⊢
    omega

theorem walk_injective : Function.Injective (walk w h) := by
  intro n m heq
  rw [← (walk_near w h n).1, ← (walk_near w h m).1, heq]

theorem walk_mono : Monotone (walk w h) := by
  refine monotone_nat_of_le_succ fun n => ?_
  rw [walk, Prod.le_def]
  unfold next
  constructor <;> dsimp only <;> split <;> omega

theorem walk_end_flat (hhw : h ≤ w) : walk w h w = (w, h) := by
  obtain ⟨hfirst, hnear⟩ := walk_flat hhw w
  ext
  · exact hfirst
  · rcases Nat.eq_zero_or_pos w with rfl | hpos
    · obtain rfl := Nat.le_zero.mp hhw
      rfl
    · -- Half a step is less than one.
      have herr : err w h (walk w h w) - w + h = w * ((walk w h w).2 - h) := by
        unfold err
        rw [hfirst]
        ring
      rw [herr, abs_le] at hnear
      have hlow : -1 < ((walk w h w).2 : Int) - h := by
        by_contra hle
        have := Int.mul_le_mul_of_nonneg_left (not_lt.mp hle) (Int.natCast_nonneg w)
        omega
      have hhigh : ((walk w h w).2 : Int) - h < 1 := by
        by_contra hge
        have := Int.mul_le_mul_of_nonneg_left (not_lt.mp hge) (Int.natCast_nonneg w)
        omega
      omega

theorem walk_end (w h : Nat) : walk w h (max w h) = (w, h) := by
  rcases Nat.le_total h w with hhw | hwh
  · rw [Nat.max_eq_left hhw, walk_end_flat hhw]
  · rw [Nat.max_eq_right hwh, walk_swap, walk_end_flat hwh, Prod.swap_prod_mk]

theorem walk_le (hn : n ≤ max w h) : (walk w h n).1 ≤ w ∧ (walk w h n).2 ≤ h := by
  have hle : walk w h n ≤ walk w h (max w h) := walk_mono hn
  rwa [walk_end, Prod.le_def] at hle

theorem walk_side (hn : n ≤ w) : walk w 0 n = (n, 0) := by
  obtain ⟨hmajor, -⟩ := walk_near w 0 n
  obtain ⟨-, hsecond⟩ := walk_le (hn.trans (Nat.le_max_left w 0))
  exact Prod.ext hmajor (Nat.le_zero.mp hsecond)

theorem walk_up (hn : n ≤ h) : walk 0 h n = (0, n) := by
  rw [walk_swap, walk_side hn, Prod.swap_prod_mk]

theorem walk_ne_end (hn : n < max w h) : walk w h n ≠ (w, h) := by
  rw [← walk_end]
  exact fun heq => Nat.ne_of_lt hn (walk_injective heq)

/-! ## The line of the walk -/

/-- The point after some steps from another, which go up or down on each axis. -/
def step (p : Point) (sx sy : Int) (a : Nat × Nat) : Point := (p.1 + sx * a.1, p.2 + sy * a.2)

variable {p : Point} {sx sy : Int}

theorem step_injective (hsx : |sx| = 1) (hsy : |sy| = 1) : Function.Injective (step p sx sy) := by
  intro a b heq
  unfold step at heq
  rw [Prod.mk.injEq, Int.add_right_inj, Int.add_right_inj] at heq
  have hx : sx ≠ 0 := by rintro rfl; exact absurd hsx (by decide)
  have hy : sy ≠ 0 := by rintro rfl; exact absurd hsy (by decide)
  have hfirst := Int.eq_of_mul_eq_mul_left hx heq.1
  have hsecond := Int.eq_of_mul_eq_mul_left hy heq.2
  ext <;> omega

theorem step_touching (hsx : |sx| = 1) (hsy : |sy| = 1) (n : Nat) :
    Touching (step p sx sy (walk w h n)) (step p sx sy (walk w h (n + 1))) := by
  refine ⟨fun heq => ?_, ?_, ?_⟩
  · exact Nat.succ_ne_self n (walk_injective (step_injective hsx hsy heq)).symm
  all_goals
    rw [walk]
    unfold step next
    dsimp only
  · rw [add_sub_add_left_eq_sub, ← mul_sub, abs_mul, hsx, one_mul]
    split <;> push_cast <;> simp
  · rw [add_sub_add_left_eq_sub, ← mul_sub, abs_mul, hsy, one_mul]
    split <;> push_cast <;> simp

/-- The part of the way at which the longer axis has gone some steps, and the other one
half a step more or less. -/
theorem exists_part {b : Nat} (hn : n ≤ w) (hb : b ≤ w)
    (hnear : |2 * ((b : Int) * w - n * h)| ≤ w) :
    ∃ t : ℚ, 0 ≤ t ∧ t ≤ 1 ∧ t * w = n ∧ |t * h - b| ≤ 1 / 2 := by
  rcases Nat.eq_zero_or_pos w with rfl | hpos
  · obtain rfl := Nat.le_zero.mp hn
    obtain rfl := Nat.le_zero.mp hb
    exact ⟨0, le_refl 0, zero_le_one, by simp, by simp⟩
  · have hw : (0 : ℚ) < w := Nat.cast_pos.mpr hpos
    have hle : (n : ℚ) ≤ w := Nat.cast_le.mpr hn
    have hcast : |2 * ((b : ℚ) * w - n * h)| ≤ w := by exact_mod_cast hnear
    refine ⟨n / w, by positivity, (div_le_one hw).mpr hle, div_mul_cancel₀ _ hw.ne', ?_⟩
    have hquotient : (n : ℚ) / w * h - b = -(b * w - n * h) / w := by
      field_simp
      ring
    rw [hquotient, abs_div, abs_neg, abs_of_pos hw, div_le_iff₀ hw]
    rw [abs_mul, abs_two] at hcast
    linarith

theorem axis_distance (x s : Int) (m k : Nat) (t : ℚ) :
    (x : ℚ) + t * (((x + s * m : Int) : ℚ) - x) - ((x + s * k : Int) : ℚ) = s * (t * m - k) := by
  push_cast
  ring

theorem walk_half_step (hsx : |sx| = 1) (hsy : |sy| = 1) (hn : n ≤ max w h) :
    HalfStep p (step p sx sy (w, h)) (step p sx sy (walk w h n)) := by
  obtain ⟨hmajor, hnear⟩ := walk_near w h n
  obtain ⟨hfirst, hsecond⟩ := walk_le hn
  have hwide : |(step p sx sy (w, h)).1 - p.1| = w := by
    simp [step, abs_mul, hsx]
  have hhigh : |(step p sx sy (w, h)).2 - p.2| = h := by
    simp [step, abs_mul, hsy]
  have hx : |(sx : ℚ)| = 1 := by exact_mod_cast hsx
  have hy : |(sy : ℚ)| = 1 := by exact_mod_cast hsy
  unfold HalfStep along
  rw [hwide, hhigh]
  generalize hwalk : walk w h n = a at *
  unfold step
  split at hmajor
  · rename_i hhw
    have herr : err w h a - w + h = a.2 * w - n * h := by
      unfold err
      rw [hmajor]
      ring
    rw [Nat.max_eq_left hhw] at hnear hn
    obtain ⟨t, hzero, hone, hpart, hhalf⟩ :=
      exists_part hn (hsecond.trans hhw) (by rwa [herr] at hnear)
    refine ⟨t, hzero, hone, ?_⟩
    rw [if_pos (Int.ofNat_le.mpr hhw), axis_distance, abs_mul, hy, one_mul]
    refine ⟨sub_eq_zero.mp ?_, hhalf⟩
    rw [axis_distance, hpart, hmajor, sub_self, mul_zero]
  · rename_i hwh
    have hle := Nat.le_of_not_le hwh
    have herr : err w h a - w + h = -(a.1 * h - n * w) := by
      unfold err
      rw [hmajor]
      ring
    rw [Nat.max_eq_right hle] at hnear hn
    obtain ⟨t, hzero, hone, hpart, hhalf⟩ :=
      exists_part hn (hfirst.trans hle) (by rwa [herr, mul_neg, abs_neg] at hnear)
    refine ⟨t, hzero, hone, ?_⟩
    rw [if_neg (fun h => hwh (Int.ofNat_le.mp h)), axis_distance, abs_mul, hx, one_mul]
    refine ⟨sub_eq_zero.mp ?_, hhalf⟩
    rw [axis_distance, hpart, hmajor, sub_self, mul_zero]

theorem walk_line (hsx : |sx| = 1) (hsy : |sy| = 1) :
    Line p (step p sx sy (w, h))
      ((List.range (max w h + 1)).map fun n => step p sx sy (walk w h n)) where
  length := by
    simp [step, abs_mul, hsx, hsy]
  nodup := List.Nodup.map ((step_injective hsx hsy).comp walk_injective) List.nodup_range
  first := List.mem_map.mpr ⟨0, List.mem_range.mpr (Nat.succ_pos _), by simp [step, walk]⟩
  last := List.mem_map.mpr ⟨max w h, List.mem_range.mpr (Nat.lt_succ_self _), by rw [walk_end]⟩
  connected := by
    rw [List.isChain_map, List.isChain_range_succ]
    exact fun n _ => step_touching hsx hsy n
  near := by
    intro r hr
    obtain ⟨n, hn, rfl⟩ := List.mem_map.mp hr
    rw [List.mem_range, Nat.lt_succ_iff] at hn
    exact walk_half_step hsx hsy hn

end

end keychron_qmk.digital_line
