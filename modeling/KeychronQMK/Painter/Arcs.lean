-- The loops of circles and ellipses: the pixels of a whole call, and that they are a closed
-- curve unless the two arcs of an ellipse miss each other.
import KeychronQMK.Painter.Rounds

namespace keychron_qmk.painter.shapes

open digital_curve ellipse_arc

/-! ## The loop of an arc -/

section

variable {α : Type} {s : Panel α} {a b n k : Nat} {draw : Nat → Nat → Panel α → Panel α}
  {D : Nat × Nat → Pixel → Prop}

theorem int32_eq {x : Int} (hlow : -2 ^ 31 ≤ x) (hhigh : x < 2 ^ 31) : int32 x = x := by
  unfold int32
  rw [Int.bmod_eq_of_le] <;> omega

theorem int32_add (x y : Int) : int32 (int32 x + y) = int32 (x + y) := Int.bmod_add_bmod

/-- The loop of an arc ends behind this column, and no value of it is too large. -/
structure EndsAt (a b n : Nat) : Prop where
  flat : ∀ i ≤ n, InArc a b i
  last : ¬ InArc a b (n + 1)
  le : n ≤ a
  row_nonneg : ∀ i ≤ n, 0 ≤ row a b i
  delta : ∀ i ≤ n, -2 ^ 31 ≤ excess a b (i + 1) (row a b i) ∧
    excess a b (i + 1) (row a b i) < 2 ^ 31

theorem row_le (n : Nat) : row a b n ≤ b := by
  induction n with
  | zero => exact Int.le_refl _
  | succ n ih =>
    rw [row]
    split <;> omega

theorem square_le (ha : a ≤ 512) : (a * a : Int) ≤ 2 ^ 18 := by
  exact_mod_cast Nat.mul_self_le_mul_self ha

theorem ends_of_column (hb : 0 < b) (hb' : b ≤ 512) : EndsAt 0 b 0 ∧ EndsAt b 0 0 := by
  have hB : (0 : Int) < b * b := by positivity
  have hB' := square_le hb'
  have hexcess : excess 0 b 1 b = 2 * (b * b) := by
    unfold excess
    ring
  have hexcess' : excess b 0 1 0 = b * b := by
    unfold excess
    ring
  refine ⟨⟨?_, ?_, ?_, ?_, ?_⟩, ⟨?_, ?_, ?_, ?_, ?_⟩⟩
  · intro i hi
    obtain rfl := Nat.le_zero.mp hi
    simp [InArc]
  · simp [InArc]
    omega
  · exact Nat.zero_le _
  · intro i hi
    obtain rfl := Nat.le_zero.mp hi
    exact Int.natCast_nonneg b
  · intro i hi
    obtain rfl := Nat.le_zero.mp hi
    rw [row, Int.natCast_zero, Int.zero_add, hexcess]
    omega
  · intro i hi
    obtain rfl := Nat.le_zero.mp hi
    simp [InArc, row]
  · unfold InArc
    rw [row, row, Int.natCast_zero, Int.zero_add, hexcess', if_pos hB.le]
    omega
  · exact Nat.zero_le _
  · intro i hi
    obtain rfl := Nat.le_zero.mp hi
    exact Int.natCast_nonneg 0
  · intro i hi
    obtain rfl := Nat.le_zero.mp hi
    rw [row, Int.natCast_zero, Int.zero_add, hexcess']
    omega

theorem exists_end (ha : a ≤ 512) (hb : b ≤ 512) (hsome : 0 < a ∨ 0 < b) : ∃ n, EndsAt a b n := by
  have hB := square_nonneg b
  have hA' := square_le ha
  have hB' := square_le hb
  rcases Nat.eq_zero_or_pos a with rfl | hpos
  · exact ⟨0, (ends_of_column (hsome.resolve_left (Nat.lt_irrefl 0)) hb).1⟩
  rcases Nat.eq_zero_or_pos b with rfl | hpos'
  · exact ⟨0, (ends_of_column hpos ha).2⟩
  obtain ⟨n, hflat, hlast⟩ := exists_last hpos hpos'
  have hrows : ∀ i ≤ n, 0 ≤ row a b i := fun i hi => row_nonneg hpos hpos' (hflat i hi)
  refine ⟨n, hflat, hlast, (column_lt hpos hpos' hflat).le, hrows, fun i hi => ?_⟩
  obtain ⟨hin, hout⟩ := row_next hpos hpos' fun j hj => hflat j (Nat.le_trans hj hi)
  have hcolumn := column_lt hpos hpos' hflat
  have hle := row_le (a := a) (b := b) i
  rw [excess_up] at hout
  rw [excess_right]
  have hright : (b * b * (4 * i + 2) : Int) ≤ 2 ^ 18 * 2 ^ 12 :=
    mul_le_mul hB' (by omega) (by omega) (by omega)
  have hright' : (0 : Int) ≤ b * b * (4 * i + 2) := mul_nonneg hB (by omega)
  have hup : a * a * row a b i ≤ 2 ^ 18 * 2 ^ 9 :=
    mul_le_mul hA' (by omega) (hrows i hi) (by omega)
  omega

theorem guard_iff (hends : EndsAt a b n) (ha : a ≤ 512) (hb : b ≤ 512) (hk : k ≤ n + 1) :
    int32 ((b * b : Int) * k) ≤ int32 (a * a * row a b k) ↔ InArc a b k := by
  have hA := square_nonneg a
  have hB := square_nonneg b
  have hA' := square_le ha
  have hB' := square_le hb
  have hle := row_le (a := a) (b := b) k
  have hn := hends.le
  have hlow : -1 ≤ row a b k := by
    rcases Nat.le_succ_iff.mp hk with hk | rfl
    · have hrow := hends.row_nonneg k hk
      omega
    · have hrow := hends.row_nonneg n (Nat.le_refl n)
      rw [row]
      split <;> omega
  have hcolumn : (b * b * k : Int) ≤ 2 ^ 18 * 2 ^ 10 :=
    mul_le_mul hB' (by omega) (by omega) (by omega)
  have hcolumn' : (0 : Int) ≤ b * b * k := mul_nonneg hB (by omega)
  have hrow : a * a * row a b k ≤ a * a * 2 ^ 9 := mul_le_mul_of_nonneg_left (by omega) hA
  have hrow' : a * a * -1 ≤ a * a * row a b k := mul_le_mul_of_nonneg_left hlow hA
  rw [int32_eq (by omega) (by omega), int32_eq (by omega) (by omega)]
  exact Iff.rfl

/-- A turn of the loop. -/
theorem ellipse_turn (hends : EndsAt a b n) (ha : a ≤ 512) (hb : b ≤ 512) (hk : k ≤ n)
    (fuel : Nat) :
    ellipse_loop (a * a) (b * b) draw (fuel + 1) k (row a b k) (excess a b (k + 1) (row a b k)) s =
      ellipse_loop (a * a) (b * b) draw fuel (k + 1 : Nat) (row a b (k + 1))
        (int32 (excess a b (k + 2) (row a b (k + 1)))) (draw k (row a b k).toNat s) := by
  have hA' := square_le ha
  have hA := square_nonneg a
  have hle := row_le (a := a) (b := b) k
  have hrow := hends.row_nonneg k hk
  have hn := hends.le
  have hrising : uint16 k = k := uint16_natCast (by omega)
  have hfalling : uint16 (row a b k) = (row a b k).toNat := uint16_eq (by omega) (by omega)
  have hnext : int16 (k + 1) = (k + 1 : Nat) := int16_eq (by omega) (by omega)
  have hfa : int32 (4 * (a * a)) = 4 * (a * a) := int32_eq (by omega) (by omega)
  rw [ellipse_loop, if_pos ((guard_iff hends ha hb (Nat.le_succ_of_le hk)).mpr (hends.flat k hk))]
  dsimp only
  rw [hrising, hfalling, hnext, hfa, int32_add, row]
  by_cases hfall : 0 ≤ excess a b (k + 1) (row a b k)
  · have hdown : int16 (row a b k - 1) = row a b k - 1 := int16_eq (by omega) (by omega)
    have hdelta : excess a b (k + 1) (row a b k) + 4 * (a * a) * (1 - row a b k) +
        b * b * (4 * k + 6) = excess a b (k + 2) (row a b k - 1) := by
      unfold excess
      ring
    rw [if_pos hfall, if_pos hfall, hdown, hdelta]
  · have hdelta : excess a b (k + 1) (row a b k) + b * b * (4 * k + 6) =
        excess a b (k + 2) (row a b k) := by
      unfold excess
      ring
    rw [if_neg hfall, if_neg hfall, hdelta]

/-- The turns from a column on, and what they draw. -/
theorem ellipse_loop_draws (hends : EndsAt a b n) (ha : a ≤ 512) (hb : b ≤ 512)
    (hdraw : ∀ i ≤ n, ∀ s, Draws s (draw i (row a b i).toNat s) (fun _ => True)
      (D (i, (row a b i).toNat)))
    {m : Nat} (hk : k + m = n + 1) {delta : Int}
    (hdelta : k ≤ n → delta = excess a b (k + 1) (row a b k)) :
    ∃ s', (∀ fuel, m < fuel →
      ellipse_loop (a * a) (b * b) draw fuel k (row a b k) delta s = some s') ∧
      Draws s s' (fun _ => True) fun p => ∃ i, k ≤ i ∧ i ≤ n ∧ D (i, (row a b i).toNat) p := by
  induction m generalizing k s delta with
  | zero =>
    refine ⟨s, fun fuel hfuel => ?_, Draws.refl.congr fun p => ?_⟩
    · obtain ⟨fuel, rfl⟩ := Nat.exists_eq_succ_of_ne_zero (Nat.ne_of_gt hfuel)
      obtain rfl : k = n + 1 := hk
      rw [ellipse_loop, if_neg]
      exact (guard_iff hends ha hb (Nat.le_refl _)).not.mpr hends.last
    · refine iff_of_false not_false ?_
      rintro ⟨i, hi, hi', -⟩
      omega
  | succ m ih =>
    have hle : k ≤ n := by omega
    obtain rfl := hdelta hle
    have hvalue : k + 1 ≤ n → int32 (excess a b (k + 2) (row a b (k + 1))) =
        excess a b ((k + 1 : Nat) + 1) (row a b (k + 1)) := by
      intro hnext
      have hbounds := hends.delta (k + 1) hnext
      exact int32_eq hbounds.1 hbounds.2
    obtain ⟨s', hloop, hdraws⟩ := ih (s := draw k (row a b k).toNat s) (by omega) hvalue
    refine ⟨s', fun fuel hfuel => ?_, ((hdraw k hle s).trans hdraws).congr fun p => ?_⟩
    · obtain ⟨fuel, rfl⟩ := Nat.exists_eq_succ_of_ne_zero (Nat.ne_of_gt (Nat.zero_lt_of_lt hfuel))
      rw [ellipse_turn hends ha hb hle]
      exact hloop fuel (Nat.lt_of_succ_lt_succ hfuel)
    · constructor
      · rintro (hp | ⟨i, hi, hi', hp⟩)
        · exact ⟨k, Nat.le_refl k, hle, hp⟩
        · exact ⟨i, Nat.le_of_succ_le hi, hi', hp⟩
      · rintro ⟨i, hi, hi', hp⟩
        rcases Nat.eq_or_lt_of_le hi with rfl | hi
        · exact .inl hp
        · exact .inr ⟨i, hi, hi', hp⟩

variable (draw) in
theorem arc_draws (hends : EndsAt a b n) (ha : a ≤ 512) (hb : b ≤ 512)
    (hdraw : ∀ i ≤ n, ∀ s, Draws s (draw i (row a b i).toNat s) (fun _ => True)
      (D (i, (row a b i).toNat))) (s : Panel α) :
    ∃ s', (∀ fuel, 2 ^ 10 ≤ fuel → ellipse_loop (a * a) (b * b) draw fuel 0 (int16 b)
      (int32 (2 * (b * b) + a * a * (1 - 2 * b))) s = some s') ∧
      Draws s s' (fun _ => True) fun p => ∃ i ≤ n, D (i, (row a b i).toNat) p := by
  have hbounds := hends.delta 0 (Nat.zero_le n)
  have hn := hends.le
  have hdelta : int32 (2 * (b * b) + a * a * (1 - 2 * b)) =
      excess a b ((0 : Nat) + 1) (row a b 0) := by
    have hstart : (2 * (b * b) + a * a * (1 - 2 * b) : Int) =
        excess a b ((0 : Nat) + 1) (row a b 0) := by
      unfold excess row
      ring
    rw [hstart]
    exact int32_eq hbounds.1 hbounds.2
  obtain ⟨s', hloop, hdraws⟩ := ellipse_loop_draws hends ha hb hdraw (s := s) (m := n + 1)
    (Nat.zero_add _) fun _ => hdelta
  refine ⟨s', fun fuel hfuel => ?_, hdraws.congr fun p => by simp⟩
  rw [int16_eq (by omega) (by omega)]
  exact hloop fuel (by omega)

end

/-! ## An ellipse -/

section

variable {α : Type} {build : Build} {driver : painter_driver_t} {palette_convert : hsv888 → α}
  {s : Panel α} {filled : Bool} {K K' : Nat × Nat → Prop}

theorem placed_exists {x y : Nat} {p : Pixel} : placed x y (shaped filled K) p ↔
    ∃ q, K q ∧ placed x y (shaped filled (· = q)) p := by
  cases filled with
  | false =>
    constructor
    · exact fun h => ⟨_, h, rfl⟩
    · rintro ⟨q, hq, rfl⟩
      exact hq
  | true =>
    constructor
    · rintro ⟨column, hcolumn, hle⟩
      exact ⟨_, hcolumn, column, rfl, hle⟩
    · rintro ⟨q, hq, column, rfl, hle⟩
      exact ⟨column, hq, hle⟩

/-- The points of a quarter that the loops of an ellipse go through. -/
def arcs (a b n m : Nat) (q : Nat × Nat) : Prop :=
  columns (fun i => (row a b i).toNat) n q ∨ digital_curve.rows (fun j => (row b a j).toNat) m q

theorem arcs_touch {a b n m : Nat} (h : ClosedCurve a b (outline (arcs a b n m))) :
    ∃ p q : Nat × Nat, columns (fun i => (row a b i).toNat) n p ∧
      digital_curve.rows (fun j => (row b a j).toNat) m q ∧
      p.1 ≤ q.1 + 1 ∧ q.1 ≤ p.1 + 1 ∧ p.2 ≤ q.2 + 1 ∧ q.2 ≤ p.2 + 1 :=
  ClosedCurve.touch h ⟨_, 0, Nat.zero_le n, rfl⟩ ⟨_, 0, Nat.zero_le m, rfl⟩

theorem ellipse_draws {x y sizex sizey : UInt16} {n m : Nat}
    (hfits : (round_t.ellipse sizex sizey).Fits x y)
    (hends : EndsAt sizex.toNat sizey.toNat n) (hends' : EndsAt sizey.toNat sizex.toNat m)
    (color : hsv888) :
    ∃ s', (∀ fuel, 2 ^ 13 ≤ fuel →
      qp_ellipse build driver palette_convert fuel s x y sizex sizey color filled = some s') ∧
      Draws s s' (fun _ => True) (placed x.toNat y.toNat
        (shaped filled (arcs sizex.toNat sizey.toNat n m))) := by
  obtain ⟨⟨ha, hb⟩, hleft, hright, htop, hbottom⟩ := hfits
  dsimp only [round_t.sizex, round_t.sizey] at hleft hright htop hbottom
  have hn := hends.le
  have hm := hends'.le
  have hdraw : ∀ dx ≤ sizex.toNat, ∀ dy ≤ sizey.toNat, ∀ s : Panel α,
      Draws s (qp_ellipse_helper_impl build driver x.toNat y.toNat dx dy filled s) (fun _ => True)
        (placed x.toNat y.toNat (shaped filled (· = (dx, dy)))) :=
    fun dx hdx dy hdy s =>
      ellipse_helper_draws (by omega) (by omega) (by omega) (by omega) (by omega)
  obtain ⟨s', hloop, hdraws⟩ := arc_draws
    (fun dx dy => qp_ellipse_helper_impl build driver x.toNat y.toNat dx dy filled)
    (D := fun q => placed x.toNat y.toNat (shaped filled (· = q))) hends ha hb
    (fun i hi => hdraw i (by omega) _ (Int.toNat_le.mpr (row_le i)))
    (qp_internal_fill_pixdata build driver palette_convert s (max sizex.toNat sizey.toNat) color)
  obtain ⟨s'', hloop', hdraws'⟩ := arc_draws
    (fun dy dx => qp_ellipse_helper_impl build driver x.toNat y.toNat dx dy filled)
    (D := fun q => placed x.toNat y.toNat (shaped filled (· = q.swap))) hends' hb ha
    (fun j hj => hdraw _ (Int.toNat_le.mpr (row_le j)) j (by omega)) s'
  refine ⟨s'', fun fuel hfuel => ?_, (hdraws.trans hdraws').fill_pixdata.congr fun p => ?_⟩
  · have hA := square_nonneg sizex.toNat
    have hB := square_nonneg sizey.toNat
    have hA' := square_le ha
    have hB' := square_le hb
    unfold qp_ellipse
    dsimp only
    rw [int32_eq (by omega) (by omega), int32_eq (by omega) (by omega)]
    rw [hloop fuel (by omega)]
    exact hloop' fuel (by omega)
  · rw [placed_exists]
    constructor
    · rintro (⟨i, hi, hp⟩ | ⟨j, hj, hp⟩)
      · exact ⟨_, .inl ⟨i, hi, rfl⟩, hp⟩
      · exact ⟨_, .inr ⟨j, hj, rfl⟩, hp⟩
    · rintro ⟨q, ⟨i, hi, rfl⟩ | ⟨j, hj, rfl⟩, hp⟩
      · exact .inl ⟨i, hi, hp⟩
      · exact .inr ⟨j, hj, hp⟩

end

/-! ## A circle -/

def turned (radius : UInt16) : Nat → circle_t
  | 0 => circle_start radius
  | n + 1 => circle_next (turned radius n)

/-- The vertical offset after some turns. -/
def height (radius : UInt16) (n : Nat) : Nat := (turned radius n).ycalc.toNat

theorem circle_next_eq (c : circle_t) : (circle_next c).xcalc = int16 (c.xcalc + 1) ∧
    ((circle_next c).ycalc = c.ycalc ∨ (circle_next c).ycalc = int16 (c.ycalc - 1)) := by
  unfold circle_next
  split
  · exact ⟨rfl, .inl rfl⟩
  · exact ⟨rfl, .inr rfl⟩

section

variable {radius : UInt16} {n : Nat} (hr : radius.toNat < 2 ^ 12)

include hr

theorem turned_range (hn : n ≤ 2 ^ 12) : (turned radius n).xcalc = n ∧
    -(n : Int) ≤ (turned radius n).ycalc ∧ (turned radius n).ycalc ≤ radius.toNat := by
  induction n with
  | zero =>
    have hstart : int16 radius.toNat = radius.toNat := int16_eq (by omega) (by omega)
    refine ⟨rfl, ?_⟩
    rw [turned, circle_start, hstart]
    dsimp only
    omega
  | succ n ih =>
    obtain ⟨hx', hy⟩ := circle_next_eq (turned radius n)
    have hright : int16 ((turned radius n).xcalc + 1) = (n + 1 : Nat) :=
      (int16_eq (by omega) (by omega)).trans (by omega)
    have hdown : int16 ((turned radius n).ycalc - 1) = (turned radius n).ycalc - 1 :=
      int16_eq (by omega) (by omega)
    refine ⟨hx'.trans hright, ?_⟩
    rw [turned]
    omega

theorem turned_falls (hn : n ≤ 2 ^ 12) : (turned radius (n + 1)).ycalc = (turned radius n).ycalc ∨
    (turned radius (n + 1)).ycalc + 1 = (turned radius n).ycalc := by
  obtain ⟨-, hlow, hhigh⟩ := turned_range hr hn
  have hdown : int16 ((turned radius n).ycalc - 1) = (turned radius n).ycalc - 1 :=
    int16_eq (by omega) (by omega)
  have hy := (circle_next_eq (turned radius n)).2
  rw [turned]
  omega

end

/-- The loop of a circle ends behind this turn. -/
structure Crosses (radius : UInt16) (n : Nat) : Prop where
  before : ∀ i < n, (i : Int) < (turned radius i).ycalc
  last : (turned radius n).ycalc ≤ n
  le : n ≤ radius.toNat

theorem exists_crossing {radius : UInt16} (hr : radius.toNat < 2 ^ 12) : ∃ n, Crosses radius n := by
  have hsome : ∃ n : Nat, (turned radius n).ycalc ≤ n :=
    ⟨radius.toNat, (turned_range hr hr.le).2.2⟩
  exact ⟨Nat.find hsome, fun i hi => Int.not_le.mp (Nat.find_min hsome hi), Nat.find_spec hsome,
    Nat.find_min' hsome (turned_range hr hr.le).2.2⟩

namespace Crosses

variable {radius : UInt16} {n : Nat}

theorem row_nonneg (h : Crosses radius n) (hr : radius.toNat < 2 ^ 12) {i : Nat} (hi : i ≤ n) :
    0 ≤ (turned radius i).ycalc := by
  have hle := h.le
  rcases Nat.eq_zero_or_pos i with rfl | hpos
  · exact (turned_range hr (Nat.zero_le _)).2.1
  · obtain ⟨i, rfl⟩ := Nat.exists_eq_succ_of_ne_zero (Nat.ne_of_gt hpos)
    have hbefore := h.before i hi
    have hfall := turned_falls hr (n := i) (by omega)
    rw [Nat.succ_eq_add_one]
    omega

theorem falls (h : Crosses radius n) (hr : radius.toNat < 2 ^ 12) : Falls (height radius) n := by
  intro i hi
  have hle := h.le
  have hfall := turned_falls hr (n := i) (by omega)
  unfold height
  omega

theorem height_zero (hr : radius.toNat < 2 ^ 12) : height radius 0 = radius.toNat := by
  unfold height turned circle_start
  rw [int16_eq (by omega) (by omega), Int.toNat_natCast]

/-- The two arcs are a staircase. -/
theorem quarter (h : Crosses radius n) (hr : radius.toNat < 2 ^ 12) :
    Quarter radius.toNat radius.toNat fun q =>
      columns (height radius) n q ∨ digital_curve.rows (height radius) n q := by
  have hlast := h.last
  rcases Nat.eq_or_lt_of_le (show height radius n ≤ n by unfold height; omega) with hsame | hlt
  · have hquarter := quarter_of_arcs (h.falls hr) (h.falls hr) (.inl (by rw [hsame]))
    rwa [height_zero hr] at hquarter
  · -- The last turn passes the diagonal, and its points are those of the turn before.
    obtain ⟨m, rfl⟩ : ∃ m, n = m + 1 := ⟨n - 1, by omega⟩
    have hbefore := h.before m (Nat.lt_succ_self m)
    have hfall := h.falls hr m (Nat.lt_succ_self m)
    have hdiagonal : height radius m = m + 1 ∧ height radius (m + 1) = m := by
      have hheight : height radius m = (turned radius m).ycalc.toNat := rfl
      omega
    have hquarter := quarter_of_arcs (h.falls hr) (fun i hi => h.falls hr i (Nat.lt_succ_of_lt hi))
      (.inl (by rw [hdiagonal.1, hdiagonal.2]) : (height radius m, m) = _ ∨ _)
    rw [height_zero hr] at hquarter
    refine hquarter.congr fun q => or_congr_right' fun hq => ⟨?_, ?_⟩
    · rintro ⟨j, hj, rfl⟩
      exact ⟨j, Nat.le_succ_of_le hj, rfl⟩
    · rintro ⟨j, hj, rfl⟩
      rcases Nat.le_succ_iff.mp hj with hj | rfl
      · exact ⟨j, hj, rfl⟩
      · refine absurd ⟨m, Nat.le_succ m, ?_⟩ hq
        rw [hdiagonal.1, hdiagonal.2]

theorem once (h : Crosses radius n) (hr : radius.toNat < 2 ^ 12) (hpos : 0 < radius.toNat) {x : Nat}
    (hx : columns (height radius) n (x, 0) ∨ digital_curve.rows (height radius) n (x, 0)) :
    x = radius.toNat := by
  have hzero := height_zero hr
  rcases hx with ⟨i, hi, heq⟩ | ⟨j, hj, heq⟩
  · obtain ⟨rfl, hheight⟩ := Prod.mk.inj heq
    have hle := h.le
    -- On the horizontal axis there is the last turn alone, the first one.
    have hsecond : x ≤ 1 := by
      by_contra hlate
      have hbefore := h.before (x - 1) (by omega)
      have hfall := turned_falls hr (n := x - 1) (by omega)
      rw [Nat.sub_add_cancel (by omega)] at hfall
      unfold height at hheight
      omega
    rcases Nat.le_one_iff_eq_zero_or_eq_one.mp hsecond with rfl | rfl
    · omega
    · have hfall := h.falls hr 0 hi
      rw [Nat.zero_add] at hfall
      omega
  · obtain ⟨rfl, hj⟩ := Prod.mk.inj heq
    rw [← hj, hzero]

variable {α : Type} {s : Panel α} {draw : Nat → Nat → Panel α → Panel α} {D : Nat → Pixel → Prop}

variable (draw) in
theorem loop_draws (h : Crosses radius n) (hr : radius.toNat < 2 ^ 12)
    (hdraw : ∀ i ≤ n, ∀ s, Draws s (draw i (height radius i) s) (fun _ => True) (D i)) {m k : Nat}
    (hk : k + m = n) : ∃ s', (∀ fuel, m < fuel →
      circle_loop draw fuel (turned radius k) s = some s') ∧
      Draws s s' (fun _ => True) fun p => ∃ i, k < i ∧ i ≤ n ∧ D i p := by
  have hle := h.le
  induction m generalizing k s with
  | zero =>
    obtain rfl : k = n := hk
    refine ⟨s, fun fuel hfuel => ?_, Draws.refl.congr fun p => ?_⟩
    · obtain ⟨fuel, rfl⟩ := Nat.exists_eq_succ_of_ne_zero (Nat.ne_of_gt hfuel)
      have hx := (turned_range hr (n := k) (by omega)).1
      have hlast := h.last
      rw [circle_loop, if_neg (by omega)]
    · refine iff_of_false not_false ?_
      rintro ⟨i, hi, hi', -⟩
      omega
  | succ m ih =>
    have hx := (turned_range hr (n := k) (by omega)).1
    have hx' := (turned_range hr (n := k + 1) (by omega)).1
    have hhigh := (turned_range hr (n := k + 1) (by omega)).2.2
    have hrow := h.row_nonneg hr (i := k + 1) (by omega)
    have hbefore := h.before k (by omega)
    have hright : uint16 (turned radius (k + 1)).xcalc = k + 1 := uint16_eq hx' (by omega)
    have hheight : height radius (k + 1) = (turned radius (k + 1)).ycalc.toNat := rfl
    have hup : uint16 (turned radius (k + 1)).ycalc = height radius (k + 1) :=
      uint16_eq (by omega) (by omega)
    obtain ⟨s', hloop, hdraws⟩ :=
      ih (s := draw (k + 1) (height radius (k + 1)) s) (k := k + 1) (by omega)
    refine ⟨s', fun fuel hfuel => ?_, ((hdraw (k + 1) (by omega) s).trans hdraws).congr
      fun p => ?_⟩
    · obtain ⟨fuel, rfl⟩ := Nat.exists_eq_succ_of_ne_zero (Nat.ne_of_gt (Nat.zero_lt_of_lt hfuel))
      rw [circle_loop, if_pos (by omega)]
      dsimp only
      rw [← turned, hright, hup]
      exact hloop fuel (Nat.lt_of_succ_lt_succ hfuel)
    · constructor
      · rintro (hp | ⟨i, hi, hi', hp⟩)
        · exact ⟨k + 1, Nat.lt_succ_self k, by omega, hp⟩
        · exact ⟨i, Nat.lt_of_succ_lt hi, hi', hp⟩
      · rintro ⟨i, hi, hi', hp⟩
        rcases Nat.eq_or_lt_of_le (Nat.succ_le_of_lt hi) with rfl | hi
        · exact .inl hp
        · exact .inr ⟨i, hi, hi', hp⟩

end Crosses

section

variable {α : Type} {build : Build} {driver : painter_driver_t} {palette_convert : hsv888 → α}
  {s : Panel α} {filled : Bool} {K : Nat × Nat → Prop}

theorem circle_draws {x y radius : UInt16} {n : Nat} (hfits : (round_t.circle radius).Fits x y)
    (h : Crosses radius n) (color : hsv888) :
    ∃ s', (∀ fuel, 2 ^ 13 ≤ fuel →
      qp_circle build driver palette_convert fuel s x y radius color filled = some s') ∧
      Draws s s' (fun _ => True) (placed x.toNat y.toNat (shaped filled fun q =>
        columns (height radius) n q ∨ digital_curve.rows (height radius) n q)) := by
  obtain ⟨hr, hleft, hright, htop, hbottom⟩ := hfits
  dsimp only [round_t.sizex, round_t.sizey] at hr hleft hright htop hbottom
  have hle := h.le
  have hdraw : ∀ i ≤ n, ∀ s : Panel α, Draws s
      (qp_circle_helper_impl build driver x.toNat y.toNat i (height radius i) filled s)
      (fun _ => True) (placed x.toNat y.toNat
        (shaped filled fun q => q = (i, height radius i) ∨ q = (height radius i, i))) := by
    intro i hi s
    have hrange := (turned_range hr (n := i) (by omega)).2.2
    have hheight : max i (height radius i) ≤ radius.toNat := by
      unfold height
      omega
    exact circle_helper_draws (by omega) (by omega) (by omega) (by omega) (by omega)
  have hstart : int16 radius.toNat = radius.toNat := int16_eq (by omega) (by omega)
  have hzero : uint16 (circle_start radius).xcalc = 0 := rfl
  have hfirst : uint16 (circle_start radius).ycalc = height radius 0 := by
    rw [Crosses.height_zero hr, circle_start, hstart]
    exact uint16_natCast (by omega)
  obtain ⟨s', hloop, hdraws⟩ := h.loop_draws
    (fun dx dy => qp_circle_helper_impl build driver x.toNat y.toNat dx dy filled)
    (D := fun i => placed x.toNat y.toNat
      (shaped filled fun q => q = (i, height radius i) ∨ q = (height radius i, i))) hr hdraw
    (Nat.zero_add n) (s := qp_circle_helper_impl build driver x.toNat y.toNat 0 (height radius 0)
      filled (qp_internal_fill_pixdata build driver palette_convert s (radius.toNat * 2 + 1) color))
  refine ⟨s', fun fuel hfuel => ?_, ((hdraw 0 (Nat.zero_le n) _).trans hdraws).fill_pixdata.congr
    fun p => ?_⟩
  · unfold qp_circle
    dsimp only
    rw [hzero, hfirst]
    exact hloop fuel (by omega)
  · have hturns : (placed x.toNat y.toNat (shaped filled fun q => columns (height radius) n q ∨
        digital_curve.rows (height radius) n q) p) ↔ ∃ i ≤ n, placed x.toNat y.toNat
          (shaped filled fun q => q = (i, height radius i) ∨ q = (height radius i, i)) p := by
      rw [placed_exists]
      constructor
      · rintro ⟨q, ⟨i, hi, hq⟩ | ⟨i, hi, hq⟩, hp⟩
        · exact ⟨i, hi, placed_exists.mpr ⟨q, .inl hq, hp⟩⟩
        · exact ⟨i, hi, placed_exists.mpr ⟨q, .inr hq, hp⟩⟩
      · rintro ⟨i, hi, hp⟩
        obtain ⟨q, hq | hq, hp⟩ := placed_exists.mp hp
        · exact ⟨q, .inl ⟨i, hi, hq⟩, hp⟩
        · exact ⟨q, .inr ⟨i, hi, hq⟩, hp⟩
    rw [hturns]
    constructor
    · rintro (hp | ⟨i, -, hi, hp⟩)
      · exact ⟨0, Nat.zero_le n, hp⟩
      · exact ⟨i, hi, hp⟩
    · rintro ⟨i, hi, hp⟩
      rcases Nat.eq_zero_or_pos i with rfl | hpos
      · exact .inl hp
      · exact .inr ⟨i, hpos, hi, hp⟩

/-! ## The outlines -/

variable {x y radius : UInt16} {color : hsv888} {round : round_t}

theorem around_placed {x y : Nat} {O : Point → Prop}
    (hO : ∀ p, O p → -(x : Int) ≤ p.1 ∧ -(y : Int) ≤ p.2) : around x y (placed x y O) = O := by
  funext p
  refine propext ⟨?_, fun hp => ?_⟩
  · rintro ⟨q, hq, rfl⟩
    exact hq
  · obtain ⟨hx, hy⟩ := hO p hp
    have hcentre : (((p.1 + x).toNat : Int) - x, ((p.2 + y).toNat : Int) - y) = p :=
      Prod.ext (by dsimp only; omega) (by dsimp only; omega)
    refine ⟨((p.1 + x).toNat, (p.2 + y).toNat), ?_, hcentre.symm⟩
    unfold placed
    rwa [hcentre]

/-- A call that draws the points of a quarter has to do with these alone. -/
theorem draws_round_iff (hleft : round.sizex ≤ x.toNat) (htop : round.sizey ≤ y.toNat)
    (hK : ∀ q, K q → q.1 ≤ round.sizex ∧ q.2 ≤ round.sizey)
    (hdraws : ∀ filled, ∃ s', (∀ fuel, 2 ^ 13 ≤ fuel →
      qp_round build driver palette_convert fuel s x y color filled round = some s') ∧
      Draws s s' (fun _ => True) (placed x.toNat y.toNat (shaped filled K))) :
    DrawsRound build driver palette_convert s x y color round ↔
      ClosedCurve round.sizex round.sizey (outline K) ∧
        ∀ p, filling K p ↔ outline K p ∨ Encloses (outline K) p := by
  have houtline : around x.toNat y.toNat (placed x.toNat y.toNat (outline K)) = outline K := by
    refine around_placed fun p hp => ?_
    have hbound := hK _ hp
    omega
  have hfilling : around x.toNat y.toNat (placed x.toNat y.toNat (filling K)) = filling K := by
    refine around_placed fun p hp => ?_
    obtain ⟨column, hcolumn, hle⟩ := hp
    have hbound := hK _ hcolumn
    omega
  obtain ⟨t, hrun, hdrawn⟩ := hdraws false
  obtain ⟨t', hrun', hdrawn'⟩ := hdraws true
  constructor
  · rintro ⟨turns, s', s'', shape, full, hs', hs'', hshape, hfull, hclosed, hfills⟩
    obtain rfl : t = s' := Option.some_inj.mp
      ((hrun (max (2 ^ 13) turns) (Nat.le_max_left _ _)).symm.trans
        (hs' _ (Nat.le_max_right _ _)))
    obtain rfl : t' = s'' := Option.some_inj.mp
      ((hrun' (max (2 ^ 13) turns) (Nat.le_max_left _ _)).symm.trans
        (hs'' _ (Nat.le_max_right _ _)))
    obtain rfl : placed x.toNat y.toNat (outline K) = shape :=
      funext fun p => propext (hdrawn.unique hshape p)
    obtain rfl : placed x.toNat y.toNat (filling K) = full :=
      funext fun p => propext (hdrawn'.unique hfull p)
    rw [houtline] at hclosed hfills
    rw [hfilling] at hfills
    exact ⟨hclosed, hfills⟩
  · rintro ⟨hclosed, hfills⟩
    refine ⟨2 ^ 13, t, t', _, _, hrun, hrun', hdrawn, hdrawn', ?_, ?_⟩
    · rw [shaped_false, houtline]
      exact hclosed
    · rw [shaped_false, shaped_true, houtline, hfilling]
      exact hfills

theorem circle_closed (hfits : (round_t.circle radius).Fits x y) :
    DrawsRound build driver palette_convert s x y color (.circle radius) := by
  obtain ⟨n, hn⟩ := exists_crossing hfits.size
  have hquarter := hn.quarter hfits.size
  refine (draws_round_iff hfits.left hfits.top (fun q => hquarter.le_of_mem)
    fun filled => circle_draws hfits hn color).mpr
    ⟨hquarter.closed fun hpos _ => ⟨fun x hx => hn.once hfits.size hpos hx, fun y hy => ?_⟩,
      hquarter.fills⟩
  rcases hy with ⟨i, hi, heq⟩ | ⟨j, hj, heq⟩
  · exact hn.once hfits.size hpos (.inr ⟨i, hi, congrArg Prod.swap heq⟩)
  · exact hn.once hfits.size hpos (.inl ⟨j, hj, congrArg Prod.swap heq⟩)

/-! ## The ellipses -/

section Ellipse

variable {sizex sizey : UInt16} {n m : Nat} (hfits : (round_t.ellipse sizex sizey).Fits x y)

include hfits

theorem ellipse_iff (hends : EndsAt sizex.toNat sizey.toNat n)
    (hends' : EndsAt sizey.toNat sizex.toNat m) :
    DrawsRound build driver palette_convert s x y color (.ellipse sizex sizey) ↔
      ClosedCurve sizex.toNat sizey.toNat (outline (arcs sizex.toNat sizey.toNat n m)) ∧
        ∀ p, filling (arcs sizex.toNat sizey.toNat n m) p ↔
          outline (arcs sizex.toNat sizey.toNat n m) p ∨
            Encloses (outline (arcs sizex.toNat sizey.toNat n m)) p := by
  refine draws_round_iff hfits.left hfits.top ?_
    fun filled => ellipse_draws hfits hends hends' color
  rintro q (⟨i, hi, rfl⟩ | ⟨j, hj, rfl⟩)
  · exact ⟨Nat.le_trans hi hends.le, Int.toNat_le.mpr (row_le i)⟩
  · exact ⟨Int.toNat_le.mpr (row_le j), Nat.le_trans hj hends'.le⟩

/-- Where both half-axes have an extent the arcs have to touch. -/
theorem ellipse_closed_iff (ha : 0 < sizex.toNat) (hb : 0 < sizey.toNat) :
    DrawsRound build driver palette_convert s x y color (.ellipse sizex sizey) ↔
      ArcsTouch sizex.toNat sizey.toNat := by
  obtain ⟨hwide, hhigh⟩ := hfits.size
  obtain ⟨n, hends⟩ := exists_end hwide hhigh (.inl ha)
  obtain ⟨m, hends'⟩ := exists_end hhigh hwide (.inl hb)
  have hcolumns := flat_iff ha hb hends.flat hends.last
  have hrows : ∀ q : Nat × Nat, Flat sizey.toNat sizex.toNat q.swap ↔
      digital_curve.rows (fun j => (row sizey.toNat sizex.toNat j).toNat) m q :=
    fun q => (flat_iff hb ha hends'.flat hends'.last q.swap).trans columns_swap
  rw [ellipse_iff hfits hends hends']
  constructor
  · rintro ⟨hclosed, -⟩
    obtain ⟨p, q, hp, hq, hnear⟩ := arcs_touch hclosed
    exact ⟨p, q, (hcolumns p).mpr hp, (hrows q).mpr hq, hnear⟩
  · intro htouch
    have hquarter : Quarter _ _ (arcs sizex.toNat sizey.toNat n m) :=
      (quarter ha hb htouch).congr fun q => or_congr (hcolumns q) (hrows q)
    refine ⟨hquarter.closed fun _ _ => ⟨fun x hx => ?_, fun y hy => ?_⟩, hquarter.fills⟩
    · rcases hx with hx | hx
      · exact (flat_off_axis ha hb ((hcolumns (x, 0)).mpr hx)).elim
      · exact flat_top hb ha ((hrows (x, 0)).mpr hx)
    · rcases hy with hy | hy
      · exact flat_top ha hb ((hcolumns (0, y)).mpr hy)
      · exact (flat_off_axis hb ha ((hrows (0, y)).mpr hy)).elim

/-- Of a flat ellipse the two ends alone are drawn. -/
theorem flat_ellipse_closed_iff (hflat : sizex.toNat = 0 ∨ sizey.toNat = 0)
    (hsome : 0 < sizex.toNat ∨ 0 < sizey.toNat) :
    DrawsRound build driver palette_convert s x y color (.ellipse sizex sizey) ↔
      sizex.toNat + sizey.toNat = 1 := by
  obtain ⟨hwide, hhigh⟩ := hfits.size
  obtain ⟨hends, hends'⟩ :
      EndsAt sizex.toNat sizey.toNat 0 ∧ EndsAt sizey.toNat sizex.toNat 0 := by
    rcases hflat with hzero | hzero
    · rw [hzero]
      exact ends_of_column (by omega) hhigh
    · rw [hzero]
      exact (ends_of_column (by omega) hwide).symm
  rw [ellipse_iff hfits hends hends']
  constructor
  · rintro ⟨hclosed, -⟩
    obtain ⟨_, _, ⟨i, hi, rfl⟩, ⟨j, hj, rfl⟩, hnear⟩ := arcs_touch hclosed
    obtain rfl := Nat.le_zero.mp hi
    obtain rfl := Nat.le_zero.mp hj
    simp only [row, Int.toNat_natCast] at hnear
    omega
  · intro hone
    have hquarter : Quarter sizex.toNat sizey.toNat (arcs sizex.toNat sizey.toNat 0 0) :=
      quarter_of_arcs (f := fun i => (row sizex.toNat sizey.toNat i).toNat)
        (g := fun j => (row sizey.toNat sizex.toNat j).toNat)
        (fun i hi => absurd hi (Nat.not_lt_zero i))
        (fun i hi => absurd hi (Nat.not_lt_zero i)) (.inr ⟨?_, ?_, ?_⟩)
    · exact ⟨hquarter.closed fun ha hb => by omega, hquarter.fills⟩
    all_goals
      simp only [row, Int.toNat_natCast, ne_eq, Prod.mk.injEq]
      omega

end Ellipse

theorem ellipse_loop_zero {draw : Nat → Nat → Panel α → Panel α} (fuel : Nat)
    (rising falling delta : Int) : ellipse_loop 0 0 draw fuel rising falling delta s = none := by
  induction fuel generalizing rising falling delta s with
  | zero => rfl
  | succ fuel ih =>
    rw [ellipse_loop, Int.zero_mul, Int.zero_mul, if_pos (Int.le_refl _)]
    dsimp only
    rw [ih, ih, ite_self]

theorem no_ellipse {sizex sizey : UInt16} (hx : sizex.toNat = 0) (hy : sizey.toNat = 0) :
    ¬ DrawsRound build driver palette_convert s x y color (.ellipse sizex sizey) := by
  rintro ⟨turns, s', -, -, -, hrun, -⟩
  have hsome := hrun turns (Nat.le_refl _)
  have hzero : int32 (((0 : Nat) : Int) * (0 : Nat)) = 0 := rfl
  unfold qp_round qp_ellipse at hsome
  dsimp only at hsome
  rw [hx, hy, hzero, ellipse_loop_zero] at hsome
  exact absurd hsome (Option.some_ne_none s').symm

/-- The outline is a closed curve and the filled shape is what it encloses, for a circle
always, and for an ellipse when its arcs touch or it is a line of three pixels. -/
theorem rounds_are_closed_iff (build : Build) (driver : painter_driver_t)
    (palette_convert : hsv888 → α) (s : Panel α) (x y : UInt16) (color : hsv888)
    (round : round_t) (hfits : round.Fits x y) :
    DrawsRound build driver palette_convert s x y color round ↔ round.Meets := by
  cases round with
  | circle radius => exact iff_of_true (circle_closed hfits) trivial
  | ellipse sizex sizey =>
    have hextent : ArcsTouch sizex.toNat sizey.toNat → 0 < sizex.toNat ∧ 0 < sizey.toNat := by
      rintro ⟨p, q, hp, -⟩
      exact flat_pos hp
    unfold round_t.Meets
    dsimp only
    by_cases hpos : 0 < sizex.toNat ∧ 0 < sizey.toNat
    · rw [ellipse_closed_iff hfits hpos.1 hpos.2, or_iff_right (by omega), or_iff_right (by omega)]
    have hnot : ¬ ArcsTouch sizex.toNat sizey.toNat := fun htouch => hpos (hextent htouch)
    by_cases hzero : sizex.toNat = 0 ∧ sizey.toNat = 0
    · refine iff_of_false (no_ellipse hzero.1 hzero.2) ?_
      rintro (h | h | h)
      · omega
      · omega
      · exact hnot h
    · rw [flat_ellipse_closed_iff hfits (by omega) (by omega), or_iff_left hnot]
      omega

end

theorem an_ellipse_with_touching_arcs_is_closed :
    DrawsRound default_build rgb565_driver id empty_panel 40 30 ⟨1, 2, 3⟩ (.ellipse 3 2) :=
  (rounds_are_closed_iff default_build rgb565_driver id empty_panel 40 30 ⟨1, 2, 3⟩ (.ellipse 3 2)
    ⟨⟨by decide, by decide⟩, by decide, by decide, by decide, by decide⟩).mpr
    (.inr (.inr ⟨(2, 1), (3, 1), ⟨by decide, by decide, by decide⟩,
      ⟨by decide, by decide, by decide⟩, by decide⟩))

/-- The points at the top and the bottom are two rows away from the others. -/
theorem a_narrow_ellipse_is_not_closed :
    ¬ DrawsRound default_build rgb565_driver id empty_panel 40 30 ⟨1, 2, 3⟩ (.ellipse 1 4) := by
  rw [ellipse_closed_iff ⟨⟨by decide, by decide⟩, by decide, by decide, by decide, by decide⟩
    (by decide) (by decide)]
  rintro ⟨p, q, hp, hq, -, -, hnear, -⟩
  have harc : ∀ i ≤ 0, InArc 1 4 i := by
    unfold InArc
    decide
  have harc' : ∀ j ≤ 2, InArc 4 1 j := by
    unfold InArc
    decide
  have hlast : ¬ InArc 1 4 (0 + 1) := by
    unfold InArc
    decide
  have hlast' : ¬ InArc 4 1 (2 + 1) := by
    unfold InArc
    decide
  obtain ⟨i, hi, rfl⟩ := (flat_iff (by decide) (by decide) harc hlast p).mp hp
  obtain ⟨j, hj, hq⟩ := (flat_iff (by decide) (by decide) harc' hlast' q.swap).mp hq
  obtain rfl := Nat.le_zero.mp hi
  have htop : (row 1 4 0).toNat = 4 := rfl
  have hheight : q.2 = j := congrArg Prod.fst hq
  dsimp only at hnear
  omega

end keychron_qmk.painter.shapes
