-- Circles (`quantum/painter/qp_draw_circle.c`) and ellipses (`qp_draw_ellipse.c`): the loops
-- with their errors, and the pixels of one turn of them in all four quarters.
import KeychronQMK.Lib.EllipseArc
import KeychronQMK.Painter.Lines

namespace keychron_qmk.painter.shapes

open digital_curve ellipse_arc

def int32 (x : Int) : Int := x.bmod (2 ^ 32)

section

variable {α : Type} (build : Build) (driver : painter_driver_t) (palette_convert : hsv888 → α)

def set_pixels (pixels : List (Int × Int)) (s : Panel α) : Panel α :=
  pixels.foldl (fun s p => qp_internal_setpixel_impl s (uint16 p.1) (uint16 p.2)) s

def fill_rows (rows : List (Int × Int × Int)) (s : Panel α) : Panel α :=
  rows.foldl (fun s r => qp_internal_fillrect_helper_impl build driver s (uint16 r.1)
    (uint16 r.2.2) (uint16 r.2.1) (uint16 r.2.2)) s

/-! ## Circles -/

def qp_circle_helper_impl (centerx centery offsetx offsety : Nat) (filled : Bool) (s : Panel α) :
    Panel α :=
  let xpx := int16 (int16 centerx + int16 offsetx)
  let xmx := int16 (int16 centerx - int16 offsetx)
  let xpy := int16 (int16 centerx + int16 offsety)
  let xmy := int16 (int16 centerx - int16 offsety)
  let ypx := int16 (int16 centery + int16 offsetx)
  let ymx := int16 (int16 centery - int16 offsetx)
  let ypy := int16 (int16 centery + int16 offsety)
  let ymy := int16 (int16 centery - int16 offsety)
  if offsetx = 0 then
    let s := set_pixels [(centerx, ypy), (centerx, ymy)] s
    if filled then fill_rows build driver [(xpy, xmy, centery)] s
    else set_pixels [(xpy, centery), (xmy, centery)] s
  else if offsetx = offsety then
    if filled then fill_rows build driver [(xpy, xmy, ypy), (xpy, xmy, ymy)] s
    else set_pixels [(xpy, ypy), (xmy, ypy), (xpy, ymy), (xmy, ymy)] s
  else
    if filled then
      fill_rows build driver [(xpx, xmx, ypy), (xpx, xmx, ymy), (xpy, xmy, ypx), (xpy, xmy, ymx)] s
    else
      set_pixels [(xpx, ypy), (xmx, ypy), (xpx, ymy), (xmx, ymy), (xpy, ypx), (xmy, ypx),
        (xpy, ymx), (xmy, ymx)] s

structure circle_t where
  xcalc : Int
  ycalc : Int
  err : Int

/-- A turn of the loop before its pixels. -/
def circle_next (c : circle_t) : circle_t :=
  let xcalc := int16 (c.xcalc + 1)
  if c.err < 0 then { c with xcalc, err := int16 (c.err + (2 * xcalc + 1)) }
  else
    let ycalc := int16 (c.ycalc - 1)
    ⟨xcalc, ycalc, int16 (c.err + (2 * (xcalc - ycalc) + 1))⟩

def circle_loop (draw : Nat → Nat → Panel α → Panel α) :
    Nat → circle_t → Panel α → Option (Panel α)
  | 0, _, _ => none
  | fuel + 1, c, s =>
    if c.xcalc < c.ycalc then
      let c := circle_next c
      circle_loop draw fuel c (draw (uint16 c.xcalc) (uint16 c.ycalc) s)
    else some s

def circle_start (radius : UInt16) : circle_t :=
  ⟨0, int16 radius.toNat, int16 ((5 - radius.toNat / 4) / 4)⟩

def qp_circle (fuel : Nat) (s : Panel α) (x y radius : UInt16) (color : hsv888) (filled : Bool) :
    Option (Panel α) :=
  let draw := fun offsetx offsety =>
    qp_circle_helper_impl build driver x.toNat y.toNat offsetx offsety filled
  let c := circle_start radius
  let s := qp_internal_fill_pixdata build driver palette_convert s (radius.toNat * 2 + 1) color
  circle_loop draw fuel c (draw (uint16 c.xcalc) (uint16 c.ycalc) s)

/-! ## Ellipses -/

def qp_ellipse_helper_impl (centerx centery offsetx offsety : Nat) (filled : Bool)
    (s : Panel α) : Panel α :=
  let xpx := int16 (int16 centerx + int16 offsetx)
  let xmx := int16 (int16 centerx - int16 offsetx)
  let ypy := int16 (int16 centery + int16 offsety)
  let ymy := int16 (int16 centery - int16 offsety)
  if offsetx = 0 then set_pixels [(xpx, ypy), (xpx, ymy)] s
  else if filled then
    let s := fill_rows build driver [(xpx, xmx, ypy)] s
    if 0 < offsety then fill_rows build driver [(xpx, xmx, ymy)] s else s
  else set_pixels [(xpx, ypy), (xpx, ymy), (xmx, ypy), (xmx, ymy)] s

/-- The loop of one arc, for some turns at most: the one offset rises from 0, and the other
one falls. -/
def ellipse_loop (aa bb : Int) (draw : Nat → Nat → Panel α → Panel α) :
    Nat → Int → Int → Int → Panel α → Option (Panel α)
  | 0, _, _, _, _ => none
  | fuel + 1, rising, falling, delta, s =>
    if int32 (bb * rising) ≤ int32 (aa * falling) then
      let s := draw (uint16 rising) (uint16 falling) s
      let fa := int32 (4 * aa)
      if 0 ≤ delta then
        ellipse_loop aa bb draw fuel (int16 (rising + 1)) (int16 (falling - 1))
          (int32 (int32 (delta + fa * (1 - falling)) + bb * (4 * rising + 6))) s
      else
        ellipse_loop aa bb draw fuel (int16 (rising + 1)) falling
          (int32 (delta + bb * (4 * rising + 6))) s
    else some s

def qp_ellipse (fuel : Nat) (s : Panel α) (x y sizex sizey : UInt16) (color : hsv888)
    (filled : Bool) : Option (Panel α) :=
  let aa := int32 (sizex.toNat * sizex.toNat)
  let bb := int32 (sizey.toNat * sizey.toNat)
  let draw := fun dx dy => qp_ellipse_helper_impl build driver x.toNat y.toNat dx dy filled
  let s := qp_internal_fill_pixdata build driver palette_convert s
    (max sizex.toNat sizey.toNat) color
  (ellipse_loop aa bb (fun dx dy => draw dx dy) fuel 0 (int16 sizey.toNat)
    (int32 (2 * bb + aa * (1 - 2 * sizey.toNat))) s).bind fun s =>
  ellipse_loop bb aa (fun dy dx => draw dx dy) fuel 0 (int16 sizex.toNat)
    (int32 (2 * aa + bb * (1 - 2 * sizex.toNat))) s

/-! ## The shapes -/

inductive round_t where
  | circle (radius : UInt16)
  | ellipse (sizex sizey : UInt16)

def round_t.sizex : round_t → Nat
  | .circle radius => radius.toNat
  | .ellipse sizex _ => sizex.toNat

def round_t.sizey : round_t → Nat
  | .circle radius => radius.toNat
  | .ellipse _ sizey => sizey.toNat

def qp_round (fuel : Nat) (s : Panel α) (x y : UInt16) (color : hsv888) (filled : Bool) :
    round_t → Option (Panel α)
  | .circle radius => qp_circle build driver palette_convert fuel s x y radius color filled
  | .ellipse sizex sizey =>
    qp_ellipse build driver palette_convert fuel s x y sizex sizey color filled

def around (x y : Nat) (shape : Pixel → Prop) (p : Point) : Prop :=
  ∃ q, shape q ∧ p = ((q.1 : Int) - x, (q.2 : Int) - y)

/-- The call comes to an end, the outline is a closed curve, and what is filled is the outline
with what it encloses. -/
def DrawsRound (s : Panel α) (x y : UInt16) (color : hsv888) (round : round_t) : Prop :=
  ∃ turns s' s'' shape filling,
    (∀ fuel, turns ≤ fuel →
      qp_round build driver palette_convert fuel s x y color false round = some s') ∧
    (∀ fuel, turns ≤ fuel →
      qp_round build driver palette_convert fuel s x y color true round = some s'') ∧
    Draws s s' (fun _ => True) shape ∧ Draws s s'' (fun _ => True) filling ∧
    ClosedCurve round.sizex round.sizey (around x.toNat y.toNat shape) ∧
    ∀ p, around x.toNat y.toNat filling p ↔
      around x.toNat y.toNat shape p ∨ Encloses (around x.toNat y.toNat shape) p

end

/-- A circle, a line of three pixels, or an ellipse whose arcs touch. -/
def round_t.Meets : round_t → Prop
  | .circle _ => True
  | .ellipse sizex sizey =>
    sizex.toNat = 0 ∧ sizey.toNat = 1 ∨ sizex.toNat = 1 ∧ sizey.toNat = 0 ∨
      ArcsTouch sizex.toNat sizey.toNat

/-- The sizes are small enough, and the shape is on the panel. -/
structure round_t.Fits (round : round_t) (x y : UInt16) : Prop where
  size : match round with
    | .circle radius => radius.toNat < 2 ^ 12
    | .ellipse sizex sizey => sizex.toNat ≤ 512 ∧ sizey.toNat ≤ 512
  left : round.sizex ≤ x.toNat
  right : x.toNat + round.sizex < 2 ^ 16
  top : round.sizey ≤ y.toNat
  bottom : y.toNat + round.sizey < 2 ^ 16

/-! ## The pixels of a turn -/

section

variable {α : Type} {build : Build} {driver : painter_driver_t} {s s' s'' : Panel α}

/-- The points that are drawn for those of a quarter. -/
def shaped (filled : Bool) (K : Nat × Nat → Prop) : Point → Prop :=
  if filled then filling K else outline K

/-- The pixels of points around a centre. -/
def placed (x y : Nat) (O : Point → Prop) (p : Pixel) : Prop := O ((p.1 : Int) - x, (p.2 : Int) - y)

theorem Draws.refl : Draws s s (fun _ => True) fun _ => False :=
  ⟨[], (List.append_nil _).symm, fun _ => iff_of_false List.not_mem_nil not_false,
    fun _ _ => trivial⟩

theorem set_pixels_draws (pixels : List (Int × Int)) (s : Panel α) :
    Draws s (set_pixels pixels s) (fun _ => True)
      fun p => ∃ q ∈ pixels, p = (uint16 q.1, uint16 q.2) := by
  induction pixels generalizing s with
  | nil => exact Draws.refl.congr fun p => by simp
  | cons q pixels ih =>
    have hone : Draws s (qp_internal_setpixel_impl s (uint16 q.1) (uint16 q.2)) (fun _ => True)
        (· = (uint16 q.1, uint16 q.2)) := by
      refine ⟨[((uint16 q.1, uint16 q.2), s.qp_internal_global_pixdata_buffer 0)], ?_,
        fun p => by simp, fun _ _ => trivial⟩
      simp [qp_internal_setpixel_impl, Panel.pixdata, Panel.viewport, Panel.position]
    exact (hone.trans (ih _)).congr fun p => by simp

theorem fill_rows_draws (rows : List (Int × Int × Int)) (s : Panel α)
    (hrows : ∀ r ∈ rows, max (uint16 r.1) (uint16 r.2.1) - min (uint16 r.1) (uint16 r.2.1) + 1 <
      2 ^ 16) :
    Draws s (fill_rows build driver rows s) (fun _ => True) fun p => ∃ r ∈ rows,
      Within (min (uint16 r.1) (uint16 r.2.1)) (uint16 r.2.2)
        (max (uint16 r.1) (uint16 r.2.1)) (uint16 r.2.2) p := by
  induction rows generalizing s with
  | nil => exact Draws.refl.congr fun p => by simp
  | cons r rows ih =>
    obtain ⟨hr, hrows⟩ := List.forall_mem_cons.mp hrows
    have hone : Draws s (qp_internal_fillrect_helper_impl build driver s (uint16 r.1)
        (uint16 r.2.2) (uint16 r.2.1) (uint16 r.2.2)) (fun _ => True) _ :=
      fillrect_draws hr (by omega) (anything_prepared _)
    rw [Nat.min_self, Nat.max_self] at hone
    exact (hone.trans (ih _ hrows)).congr fun p => by simp

theorem set_pixels_append (l l' : List (Int × Int)) :
    set_pixels (l ++ l') s = set_pixels l' (set_pixels l s) :=
  List.foldl_append

theorem fill_rows_append (l l' : List (Int × Int × Int)) :
    fill_rows build driver (l ++ l') s = fill_rows build driver l' (fill_rows build driver l s) :=
  List.foldl_append

variable {n c : Nat}

theorem uint16_natCast (hn : n < 2 ^ 16) : uint16 n = n := uint16_eq rfl hn

theorem uint16_int16 (x : Int) : uint16 (int16 x) = uint16 x := by
  unfold uint16 int16
  have hcast : ((2 ^ 16 : Nat) : Int) = 2 ^ 16 := rfl
  rw [← hcast, Int.bmod_emod]

theorem coordinate_add (h : c + n < 2 ^ 16) : uint16 (int16 (int16 c + int16 n)) = c + n := by
  have hsum : int16 (int16 c + int16 n) = int16 (c + n) := by
    unfold int16
    rw [Int.bmod_add_bmod, Int.add_bmod_bmod]
  rw [hsum, uint16_int16]
  exact uint16_natCast h

theorem coordinate_sub (hc : c < 2 ^ 16) (h : n ≤ c) :
    uint16 (int16 (int16 c - int16 n)) = c - n := by
  have hdiff : int16 (int16 c - int16 n) = int16 (c - n) := by
    unfold int16
    rw [Int.bmod_sub_bmod, Int.sub_bmod_bmod]
  rw [hdiff, uint16_int16]
  exact uint16_eq (by omega) (by omega)

variable {x y : Nat} {K K' : Nat × Nat → Prop} {filled : Bool}

theorem shaped_false : shaped false K = outline K := rfl

theorem shaped_true : shaped true K = filling K := rfl

variable {p : Pixel}

theorem placed_or : placed x y (shaped filled fun q => K q ∨ K' q) p ↔
    placed x y (shaped filled K) p ∨ placed x y (shaped filled K') p := by
  cases filled with
  | false => exact Iff.rfl
  | true =>
    unfold placed shaped filling
    simp [or_and_right, exists_or]

theorem placed_outline {q : Nat × Nat} (hx : q.1 ≤ x) (hy : q.2 ≤ y) :
    placed x y (outline (· = q)) p ↔
      (p.1 = x + q.1 ∨ p.1 = x - q.1) ∧ (p.2 = y + q.2 ∨ p.2 = y - q.2) := by
  refine Prod.ext_iff.trans (and_congr ?_ ?_) <;> dsimp only <;> omega

theorem placed_filling {q : Nat × Nat} (hx : q.1 ≤ x) (hy : q.2 ≤ y) :
    placed x y (filling (· = q)) p ↔
      (x - q.1 ≤ p.1 ∧ p.1 ≤ x + q.1) ∧ (p.2 = y + q.2 ∨ p.2 = y - q.2) := by
  have hrow : placed x y (filling (· = q)) p ↔
      ((p.1 : Int) - x).natAbs ≤ q.1 ∧ ((p.2 : Int) - y).natAbs = q.2 := by
    constructor
    · rintro ⟨column, rfl, hle⟩
      exact ⟨hle, rfl⟩
    · rintro ⟨hle, hrow⟩
      exact ⟨q.1, Prod.ext rfl hrow, hle⟩
  refine hrow.trans (and_congr ?_ ?_) <;> omega

section Coordinates

variable {offsetx offsety : Nat} {xp xm yp ym : Int}

variable (hx : offsetx ≤ x) (hy : offsety ≤ y) (hxp : uint16 xp = x + offsetx)
  (hxm : uint16 xm = x - offsetx) (hyp : uint16 yp = y + offsety) (hym : uint16 ym = y - offsety)
  (hsize : offsetx < 2 ^ 12)

include hx hy hxp hyp hym in
theorem poles_draw (hzero : offsetx = 0) :
    Draws s (set_pixels [(xp, yp), (xp, ym)] s) (fun _ => True)
      (placed x y (shaped filled (· = (offsetx, offsety)))) := by
  refine (set_pixels_draws _ _).congr fun p => ?_
  cases filled with
  | false =>
    rw [shaped_false, placed_outline hx hy]
    simp only [List.exists_mem_cons_iff, List.not_mem_nil, false_and, exists_false, or_false,
      Prod.ext_iff, hxp, hyp, hym]
    omega
  | true =>
    rw [shaped_true, placed_filling hx hy]
    simp only [List.exists_mem_cons_iff, List.not_mem_nil, false_and, exists_false, or_false,
      Prod.ext_iff, hxp, hyp, hym]
    omega

include hx hy hxp hxm hyp in
theorem ends_draws (hzero : offsety = 0) : Draws s (set_pixels [(xp, yp), (xm, yp)] s)
    (fun _ => True) (placed x y (shaped false (· = (offsetx, offsety)))) := by
  refine (set_pixels_draws _ _).congr fun p => ?_
  rw [shaped_false, placed_outline hx hy]
  simp only [List.exists_mem_cons_iff, List.not_mem_nil, false_and, exists_false, or_false,
    Prod.ext_iff, hxp, hxm, hyp]
  omega

include hx hy hxp hxm hyp hym in
theorem pixels_draws {pixels : List (Int × Int)}
    (hpixels : pixels.Perm [(xp, yp), (xm, yp), (xp, ym), (xm, ym)]) :
    Draws s (set_pixels pixels s) (fun _ => True)
      (placed x y (shaped false (· = (offsetx, offsety)))) := by
  refine (set_pixels_draws _ _).congr fun p => ?_
  rw [shaped_false, placed_outline hx hy]
  simp only [hpixels.mem_iff, List.exists_mem_cons_iff, List.not_mem_nil, false_and, exists_false,
    or_false, Prod.ext_iff, hxp, hxm, hyp, hym]
  tauto

include hx hxp hxm hsize in
theorem fill_row_draws {yr : Int} {row : Nat} (hrow : uint16 yr = row) :
    Draws s (fill_rows build driver [(xp, xm, yr)] s) (fun _ => True)
      fun p => (x - offsetx ≤ p.1 ∧ p.1 ≤ x + offsetx) ∧ p.2 = row := by
  refine (fill_rows_draws _ _ ?_).congr fun p => ?_
  · simp only [List.forall_mem_singleton, hxp, hxm]
    omega
  · simp only [List.mem_singleton, exists_eq_left, Within, hxp, hxm]
    omega

include hx hy hxp hxm hyp hsize in
theorem axis_draws (hzero : offsety = 0) : Draws s (fill_rows build driver [(xp, xm, yp)] s)
    (fun _ => True) (placed x y (shaped true (· = (offsetx, offsety)))) := by
  refine (fill_row_draws hx hxp hxm hsize hyp).congr fun p => ?_
  rw [shaped_true, placed_filling hx hy]
  dsimp only
  omega

include hx hy hxp hxm hyp hym hsize in
theorem rows_draws : Draws s (fill_rows build driver [(xp, xm, yp), (xp, xm, ym)] s)
    (fun _ => True) (placed x y (shaped true (· = (offsetx, offsety)))) := by
  refine ((fill_row_draws hx hxp hxm hsize hyp).trans
    (fill_row_draws hx hxp hxm hsize hym)).congr fun p => ?_
  rw [shaped_true, placed_filling hx hy]
  dsimp only
  omega

end Coordinates

theorem ellipse_helper_draws {offsetx offsety : Nat} (hleft : offsetx ≤ x)
    (hright : x + offsetx < 2 ^ 16) (htop : offsety ≤ y) (hbottom : y + offsety < 2 ^ 16)
    (hsize : offsetx < 2 ^ 12) :
    Draws s (qp_ellipse_helper_impl build driver x y offsetx offsety filled s) (fun _ => True)
      (placed x y (shaped filled (· = (offsetx, offsety)))) := by
  have hxp := coordinate_add hright
  have hxm := coordinate_sub (by omega : x < 2 ^ 16) hleft
  have hyp := coordinate_add hbottom
  have hym := coordinate_sub (by omega : y < 2 ^ 16) htop
  unfold qp_ellipse_helper_impl
  split
  · exact poles_draw hleft htop hxp hyp hym ‹_›
  cases filled with
  | false =>
    exact pixels_draws hleft htop hxp hxm hyp hym (.cons _ (.swap _ _ _))
  | true =>
    rw [if_pos rfl]
    split
    · rw [← fill_rows_append]
      exact rows_draws hleft htop hxp hxm hyp hym hsize
    · exact axis_draws hleft htop hxp hxm hyp hsize (by omega)

theorem circle_helper_draws {offsetx offsety : Nat} (hleft : max offsetx offsety ≤ x)
    (hright : x + max offsetx offsety < 2 ^ 16) (htop : max offsetx offsety ≤ y)
    (hbottom : y + max offsetx offsety < 2 ^ 16) (hsize : max offsetx offsety < 2 ^ 12) :
    Draws s (qp_circle_helper_impl build driver x y offsetx offsety filled s) (fun _ => True)
      (placed x y (shaped filled fun q => q = (offsetx, offsety) ∨ q = (offsety, offsetx))) := by
  have hx : x < 2 ^ 16 := by omega
  have hy : y < 2 ^ 16 := by omega
  obtain ⟨hxleft, hyleft⟩ := max_le_iff.mp hleft
  obtain ⟨hxtop, hytop⟩ := max_le_iff.mp htop
  obtain ⟨hxsize, hysize⟩ := max_lt_iff.mp hsize
  have hxpx := coordinate_add (by omega : x + offsetx < 2 ^ 16)
  have hxmx := coordinate_sub hx hxleft
  have hxpy := coordinate_add (by omega : x + offsety < 2 ^ 16)
  have hxmy := coordinate_sub hx hyleft
  have hypx := coordinate_add (by omega : y + offsetx < 2 ^ 16)
  have hymx := coordinate_sub hy hxtop
  have hypy := coordinate_add (by omega : y + offsety < 2 ^ 16)
  have hymy := coordinate_sub hy hytop
  unfold qp_circle_helper_impl
  split
  · rename_i hzero
    have hcx : uint16 x = x + offsetx := (uint16_natCast hx).trans (by omega)
    have hcy : uint16 y = y + offsetx := (uint16_natCast hy).trans (by omega)
    have hpoles : ∀ filled, Draws s (set_pixels [(x, _), (x, _)] s) (fun _ => True)
        (placed x y (shaped filled (· = (offsetx, offsety)))) :=
      fun filled => poles_draw hxleft hytop hcx hypy hymy hzero
    cases filled with
    | false =>
      exact ((hpoles false).trans (ends_draws hyleft hxtop hxpy hxmy hcy hzero)).congr
        fun p => placed_or.symm
    | true =>
      exact ((hpoles true).trans (axis_draws hyleft hxtop hxpy hxmy hcy hysize hzero)).congr
        fun p => placed_or.symm
  split
  · rename_i hsame
    have hone : ∀ p, placed x y (shaped filled (· = (offsety, offsety))) p ↔
        placed x y (shaped filled fun q => q = (offsetx, offsety) ∨ q = (offsety, offsetx)) p := by
      intro p
      rw [hsame]
      exact or_self_iff.symm.trans placed_or.symm
    cases filled with
    | false =>
      exact (pixels_draws hyleft hytop hxpy hxmy hypy hymy (.refl _)).congr hone
    | true =>
      exact (rows_draws hyleft hytop hxpy hxmy hypy hymy hysize).congr hone
  · cases filled with
    | false =>
      have hboth := (pixels_draws (s := s) hxleft hytop hxpx hxmx hypy hymy (.refl _)).trans
        (pixels_draws hyleft hxtop hxpy hxmy hypx hymx (.refl _))
      rw [← set_pixels_append] at hboth
      exact hboth.congr fun p => placed_or.symm
    | true =>
      have hfirst : Draws s (fill_rows build driver _ s) (fun _ => True) _ :=
        rows_draws hxleft hytop hxpx hxmx hypy hymy hxsize
      have hboth : Draws s (fill_rows build driver _ _) (fun _ => True) _ :=
        hfirst.trans (rows_draws hyleft hxtop hxpy hxmy hypx hymx hysize)
      rw [← fill_rows_append] at hboth
      exact hboth.congr fun p => placed_or.symm

end

end keychron_qmk.painter.shapes
