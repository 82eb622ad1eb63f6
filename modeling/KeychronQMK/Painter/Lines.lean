-- Lines (`quantum/painter/qp_draw_core.c`): the loop over the pixels with its error in 16
-- bits, and the rectangles of one row or one column.
import KeychronQMK.Lib.DigitalLine
import KeychronQMK.Painter.Rects

namespace keychron_qmk.painter.shapes

open digital_line

def int16 (x : Int) : Int := x.bmod (2 ^ 16)

/-- The pixel that the loop is at, and its error. -/
structure line_t where
  x : Int
  y : Int
  e : Int

/-- A turn of the loop behind the pixel. -/
def line_next (slopex slopey dx dy : Int) (l : line_t) : line_t :=
  let e2 := int16 (2 * l.e)
  let l := if dy ≤ e2 then { l with e := int16 (l.e + dy), x := int16 (l.x + slopex) } else l
  if e2 ≤ dx then { l with e := int16 (l.e + dx), y := int16 (l.y + slopey) } else l

section

variable {α : Type} (build : Build) (driver : painter_driver_t) (palette_convert : hsv888 → α)

def set_line_pixel (s : Panel α) (l : line_t) : Panel α :=
  qp_internal_setpixel_impl s (uint16 l.x) (uint16 l.y)

def line_loop (x1 y1 : UInt16) (slopex slopey dx dy : Int) :
    Nat → line_t → Panel α → Option (line_t × Panel α)
  | 0, _, _ => none
  | fuel + 1, l, s =>
    if l.x ≠ x1.toNat ∨ l.y ≠ y1.toNat then
      line_loop x1 y1 slopex slopey dx dy fuel (line_next slopex slopey dx dy l)
        (set_line_pixel s l)
    else some (l, s)

def qp_line (fuel : Nat) (s : Panel α) (x0 y0 x1 y1 : UInt16) (color : hsv888) :
    Option (Panel α) :=
  if x0 = x1 ∨ y0 = y1 then some (qp_rect build driver palette_convert s x0 y0 x1 y1 color true)
  else
    let s := qp_internal_fill_pixdata build driver palette_convert s 1 color
    let x := int16 x0.toNat
    let y := int16 y0.toNat
    let slopex := if int16 x0.toNat < int16 x1.toNat then 1 else -1
    let slopey := if int16 y0.toNat < int16 y1.toNat then 1 else -1
    let dx := int16 |int16 x1.toNat - int16 x0.toNat|
    let dy := int16 (-|int16 y1.toNat - int16 y0.toNat|)
    let e := int16 (dx + dy)
    -- The last pixel is drawn behind the loop.
    (line_loop x1 y1 slopex slopey dx dy fuel ⟨x, y, e⟩ s).map fun (l, s) => set_line_pixel s l

end

/-! ## The loop -/

def point (p : Pixel) : Point := (p.1, p.2)

theorem int16_eq {x : Int} (hlow : -2 ^ 15 ≤ x) (hhigh : x < 2 ^ 15) : int16 x = x := by
  unfold int16
  rw [Int.bmod_eq_of_le] <;> omega

section

variable {α : Type} {s : Panel α} {c : α} {p : Pixel} {w h n : Nat} {sx sy : Int} {l : line_t}

theorem set_line_pixel_eq (hbuffer : s.qp_internal_global_pixdata_buffer 0 = c)
    (hx : l.x = p.1) (hy : l.y = p.2) (hp : p.1 < 2 ^ 16 ∧ p.2 < 2 ^ 16) :
    (set_line_pixel s l).drawn = s.drawn ++ [(p, c)] ∧
      (set_line_pixel s l).qp_internal_global_pixdata_buffer 0 = c := by
  unfold set_line_pixel
  rw [uint16_eq hx hp.1, uint16_eq hy hp.2]
  refine ⟨?_, hbuffer⟩
  simp [qp_internal_setpixel_impl, Panel.pixdata, Panel.viewport, Panel.position, hbuffer]

structure OnWalk (p : Point) (sx sy : Int) (w h n : Nat) (l : line_t) : Prop where
  x : l.x = (step p sx sy (walk w h n)).1
  y : l.y = (step p sx sy (walk w h n)).2
  e : l.e = err w h (walk w h n)

/-- A turn of the loop is a turn of the walk, since its values fit into 16 bits. -/
theorem OnWalk.next {p : Point} (hl : OnWalk p sx sy w h n l) (hw : w < 2 ^ 13) (hh : h < 2 ^ 13)
    (hsx : |sx| = 1) (hsy : |sy| = 1) (hx : 0 ≤ l.x ∧ l.x < 2 ^ 13) (hy : 0 ≤ l.y ∧ l.y < 2 ^ 13) :
    OnWalk p sx sy w h (n + 1) (line_next sx sy w (-h) l) := by
  have hnear := (walk_near w h n).2
  rw [← hl.e, abs_le] at hnear
  rw [abs_eq zero_le_one] at hsx hsy
  have he2 : int16 (2 * l.e) = 2 * err w h (walk w h n) := by
    rw [int16_eq (by omega) (by omega), hl.e]
  have hdown : int16 (l.e + -h) = l.e - h := int16_eq (by omega) (by omega)
  have hup : int16 (l.e + w) = l.e + w := int16_eq (by omega) (by omega)
  have hboth : int16 (l.e - h + w) = l.e - h + w := int16_eq (by omega) (by omega)
  have hright : int16 (l.x + sx) = l.x + sx := int16_eq (by omega) (by omega)
  have habove : int16 (l.y + sy) = l.y + sy := int16_eq (by omega) (by omega)
  have hstep : step p sx sy (walk w h (n + 1)) =
      (if -h ≤ 2 * err w h (walk w h n) then l.x + sx else l.x,
        if 2 * err w h (walk w h n) ≤ w then l.y + sy else l.y) := by
    rw [hl.x, hl.y, walk]
    unfold step digital_line.next
    ext <;> dsimp only <;> split <;> push_cast <;> ring
  have hturn : line_next sx sy w (-h) l =
      ⟨(step p sx sy (walk w h (n + 1))).1, (step p sx sy (walk w h (n + 1))).2,
        err w h (walk w h (n + 1))⟩ := by
    rw [hstep, walk, err_next, ← hl.e]
    rw [← hl.e] at he2
    unfold line_next
    rw [he2]
    by_cases hside : -(h : Int) ≤ 2 * l.e <;> by_cases hrise : 2 * l.e ≤ w
    · simp only [if_pos hside, if_pos hrise, hdown, hboth, hright, habove]
      congr 1
      ring
    · simp only [if_pos hside, if_neg hrise, hdown, hright, add_zero]
    · simp only [if_neg hside, if_pos hrise, hup, habove, sub_zero]
    · simp only [if_neg hside, if_neg hrise, add_zero, sub_zero]
  exact ⟨by rw [hturn], by rw [hturn], by rw [hturn]⟩

/-! ## The pixels of the loop -/

def pixel (p : Point) : Pixel := (p.1.toNat, p.2.toNat)

variable {q : Pixel}

theorem walk_within (hsx : |sx| = 1) (hsy : |sy| = 1)
    (hend : point q = step (point p) sx sy (w, h)) (hp : p.1 < 2 ^ 13 ∧ p.2 < 2 ^ 13)
    (hq : q.1 < 2 ^ 13 ∧ q.2 < 2 ^ 13) (hn : n ≤ max w h) :
    (0 ≤ (step (point p) sx sy (walk w h n)).1 ∧
        (step (point p) sx sy (walk w h n)).1 < 2 ^ 13) ∧
      0 ≤ (step (point p) sx sy (walk w h n)).2 ∧
        (step (point p) sx sy (walk w h n)).2 < 2 ^ 13 := by
  obtain ⟨hfirst, hsecond⟩ := walk_le hn
  rw [abs_eq zero_le_one] at hsx hsy
  unfold step point at *
  rw [Prod.mk.injEq] at hend
  constructor
  · rcases hsx with rfl | rfl <;> omega
  · rcases hsy with rfl | rfl <;> omega

/-- The loop draws the points of the walk up to the last one. -/
theorem line_loop_run {x1 y1 : UInt16} (hsx : |sx| = 1) (hsy : |sy| = 1)
    (hend : point (x1.toNat, y1.toNat) = step (point p) sx sy (w, h))
    (hp : p.1 < 2 ^ 13 ∧ p.2 < 2 ^ 13) (hx1 : x1.toNat < 2 ^ 13) (hy1 : y1.toNat < 2 ^ 13)
    (hw : w < 2 ^ 13) (hh : h < 2 ^ 13) {m fuel : Nat} (hm : n + m = max w h) (hfuel : m < fuel)
    (hl : OnWalk (point p) sx sy w h n l) (hbuffer : s.qp_internal_global_pixdata_buffer 0 = c) :
    ∃ l' s', line_loop x1 y1 sx sy w (-h) fuel l s = some (l', s') ∧
      OnWalk (point p) sx sy w h (max w h) l' ∧
      s'.qp_internal_global_pixdata_buffer 0 = c ∧
      s'.drawn = s.drawn ++ (List.range m).map fun k =>
        (pixel (step (point p) sx sy (walk w h (n + k))), c) := by
  have hlast : ∀ {l n}, OnWalk (point p) sx sy w h n l →
      (l.x ≠ x1.toNat ∨ l.y ≠ y1.toNat ↔ walk w h n ≠ (w, h)) := by
    intro l n hl
    rw [← (step_injective hsx hsy).ne_iff, ← hend, ne_eq (step _ _ _ _), Prod.ext_iff, not_and_or,
      hl.x, hl.y]
    rfl
  induction m generalizing n l s fuel with
  | zero =>
    obtain ⟨fuel, rfl⟩ := Nat.exists_eq_add_of_lt hfuel
    obtain rfl : n = max w h := hm
    refine ⟨l, s, ?_, hl, hbuffer, by simp⟩
    rw [Nat.zero_add, line_loop, if_neg]
    rw [hlast hl, walk_end]
    exact fun hne => hne rfl
  | succ m ih =>
    cases fuel with
    | zero => exact absurd hfuel (Nat.not_lt_zero _)
    | succ fuel =>
      obtain ⟨hx, hy⟩ := walk_within hsx hsy hend hp ⟨hx1, hy1⟩ (Nat.le.intro hm)
      rw [← hl.x] at hx
      rw [← hl.y] at hy
      obtain ⟨hdrawn, hkept⟩ := set_line_pixel_eq (p := pixel (l.x, l.y)) hbuffer
        (Int.toNat_of_nonneg hx.1).symm (Int.toNat_of_nonneg hy.1).symm (by unfold pixel; omega)
      obtain ⟨l', s', hrun, hl', hbuffer', hdrawn'⟩ := ih (by omega) (Nat.lt_of_succ_lt_succ hfuel)
        (hl.next hw hh hsx hsy hx hy) hkept
      refine ⟨l', s', ?_, hl', hbuffer', ?_⟩
      · rw [line_loop, if_pos ((hlast hl).mpr (walk_ne_end (by omega))), hrun]
      · rw [hdrawn', hdrawn, hl.x, hl.y, List.range_succ_eq_map, List.map_cons, List.map_map,
          List.append_assoc, List.singleton_append]
        congr 3
        funext k
        rw [Function.comp_apply, Nat.succ_eq_add_one, Nat.add_assoc, Nat.add_comm 1]

theorem point_pixel {p : Point} (hx : 0 ≤ p.1) (hy : 0 ≤ p.2) : point (pixel p) = p :=
  Prod.ext (Int.toNat_of_nonneg hx) (Int.toNat_of_nonneg hy)

theorem axis_line {l t r b : Nat} (hlr : l ≤ r) (htb : t ≤ b) (haxis : l = r ∨ t = b) :
    Line (point (l, t)) (point (r, b)) ((rows l t r b).map point) := by
  have hend : step (point (l, t)) 1 1 (r - l, b - t) = point (r, b) := by
    unfold step point
    ext <;> dsimp only <;> omega
  have hline : Line (point (l, t)) (step (point (l, t)) 1 1 (r - l, b - t)) _ :=
    walk_line rfl rfl
  rw [hend] at hline
  convert hline using 1
  rw [rows, List.map_map]
  have hcount : (r - l + 1) * (b - t + 1) = max (r - l) (b - t) + 1 := by
    rcases haxis with rfl | rfl <;> simp
  rw [hcount]
  refine List.map_congr_left fun k hk => ?_
  rw [List.mem_range] at hk
  rw [Function.comp_apply]
  rcases haxis with rfl | rfl
  · rw [Nat.sub_self, walk_up (by omega), Nat.zero_add, Nat.mod_one, Nat.div_one]
    simp [point, step]
  · rw [Nat.sub_self, walk_side (by omega), Nat.mod_eq_of_lt (by omega),
      Nat.div_eq_of_lt (by omega)]
    simp [point, step]

end

/-! ## The lines of the calls -/

section

variable {α : Type} (build : Build) (driver : painter_driver_t) (palette_convert : hsv888 → α)

/-- A line without slope is a rectangle. -/
theorem flat_line (s : Panel α) {x0 y0 x1 y1 : UInt16} (color : hsv888) (hx0 : x0.toNat < 2 ^ 13)
    (hy0 : y0.toNat < 2 ^ 13) (hx1 : x1.toNat < 2 ^ 13) (hy1 : y1.toNat < 2 ^ 13)
    (haxis : x0 = x1 ∨ y0 = y1) :
    ∃ pixels : List Pixel,
      Line (point (x0.toNat, y0.toNat)) (point (x1.toNat, y1.toNat)) (pixels.map point) ∧
      (qp_rect build driver palette_convert s x0 y0 x1 y1 color true).drawn =
        s.drawn ++ pixels.map fun p => (p, palette_convert color) := by
  obtain ⟨l, hl⟩ : ∃ l, min x0.toNat x1.toNat = l := ⟨_, rfl⟩
  obtain ⟨r, hr⟩ : ∃ r, max x0.toNat x1.toNat = r := ⟨_, rfl⟩
  obtain ⟨t, ht⟩ : ∃ t, min y0.toNat y1.toNat = t := ⟨_, rfl⟩
  obtain ⟨b, hb⟩ : ∃ b, max y0.toNat y1.toNat = b := ⟨_, rfl⟩
  rw [← UInt16.toNat_inj, ← UInt16.toNat_inj] at haxis
  -- The rectangle is drawn from its first corner, which may be the last one of the line.
  have hends : (x0.toNat, y0.toNat) = (l, t) ∧ (x1.toNat, y1.toNat) = (r, b) ∨
      (x0.toNat, y0.toNat) = (r, b) ∧ (x1.toNat, y1.toNat) = (l, t) := by
    simp only [Prod.mk.injEq]
    omega
  have hline : Line (point (l, t)) (point (r, b)) ((rows l t r b).map point) :=
    axis_line (by omega) (by omega) (by omega)
  refine ⟨rows l t r b, ?_,
    rect_filled_drawn (by omega) (by omega) (by omega) (by omega) hl hr ht hb⟩
  rcases hends with ⟨hfirst, hlast⟩ | ⟨hfirst, hlast⟩
  · rw [hfirst, hlast]
    exact hline
  · rw [hfirst, hlast]
    exact hline.symm

/-- A line with a slope is the walk. -/
theorem sloped_line (s : Panel α) {x0 y0 x1 y1 : UInt16} (color : hsv888)
    (hx0 : x0.toNat < 2 ^ 13) (hy0 : y0.toNat < 2 ^ 13) (hx1 : x1.toNat < 2 ^ 13)
    (hy1 : y1.toNat < 2 ^ 13) (hslope : ¬(x0 = x1 ∨ y0 = y1)) :
    ∃ pixels : List Pixel,
      Line (point (x0.toNat, y0.toNat)) (point (x1.toNat, y1.toNat)) (pixels.map point) ∧
      ∀ fuel, 2 ^ 13 ≤ fuel →
        ∃ s', qp_line build driver palette_convert fuel s x0 y0 x1 y1 color = some s' ∧
          s'.drawn = s.drawn ++ pixels.map fun p => (p, palette_convert color) := by
  obtain ⟨w, hw, hwlt⟩ : ∃ w : Nat, |(x1.toNat : Int) - x0.toNat| = w ∧ w < 2 ^ 13 :=
    ⟨_, (Int.natCast_natAbs _).symm, by omega⟩
  obtain ⟨h, hh, hhlt⟩ : ∃ h : Nat, |(y1.toNat : Int) - y0.toNat| = h ∧ h < 2 ^ 13 :=
    ⟨_, (Int.natCast_natAbs _).symm, by omega⟩
  obtain ⟨sx, hsx, hsx1⟩ : ∃ sx : Int,
      (if (x0.toNat : Int) < x1.toNat then 1 else -1) = sx ∧ |sx| = 1 :=
    ⟨_, rfl, by split <;> rfl⟩
  obtain ⟨sy, hsy, hsy1⟩ : ∃ sy : Int,
      (if (y0.toNat : Int) < y1.toNat then 1 else -1) = sy ∧ |sy| = 1 :=
    ⟨_, rfl, by split <;> rfl⟩
  have hend : point (x1.toNat, y1.toNat) = step (point (x0.toNat, y0.toNat)) sx sy (w, h) := by
    unfold point step
    rw [← hw, ← hh, ← hsx, ← hsy]
    ext
    · dsimp only
      split
      · rw [abs_of_nonneg (by omega)]
        omega
      · rw [abs_of_nonpos (by omega)]
        omega
    · dsimp only
      split
      · rw [abs_of_nonneg (by omega)]
        omega
      · rw [abs_of_nonpos (by omega)]
        omega
  have hon : OnWalk (point (x0.toNat, y0.toNat)) sx sy w h 0 ⟨x0.toNat, y0.toNat, w - h⟩ := by
    constructor <;> simp [step, point, walk, err]
  have hprepared : (qp_internal_fill_pixdata build driver palette_convert s 1
      color).qp_internal_global_pixdata_buffer 0 = palette_convert color :=
    fill_pixdata_prepared 0 (num_pixels_pos build driver) Nat.one_pos
  refine ⟨(List.range (max w h + 1)).map fun n =>
    pixel (step (point (x0.toNat, y0.toNat)) sx sy (walk w h n)), ?_, ?_⟩
  · rw [hend, List.map_map]
    convert walk_line hsx1 hsy1 using 1
    refine List.map_congr_left fun n hn => ?_
    rw [List.mem_range, Nat.lt_succ_iff] at hn
    obtain ⟨⟨hx, -⟩, hy, -⟩ := walk_within hsx1 hsy1 hend ⟨hx0, hy0⟩ ⟨hx1, hy1⟩ hn
    exact point_pixel hx hy
  · intro fuel hfuel
    obtain ⟨l', s', hrun, hl', hbuffer', hdrawn'⟩ :=
      line_loop_run hsx1 hsy1 hend ⟨hx0, hy0⟩ hx1 hy1 hwlt hhlt (m := max w h) (Nat.zero_add _)
        (show max w h < fuel by omega) hon hprepared
    obtain ⟨⟨hx, hxlt⟩, hy, hylt⟩ :=
      walk_within hsx1 hsy1 hend ⟨hx0, hy0⟩ ⟨hx1, hy1⟩ (Nat.le_refl (max w h))
    obtain ⟨hdrawn, -⟩ := set_line_pixel_eq hbuffer'
      (p := pixel (step (point (x0.toNat, y0.toNat)) sx sy (walk w h (max w h))))
      (hl'.x.trans (Int.toNat_of_nonneg hx).symm) (hl'.y.trans (Int.toNat_of_nonneg hy).symm)
      (by unfold pixel; dsimp only; omega)
    have hcast : ∀ x : UInt16, x.toNat < 2 ^ 13 → int16 x.toNat = x.toNat :=
      fun x hx => int16_eq (by omega) (by omega)
    refine ⟨set_line_pixel s' l', ?_, ?_⟩
    · unfold qp_line
      dsimp only
      rw [if_neg hslope, hcast x0 hx0, hcast y0 hy0, hcast x1 hx1, hcast y1 hy1, hsx, hsy, hw, hh,
        int16_eq (by omega) (by omega), int16_eq (x := -(h : Int)) (by omega) (by omega),
        int16_eq (by omega) (by omega), ← sub_eq_add_neg, hrun]
      rfl
    · rw [hdrawn, hdrawn', fill_pixdata_eq, List.range_succ, List.map_append, List.map_append,
        List.map_map, List.append_assoc]
      simp only [Nat.zero_add]
      rfl

/-- For coordinates below 2^13 the loop ends, and the pixels in the requested colour are
a line between the two end points. -/
theorem lines_are_digital (s : Panel α) (x0 y0 x1 y1 : UInt16) (color : hsv888)
    (hx0 : x0.toNat < 2 ^ 13) (hy0 : y0.toNat < 2 ^ 13) (hx1 : x1.toNat < 2 ^ 13)
    (hy1 : y1.toNat < 2 ^ 13) :
    ∃ pixels : List Pixel,
      Line (point (x0.toNat, y0.toNat)) (point (x1.toNat, y1.toNat)) (pixels.map point) ∧
      ∀ fuel, 2 ^ 13 ≤ fuel →
        ∃ s', qp_line build driver palette_convert fuel s x0 y0 x1 y1 color = some s' ∧
          s'.drawn = s.drawn ++ pixels.map fun p => (p, palette_convert color) := by
  by_cases haxis : x0 = x1 ∨ y0 = y1
  · obtain ⟨pixels, hline, hdrawn⟩ :=
      flat_line build driver palette_convert s color hx0 hy0 hx1 hy1 haxis
    refine ⟨pixels, hline, fun fuel _ => ⟨_, ?_, hdrawn⟩⟩
    unfold qp_line
    rw [if_pos haxis]
  · exact sloped_line build driver palette_convert s color hx0 hy0 hx1 hy1 haxis

end

theorem a_steep_line_is_digital :
    ∃ pixels : List Pixel, Line (point (7, 900)) (point (3, 40)) (pixels.map point) ∧
      ∀ fuel, 2 ^ 13 ≤ fuel →
        ∃ s', qp_line default_build rgb565_driver id fuel empty_panel 7 900 3 40 ⟨1, 2, 3⟩ =
            some s' ∧
          s'.drawn = empty_panel.drawn ++ pixels.map fun p => (p, ⟨1, 2, 3⟩) :=
  lines_are_digital default_build rgb565_driver id empty_panel 7 900 3 40 ⟨1, 2, 3⟩ (by decide)
    (by decide) (by decide) (by decide)

end keychron_qmk.painter.shapes
