-- Rectangles (`quantum/painter/qp_draw_core.c`): the viewport, the chunks of pixels that
-- fill it, and an outline of four filled rectangles, which has to be two pixels high.
import KeychronQMK.Painter.DrawImage
import Mathlib.Algebra.Group.Nat.Defs
import Mathlib.Logic.Function.Basic

namespace keychron_qmk.painter.shapes

/-! ## The device -/

/-- The column and the row of a pixel. -/
abbrev Pixel := Nat × Nat

/-- The buffer of prepared pixels, the viewport and the number of pixels sent to it, and
all pixels that the device has drawn, with their native colours. Its calls succeed. -/
structure Panel (α : Type) where
  qp_internal_global_pixdata_buffer : Nat → α
  left : Nat
  top : Nat
  right : Nat
  bottom : Nat
  sent : Nat
  drawn : List (Pixel × α)

def uint16 (x : Int) : Nat := (x % 2 ^ 16).toNat

namespace Panel

variable {α : Type} (s : Panel α)

def viewport (left top right bottom : Nat) : Panel α :=
  { s with left, top, right, bottom, sent := 0 }

/-- The pixel of the viewport with a number, row by row. -/
def position (k : Nat) : Pixel :=
  (s.left + k % (s.right - s.left + 1), s.top + k / (s.right - s.left + 1))

/-- The first pixels of the buffer go to the next places of the viewport. -/
def pixdata (native_pixel_count : Nat) : Panel α :=
  { s with
    sent := s.sent + native_pixel_count
    drawn := s.drawn ++ (List.range native_pixel_count).map fun i =>
      (s.position (s.sent + i), s.qp_internal_global_pixdata_buffer i) }

def append_pixels (color : α) (pixel_offset : Nat) : Panel α :=
  { s with qp_internal_global_pixdata_buffer :=
      Function.update s.qp_internal_global_pixdata_buffer pixel_offset color }

end Panel

/-! ## Rectangles -/

section

variable {α : Type} (build : Build) (driver : painter_driver_t) (palette_convert : hsv888 → α)

def qp_internal_setpixel_impl (s : Panel α) (x y : Nat) : Panel α :=
  (s.viewport x y x y).pixdata 1

def qp_internal_fill_pixdata (s : Panel α) (num_pixels : Nat) (color : hsv888) : Panel α :=
  let num_pixels := min (qp_internal_num_pixels_in_buffer build driver) num_pixels
  (List.range num_pixels).foldl (fun s i => s.append_pixels (palette_convert color) i) s

/-- The loop over the remaining pixels, of which each turn sends some. -/
def transmit (pixels_in_pixdata : Nat) : Nat → Nat → Panel α → Panel α
  | 0, _, s => s
  | n + 1, remaining, s =>
    if remaining = 0 then s
    else
      let transmitted := min remaining pixels_in_pixdata
      transmit pixels_in_pixdata n (remaining - transmitted) (s.pixdata transmitted)

def qp_internal_fillrect_helper_impl (s : Panel α) (left top right bottom : Nat) : Panel α :=
  let l := min left right
  let r := max left right
  let t := min top bottom
  let b := max top bottom
  let w := (r - l + 1) % 2 ^ 16
  let h := (b - t + 1) % 2 ^ 16
  transmit (qp_internal_num_pixels_in_buffer build driver) (w * h) (w * h) (s.viewport l t r b)

def qp_rect (s : Panel α) (left top right bottom : UInt16) (color : hsv888) (filled : Bool) :
    Panel α :=
  let l := min left.toNat right.toNat
  let r := max left.toNat right.toNat
  let t := min top.toNat bottom.toNat
  let b := max top.toNat bottom.toNat
  let w := (r - l + 1) % 2 ^ 16
  let h := (b - t + 1) % 2 ^ 16
  let fillrect := qp_internal_fillrect_helper_impl build driver
  if filled then
    let s := qp_internal_fill_pixdata build driver palette_convert s (w * h) color
    fillrect s l t r b
  else
    let s := qp_internal_fill_pixdata build driver palette_convert s (max w h) color
    let s := fillrect s l t r t
    let s := fillrect s l b r b
    let s := fillrect s l (uint16 (t + 1)) l (uint16 (b - 1))
    fillrect s r (uint16 (t + 1)) r (uint16 (b - 1))

end

/-! ## What is sent -/

section

variable {α : Type} {build : Build} {driver : painter_driver_t} {palette_convert : hsv888 → α}
variable {s : Panel α}

variable {n num_pixels l t r b : Nat}

/-- The chunks of a transmission are the pixels of the viewport in their order, each with
a pixel of the buffer. -/
theorem transmit_eq {remaining P : Nat} (hP : 0 < P) (hn : remaining ≤ n) :
    transmit P n remaining s = { s with
      sent := s.sent + remaining
      drawn := s.drawn ++ (List.range remaining).map fun k =>
        (s.position (s.sent + k), s.qp_internal_global_pixdata_buffer (k % P)) } := by
  induction n generalizing remaining s with
  | zero =>
    obtain rfl := Nat.le_zero.mp hn
    simp [transmit]
  | succ n ih =>
    rw [transmit]
    split
    · rename_i hzero
      simp [hzero]
    · rename_i hne
      obtain ⟨m, hm, hle, hlt, hpos⟩ : ∃ m, min remaining P = m ∧ m ≤ remaining ∧
          (m < remaining → m = P) ∧ 0 < m := ⟨_, rfl, by omega, by omega, by omega⟩
      have hfirst : ∀ k ∈ List.range m, k % P = k := by
        intro k hk
        rw [List.mem_range] at hk
        exact Nat.mod_eq_of_lt (by omega)
      -- The chunks before the last one are whole, and the buffer starts again behind them.
      have hrest : ∀ k ∈ List.range (remaining - m), (m + k) % P = k % P := by
        intro k hk
        rw [List.mem_range] at hk
        rw [hlt (by omega), Nat.add_mod_left]
      have hsplit : List.range remaining =
          List.range m ++ (List.range (remaining - m)).map (m + ·) := by
        rw [← List.range_add, Nat.add_sub_cancel' hle]
      rw [hm, ih (by omega)]
      dsimp only [Panel.pixdata]
      rw [hsplit, List.map_append, List.map_map, Nat.add_assoc, Nat.add_sub_cancel' hle,
        List.append_assoc]
      congr 3
      · exact List.map_congr_left fun k hk => by rw [hfirst k hk]
      · exact List.map_congr_left fun k hk => by
          rw [Function.comp_apply, hrest k hk, Nat.add_assoc]
          rfl

theorem fill_pixdata_eq {color : hsv888} :
    qp_internal_fill_pixdata build driver palette_convert s num_pixels color = { s with
      qp_internal_global_pixdata_buffer := fun i =>
        if i < min (qp_internal_num_pixels_in_buffer build driver) num_pixels then
          palette_convert color
        else s.qp_internal_global_pixdata_buffer i } := by
  unfold qp_internal_fill_pixdata
  dsimp only
  induction min (qp_internal_num_pixels_in_buffer build driver) num_pixels with
  | zero => simp
  | succ n ih =>
    rw [List.range_succ, List.foldl_append, ih]
    dsimp only [List.foldl_cons, List.foldl_nil, Panel.append_pixels]
    congr 1
    funext i
    rw [Function.update_apply]
    grind

/-! ## What is drawn -/

/-- From one panel to the next the pixels of a shape are drawn, with colours of which each
has a property. -/
def Draws (s s' : Panel α) (color : α → Prop) (shape : Pixel → Prop) : Prop :=
  ∃ new, s'.drawn = s.drawn ++ new ∧ (∀ p, p ∈ new.map Prod.fst ↔ shape p) ∧
    ∀ x ∈ new, color x.2

/-- The pixels between two columns and two rows. -/
def Within (l t r b : Nat) (p : Pixel) : Prop := l ≤ p.1 ∧ p.1 ≤ r ∧ t ≤ p.2 ∧ p.2 ≤ b

/-- The pixels of the four sides. -/
def OnBorder (l t r b : Nat) (p : Pixel) : Prop :=
  Within l t r b p ∧ (p.1 = l ∨ p.1 = r ∨ p.2 = t ∨ p.2 = b)

/-- The first pixels of the buffer have the property, as many as are sent or fit into it. -/
def Prepared (build : Build) (driver : painter_driver_t) (s : Panel α) (num_pixels : Nat)
    (color : α → Prop) : Prop :=
  ∀ i, i < qp_internal_num_pixels_in_buffer build driver → i < num_pixels →
    color (s.qp_internal_global_pixdata_buffer i)

variable {s' s'' : Panel α} {color color' : α → Prop} {shape shape' : Pixel → Prop}

theorem Draws.trans (h : Draws s s' color shape) (h' : Draws s' s'' color shape') :
    Draws s s'' color fun p => shape p ∨ shape' p := by
  obtain ⟨new, hdrawn, hpixels, hcolor⟩ := h
  obtain ⟨new', hdrawn', hpixels', hcolor'⟩ := h'
  refine ⟨new ++ new', ?_, fun p => ?_, fun x hx => ?_⟩
  · rw [hdrawn', hdrawn, List.append_assoc]
  · rw [List.map_append, List.mem_append, hpixels, hpixels']
  · rcases List.mem_append.mp hx with hx | hx
    · exact hcolor x hx
    · exact hcolor' x hx

theorem Draws.congr (h : Draws s s' color shape) (hshape : ∀ p, shape p ↔ shape' p) :
    Draws s s' color shape' := by
  obtain ⟨new, hdrawn, hpixels, hcolor⟩ := h
  exact ⟨new, hdrawn, fun p => (hpixels p).trans (hshape p), hcolor⟩

theorem Draws.unique (h : Draws s s' color shape) (h' : Draws s s' color' shape') (p : Pixel) :
    shape p ↔ shape' p := by
  obtain ⟨new, hdrawn, hpixels, -⟩ := h
  obtain ⟨new', hdrawn', hpixels', -⟩ := h'
  rw [hdrawn] at hdrawn'
  obtain rfl := List.append_cancel_left hdrawn'
  rw [← hpixels, hpixels']

def rows (l t r b : Nat) : List Pixel :=
  (List.range ((r - l + 1) * (b - t + 1))).map fun k =>
    (l + k % (r - l + 1), t + k / (r - l + 1))

theorem window_drawn {c : α}
    (hprepared : Prepared build driver s ((r - l + 1) * (b - t + 1)) (· = c)) :
    (transmit (qp_internal_num_pixels_in_buffer build driver) ((r - l + 1) * (b - t + 1))
      ((r - l + 1) * (b - t + 1)) (s.viewport l t r b)).drawn =
      s.drawn ++ (rows l t r b).map fun p => (p, c) := by
  rw [transmit_eq (num_pixels_pos build driver) (Nat.le_refl _), rows, List.map_map]
  dsimp only [Panel.viewport, Panel.position]
  congr 1
  refine List.map_congr_left fun k hk => ?_
  rw [List.mem_range] at hk
  rw [Nat.zero_add, hprepared _ (Nat.mod_lt _ (num_pixels_pos build driver))
    (Nat.lt_of_le_of_lt (Nat.mod_le _ _) hk)]
  rfl

/-- As many pixels as a viewport has fill it. -/
theorem window_draws (hlr : l ≤ r) (htb : t ≤ b)
    (hprepared : Prepared build driver s ((r - l + 1) * (b - t + 1)) color) :
    Draws s (transmit (qp_internal_num_pixels_in_buffer build driver)
      ((r - l + 1) * (b - t + 1)) ((r - l + 1) * (b - t + 1)) (s.viewport l t r b)) color
      (Within l t r b) := by
  rw [transmit_eq (num_pixels_pos build driver) (Nat.le_refl _)]
  refine ⟨_, rfl, fun p => ?_, fun x hx => ?_⟩
  · rw [List.map_map, List.mem_map]
    constructor
    · rintro ⟨k, hk, rfl⟩
      rw [List.mem_range] at hk
      have hcol : k % (r - l + 1) < r - l + 1 := Nat.mod_lt k (Nat.succ_pos _)
      have hrow := Nat.div_lt_of_lt_mul hk
      simp only [Function.comp_apply, Panel.position, Panel.viewport, Within, Nat.zero_add]
      generalize k / (r - l + 1) = row at hrow ⊢
      omega
    · rintro ⟨hleft, hright, htop, hbottom⟩
      -- the number of the pixel, row by row
      have hcol : p.1 - l < r - l + 1 := by omega
      have hrow : p.2 - t + 1 ≤ b - t + 1 := by omega
      refine ⟨(r - l + 1) * (p.2 - t) + (p.1 - l), ?_, ?_⟩
      · rw [List.mem_range]
        calc
          (r - l + 1) * (p.2 - t) + (p.1 - l) < (r - l + 1) * (p.2 - t + 1) := by
            rw [Nat.mul_succ]
            omega
          _ ≤ (r - l + 1) * (b - t + 1) := Nat.mul_le_mul_left _ hrow
      · simp only [Function.comp_apply, Panel.position, Panel.viewport, Nat.zero_add]
        rw [Nat.mul_add_mod, Nat.mod_eq_of_lt hcol, Nat.mul_add_div (Nat.succ_pos _),
          Nat.div_eq_of_lt hcol]
        ext <;> simp <;> omega
  · obtain ⟨k, hk, rfl⟩ := List.mem_map.mp hx
    rw [List.mem_range] at hk
    exact hprepared _ (Nat.mod_lt _ (num_pixels_pos build driver))
      (Nat.lt_of_le_of_lt (Nat.mod_le _ _) hk)

theorem Prepared.mono {m : Nat} (h : Prepared build driver s n color) (hmn : m ≤ n) :
    Prepared build driver s m color :=
  fun i hfits hi => h i hfits (Nat.lt_of_lt_of_le hi hmn)

theorem anything_prepared (n : Nat) : Prepared build driver s n fun _ => True :=
  fun _ _ _ => trivial

theorem fillrect_draws {left top right bottom : Nat}
    (hw : max left right - min left right + 1 < 2 ^ 16)
    (hh : max top bottom - min top bottom + 1 < 2 ^ 16)
    (hprepared : Prepared build driver s ((max left right - min left right + 1) *
      (max top bottom - min top bottom + 1)) color) :
    Draws s (qp_internal_fillrect_helper_impl build driver s left top right bottom) color
      (Within (min left right) (min top bottom) (max left right) (max top bottom)) := by
  unfold qp_internal_fillrect_helper_impl
  dsimp only
  rw [Nat.mod_eq_of_lt hw, Nat.mod_eq_of_lt hh]
  exact window_draws (by omega) (by omega) hprepared

theorem fillrect_prepared {left top right bottom : Nat} (h : Prepared build driver s n color) :
    Prepared build driver
      (qp_internal_fillrect_helper_impl build driver s left top right bottom) n color := by
  unfold qp_internal_fillrect_helper_impl
  rw [transmit_eq (num_pixels_pos build driver) (Nat.le_refl _)]
  exact h

theorem row_draws {y : Nat} (hlr : l ≤ r) (hw : r - l + 1 < 2 ^ 16) (hn : r - l + 1 ≤ n)
    (h : Prepared build driver s n color) :
    Draws s (qp_internal_fillrect_helper_impl build driver s l y r y) color (Within l y r y) := by
  have hrow : Draws s (qp_internal_fillrect_helper_impl build driver s l y r y) color
      (Within (min l r) (min y y) (max l r) (max y y)) := by
    refine fillrect_draws (by omega) (by omega) (h.mono ?_)
    rw [Nat.max_self, Nat.min_self, Nat.sub_self, Nat.mul_one]
    omega
  rwa [Nat.max_self, Nat.min_self, Nat.max_eq_right hlr, Nat.min_eq_left hlr] at hrow

theorem column_draws {x u v : Nat} (hh : max u v - min u v + 1 < 2 ^ 16)
    (hn : max u v - min u v + 1 ≤ n) (h : Prepared build driver s n color) :
    Draws s (qp_internal_fillrect_helper_impl build driver s x u x v) color
      (Within x (min u v) x (max u v)) := by
  have hcolumn : Draws s (qp_internal_fillrect_helper_impl build driver s x u x v) color
      (Within (min x x) (min u v) (max x x) (max u v)) := by
    refine fillrect_draws (by omega) hh (h.mono ?_)
    rw [Nat.max_self, Nat.min_self, Nat.sub_self, Nat.one_mul]
    exact hn
  rwa [Nat.max_self, Nat.min_self] at hcolumn

theorem sides_draw {n l t r b u v : Nat} (hlr : l ≤ r) (hw : r - l + 1 < 2 ^ 16)
    (hh : max u v - min u v + 1 < 2 ^ 16) (hwn : r - l + 1 ≤ n)
    (hhn : max u v - min u v + 1 ≤ n) (h : Prepared build driver s n color) :
    let fillrect := qp_internal_fillrect_helper_impl build driver
    Draws s (fillrect (fillrect (fillrect (fillrect s l t r t) l b r b) l u l v) r u r v) color
      fun p => ((Within l t r t p ∨ Within l b r b p) ∨ Within l (min u v) l (max u v) p) ∨
        Within r (min u v) r (max u v) p := by
  intro fillrect
  have h₁ : Prepared build driver (fillrect s l t r t) n color := fillrect_prepared h
  have h₂ : Prepared build driver (fillrect (fillrect s l t r t) l b r b) n color :=
    fillrect_prepared h₁
  have h₃ : Prepared build driver (fillrect (fillrect (fillrect s l t r t) l b r b) l u l v) n
      color := fillrect_prepared h₂
  exact (((row_draws hlr hw hwn h).trans (row_draws hlr hw hwn h₁)).trans
    (column_draws hh hhn h₂)).trans (column_draws hh hhn h₃)

/-- Above two different rows the sides are the border. The columns of two rows next to
each other are drawn from the lower one up. -/
theorem sides_iff_border (hlr : l ≤ r) (htb : t < b) (p : Pixel) :
    ((Within l t r t p ∨ Within l b r b p) ∨
        Within l (min (t + 1) (b - 1)) l (max (t + 1) (b - 1)) p) ∨
      Within r (min (t + 1) (b - 1)) r (max (t + 1) (b - 1)) p ↔ OnBorder l t r b p := by
  unfold OnBorder Within
  rcases Nat.lt_or_ge (t + 1) b with hinner | hnext
  · rw [Nat.min_eq_left (by omega), Nat.max_eq_right (by omega)]
    omega
  · obtain rfl : b = t + 1 := by omega
    rw [Nat.add_sub_cancel, Nat.min_eq_right (Nat.le_succ t), Nat.max_eq_left (Nat.le_succ t)]
    omega

/-! ## The shapes of the calls -/

theorem uint16_eq {x : Int} (hx : x = n) (hn : n < 2 ^ 16) : uint16 x = n := by
  unfold uint16
  omega

theorem fill_pixdata_prepared {c : hsv888} :
    Prepared build driver (qp_internal_fill_pixdata build driver palette_convert s num_pixels c)
      num_pixels (· = palette_convert c) := by
  intro i hfits hi
  rw [fill_pixdata_eq]
  exact if_pos (by omega)

theorem Draws.fill_pixdata {c : hsv888}
    (h : Draws (qp_internal_fill_pixdata build driver palette_convert s num_pixels c) s' color
      shape) : Draws s s' color shape := by
  rw [fill_pixdata_eq] at h
  exact h

section Corners

variable {left top right bottom : UInt16} {c : hsv888}

theorem rect_filled (hleft : left.toNat < 2 ^ 15) (htop : top.toNat < 2 ^ 15)
    (hright : right.toNat < 2 ^ 15) (hbottom : bottom.toNat < 2 ^ 15) :
    Draws s (qp_rect build driver palette_convert s left top right bottom c true)
      (· = palette_convert c)
      (Within (min left.toNat right.toNat) (min top.toNat bottom.toNat)
        (max left.toNat right.toNat) (max top.toNat bottom.toNat)) := by
  unfold qp_rect
  rw [if_pos rfl, Nat.mod_eq_of_lt (by omega), Nat.mod_eq_of_lt (by omega)]
  have hlr : min left.toNat right.toNat ≤ max left.toNat right.toNat := by omega
  have htb : min top.toNat bottom.toNat ≤ max top.toNat bottom.toNat := by omega
  refine Draws.fill_pixdata ((fillrect_draws (by omega) (by omega) ?_).congr fun p => ?_)
  · rw [Nat.max_eq_right hlr, Nat.max_eq_right htb, Nat.min_eq_left hlr, Nat.min_eq_left htb]
    exact fill_pixdata_prepared
  · rw [Nat.max_eq_right hlr, Nat.max_eq_right htb, Nat.min_eq_left hlr, Nat.min_eq_left htb]

theorem rect_filled_drawn (hleft : left.toNat < 2 ^ 15) (htop : top.toNat < 2 ^ 15)
    (hright : right.toNat < 2 ^ 15) (hbottom : bottom.toNat < 2 ^ 15) {l t r b : Nat}
    (hl : min left.toNat right.toNat = l) (hr : max left.toNat right.toNat = r)
    (ht : min top.toNat bottom.toNat = t) (hb : max top.toNat bottom.toNat = b) :
    (qp_rect build driver palette_convert s left top right bottom c true).drawn =
      s.drawn ++ (rows l t r b).map fun p => (p, palette_convert c) := by
  have hlr : l ≤ r := by omega
  have htb : t ≤ b := by omega
  unfold qp_rect qp_internal_fillrect_helper_impl
  dsimp only
  rw [if_pos rfl, hl, hr, ht, hb, Nat.max_eq_right hlr, Nat.min_eq_left hlr, Nat.max_eq_right htb,
    Nat.min_eq_left htb, Nat.mod_eq_of_lt (by omega), Nat.mod_eq_of_lt (by omega)]
  rw [window_drawn fill_pixdata_prepared, fill_pixdata_eq]

/-- An outline that is at least two pixels high. -/
theorem rect_border (hleft : left.toNat < 2 ^ 15) (htop : top.toNat < 2 ^ 15)
    (hright : right.toNat < 2 ^ 15) (hbottom : bottom.toNat < 2 ^ 15)
    (hhigh : top.toNat ≠ bottom.toNat) :
    Draws s (qp_rect build driver palette_convert s left top right bottom c false)
      (· = palette_convert c)
      (OnBorder (min left.toNat right.toNat) (min top.toNat bottom.toNat)
        (max left.toNat right.toNat) (max top.toNat bottom.toNat)) := by
  unfold qp_rect
  have hlr : min left.toNat right.toNat ≤ max left.toNat right.toNat := by omega
  have htb : min top.toNat bottom.toNat < max top.toNat bottom.toNat := by omega
  have hr : max left.toNat right.toNat < 2 ^ 15 := by omega
  have hb : max top.toNat bottom.toNat < 2 ^ 15 := by omega
  generalize min left.toNat right.toNat = l, max left.toNat right.toNat = r,
    min top.toNat bottom.toNat = t, max top.toNat bottom.toNat = b at hlr htb hr hb ⊢
  have hu : uint16 (t + 1) = t + 1 := uint16_eq rfl (by omega)
  have hv : uint16 (b - 1) = b - 1 := uint16_eq (by omega) (by omega)
  rw [if_neg Bool.false_ne_true, Nat.mod_eq_of_lt (by omega), Nat.mod_eq_of_lt (by omega), hu, hv]
  exact Draws.fill_pixdata ((sides_draw hlr (by omega) (by omega) (Nat.le_max_left _ _)
    (by omega) fill_pixdata_prepared).congr (sides_iff_border hlr htb))

/-- An outline that is one pixel high: a column at its side goes from the row above it to
the row below it, or to the last row of all. -/
theorem rect_flat (hleft : left.toNat < 2 ^ 15) (htop : top.toNat < 2 ^ 15)
    (hright : right.toNat < 2 ^ 15) (hflat : top = bottom)
    (h : Draws s (qp_rect build driver palette_convert s left top right bottom c false) color
      shape) : shape (min left.toNat right.toNat, top.toNat + 1) := by
  subst hflat
  -- The colours of the sides do not matter, so all that is sent counts as prepared.
  refine (Draws.unique (Draws.fill_pixdata (sides_draw (by omega) (by omega) ?_ (by omega) ?_
    (anything_prepared (2 ^ 16)))) h _).mp (.inl (.inr ?_))
  · unfold uint16
    omega
  · unfold uint16
    omega
  · unfold Within uint16
    dsimp only
    omega

end Corners

/-- The requested shape is drawn in the requested colour, unless it is an outline that is
one pixel high. -/
theorem rect_draws_its_shape_iff (build : Build) (driver : painter_driver_t)
    (palette_convert : hsv888 → α) (s : Panel α) (left top right bottom : UInt16) (c : hsv888)
    (filled : Bool) (hleft : left.toNat < 2 ^ 15) (htop : top.toNat < 2 ^ 15)
    (hright : right.toNat < 2 ^ 15) (hbottom : bottom.toNat < 2 ^ 15) :
    Draws s (qp_rect build driver palette_convert s left top right bottom c filled)
        (· = palette_convert c)
        ((if filled then Within else OnBorder) (min left.toNat right.toNat)
          (min top.toNat bottom.toNat) (max left.toNat right.toNat)
          (max top.toNat bottom.toNat)) ↔
      filled = true ∨ top ≠ bottom := by
  cases filled with
  | true => exact iff_of_true (rect_filled hleft htop hright hbottom) (.inl rfl)
  | false =>
    constructor
    · intro hdraws
      refine .inr fun hflat => ?_
      obtain ⟨⟨-, -, -, hbelow⟩, -⟩ := rect_flat hleft htop hright hflat hdraws
      rw [← hflat, Nat.max_self] at hbelow
      exact Nat.not_succ_le_self _ hbelow
    · rintro (h | hhigh)
      · exact absurd h Bool.false_ne_true
      · exact rect_border hleft htop hright hbottom fun h => hhigh (UInt16.toNat_inj.mp h)

end

/-- The pixel buffer that is used without a definition of another. -/
def default_build : Build := ⟨false, false, 1024, Nat.succ_pos 1023, rfl⟩

/-- A display of 16 bits. -/
def rgb565_driver : painter_driver_t :=
  ⟨16, Nat.succ_pos 15, Nat.le_add_right 16 112, true, true, true, fun _ => true, fun _ => true⟩

def empty_panel : Panel hsv888 := ⟨fun _ => ⟨0, 0, 0⟩, 0, 0, 0, 0, 0, []⟩

theorem a_rect_of_two_rows_is_its_border :
    Draws empty_panel (qp_rect default_build rgb565_driver id empty_panel 6 5 3 4 ⟨1, 2, 3⟩ false)
      (· = ⟨1, 2, 3⟩) (OnBorder 3 4 6 5) :=
  (rect_draws_its_shape_iff default_build rgb565_driver id empty_panel 6 5 3 4 ⟨1, 2, 3⟩ false
    (by decide) (by decide) (by decide) (by decide)).mpr (.inr (by decide))

/-- The outline of four pixels in one row. -/
theorem an_outline_of_one_row_leaves_it :
    ¬ Draws empty_panel
      (qp_rect default_build rgb565_driver id empty_panel 3 5 6 5 ⟨1, 2, 3⟩ false)
      (· = ⟨1, 2, 3⟩) (OnBorder 3 5 6 5) := by
  intro hdraws
  obtain ⟨⟨-, -, -, hbelow⟩, -⟩ := rect_flat (by decide) (by decide) (by decide) rfl hdraws
  exact absurd hbelow (by decide)

end keychron_qmk.painter.shapes
