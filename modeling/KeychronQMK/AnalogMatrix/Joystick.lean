-- The axes of the joystick (`action_joystick.c`): the travels of the direction keys, the
-- flags of the changed ones, and the values that `joystick_action` sets. An axis follows
-- its keys unless its flags miss a key or the circle of its stick moves it.
import KeychronQMK.AnalogMatrix.Actions
import KeychronQMK.AnalogMatrix.Curve
import KeychronQMK.AnalogMatrix.Sqrt
import Mathlib.Tactic.FinCases
import Mathlib.Tactic.Linarith

namespace keychron_qmk.analog_matrix

open runs

/-! ## The state -/

def GC_AXIS_X : Fin 6 := ⟨0, Nat.le_add_left 1 5⟩
def GC_AXIS_Y : Fin 6 := ⟨1, by decide⟩
def GC_AXIS_Z : Fin 6 := ⟨2, by decide⟩
def GC_AXIS_RX : Fin 6 := ⟨3, by decide⟩
def GC_AXIS_RY : Fin 6 := ⟨4, by decide⟩
def GC_AXIS_RZ : Fin 6 := ⟨5, by decide⟩

def AXIS_DIRECT_VALUE : Nat := 2 * TRAVEL_SCALE.toNat

def R_SQUARE : Nat :=
  ((FULL_TRAVEL_UNIT.toNat + 1) * TRAVEL_SCALE.toNat) *
    ((FULL_TRAVEL_UNIT.toNat + 1) * TRAVEL_SCALE.toNat)

structure Joystick where
  axis_travel : Fin 12 → UInt8
  axis_changed : Fin 12 → Bool
  axis_dir : Fin 6 → Int
  axis_value : Fin 6 → Int
  axes : Fin 6 → Int

def axis_neg (i : Fin 6) : Fin 12 := ⟨i * 2, by omega⟩

def axis_pos (i : Fin 6) : Fin 12 := ⟨i * 2 + 1, by omega⟩

namespace Joystick

def clear : Joystick where
  axis_travel := fun _ => 0
  axis_changed := fun _ => false
  axis_dir := fun _ => 0
  axis_value := fun _ => 0
  axes := fun _ => 0

/-! ## The functions of the source -/

def set_axis_travel (s : Joystick) (js_axis travel : UInt8) : Joystick :=
  if h : js_axis.toNat < 12 then
    { s with
      axis_travel := Function.update s.axis_travel ⟨js_axis.toNat, h⟩ travel
      axis_changed := Function.update s.axis_changed ⟨js_axis.toNat, h⟩ true }
  else s

/-- The buttons and the matrix of the game controller move no axis. -/
def handle (s : Joystick) : Event → Joystick
  | .axis_travel js_axis travel => s.set_axis_travel js_axis travel
  | _ => s

def joystick_update (s : Joystick) (mode : UInt8) (key : analog_key_t) : Joystick :=
  (analog_matrix.joystick_update mode key).events.foldl handle s

/-- The test of an axis: the flag of its positive channel, and the flag with the number of
the axis in place of its negative channel. -/
def flagged (s : Joystick) (i : Fin 6) : Bool :=
  s.axis_changed ⟨i, by omega⟩ || s.axis_changed (axis_pos i)

/-- The direction of an axis with the given travels. -/
def next_dir (dir : Int) (neg pos : UInt8) : Int :=
  if TRAVEL_SCALE < neg ∧ TRAVEL_SCALE < pos then
    if pos.toNat + AXIS_DIRECT_VALUE < neg.toNat then -1
    else if neg.toNat + AXIS_DIRECT_VALUE < pos.toNat then 1
    else dir
  else if neg ≠ 0 then -1
  else if pos ≠ 0 then 1
  else 0

def current_dir (s : Joystick) (i : Fin 6) : Int :=
  next_dir (s.axis_dir i) (s.axis_travel (axis_neg i)) (s.axis_travel (axis_pos i))

section Action

variable (curve : curve_t) (slope : slope_t)

def current_value (s : Joystick) (i : Fin 6) : Int :=
  if s.current_dir i < 0 then
    -(travel_to_joystick_axis curve slope (s.axis_travel (axis_neg i))).toNat
  else (travel_to_joystick_axis curve slope (s.axis_travel (axis_pos i))).toNat

/-- The loop over the axes. A turn touches its own axis only, so the turns are made at once. -/
def recompute (s : Joystick) : Joystick :=
  { s with
    axis_dir := fun i => if s.flagged i then s.current_dir i else s.axis_dir i
    axis_value := fun i => if s.flagged i then s.current_value curve slope i else s.axis_value i }

def deflection (s : Joystick) (i : Fin 6) : Nat :=
  if s.axis_dir i < 0 then (s.axis_travel (axis_neg i)).toNat
  else (s.axis_travel (axis_pos i)).toNat

def axis_square (s : Joystick) (a b : Fin 6) : Nat :=
  s.deflection a * s.deflection a + s.deflection b * s.deflection b

def clamp_axis (dir value : Int) : Int :=
  if dir < 0 then if value < -JOYSTICK_MAX_VALUE.toNat then -JOYSTICK_MAX_VALUE.toNat else value
  else if JOYSTICK_MAX_VALUE.toNat < value then JOYSTICK_MAX_VALUE.toNat
  else value

def limit_axis (square : Nat) (dir value : Int) : Int :=
  if R_SQUARE < square then clamp_axis dir ((value * 276).tdiv (sqrt_uint32 square)) else value

def limit_stick (s : Joystick) (a b : Fin 6) : Joystick :=
  let square := s.axis_square a b
  { s with
    axis_value := fun i =>
      if i = a ∨ i = b then limit_axis square (s.axis_dir i) (s.axis_value i)
      else s.axis_value i }

def set_axes (s : Joystick) : Joystick :=
  { s with
    axes := fun i =>
      if i = GC_AXIS_Y ∨ i = GC_AXIS_RY then -s.axis_value i else s.axis_value i }

def joystick_action (s : Joystick) : Joystick :=
  let changed := ∃ i, s.flagged i
  let s := s.recompute curve slope
  if changed then
    ((s.limit_stick GC_AXIS_X GC_AXIS_Y).limit_stick GC_AXIS_RX GC_AXIS_RY).set_axes
  else s

end Action

/-! ## Axes that are not flagged -/

/-- A channel that was never updated has no travel, and an axis whose flags are clear is at
rest. -/
structure Rested (s : Joystick) : Prop where
  unseen : ∀ c, s.axis_changed c = false → s.axis_travel c = 0
  still : ∀ i, s.flagged i = false → s.axis_dir i = 0 ∧ s.axis_value i = 0 ∧ s.axes i = 0

theorem clear_rested : clear.Rested :=
  ⟨fun _ _ => rfl, fun _ _ => ⟨rfl, rfl, rfl⟩⟩

theorem Rested.set_axis_travel {s : Joystick} (h : s.Rested) (js_axis travel : UInt8) :
    (s.set_axis_travel js_axis travel).Rested := by
  unfold Joystick.set_axis_travel
  split
  · rename_i hlt
    refine ⟨fun c hc => ?_, fun i hi => h.still i ?_⟩
    · by_cases he : c = ⟨js_axis.toNat, hlt⟩
      · subst he
        simp at hc
      · simp only [Function.update_of_ne he] at hc ⊢
        exact h.unseen c hc
    · -- A flag is only ever set.
      have hsub : ∀ c, Function.update s.axis_changed ⟨js_axis.toNat, hlt⟩ true c = false →
          s.axis_changed c = false := by
        intro c hc
        by_cases he : c = ⟨js_axis.toNat, hlt⟩
        · subst he
          simp at hc
        · rwa [Function.update_of_ne he] at hc
      unfold flagged at hi ⊢
      rw [Bool.or_eq_false_iff] at hi ⊢
      exact ⟨hsub _ hi.1, hsub _ hi.2⟩
  · exact h

theorem Rested.joystick_update {s : Joystick} (h : s.Rested) (mode : UInt8) (key : analog_key_t) :
    (s.joystick_update mode key).Rested := by
  unfold Joystick.joystick_update
  generalize (analog_matrix.joystick_update mode key).events = events
  induction events generalizing s with
  | nil => exact h
  | cons e events ih =>
    refine ih ?_
    cases e with
    | axis_travel js_axis travel => exact h.set_axis_travel js_axis travel
    | _ => exact h

section Action

variable (curve : curve_t) (slope : slope_t)

theorem limit_axis_zero (square : Nat) (dir : Int) : limit_axis square dir 0 = 0 := by
  unfold limit_axis clamp_axis
  simp [JOYSTICK_MAX_VALUE]

variable {s : Joystick} {i : Fin 6}

theorem limit_stick_still (h : s.axis_value i = 0) (a b : Fin 6) :
    (s.limit_stick a b).axis_value i = 0 := by
  unfold limit_stick
  dsimp only
  rw [h, limit_axis_zero, ite_self]

theorem action_of_flagged (h : ∃ i, s.flagged i) :
    s.joystick_action curve slope =
      (((s.recompute curve slope).limit_stick GC_AXIS_X GC_AXIS_Y).limit_stick
        GC_AXIS_RX GC_AXIS_RY).set_axes := if_pos h

theorem action_of_unflagged (h : ¬ ∃ i, s.flagged i) :
    s.joystick_action curve slope = s.recompute curve slope := if_neg h

theorem action_dir (s : Joystick) (i : Fin 6) :
    (s.joystick_action curve slope).axis_dir i =
      if s.flagged i then s.current_dir i else s.axis_dir i := by
  unfold joystick_action
  dsimp only
  split <;> rfl

theorem Rested.joystick_action (h : s.Rested) : (s.joystick_action curve slope).Rested := by
  by_cases hany : ∃ i, s.flagged i
  · rw [action_of_flagged curve slope hany]
    refine ⟨h.unseen, fun i hi => ?_⟩
    have hi' : s.flagged i = false := hi
    obtain ⟨hdir, hvalue, -⟩ := h.still i hi'
    have hnew : (s.recompute curve slope).axis_value i = 0 := by
      simp only [recompute, hi', Bool.false_eq_true, ite_false, hvalue]
    have hlimited := limit_stick_still (limit_stick_still hnew GC_AXIS_X GC_AXIS_Y)
      GC_AXIS_RX GC_AXIS_RY
    refine ⟨?_, hlimited, ?_⟩
    · simp only [set_axes, limit_stick, recompute, hi', Bool.false_eq_true, ite_false, hdir]
    · simp only [set_axes, hlimited, neg_zero, ite_self]
  · rw [action_of_unflagged curve slope hany]
    refine ⟨h.unseen, fun i hi => ?_⟩
    have hi' : s.flagged i = false := hi
    simp only [recompute, hi', Bool.false_eq_true, ite_false]
    exact h.still i hi'

/-! ## The circle -/

/-- The curve value `n` of an axis is what it was after its stick is scaled into the circle. -/
def InCircle (square n : Nat) : Prop :=
  square ≤ R_SQUARE ∨ n = 0 ∨
    sqrt_uint32 square ≤ 276 ∧
      (n = 127 ∨ n * (276 - sqrt_uint32 square) < sqrt_uint32 square)

variable {n square : Nat}

theorem scaled_back_iff {q : Nat} (hq : 0 < q) (hn : n ≤ 127) :
    min (n * 276 / q) 127 = n ↔ n = 0 ∨ q ≤ 276 ∧ (n = 127 ∨ n * (276 - q) < q) := by
  have hle : n * 276 / q * q ≤ n * 276 := Nat.div_mul_le_self _ _
  have hlt : n * 276 < (n * 276 / q + 1) * q := by
    rw [Nat.mul_comm _ q]
    exact Nat.lt_mul_div_succ (n * 276) hq
  generalize n * 276 / q = m at *
  constructor
  · intro h
    rcases Nat.eq_zero_or_pos n with h0 | hpos
    · exact .inl h0
    · have hnm : n * q ≤ m * q := Nat.mul_le_mul_right q (by omega)
      have hq276 : q ≤ 276 := Nat.le_of_mul_le_mul_left (hnm.trans hle) hpos
      refine .inr ⟨hq276, ?_⟩
      by_cases h127 : n = 127
      · exact .inl h127
      · have hm : m = n := by omega
        subst hm
        rw [Nat.mul_sub]
        rw [Nat.add_mul, Nat.one_mul] at hlt
        exact .inr (by omega)
  · rintro (rfl | ⟨hq276, h⟩)
    · have hm : m * q = 0 := by omega
      rcases Nat.mul_eq_zero.mp hm with rfl | rfl
      · rfl
      · omega
    · have hnm : n ≤ m := by
        by_contra hlt'
        have h1 : (m + 1) * q ≤ n * q := Nat.mul_le_mul_right q (by omega)
        have h2 : n * q ≤ n * 276 := Nat.mul_le_mul_left n hq276
        omega
      rcases h with rfl | h
      · omega
      · have hmn : m ≤ n := by
          by_contra hgt
          have h1 : (n + 1) * q ≤ m * q := Nat.mul_le_mul_right q (by omega)
          rw [Nat.mul_sub] at h
          rw [Nat.add_mul, Nat.one_mul] at h1
          omega
        omega

theorem sqrt_pos_of_outside (h : R_SQUARE < square) : 0 < sqrt_uint32 square := by
  rw [sqrt_uint32_eq]
  exact Nat.sqrt_pos.mpr (Nat.zero_lt_of_lt h)

theorem limit_axis_eq (hout : R_SQUARE < square) :
    limit_axis square 1 n = (min (n * 276 / sqrt_uint32 square) 127 : Nat) ∧
      limit_axis square (-1) (-n) = -(min (n * 276 / sqrt_uint32 square) 127 : Nat) := by
  have hpos : ((n : Int) * 276).tdiv (sqrt_uint32 square) =
      (n * 276 / sqrt_uint32 square : Nat) := by
    norm_cast
  have hneg : ((-n : Int) * 276).tdiv (sqrt_uint32 square) =
      -(n * 276 / sqrt_uint32 square : Nat) := by
    rw [Int.neg_mul, Int.neg_tdiv, hpos]
  have h127 : JOYSTICK_MAX_VALUE.toNat = 127 := rfl
  constructor
  · rw [limit_axis, if_pos hout, hpos, clamp_axis, if_neg (by decide), h127]
    split <;> omega
  · rw [limit_axis, if_pos hout, hneg, clamp_axis, if_pos (by decide), h127]
    split <;> omega

theorem limit_axis_pos_iff (hn : n ≤ 127) : limit_axis square 1 n = n ↔ InCircle square n := by
  unfold InCircle
  by_cases hout : R_SQUARE < square
  · rw [(limit_axis_eq hout).1, or_iff_right (Nat.not_le.mpr hout),
      ← scaled_back_iff (sqrt_pos_of_outside hout) hn]
    omega
  · rw [limit_axis, if_neg hout]
    exact iff_of_true rfl (.inl (Nat.not_lt.mp hout))

theorem limit_axis_neg_iff (hn : n ≤ 127) :
    limit_axis square (-1) (-n) = -n ↔ InCircle square n := by
  rw [← limit_axis_pos_iff hn]
  by_cases hout : R_SQUARE < square
  · rw [(limit_axis_eq hout).1, (limit_axis_eq hout).2]
    omega
  · simp only [limit_axis, if_neg hout]

/-! ## The values of the axes -/

def stick (i : Fin 6) : Option (Fin 6 × Fin 6) :=
  if i = GC_AXIS_X ∨ i = GC_AXIS_Y then some (GC_AXIS_X, GC_AXIS_Y)
  else if i = GC_AXIS_RX ∨ i = GC_AXIS_RY then some (GC_AXIS_RX, GC_AXIS_RY)
  else none

/-- The vertical axes are reported with the sign reversed. -/
def oriented (i : Fin 6) (value : Int) : Int :=
  if i = GC_AXIS_Y ∨ i = GC_AXIS_RY then -value else value

def current_deflection (s : Joystick) (i : Fin 6) : Nat :=
  if s.current_dir i < 0 then (s.axis_travel (axis_neg i)).toNat
  else (s.axis_travel (axis_pos i)).toNat

def current_square (s : Joystick) (i : Fin 6) : Nat :=
  match stick i with
  | none => 0
  | some (a, b) => s.current_deflection a * s.current_deflection a +
      s.current_deflection b * s.current_deflection b

def Seen (s : Joystick) : Prop := ∀ i, s.axis_travel (axis_neg i) ≠ 0 → s.flagged i = true

theorem Rested.recomputed (h : s.Rested) (hseen : s.Seen) (i : Fin 6) :
    (s.recompute curve slope).axis_dir i = s.current_dir i ∧
      (s.recompute curve slope).axis_value i = s.current_value curve slope i := by
  unfold recompute
  dsimp only
  by_cases hflag : s.flagged i = true
  · rw [if_pos hflag, if_pos hflag]
    exact ⟨rfl, rfl⟩
  · rw [if_neg hflag, if_neg hflag]
    obtain ⟨hdir, hvalue, -⟩ := h.still i (by simpa using hflag)
    have hneg : s.axis_travel (axis_neg i) = 0 := not_not.mp (mt (hseen i) hflag)
    have hpos : s.axis_travel (axis_pos i) = 0 := by
      refine h.unseen _ ?_
      unfold flagged at hflag
      simp only [Bool.or_eq_true, not_or, Bool.not_eq_true] at hflag
      exact hflag.2
    have hcurrent : s.current_dir i = 0 := by
      simp [current_dir, next_dir, hneg, hpos]
    refine ⟨hdir.trans hcurrent.symm, hvalue.trans ?_⟩
    simp [current_value, hcurrent, hpos]

theorem limited_value (s : Joystick) (i : Fin 6) :
    ((s.limit_stick GC_AXIS_X GC_AXIS_Y).limit_stick GC_AXIS_RX GC_AXIS_RY).axis_value i =
      match stick i with
      | none => s.axis_value i
      | some (a, b) => limit_axis (s.axis_square a b) (s.axis_dir i) (s.axis_value i) := by
  fin_cases i <;> rfl

theorem Rested.limited_value (h : s.Rested) (hseen : s.Seen) (i : Fin 6) :
    (((s.recompute curve slope).limit_stick GC_AXIS_X GC_AXIS_Y).limit_stick
      GC_AXIS_RX GC_AXIS_RY).axis_value i =
      limit_axis (s.current_square i) (s.current_dir i) (s.current_value curve slope i) := by
  obtain ⟨hdir, hvalue⟩ := h.recomputed curve slope hseen i
  have hdeflection : ∀ a, (s.recompute curve slope).deflection a = s.current_deflection a := by
    intro a
    unfold deflection current_deflection
    rw [(h.recomputed curve slope hseen a).1]
    rfl
  rw [Joystick.limited_value, current_square, hdir, hvalue]
  cases stick i with
  | none => exact (if_neg (Nat.not_lt_zero R_SQUARE)).symm
  | some ab =>
    simp only [axis_square, hdeflection]

theorem Rested.action_axes (h : s.Rested) (hseen : s.Seen) (i : Fin 6) :
    (s.joystick_action curve slope).axes i = oriented i
      (limit_axis (s.current_square i) (s.current_dir i) (s.current_value curve slope i)) := by
  by_cases hany : ∃ i, s.flagged i
  · rw [action_of_flagged curve slope hany, ← h.limited_value curve slope hseen i]
    rfl
  · have hflag : s.flagged i = false := by
      simpa using not_exists.mp hany i
    obtain ⟨hdir, hvalue, haxis⟩ := h.still i hflag
    have hzero : s.current_value curve slope i = 0 := by
      rw [← (h.recomputed curve slope hseen i).2]
      simp only [recompute, hflag, Bool.false_eq_true, ite_false, hvalue]
    rw [action_of_unflagged curve slope hany, hzero, limit_axis_zero]
    simp only [recompute, haxis, oriented, neg_zero, ite_self]

/-! ## The promise -/

/-- What `joystick_action` promises of the axes: each has been computed from its current
travels, so one at rest reports 0, and one with a single direction pressed reports the curve
value of that direction. -/
structure FollowsKeys (s : Joystick) : Prop where
  recomputed : ∀ i, (s.joystick_action curve slope).axis_dir i = s.current_dir i
  at_rest : ∀ i, s.axis_travel (axis_neg i) = 0 → s.axis_travel (axis_pos i) = 0 →
    (s.joystick_action curve slope).axes i = 0
  negative : ∀ i, s.axis_travel (axis_neg i) ≠ 0 → s.axis_travel (axis_pos i) = 0 →
    (s.joystick_action curve slope).axes i =
      oriented i (-(travel_to_joystick_axis curve slope (s.axis_travel (axis_neg i))).toNat)
  positive : ∀ i, s.axis_travel (axis_neg i) = 0 → s.axis_travel (axis_pos i) ≠ 0 →
    (s.joystick_action curve slope).axes i =
      oriented i (travel_to_joystick_axis curve slope (s.axis_travel (axis_pos i))).toNat

/-- When it keeps the promise: each axis with a negative travel is flagged, and the circle
of its stick leaves an axis with a single direction pressed where it is. -/
structure CanFollow (s : Joystick) : Prop where
  seen : s.Seen
  negative : ∀ i, s.axis_travel (axis_neg i) ≠ 0 → s.axis_travel (axis_pos i) = 0 →
    InCircle (s.current_square i)
      (travel_to_joystick_axis curve slope (s.axis_travel (axis_neg i))).toNat
  positive : ∀ i, s.axis_travel (axis_neg i) = 0 → s.axis_travel (axis_pos i) ≠ 0 →
    InCircle (s.current_square i)
      (travel_to_joystick_axis curve slope (s.axis_travel (axis_pos i))).toNat

theorem oriented_inj {v w : Int} : oriented i v = oriented i w ↔ v = w := by
  unfold oriented
  split
  · exact neg_inj
  · rfl

theorem travel_to_joystick_axis_le (travel : UInt8) :
    (travel_to_joystick_axis curve slope travel).toNat ≤ 127 := by
  -- The last line of the function cuts any value at the maximum.
  have hcut : ∀ v : UInt8, (if JOYSTICK_MAX_VALUE < v then JOYSTICK_MAX_VALUE else v) ≤
      JOYSTICK_MAX_VALUE := by
    intro v
    split
    · exact UInt8.le_refl _
    · rename_i h
      exact UInt8.not_lt.mp h
  exact UInt8.le_iff_toNat_le_toNat.mp (hcut _)

theorem current_dir_of_single
    (h : s.axis_travel (axis_neg i) = 0 ∨ s.axis_travel (axis_pos i) = 0) :
    s.current_dir i =
      if s.axis_travel (axis_neg i) ≠ 0 then -1
      else if s.axis_travel (axis_pos i) ≠ 0 then 1
      else 0 := by
  unfold current_dir next_dir
  rw [if_neg]
  rintro ⟨hneg, hpos⟩
  rcases h with h | h
  · rw [h] at hneg
    exact absurd hneg (by decide)
  · rw [h] at hpos
    exact absurd hpos (by decide)

theorem Rested.follows_keys_iff (h : s.Rested) :
    s.FollowsKeys curve slope ↔ s.CanFollow curve slope := by
  have hnegative : s.Seen → ∀ i, s.axis_travel (axis_neg i) ≠ 0 →
      s.axis_travel (axis_pos i) = 0 → ((s.joystick_action curve slope).axes i =
        oriented i (-(travel_to_joystick_axis curve slope (s.axis_travel (axis_neg i))).toNat) ↔
      InCircle (s.current_square i)
        (travel_to_joystick_axis curve slope (s.axis_travel (axis_neg i))).toNat) := by
    intro hseen i hneg hpos
    have hdir : s.current_dir i = -1 := by rw [current_dir_of_single (.inr hpos), if_pos hneg]
    rw [h.action_axes curve slope hseen, oriented_inj, current_value, hdir, if_pos (by decide)]
    exact limit_axis_neg_iff (travel_to_joystick_axis_le curve slope _)
  have hpositive : s.Seen → ∀ i, s.axis_travel (axis_neg i) = 0 →
      s.axis_travel (axis_pos i) ≠ 0 → ((s.joystick_action curve slope).axes i =
        oriented i (travel_to_joystick_axis curve slope (s.axis_travel (axis_pos i))).toNat ↔
      InCircle (s.current_square i)
        (travel_to_joystick_axis curve slope (s.axis_travel (axis_pos i))).toNat) := by
    intro hseen i hneg hpos
    have hdir : s.current_dir i = 1 := by
      rw [current_dir_of_single (.inl hneg), if_neg (not_not.mpr hneg), if_pos hpos]
    rw [h.action_axes curve slope hseen, oriented_inj, current_value, hdir, if_neg (by decide)]
    exact limit_axis_pos_iff (travel_to_joystick_axis_le curve slope _)
  constructor
  · intro hf
    have hseen : s.Seen := by
      intro i hneg
      by_contra hflag
      have hflag' : s.flagged i = false := by simpa using hflag
      have hpos : s.axis_travel (axis_pos i) = 0 := by
        refine h.unseen _ ?_
        exact (Bool.or_eq_false_iff.mp hflag').2
      have hdir := hf.recomputed i
      rw [action_dir, if_neg hflag, (h.still i hflag').1, current_dir_of_single (.inr hpos),
        if_pos hneg] at hdir
      exact absurd hdir (by decide)
    exact ⟨hseen, fun i hneg hpos => (hnegative hseen i hneg hpos).mp (hf.negative i hneg hpos),
      fun i hneg hpos => (hpositive hseen i hneg hpos).mp (hf.positive i hneg hpos)⟩
  · intro hc
    refine ⟨fun i => ?_, fun i hneg hpos => ?_,
      fun i hneg hpos => (hnegative hc.seen i hneg hpos).mpr (hc.negative i hneg hpos),
      fun i hneg hpos => (hpositive hc.seen i hneg hpos).mpr (hc.positive i hneg hpos)⟩
    · rw [action_dir]
      exact (h.recomputed curve slope hc.seen i).1
    · have hvalue : s.current_value curve slope i = 0 := by
        simp [current_value, hneg, hpos]
      rw [h.action_axes curve slope hc.seen, hvalue, limit_axis_zero]
      simp [oriented]

/-! ## Runs -/

/-- What happens to the joystick: an update of a key, and the task. -/
inductive Turn
  | joystick_update (mode : UInt8) (key : analog_key_t)
  | joystick_action

def take (s : Joystick) : Turn → Joystick
  | .joystick_update mode key => s.joystick_update mode key
  | .joystick_action => s.joystick_action curve slope

theorem Rested.take (h : s.Rested) (turn : Turn) : (s.take curve slope turn).Rested := by
  cases turn with
  | joystick_update mode key => exact h.joystick_update mode key
  | joystick_action => exact h.joystick_action curve slope

end Action

def down_key : analog_key_t :=
  ⟨AKM_GAMEPAD, AKS_REGULAR_RELEASED, 240, 0, 0, 0, ⟨120, 102⟩, ⟨0, 0⟩, 2, 24⟩

end Joystick

end keychron_qmk.analog_matrix
