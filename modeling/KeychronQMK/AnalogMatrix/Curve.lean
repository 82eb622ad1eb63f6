-- The response curve of the game controller: the slopes that `game_controller_common.c`
-- keeps beside the points, the requests of the host to set a curve, and what a reboot
-- makes of a saved one. The slopes are exact rationals.
import KeychronQMK.AnalogMatrix.Persistence
import KeychronQMK.Lib.Runs
import Mathlib.Algebra.Order.Floor.Semiring
import Mathlib.Data.Rat.Floor
import Mathlib.Tactic.FieldSimp

namespace keychron_qmk.analog_matrix

open layout memory runs

variable {R C : Nat}

abbrev curve_t : Type := Fin CURVE_POINTS_COUNT → point_t

-- One slope for each line between two points.
abbrev slope_t : Type := Fin 3 → ℚ

/-! ## The value of a travel -/

def JOYSTICK_MAX_VALUE : UInt8 := 127

/-- The conversion to `uint8_t`. Out of range, where C leaves the value open, a negative
value is 0 and a large one is cut to its low byte. -/
def to_uint8 (q : ℚ) : UInt8 := .ofNat ⌊q⌋₊

def travel_to_joystick_axis (curve : curve_t) (slope : slope_t) (travel : UInt8) : UInt8 :=
  let t := travel / 6
  let on_line (pt : point_t) (slope : ℚ) : UInt8 :=
    to_uint8 (pt.y.toNat + slope * (t.toNat - pt.x.toNat))
  let axis_value :=
    if (curve ⟨3, by decide⟩).x < t then (curve ⟨3, by decide⟩).y
    else if (curve ⟨2, by decide⟩).x < t then on_line (curve ⟨2, by decide⟩) (slope 2)
    else if (curve ⟨1, by decide⟩).x < t then on_line (curve ⟨1, by decide⟩) (slope 1)
    else if (curve ⟨0, by decide⟩).x < t then on_line (curve ⟨0, by decide⟩) (slope 0)
    else 0
  if JOYSTICK_MAX_VALUE < axis_value then JOYSTICK_MAX_VALUE else axis_value

@[simp] theorem travel_to_joystick_axis_zero (curve : curve_t) (slope : slope_t) :
    travel_to_joystick_axis curve slope 0 = 0 := by
  simp [travel_to_joystick_axis, JOYSTICK_MAX_VALUE]

/-! ## The slopes -/

def default_slope : slope_t := fun _ => 127 / 40

def checked_slope (slope : slope_t) (pt : curve_t) : slope_t :=
  if ∀ i, (pt i).y = 0 then default_slope else slope

/-- The slopes after `game_controller_set_curve`: one between points above each other is
left as it was. -/
def curve_slope (slope : slope_t) (pt : curve_t) : slope_t := fun i =>
  if (pt i.castSucc).x ≠ (pt i.succ).x then
    (((pt i.succ).y.toNat : ℚ) - (pt i.castSucc).y.toNat) /
      (((pt i.succ).x.toNat : ℚ) - (pt i.castSucc).x.toNat)
  else slope i

structure CurveBoard (R C : Nat) where
  board : Board R C
  slope : slope_t

namespace CurveBoard

def saved_curve (s : CurveBoard R C) : curve_t :=
  curveCodec.read s.board.eeprom (OFFSET_CURVE_PTS_START R C)

def game_controller_set_curve (s : CurveBoard R C) (pt : curve_t) : Bool × CurveBoard R C :=
  let (done, board) := analog_matrix.game_controller_set_curve s.board pt
  (done, ⟨board, if done then curve_slope s.slope pt else s.slope⟩)

/-- The board when `analog_matrix_eeconfig_init` loads the curve. -/
def initialised (cfg : Config R C) (b : Board R C) : Board R C :=
  profile_init cfg (if b.eeconfig_enabled then b else eeconfig_init b) !b.eeconfig_enabled

def analog_matrix_eeconfig_init (cfg : Config R C) (s : CurveBoard R C) : CurveBoard R C :=
  ⟨analog_matrix.analog_matrix_eeconfig_init cfg s.board,
    checked_slope s.slope
      (curveCodec.read (initialised cfg s.board).eeprom (OFFSET_CURVE_PTS_START R C))⟩

def power_cycle (cfg : Config R C) (s : CurveBoard R C) : CurveBoard R C :=
  analog_matrix_eeconfig_init cfg ⟨unpowered s.board, fun _ => 0⟩

/-! ## The points and the slopes after each function -/

variable {s : CurveBoard R C}

theorem set_curve_stored (h : ordered_curve s.board.curve) (pt : curve_t) :
    s.game_controller_set_curve pt =
      (true, ⟨{ s.board with
        curve := pt
        eeprom := curveCodec.write s.board.eeprom (OFFSET_CURVE_PTS_START R C) pt },
        curve_slope s.slope pt⟩) := by
  simp [game_controller_set_curve, analog_matrix.game_controller_set_curve, h,
    Board.analog_matrix_eeprom_update]

theorem set_curve_rejected (h : ¬ ordered_curve s.board.curve) (pt : curve_t) :
    s.game_controller_set_curve pt = (false, s) := by
  simp [game_controller_set_curve, analog_matrix.game_controller_set_curve, h]

theorem set_curve_accepted_iff (s : CurveBoard R C) (pt : curve_t) :
    (s.game_controller_set_curve pt).1 = true ↔ ordered_curve s.board.curve := by
  by_cases h : ordered_curve s.board.curve
  · simp [set_curve_stored h, h]
  · simp [set_curve_rejected h, h]

theorem load_calibration_game_controller (cfg : Config R C) (b : Board R C) :
    (load_calibration cfg b).curve = b.curve ∧
      (load_calibration cfg b).eeconfig_enabled = b.eeconfig_enabled := by
  unfold load_calibration
  dsimp only
  split
  · exact ⟨rfl, rfl⟩
  · split
    · exact ⟨rfl, rfl⟩
    · split <;> exact ⟨rfl, rfl⟩

theorem profile_init_enabled (cfg : Config R C) (b : Board R C) (reset : Bool) :
    (profile_init cfg b reset).eeconfig_enabled = b.eeconfig_enabled := by
  unfold profile_init
  split
  · unfold reset_profiles
    refine foldl_miss (fun b : Board R C => b.eeconfig_enabled) (fun b i _ => ?_) b
    unfold profile_reset
    split
    · rfl
    · unfold profile_save
      split <;> rfl
  · simp only [load_profiles]

theorem initialised_enabled (cfg : Config R C) (b : Board R C) :
    (initialised cfg b).eeconfig_enabled = true := by
  unfold initialised
  rw [profile_init_enabled]
  split
  · assumption
  · rfl

theorem eeconfig_init_loads (cfg : Config R C) (s : CurveBoard R C) :
    (s.analog_matrix_eeconfig_init cfg).board.curve =
        checked_curve (curveCodec.read (initialised cfg s.board).eeprom
          (OFFSET_CURVE_PTS_START R C)) ∧
      (s.analog_matrix_eeconfig_init cfg).board.eeconfig_enabled = true := by
  obtain ⟨hcurve, henabled⟩ :=
    load_calibration_game_controller cfg (load_game_controller (initialised cfg s.board))
  refine ⟨hcurve, henabled.trans ?_⟩
  exact initialised_enabled cfg s.board

theorem initialised_of_enabled (cfg : Config R C) {b : Board R C} (h : b.eeconfig_enabled = true) :
    (initialised cfg b).eeprom = b.eeprom := by
  simp only [initialised, h, ite_true, Bool.not_true, profile_init, Bool.false_eq_true, ite_false,
    load_profiles]

theorem power_cycle_of_enabled (cfg : Config R C) (h : s.board.eeconfig_enabled = true) :
    (s.power_cycle cfg).board.curve = checked_curve s.saved_curve ∧
      (s.power_cycle cfg).slope = checked_slope (fun _ => 0) s.saved_curve := by
  have hread : (initialised cfg (unpowered s.board)).eeprom = s.board.eeprom :=
    initialised_of_enabled cfg h
  unfold power_cycle
  refine ⟨?_, ?_⟩
  · rw [(eeconfig_init_loads cfg _).1, hread]
    rfl
  · unfold analog_matrix_eeconfig_init
    rw [hread]
    rfl

/-! ## Requests -/

def step (s : CurveBoard R C) (pt : curve_t) : CurveBoard R C :=
  (s.game_controller_set_curve pt).2

/-- The stored curve has no point left of the one before it, in RAM and in the EEPROM. -/
def StoredOrdered (s : CurveBoard R C) : Prop :=
  ordered_curve s.board.curve ∧ ordered_curve s.saved_curve

/-- What is promised of a request: it is judged by its own points, an accepted one stores
them, a rejected one changes nothing, and an ordered curve stays ordered. -/
structure AnswersRight (s : CurveBoard R C) (pt : curve_t) : Prop where
  accepted : (s.game_controller_set_curve pt).1 = true ↔ ordered_curve pt
  stored : ordered_curve pt → (s.step pt).board.curve = pt ∧ (s.step pt).saved_curve = pt
  rejected : (s.game_controller_set_curve pt).1 = false → s.step pt = s
  ordered : s.StoredOrdered → (s.step pt).StoredOrdered

theorem step_of_ordered (h : ordered_curve s.board.curve) (pt : curve_t) :
    (s.step pt).board.curve = pt ∧ (s.step pt).saved_curve = pt := by
  unfold step saved_curve
  rw [set_curve_stored h]
  exact ⟨rfl, Codec.read_write _ _ _ _⟩

theorem step_of_unordered (h : ¬ ordered_curve s.board.curve) (pt : curve_t) : s.step pt = s := by
  unfold step
  rw [set_curve_rejected h]

theorem answers_right_iff (s : CurveBoard R C) (pt : curve_t) :
    s.AnswersRight pt ↔ (ordered_curve pt ↔ ordered_curve s.board.curve) := by
  constructor
  · intro h
    exact h.accepted.symm.trans (set_curve_accepted_iff s pt)
  · intro h
    refine ⟨(set_curve_accepted_iff s pt).trans h.symm, fun hpt => ?_, fun hno => ?_, fun hs => ?_⟩
    · exact step_of_ordered (h.mp hpt) pt
    · refine step_of_unordered (fun hcurve => ?_) pt
      rw [(set_curve_accepted_iff s pt).mpr hcurve] at hno
      cases hno
    · obtain ⟨hcurve, hsaved⟩ := step_of_ordered hs.1 pt
      rw [StoredOrdered, hcurve, hsaved]
      exact ⟨h.mpr hs.1, h.mpr hs.1⟩

theorem ordered_step_iff {pt : curve_t} (h : ordered_curve pt ↔ ordered_curve s.board.curve) :
    ordered_curve (s.step pt).board.curve ↔ ordered_curve s.board.curve := by
  by_cases hs : ordered_curve s.board.curve
  · rw [(step_of_ordered hs pt).1, h]
  · rw [step_of_unordered hs]

theorem answers_right_along_iff (s : CurveBoard R C) (pts : List curve_t) :
    Along step AnswersRight s pts ↔
      ∀ pt ∈ pts, (ordered_curve pt ↔ ordered_curve s.board.curve) := by
  induction pts generalizing s with
  | nil => simp [Along]
  | cons pt pts ih =>
    rw [Along, answers_right_iff, List.forall_mem_cons, ih]
    refine and_congr_right fun h => ?_
    rw [ordered_step_iff h]

/-- From any content of the EEPROM, all requests to set the curve are answered right if and
only if each of them is as ordered as the curve that was loaded. -/
theorem curve_requests_are_answered_right_iff (cfg : Config R C) (s : CurveBoard R C)
    (pts : List curve_t) :
    Along step AnswersRight (s.power_cycle cfg) pts ↔
      ∀ pt ∈ pts, (ordered_curve pt ↔ ordered_curve (s.power_cycle cfg).board.curve) :=
  answers_right_along_iff _ pts

/-! ## A saved curve after a reboot -/

structure SameResponse (s s' : CurveBoard R C) : Prop where
  curve : s'.board.curve = s.board.curve
  slope : s'.slope = s.slope
  value : ∀ travel, travel_to_joystick_axis s'.board.curve s'.slope travel =
    travel_to_joystick_axis s.board.curve s.slope travel

structure FlatLines (slope : slope_t) (pt : curve_t) : Prop where
  raised : ∃ i, (pt i).y ≠ 0
  flat : ∀ i : Fin 3,
    if (pt i.castSucc).x ≠ (pt i.succ).x then (pt i.castSucc).y = (pt i.succ).y else slope i = 0

theorem cast_toNat_inj {x y : UInt8} : (x.toNat : ℚ) = y.toNat ↔ x = y := by
  rw [Nat.cast_inj, UInt8.toNat_inj]

theorem curve_slope_eq_zero_iff (slope : slope_t) (pt : curve_t) (i : Fin 3) :
    curve_slope slope pt i = 0 ↔
      if (pt i.castSucc).x ≠ (pt i.succ).x then (pt i.castSucc).y = (pt i.succ).y
      else slope i = 0 := by
  unfold curve_slope
  split
  · rename_i hx
    have hwidth : ((pt i.succ).x.toNat : ℚ) - (pt i.castSucc).x.toNat ≠ 0 :=
      sub_ne_zero.mpr fun h => hx (cast_toNat_inj.mp h).symm
    rw [div_eq_zero_iff, or_iff_left hwidth, sub_eq_zero, cast_toNat_inj, eq_comm]
  · rfl

theorem checked_curve_eq_self_iff (pt : curve_t) : checked_curve pt = pt ↔ ∃ i, (pt i).y ≠ 0 := by
  by_cases h : ∀ i, (pt i).y = 0
  · have hdefault : checked_curve pt = default_curve := if_pos h
    have hlast : (default_curve 3).y ≠ 0 := by decide
    rw [hdefault]
    exact ⟨fun he => absurd (h 3) (he ▸ hlast), fun ⟨i, hi⟩ => absurd (h i) hi⟩
  · obtain ⟨i, hi⟩ := not_forall.mp h
    exact ⟨fun _ => ⟨i, hi⟩, fun _ => checked_curve_of_ne hi⟩

theorem same_response_iff (cfg : Config R C) (h : s.board.eeconfig_enabled = true)
    (hcurve : ordered_curve s.board.curve) (pt : curve_t) :
    SameResponse (s.step pt) ((s.step pt).power_cycle cfg) ↔ FlatLines s.slope pt := by
  obtain ⟨hpt, hsaved⟩ := step_of_ordered hcurve pt
  have hslope : (s.step pt).slope = curve_slope s.slope pt := by
    unfold step
    rw [set_curve_stored hcurve]
  have henabled : (s.step pt).board.eeconfig_enabled = true := by
    unfold step
    rw [set_curve_stored hcurve]
    exact h
  obtain ⟨hloaded, hzero⟩ := power_cycle_of_enabled cfg henabled
  rw [hsaved] at hloaded hzero
  constructor
  · intro hsame
    have hraised := (checked_curve_eq_self_iff pt).mp (hloaded.symm.trans (hsame.curve.trans hpt))
    refine ⟨hraised, fun i => (curve_slope_eq_zero_iff s.slope pt i).mp ?_⟩
    rw [← hslope, ← hsame.slope, hzero]
    exact congrFun (if_neg (not_forall.mpr hraised)) i
  · intro hflat
    have hc : ((s.step pt).power_cycle cfg).board.curve = (s.step pt).board.curve := by
      rw [hloaded, hpt, (checked_curve_eq_self_iff pt).mpr hflat.raised]
    have hs : ((s.step pt).power_cycle cfg).slope = (s.step pt).slope := by
      rw [hzero, hslope]
      funext i
      rw [(curve_slope_eq_zero_iff s.slope pt i).mpr (hflat.flat i)]
      exact congrFun (if_neg (not_forall.mpr hflat.raised)) i
    exact ⟨hc, hs, fun travel => by rw [hc, hs]⟩

theorem step_enabled (s : CurveBoard R C) (pt : curve_t) :
    (s.step pt).board.eeconfig_enabled = s.board.eeconfig_enabled := by
  by_cases h : ordered_curve s.board.curve
  · unfold step
    rw [set_curve_stored h]
  · rw [step_of_unordered h]

/-- In any run of requests since the power-up, an accepted curve answers as before after a
reboot if and only if it has some height and none of its slopes is lost. -/
theorem accepted_curves_survive_a_reboot_iff (cfg : Config R C) (s : CurveBoard R C)
    (pts : List curve_t) :
    Along step (fun s pt => (s.game_controller_set_curve pt).1 = true →
        SameResponse (s.step pt) ((s.step pt).power_cycle cfg)) (s.power_cycle cfg) pts ↔
      Along step (fun s pt => ordered_curve s.board.curve → FlatLines s.slope pt)
        (s.power_cycle cfg) pts := by
  refine Along.iff (I := fun s => s.board.eeconfig_enabled = true) (fun s pt h => ?_)
    (fun s pt h _ => (step_enabled s pt).trans h) (eeconfig_init_loads cfg _).2
  rw [set_curve_accepted_iff]
  refine ⟨fun hflat hcurve => ?_, fun hsame hcurve => ?_⟩
  · exact (same_response_iff cfg h hcurve pt).mpr (hflat hcurve)
  · exact (same_response_iff cfg h hcurve pt).mp (hsame hcurve)

/-! ## Failing runs -/

def emptyCurveBoard : CurveBoard 6 15 :=
  ⟨{ erasedBoard 6 15 with eeconfig_enabled := true }, fun _ => 0⟩

theorem emptyCurveBoard_ordered :
    ordered_curve (emptyCurveBoard.power_cycle sixRows).board.curve := by
  decide

/-- The points are given from the right to the left. -/
def leftward_curve : curve_t := ![⟨40, 127⟩, ⟨30, 95⟩, ⟨10, 31⟩, ⟨0, 0⟩]

/-- The default curve lets a decreasing one in, and that one keeps the default curve out. -/
theorem a_decreasing_curve_is_accepted :
    (¬ ∀ pts : List curve_t, Along step AnswersRight (emptyCurveBoard.power_cycle sixRows) pts) ∧
      (((emptyCurveBoard.power_cycle sixRows).step leftward_curve).game_controller_set_curve
        default_curve).1 = false := by
  have hstored := step_of_ordered emptyCurveBoard_ordered leftward_curve
  refine ⟨fun h => ?_, ?_⟩
  · obtain ⟨hright, -⟩ := h [leftward_curve]
    have haccepted := (set_curve_accepted_iff _ leftward_curve).mpr emptyCurveBoard_ordered
    exact absurd (hright.accepted.mp haccepted) (by decide)
  · rw [set_curve_rejected (by rw [hstored.1]; decide)]

def steep_curve : curve_t := ![⟨0, 0⟩, ⟨10, 20⟩, ⟨20, 60⟩, ⟨40, 127⟩]

/-- The slopes of an accepted curve are 0 after a reboot. -/
theorem a_saved_curve_is_flat_after_a_reboot :
    ¬ ∀ pts : List curve_t, Along step (fun s pt =>
      (s.game_controller_set_curve pt).1 = true →
        SameResponse (s.step pt) ((s.step pt).power_cycle sixRows))
      (emptyCurveBoard.power_cycle sixRows) pts := by
  intro h
  obtain ⟨hsame, -⟩ := h [steep_curve]
  have hresponse := hsame ((set_curve_accepted_iff _ _).mpr emptyCurveBoard_ordered)
  have henabled := (eeconfig_init_loads sixRows ⟨unpowered emptyCurveBoard.board, fun _ => 0⟩).2
  have hflat := ((same_response_iff sixRows henabled emptyCurveBoard_ordered steep_curve).mp
    hresponse).flat 0
  revert hflat
  decide

end CurveBoard

end keychron_qmk.analog_matrix
