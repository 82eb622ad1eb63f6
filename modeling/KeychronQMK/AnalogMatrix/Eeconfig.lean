-- What the analog matrix saves and loads: the calibration, the curve and the
-- mode of the game controller, and `analog_matrix_eeconfig_init`.
import KeychronQMK.AnalogMatrix.Profile

namespace keychron_qmk.analog_matrix

open layout

def DEFAULT_ZERO_TRAVEL_VALUE : Nat := 3000
def DEFAULT_FULL_RANGE : Nat := 900
def DEFAULT_FULL_TRAVEL_VALUE : Nat := DEFAULT_ZERO_TRAVEL_VALUE - DEFAULT_FULL_RANGE
def VALID_ANALOG_RAW_VALUE_MIN : Nat := 1200
def VALID_ANALOG_RAW_VALUE_MAX : Nat := 3500
def EXTERNAL_EEPROM_BYTE_COUNT : Nat := 1024

variable {R C : Nat}

def calibsCodec (R C : Nat) : Codec (Fin R → Fin C → calibrated_value_t) :=
  (calibCodec.array C).array R

def profilesCodec (R C : Nat) : Codec (Fin PROFILE_COUNT → analog_matrix_profile_t R C) :=
  (profileCodec R C).array PROFILE_COUNT

def curveCodec : Codec (Fin CURVE_POINTS_COUNT → point_t) := pointCodec.array CURVE_POINTS_COUNT

def uint32Codec : Codec UInt32 :=
  .packed 4 UInt32.toNat UInt32.ofNat (fun x => by have := x.toNat_lt; omega) fun x => by simp

/-- The place of a key in an array of calibrated values. -/
def calib_offset (r : Fin R) (c : Fin C) : Nat :=
  OFFSET_CALIBRATED_DATA_START + (r * C + c) * SIZE_OF_CALIB_VALUE_T

def Config.hasKey (cfg : Config R C) (r : Fin R) (c : Fin C) : Bool :=
  (cfg.analog_matrix_mask r).toNat.testBit c

/-! ## Calibrated values -/

/-- Invalid travels are set to their defaults. -/
def valid_value (v : calibrated_value_t) : calibrated_value_t :=
  let zero :=
    if VALID_ANALOG_RAW_VALUE_MAX < v.zero_travel.toNat ∨
        v.zero_travel.toNat < DEFAULT_ZERO_TRAVEL_VALUE - 300 then
      .ofNat 12 DEFAULT_ZERO_TRAVEL_VALUE
    else v.zero_travel
  let full :=
    if DEFAULT_FULL_TRAVEL_VALUE + 400 < v.full_travel.toNat ∨
        v.full_travel.toNat < VALID_ANALOG_RAW_VALUE_MIN then
      zero - .ofNat 12 DEFAULT_FULL_RANGE
    else v.full_travel
  ⟨zero, full⟩

def calibration_validate (v : calibrated_value_t) : calibrated_value_t :=
  if v.zero_travel.toNat < DEFAULT_ZERO_TRAVEL_VALUE - DEFAULT_FULL_RANGE / 5 then
    ⟨.ofNat 12 DEFAULT_ZERO_TRAVEL_VALUE, .ofNat 12 DEFAULT_FULL_TRAVEL_VALUE⟩
  else v

def default_travel (v : calibrated_value_t) : calibrated_value_t :=
  let zero := if v.zero_travel = 0 then .ofNat 12 DEFAULT_ZERO_TRAVEL_VALUE else v.zero_travel
  ⟨zero, if v.full_travel = 0 then zero - .ofNat 12 DEFAULT_FULL_RANGE else v.full_travel⟩

def checked_value (cfg : Config R C) (calibrated : UInt8) (r : Fin R) (c : Fin C)
    (v : calibrated_value_t) : calibrated_value_t :=
  if cfg.hasKey r c then
    if calibrated ≠ 0 then default_travel (calibration_validate (valid_value v)) else valid_value v
  else v

namespace Board

def update_default_travel (cfg : Config R C) (b : Board R C) : Board R C :=
  { b with
    saved_calib_values := fun r c =>
      if cfg.hasKey r c then default_travel (b.saved_calib_values r c)
      else b.saved_calib_values r c }

def he_eeprom_write_block {α : Type} (b : Board R C) (c : Codec α) (x : α) (addr : Nat) :
    Board R C :=
  { b with he_eeprom := c.write b.he_eeprom addr x }

def he_eeprom_driver_erase (b : Board R C) : Board R C :=
  { b with
    he_eeprom := fun a => if a < EXTERNAL_EEPROM_BYTE_COUNT then 0 else b.he_eeprom a }

end Board

open Board

def save_calibration_value (b : Board R C) (row : Fin R) (col : Fin C) : Board R C :=
  let b :=
    if b.eeprom_calibrated_key ≠ b.calibrated then
      { b with eeprom_calibrated_key := b.calibrated }.he_eeprom_write_block .byte b.calibrated
        (EXTERNAL_EEPROM_OFFSET + OFFSET_CALIBRATION)
    else b
  let offset := calib_offset row col
  let b := b.he_eeprom_write_block calibCodec (b.saved_calib_values row col)
    (EXTERNAL_EEPROM_OFFSET + offset)
  let b := b.check_data_version
  let b := b.analog_matrix_eeprom_update .byte b.calibrated OFFSET_CALIBRATION
  b.analog_matrix_eeprom_update calibCodec (b.saved_calib_values row col) offset

def save_calibration_values (cfg : Config R C) (b : Board R C) : Board R C :=
  let b :=
    if b.eeprom_calibrated_board ≠ b.calibrated then
      { b with eeprom_calibrated_board := b.calibrated }.he_eeprom_write_block .byte b.calibrated
        (EXTERNAL_EEPROM_OFFSET + OFFSET_CALIBRATION)
    else b
  let b := b.he_eeprom_write_block (calibsCodec R C) b.saved_calib_values
    (EXTERNAL_EEPROM_OFFSET + OFFSET_CALIBRATED_DATA_START)
  let b := b.check_data_version
  let b := b.analog_matrix_eeprom_update .byte b.calibrated OFFSET_CALIBRATION
  let b := b.analog_matrix_eeprom_update (calibsCodec R C) b.saved_calib_values
    OFFSET_CALIBRATED_DATA_START
  (b.update_default_travel cfg).update_travel_configs

/-! ## The game controller -/

def default_curve : Fin CURVE_POINTS_COUNT → point_t :=
  ![⟨0, 0⟩, ⟨10, 31⟩, ⟨30, 95⟩, ⟨40, 127⟩]

def checked_curve (pt : Fin CURVE_POINTS_COUNT → point_t) : Fin CURVE_POINTS_COUNT → point_t :=
  if ∀ i, (pt i).y = 0 then default_curve else pt

def ordered_curve (pt : Fin CURVE_POINTS_COUNT → point_t) : Prop :=
  (pt 0).x ≤ (pt 1).x ∧ (pt 1).x ≤ (pt 2).x ∧ (pt 2).x ≤ (pt 3).x

instance : DecidablePred ordered_curve := fun pt =>
  inferInstanceAs (Decidable ((pt 0).x ≤ (pt 1).x ∧ (pt 1).x ≤ (pt 2).x ∧ (pt 2).x ≤ (pt 3).x))

def game_controller_set_curve (b : Board R C) (pt : Fin CURVE_POINTS_COUNT → point_t) :
    Bool × Board R C :=
  -- The test is made on the old curve.
  if ordered_curve b.curve then
    let b := { b with curve := pt }
    (true, b.analog_matrix_eeprom_update curveCodec b.curve (OFFSET_CURVE_PTS_START R C))
  else (false, b)

def game_controller_mode_set (b : Board R C) (mode : UInt8) : Bool × Board R C :=
  if b.game_controller_mode = mode then (false, b)
  else
    let b := { b with game_controller_mode := mode }.check_data_version
    (true, b.analog_matrix_eeprom_update .byte b.game_controller_mode
      (OFFSET_GAME_CONTROLLER_MODE_START R C))

/-! ## The load -/

def checked_global (gobal_mode : BitVec 2) (g : analog_key_config_t) : analog_key_config_t :=
  let g := if g.mode = 0 then { g with mode := gobal_mode } else g
  let g :=
    if g.act_pt = 0 ∨ 40 < g.act_pt.toNat then { g with act_pt := .ofNat 6 DEFAULT_ACTUATION_POINT }
    else g
  let g :=
    if g.rpd_trig_sen = 0 ∨ 39 < g.rpd_trig_sen.toNat then
      { g with rpd_trig_sen := .ofNat 6 DEFAULT_RAPID_TRIGGER_SENSITIVITY }
    else g
  -- The second test is on the sensitivity again, which is in range by now.
  if g.rpd_trig_sen_deact = 0 ∨ 39 < g.rpd_trig_sen.toNat then
    { g with rpd_trig_sen_deact := g.rpd_trig_sen }
  else g

def checked_profile (cfg : Config R C) (i : Fin PROFILE_COUNT) (p : analog_matrix_profile_t R C) :
    analog_matrix_profile_t R C :=
  { p with global := checked_global (.ofNat 2 (cfg.profile_gobal_mode i).toNat) p.global }

def loaded_index (x : UInt8) : Fin PROFILE_COUNT := (profile_index x).getD 0

def reset_profiles (cfg : Config R C) (b : Board R C) : Board R C :=
  (List.range PROFILE_COUNT).foldl (fun b i => (profile_reset cfg b (.ofNat i)).2) b

def load_profiles (cfg : Config R C) (b : Board R C) : Board R C :=
  let profile := (profilesCodec R C).read b.eeprom (OFFSET_PROFILES_START R C)
  { b with
    current_profile_index := loaded_index (b.eeprom OFFSET_CURRENT_PROFILE)
    profile := fun i => checked_profile cfg i (profile i) }

def profile_init (cfg : Config R C) (b : Board R C) (reset : Bool) : Board R C :=
  if reset then reset_profiles cfg b else load_profiles cfg b

def eeconfig_init (b : Board R C) : Board R C :=
  { b with
    eeprom := fun _ => 0
    eeconfig_enabled := true
    eeconfig_keyboard := EECONFIG_KB_DATA_VERSION }

def load_calibration (cfg : Config R C) (b : Board R C) : Board R C :=
  let b := { b with
    calibrated := b.eeprom OFFSET_CALIBRATION
    saved_calib_values := fun _ _ => .zero }
  if b.calibrated ≠ 0 then
    { b with saved_calib_values := (calibsCodec R C).read b.eeprom OFFSET_CALIBRATED_DATA_START }
  else if uint32Codec.read b.he_eeprom 0 ≠ cfg.VENDOR_ID then
    b.he_eeprom_driver_erase.he_eeprom_write_block uint32Codec cfg.VENDOR_ID 0
  else
    let b := { b with calibrated := b.he_eeprom (EXTERNAL_EEPROM_OFFSET + OFFSET_CALIBRATION) }
    if b.calibrated ≠ 0 then
      let b := { b with
        saved_calib_values := (calibsCodec R C).read b.he_eeprom
          (EXTERNAL_EEPROM_OFFSET + OFFSET_CALIBRATED_DATA_START) }
      let b := b.analog_matrix_eeprom_update .byte b.calibrated OFFSET_CALIBRATION
      b.analog_matrix_eeprom_update (calibsCodec R C) b.saved_calib_values
        OFFSET_CALIBRATED_DATA_START
    else b

def load_game_controller (b : Board R C) : Board R C :=
  { b with
    curve := checked_curve (curveCodec.read b.eeprom (OFFSET_CURVE_PTS_START R C))
    game_controller_mode := b.eeprom (OFFSET_GAME_CONTROLLER_MODE_START R C) }

def check_calibration (cfg : Config R C) (b : Board R C) : Board R C :=
  { b with
    saved_calib_values := fun r c => checked_value cfg b.calibrated r c (b.saved_calib_values r c) }

def analog_matrix_eeconfig_init (cfg : Config R C) (b : Board R C) : Board R C :=
  let reset_profiles := !b.eeconfig_enabled
  let b := if b.eeconfig_enabled then b else eeconfig_init b
  let b := load_game_controller (profile_init cfg b reset_profiles)
  let b := check_calibration cfg (load_calibration cfg b)
  b.analog_matrix_clear.update_travel_configs

/-- The board without power: only the EEPROMs keep what they hold. -/
def unpowered (b : Board R C) : Board R C where
  profile := fun _ => .zero R C
  current_profile_index := 0
  analog_key_matrix := fun _ _ => .zero
  calibrated := 0
  saved_calib_values := fun _ _ => .zero
  eeprom_calibrated_key := 0
  eeprom_calibrated_board := 0
  curve := fun _ => ⟨0, 0⟩
  game_controller_mode := 0
  eeprom := b.eeprom
  eeconfig_keyboard := b.eeconfig_keyboard
  eeconfig_enabled := b.eeconfig_enabled
  he_eeprom := b.he_eeprom

def power_cycle (cfg : Config R C) (b : Board R C) : Board R C :=
  analog_matrix_eeconfig_init cfg (unpowered b)

end keychron_qmk.analog_matrix
