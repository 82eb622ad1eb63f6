-- The data of `analog_matrix_type.h` and its place in the EEPROM from
-- `analog_matrix_eeconfig.h`: bit fields are bit vectors of their width, and
-- each packed structure has a codec of its size.
import KeychronQMK.Lib.Layout
import Mathlib.Data.Fin.VecNotation
import Mathlib.Data.Fintype.Pi
import Mathlib.Tactic.Ring

namespace keychron_qmk.analog_matrix

open layout

/-! ## Constants -/

abbrev PROFILE_COUNT : Nat := 3

instance : NeZero PROFILE_COUNT := ⟨by decide⟩

def OKMC_COUNT : Nat := 20
def SOCD_COUNT : Nat := 20
abbrev CURVE_POINTS_COUNT : Nat := 4
def PROFILE_NAME_LEN : Nat := 30

def SIZE_OF_CALIB_VALUE_T : Nat := 3
def SIZE_OF_ANALOG_KEY_CONFIG_T : Nat := 4
def SIZE_OF_OKMC_CONFIG_T : Nat := 19
def SIZE_OF_SOCD_CONFIG_T : Nat := 3
def SIZE_OF_POINT_T : Nat := 2

/-! ## Packed structures -/

structure analog_key_config_t where
  mode : BitVec 2
  act_pt : BitVec 6
  rpd_trig_sen : BitVec 6
  rpd_trig_sen_deact : BitVec 6
  adv_mode : BitVec 4
  -- One byte with the names `adv_mode_data`, `okmc_idx` and `js_axis`.
  adv_mode_data : UInt8
  deriving DecidableEq

structure okmc_traval_config_t where
  shallow_act : BitVec 6
  shallow_deact : BitVec 6
  deep_act : BitVec 6
  deep_deact : BitVec 6
  deriving DecidableEq

structure okmc_action_t where
  shallow_act : BitVec 4
  shallow_deact : BitVec 4
  deep_act : BitVec 4
  deep_deact : BitVec 4
  deriving DecidableEq

structure okmc_config_t where
  travel : okmc_traval_config_t
  keycode : Fin 4 → UInt16
  action : Fin 4 → okmc_action_t
  deriving DecidableEq

structure socd_config_t where
  key_1_row : BitVec 3
  key_1_col : BitVec 5
  key_2_row : BitVec 3
  key_2_col : BitVec 5
  type : UInt8
  deriving DecidableEq

structure point_t where
  x : UInt8
  y : UInt8
  deriving DecidableEq

structure calibrated_value_t where
  zero_travel : BitVec 12
  full_travel : BitVec 12
  deriving DecidableEq

structure analog_matrix_profile_t (R C : Nat) where
  global : analog_key_config_t
  key_config : Fin R → Fin C → analog_key_config_t
  okmc : Fin OKMC_COUNT → okmc_config_t
  socd : Fin SOCD_COUNT → socd_config_t
  name : Fin PROFILE_NAME_LEN → UInt8
  crc16 : UInt16
  deriving DecidableEq

/-! ## Zeroed structures -/

def analog_key_config_t.zero : analog_key_config_t := ⟨0, 0, 0, 0, 0, 0⟩

def okmc_config_t.zero : okmc_config_t := ⟨⟨0, 0, 0, 0⟩, fun _ => 0, fun _ => ⟨0, 0, 0, 0⟩⟩

def socd_config_t.zero : socd_config_t := ⟨0, 0, 0, 0, 0⟩

def calibrated_value_t.zero : calibrated_value_t := ⟨0, 0⟩

def analog_matrix_profile_t.zero (R C : Nat) : analog_matrix_profile_t R C :=
  ⟨.zero, fun _ _ => .zero, fun _ => .zero, fun _ => .zero, fun _ => 0, 0⟩

/-! ## Codecs -/

def uint16Codec : Codec UInt16 :=
  .packed 2 UInt16.toNat UInt16.ofNat (fun x => by have := x.toNat_lt; omega) fun x => by simp

def keyConfigCodec : Codec analog_key_config_t :=
  .packed SIZE_OF_ANALOG_KEY_CONFIG_T
    (fun k => k.mode.toNat + 2 ^ 2 * (k.act_pt.toNat + 2 ^ 6 * (k.rpd_trig_sen.toNat +
      2 ^ 6 * (k.rpd_trig_sen_deact.toNat + 2 ^ 6 * (k.adv_mode.toNat +
        2 ^ 4 * k.adv_mode_data.toNat)))))
    (fun w => ⟨.ofNat 2 w, .ofNat 6 (w / 2 ^ 2), .ofNat 6 (w / 2 ^ 8), .ofNat 6 (w / 2 ^ 14),
      .ofNat 4 (w / 2 ^ 20), .ofNat (w / 2 ^ 24)⟩)
    (fun k => by
      have := k.mode.isLt; have := k.act_pt.isLt; have := k.rpd_trig_sen.isLt
      have := k.rpd_trig_sen_deact.isLt; have := k.adv_mode.isLt
      have := k.adv_mode_data.toNat_lt
      simp only [SIZE_OF_ANALOG_KEY_CONFIG_T]
      omega)
    (fun k => by
      obtain ⟨mode, act_pt, sen, deact, adv_mode, data⟩ := k
      have := mode.isLt; have := act_pt.isLt; have := sen.isLt; have := deact.isLt
      have := adv_mode.isLt; have := data.toNat_lt
      congr 1
      all_goals
        first
        | (apply BitVec.eq_of_toNat_eq; rw [BitVec.toNat_ofNat]; dsimp only; omega)
        | (apply UInt8.toNat_inj.mp; rw [UInt8.toNat_ofNat']; dsimp only; omega))

def okmcTravelCodec : Codec okmc_traval_config_t :=
  .packed 3
    (fun k => k.shallow_act.toNat + 2 ^ 6 * (k.shallow_deact.toNat + 2 ^ 6 * (k.deep_act.toNat +
      2 ^ 6 * k.deep_deact.toNat)))
    (fun w => ⟨.ofNat 6 w, .ofNat 6 (w / 2 ^ 6), .ofNat 6 (w / 2 ^ 12), .ofNat 6 (w / 2 ^ 18)⟩)
    (fun k => by
      have := k.shallow_act.isLt; have := k.shallow_deact.isLt
      have := k.deep_act.isLt; have := k.deep_deact.isLt
      omega)
    (fun k => by
      obtain ⟨shallow_act, shallow_deact, deep_act, deep_deact⟩ := k
      have := shallow_act.isLt; have := shallow_deact.isLt
      have := deep_act.isLt; have := deep_deact.isLt
      congr 1
      all_goals apply BitVec.eq_of_toNat_eq; rw [BitVec.toNat_ofNat]; dsimp only; omega)

def okmcActionCodec : Codec okmc_action_t :=
  .packed 2
    (fun k => k.shallow_act.toNat + 2 ^ 4 * (k.shallow_deact.toNat + 2 ^ 4 * (k.deep_act.toNat +
      2 ^ 4 * k.deep_deact.toNat)))
    (fun w => ⟨.ofNat 4 w, .ofNat 4 (w / 2 ^ 4), .ofNat 4 (w / 2 ^ 8), .ofNat 4 (w / 2 ^ 12)⟩)
    (fun k => by
      have := k.shallow_act.isLt; have := k.shallow_deact.isLt
      have := k.deep_act.isLt; have := k.deep_deact.isLt
      omega)
    (fun k => by
      obtain ⟨shallow_act, shallow_deact, deep_act, deep_deact⟩ := k
      have := shallow_act.isLt; have := shallow_deact.isLt
      have := deep_act.isLt; have := deep_deact.isLt
      congr 1
      all_goals apply BitVec.eq_of_toNat_eq; rw [BitVec.toNat_ofNat]; dsimp only; omega)

def okmcCodec : Codec okmc_config_t :=
  (okmcTravelCodec.pair ((uint16Codec.array 4).pair (okmcActionCodec.array 4))).via
    (fun k => (k.travel, k.keycode, k.action)) (fun p => ⟨p.1, p.2.1, p.2.2⟩) fun _ => rfl

def socdCodec : Codec socd_config_t :=
  .packed SIZE_OF_SOCD_CONFIG_T
    (fun k => k.key_1_row.toNat + 2 ^ 3 * (k.key_1_col.toNat + 2 ^ 5 * (k.key_2_row.toNat +
      2 ^ 3 * (k.key_2_col.toNat + 2 ^ 5 * k.type.toNat))))
    (fun w => ⟨.ofNat 3 w, .ofNat 5 (w / 2 ^ 3), .ofNat 3 (w / 2 ^ 8), .ofNat 5 (w / 2 ^ 11),
      .ofNat (w / 2 ^ 16)⟩)
    (fun k => by
      have := k.key_1_row.isLt; have := k.key_1_col.isLt; have := k.key_2_row.isLt
      have := k.key_2_col.isLt; have := k.type.toNat_lt
      simp only [SIZE_OF_SOCD_CONFIG_T]
      omega)
    (fun k => by
      obtain ⟨row1, col1, row2, col2, type⟩ := k
      have := row1.isLt; have := col1.isLt; have := row2.isLt; have := col2.isLt
      have := type.toNat_lt
      congr 1
      all_goals
        first
        | (apply BitVec.eq_of_toNat_eq; rw [BitVec.toNat_ofNat]; dsimp only; omega)
        | (apply UInt8.toNat_inj.mp; rw [UInt8.toNat_ofNat']; dsimp only; omega))

def pointCodec : Codec point_t :=
  (Codec.byte.pair .byte).via (fun p => (p.x, p.y)) (fun p => ⟨p.1, p.2⟩) fun _ => rfl

def calibCodec : Codec calibrated_value_t :=
  .packed SIZE_OF_CALIB_VALUE_T (fun v => v.zero_travel.toNat + 2 ^ 12 * v.full_travel.toNat)
    (fun w => ⟨.ofNat 12 w, .ofNat 12 (w / 2 ^ 12)⟩)
    (fun v => by
      have := v.zero_travel.isLt; have := v.full_travel.isLt
      simp only [SIZE_OF_CALIB_VALUE_T]
      omega)
    (fun v => by
      obtain ⟨zero, full⟩ := v
      have := zero.isLt; have := full.isLt
      congr 1
      all_goals apply BitVec.eq_of_toNat_eq; rw [BitVec.toNat_ofNat]; dsimp only; omega)

def profileCodec (R C : Nat) : Codec (analog_matrix_profile_t R C) :=
  (keyConfigCodec.pair (((keyConfigCodec.array C).array R).pair ((okmcCodec.array OKMC_COUNT).pair
    ((socdCodec.array SOCD_COUNT).pair ((Codec.byte.array PROFILE_NAME_LEN).pair
      uint16Codec))))).via
    (fun p => (p.global, p.key_config, p.okmc, p.socd, p.name, p.crc16))
    (fun t => ⟨t.1, t.2.1, t.2.2.1, t.2.2.2.1, t.2.2.2.2.1, t.2.2.2.2.2⟩) fun _ => rfl

/-! ## The layout of the EEPROM -/

section Layout

variable (R C : Nat)

def PROFILE_SIZE : Nat :=
  2 + SIZE_OF_ANALOG_KEY_CONFIG_T * (R * C + 1) + PROFILE_NAME_LEN +
    SIZE_OF_OKMC_CONFIG_T * OKMC_COUNT + SIZE_OF_SOCD_CONFIG_T * SOCD_COUNT

def OFFSET_CALIBRATION : Nat := 0
def OFFSET_CURRENT_PROFILE : Nat := OFFSET_CALIBRATION + 1

-- The calibrated data starts on the byte of the current profile.
def OFFSET_CALIBRATED_DATA_START : Nat := OFFSET_CURRENT_PROFILE
def OFFSET_CALIBRATED_DATA_END : Nat :=
  OFFSET_CALIBRATED_DATA_START + R * C * SIZE_OF_CALIB_VALUE_T

def OFFSET_PROFILES_START : Nat := OFFSET_CALIBRATED_DATA_END R C
def OFFSET_PROFILES_END : Nat := OFFSET_PROFILES_START R C + PROFILE_SIZE R C * PROFILE_COUNT

def OFFSET_CURVE_PTS_START : Nat := OFFSET_PROFILES_END R C
def OFFSET_CURVE_PTS_END : Nat := OFFSET_CURVE_PTS_START R C + CURVE_POINTS_COUNT * SIZE_OF_POINT_T

def OFFSET_GAME_CONTROLLER_MODE_START : Nat := OFFSET_CURVE_PTS_END R C

def EXTERNAL_EEPROM_OFFSET : Nat := 4

theorem profileCodec_size : (profileCodec R C).size = PROFILE_SIZE R C := by
  change 4 + (R * (C * 4) + (20 * (3 + (4 * 2 + 4 * 2)) + (20 * 3 + (30 * 1 + 2)))) = _
  simp only [PROFILE_SIZE, SIZE_OF_ANALOG_KEY_CONFIG_T, PROFILE_NAME_LEN, SIZE_OF_OKMC_CONFIG_T,
    OKMC_COUNT, SIZE_OF_SOCD_CONFIG_T, SOCD_COUNT]
  ring

end Layout

/-! ## Runtime keys -/

structure activity_point_t where
  actn_pt : UInt8
  deactn_pt : UInt8
  deriving DecidableEq

/-- A key at runtime, without its debug fields `debug`, `r` and `c`. -/
structure analog_key_t where
  mode : UInt8
  state : UInt8
  travel : UInt8
  last_travel : UInt8
  value : UInt16
  last_val : UInt16
  regular : activity_point_t
  rapid : activity_point_t
  -- One byte with the names `rpd_trig_sen`, `okmc_idx`, `js_axis` and `hold`.
  rpd_trig_sen : UInt8
  rpd_trig_sen_rls : UInt8
  deriving DecidableEq

def analog_key_t.zero : analog_key_t := ⟨0, 0, 0, 0, 0, 0, ⟨0, 0⟩, ⟨0, 0⟩, 0, 0⟩

end keychron_qmk.analog_matrix
