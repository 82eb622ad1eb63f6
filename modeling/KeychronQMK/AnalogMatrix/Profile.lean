-- The analog matrix of one board: what it holds in RAM and in its two
-- EEPROMs, the runtime configuration of a key, and the functions of
-- `profile.c` that the host commands call.
import KeychronQMK.AnalogMatrix.Types

namespace keychron_qmk.analog_matrix

open layout

/-! ## Constants -/

def AKM_GLOBAL : UInt8 := 0
def AKM_REGULAR : UInt8 := 1
def AKM_RAPID : UInt8 := 2
def AKM_DKS : UInt8 := 3
def AKM_GAMEPAD : UInt8 := 4
def AKM_TOGGLE : UInt8 := 5

def GC_MAX : UInt8 := 12
def GC_BUTTON_0 : UInt8 := 13
def GC_BUTTON_31 : UInt8 := GC_BUTTON_0 + 31
def GC_BUTTON_MAX : UInt8 := GC_BUTTON_31 + 1

def TRAVEL_SCALE : UInt8 := 6
def DEFAULT_ACTUATION_POINT : Nat := 20
def DEFAULT_RAPID_TRIGGER_SENSITIVITY : Nat := 4
def SOCD_PRI_MAX : UInt8 := 7

def KC_ANALOG_MATRIX_VERSION : UInt32 := 0x34340004
def EECONFIG_KB_DATA_VERSION : UInt32 := KC_ANALOG_MATRIX_VERSION

/-- What the files of one keyboard define. -/
structure Config (R C : Nat) where
  profile_gobal_mode : Fin PROFILE_COUNT → UInt8
  default_profiles : Fin PROFILE_COUNT → Fin R → Fin C → UInt16
  analog_matrix_mask : Fin R → UInt32
  VENDOR_ID : UInt32
  rows_pos : 0 < R
  cols_pos : 0 < C

/-- The static variables of the firmware, and the contents of the emulated
EEPROM (from EECONFIG_BASE_ANALOG_MATRIX on) and of the external one. -/
structure Board (R C : Nat) where
  profile : Fin PROFILE_COUNT → analog_matrix_profile_t R C
  current_profile_index : Fin PROFILE_COUNT
  analog_key_matrix : Fin R → Fin C → analog_key_t
  calibrated : UInt8
  saved_calib_values : Fin R → Fin C → calibrated_value_t
  -- `eeprom_calibrated` of `save_calibration_value`, and of `save_calibration_values`.
  eeprom_calibrated_key : UInt8
  eeprom_calibrated_board : UInt8
  curve : Fin CURVE_POINTS_COUNT → point_t
  game_controller_mode : UInt8
  eeprom : Nat → UInt8
  eeconfig_keyboard : UInt32
  eeconfig_enabled : Bool
  he_eeprom : Nat → UInt8

variable {R C : Nat}

/-- A bit field read into a byte. -/
def u8 {n : Nat} (x : BitVec n) : UInt8 := UInt8.ofNat x.toNat

/-! ## The runtime configuration of a key -/

section Configure

variable (global cfg : analog_key_config_t)

def basic_mode : UInt8 := if u8 cfg.mode = AKM_GLOBAL then u8 global.mode else u8 cfg.mode

def key_mode : UInt8 := if cfg.adv_mode ≠ 0 then u8 cfg.adv_mode else basic_mode global cfg

def key_actn_pt : UInt8 := if cfg.act_pt = 0 then u8 global.act_pt else u8 cfg.act_pt

def key_deactn_pt : UInt8 :=
  if 3 < key_actn_pt global cfg then key_actn_pt global cfg - 3 else 0

def key_sen : UInt8 :=
  if cfg.rpd_trig_sen = 0 then u8 global.rpd_trig_sen else u8 cfg.rpd_trig_sen

def key_sen_rls : UInt8 :=
  if cfg.rpd_trig_sen_deact = 0 then
    if global.rpd_trig_sen_deact = 0 then u8 global.rpd_trig_sen else u8 global.rpd_trig_sen_deact
  else u8 cfg.rpd_trig_sen_deact

/-- What a valid advanced mode puts over the sensitivity byte. -/
def adv_data : Option UInt8 :=
  if u8 cfg.adv_mode = AKM_DKS ∧ cfg.adv_mode_data.toNat < OKMC_COUNT then some cfg.adv_mode_data
  else if u8 cfg.adv_mode = AKM_GAMEPAD ∧ cfg.adv_mode_data < GC_BUTTON_MAX ∧
      cfg.adv_mode_data ≠ GC_MAX then some cfg.adv_mode_data
  else if u8 cfg.adv_mode = AKM_TOGGLE then some 0
  else none

def configured_key (key : analog_key_t) : analog_key_t :=
  { key with
    mode := key_mode global cfg
    regular :=
      ⟨key_actn_pt global cfg * TRAVEL_SCALE, key_deactn_pt global cfg * TRAVEL_SCALE⟩
    rpd_trig_sen := (adv_data cfg).getD (key_sen global cfg * TRAVEL_SCALE)
    rpd_trig_sen_rls := key_sen_rls global cfg * TRAVEL_SCALE }

/-- The configuration after `update_key_config`: an advanced mode that is
not valid is cleared. -/
def settled_config : analog_key_config_t :=
  if adv_data cfg = none then { cfg with adv_mode := 0 } else cfg

end Configure

namespace Board

def profile_get_current (b : Board R C) : analog_matrix_profile_t R C :=
  b.profile b.current_profile_index

def set_profile (b : Board R C) (i : Fin PROFILE_COUNT) (p : analog_matrix_profile_t R C) :
    Board R C :=
  { b with profile := Function.update b.profile i p }

/-- `update_key_config` for each selected key. A call reads and writes
nothing of another key, so the calls of a loop are made at once. -/
def update_key_configs (b : Board R C) (sel : Fin R → Fin C → Bool) : Board R C :=
  let p := b.profile_get_current
  { b.set_profile b.current_profile_index
      { p with
        key_config := fun r c =>
          if sel r c then settled_config (p.key_config r c) else p.key_config r c } with
    analog_key_matrix := fun r c =>
      if sel r c then configured_key p.global (p.key_config r c) (b.analog_key_matrix r c)
      else b.analog_key_matrix r c }

def update_key_config (b : Board R C) (row : Fin R) (col : Fin C) : Board R C :=
  b.update_key_configs fun r c => r = row ∧ c = col

def update_travel_configs (b : Board R C) : Board R C := b.update_key_configs fun _ _ => true

def analog_matrix_clear (b : Board R C) : Board R C :=
  { b with analog_key_matrix := fun _ _ => .zero }

/-! ## The EEPROM -/

def analog_matrix_eeprom_update {α : Type} (b : Board R C) (c : Codec α) (x : α) (addr : Nat) :
    Board R C :=
  { b with eeprom := c.write b.eeprom addr x }

def update_data_version (b : Board R C) : Board R C :=
  { b with eeconfig_keyboard := EECONFIG_KB_DATA_VERSION }

def eeconfig_is_kb_datablock_valid (b : Board R C) : Bool :=
  b.eeconfig_keyboard = EECONFIG_KB_DATA_VERSION

def check_data_version (b : Board R C) : Board R C :=
  { b with
    eeconfig_keyboard :=
      if b.eeconfig_is_kb_datablock_valid then b.eeconfig_keyboard else EECONFIG_KB_DATA_VERSION }

end Board

/-! ## Profiles -/

def profile_index (i : UInt8) : Option (Fin PROFILE_COUNT) :=
  if h : i.toNat < PROFILE_COUNT then some ⟨i.toNat, h⟩ else none

def key_index (R C : Nat) (row col : UInt8) : Option (Fin R × Fin C) :=
  if h : row.toNat < R ∧ col.toNat < C then some (⟨row.toNat, h.1⟩, ⟨col.toNat, h.2⟩) else none

open Board

def profile_select (b : Board R C) (prof_idx : UInt8) : Bool × Board R C :=
  match profile_index prof_idx with
  | none => (false, b)
  | some i =>
    if i ≠ b.current_profile_index then
      let b := { b with current_profile_index := i }
      let b := b.analog_matrix_clear.update_travel_configs.update_data_version
      (true, b.analog_matrix_eeprom_update .byte prof_idx OFFSET_CURRENT_PROFILE)
    else (true, b)

def set_traval (cfg : analog_key_config_t) (mode act_pt sens rls_sens : UInt8) :
    analog_key_config_t :=
  { cfg with
    mode := .ofNat 2 mode.toNat
    act_pt := .ofNat 6 act_pt.toNat
    rpd_trig_sen := .ofNat 6 sens.toNat
    rpd_trig_sen_deact := .ofNat 6 rls_sens.toNat }

def profile_set_traval (b : Board R C) (prof_idx mode act_pt sens rls_sens : UInt8)
    (global : Bool) (row : Fin R → UInt32) : Bool × Board R C :=
  match profile_index prof_idx with
  | none => (false, b)
  | some i =>
    if AKM_RAPID < mode ∨ 39 < act_pt ∨ (global = true ∧ mode = AKM_GLOBAL) then (false, b)
    else
      let prof := b.profile i
      if global then
        (true, b.set_profile i
          { prof with global := set_traval prof.global mode act_pt sens rls_sens })
      else
        let sel := fun (r : Fin R) (c : Fin C) => (row r).toNat.testBit c
        let b := b.set_profile i
          { prof with
            key_config := fun r c =>
              if sel r c then set_traval (prof.key_config r c) mode act_pt sens rls_sens
              else prof.key_config r c }
        (true, if i = b.current_profile_index then b.update_key_configs sel else b)

/-- The OKMC setting in the command of an advanced mode. -/
def okmc_of_data (data : Nat → UInt8) : okmc_config_t where
  travel := ⟨.ofNat 6 (data 5).toNat, .ofNat 6 (data 6).toNat, .ofNat 6 (data 7).toNat,
    .ofNat 6 (data 8).toNat⟩
  keycode := (uint16Codec.array 4).read data 9
  action := (okmcActionCodec.array 4).read data 17

def ADV_MODE_CLEAR : UInt8 := 0
def ADV_MODE_OKMC : UInt8 := 1
def ADV_MODE_GAME_CONTROLLER : UInt8 := 2
def ADV_MODE_TOGGLE : UInt8 := 3

def set_adv_mode (prof : analog_matrix_profile_t R C) (cfg : analog_key_config_t)
    (data : Nat → UInt8) : Option (analog_matrix_profile_t R C × analog_key_config_t) :=
  let mode := data 1
  let index := data 4
  if mode = ADV_MODE_CLEAR then some (prof, { cfg with adv_mode := 0, adv_mode_data := 0 })
  else if mode = ADV_MODE_OKMC then
    if h : index.toNat < OKMC_COUNT then
      some ({ prof with okmc := Function.update prof.okmc ⟨index.toNat, h⟩ (okmc_of_data data) },
        { cfg with adv_mode := .ofNat 4 AKM_DKS.toNat, adv_mode_data := index })
    else none
  else if mode = ADV_MODE_GAME_CONTROLLER then
    if GC_BUTTON_MAX ≤ index then none
    else some (prof, { cfg with adv_mode := .ofNat 4 AKM_GAMEPAD.toNat, adv_mode_data := index })
  else if mode = ADV_MODE_TOGGLE then
    some (prof, { cfg with adv_mode := .ofNat 4 AKM_TOGGLE.toNat, adv_mode_data := 0 })
  else none

def profile_set_adv_mode (b : Board R C) (data : Nat → UInt8) : Bool × Board R C :=
  match profile_index (data 0), key_index R C (data 2) (data 3) with
  | some i, some (row, col) =>
    match set_adv_mode (b.profile i) ((b.profile i).key_config row col) data with
    | none => (false, b)
    | some (prof, cfg) =>
      let b := b.set_profile i
        { prof with
          key_config := fun r c => if r = row ∧ c = col then cfg else prof.key_config r c }
      (true, if i = b.current_profile_index then b.update_key_config row col else b)
  | _, _ => (false, b)

def profile_set_socd (b : Board R C) (data : Nat → UInt8) : Bool × Board R C :=
  let row1 := data 1
  let col1 := data 2
  let row2 := data 3
  let col2 := data 4
  let index := data 5
  let type := data 6
  match profile_index (data 0), key_index R C row1 col1, key_index R C row2 col2 with
  | some i, some _, some _ =>
    if h : index.toNat < SOCD_COUNT ∧ type < SOCD_PRI_MAX then
      if type ≠ 0 ∧ row1 = row2 ∧ col1 = col2 then (false, b)
      else
        let prof := b.profile i
        let entry : socd_config_t :=
          if type ≠ 0 then
            ⟨.ofNat 3 row1.toNat, .ofNat 5 col1.toNat, .ofNat 3 row2.toNat, .ofNat 5 col2.toNat,
              type⟩
          else .zero
        (true, b.set_profile i
          { prof with socd := Function.update prof.socd ⟨index.toNat, h.1⟩ entry })
    else (false, b)
  | _, _, _ => (false, b)

def profile_set_name (b : Board R C) (prof_idx len : UInt8) (name : Nat → UInt8) :
    Bool × Board R C :=
  match profile_index prof_idx with
  | none => (false, b)
  | some i =>
    if 28 < len then (false, b)
    else (true, b.set_profile i
      { b.profile i with name := fun k => if k.val < len.toNat then name k else 0 })

def profile_save (b : Board R C) (prof_index : UInt8) : Bool × Board R C :=
  match profile_index prof_index with
  | none => (false, b)
  | some i =>
    (true, b.check_data_version.analog_matrix_eeprom_update (profileCodec R C) (b.profile i)
      (OFFSET_PROFILES_START R C + i * PROFILE_SIZE R C))

def default_profile (cfg : Config R C) (i : Fin PROFILE_COUNT) : analog_matrix_profile_t R C :=
  { analog_matrix_profile_t.zero R C with
    global := ⟨.ofNat 2 (cfg.profile_gobal_mode i).toNat, .ofNat 6 DEFAULT_ACTUATION_POINT,
      .ofNat 6 DEFAULT_RAPID_TRIGGER_SENSITIVITY, .ofNat 6 DEFAULT_RAPID_TRIGGER_SENSITIVITY, 0, 0⟩
    key_config := fun r c =>
      let d := (cfg.default_profiles i r c).toNat
      let adv_mode := .ofNat 4 (d / 2 ^ 2 % 8)
      { analog_key_config_t.zero with
        mode := .ofNat 2 d
        adv_mode
        adv_mode_data := if u8 adv_mode = AKM_GAMEPAD then .ofNat (d / 2 ^ 5) else 0 } }

def profile_reset (cfg : Config R C) (b : Board R C) (prof_index : UInt8) : Bool × Board R C :=
  match profile_index prof_index with
  | none => (false, b)
  | some i => (true, (profile_save (b.set_profile i (default_profile cfg i)) prof_index).2)

end keychron_qmk.analog_matrix
