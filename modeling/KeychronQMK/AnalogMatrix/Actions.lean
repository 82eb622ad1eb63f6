-- The handlers of a travel, one for each key mode (`action_*.c`), the samples
-- that reach them (`update_raw_value`) and the commands of the host
-- (`analog_matrix_rx`).
import KeychronQMK.AnalogMatrix.Eeconfig

namespace keychron_qmk.analog_matrix

open layout

/-! ## Constants -/

def AKS_REGULAR_RELEASED : UInt8 := 0
def AKS_REGULAR_PRESSED : UInt8 := 1
def AKS_RAPID_RELEASED : UInt8 := 2
def AKS_RAPID_PRESSED : UInt8 := 3

def OKMC_RELEASED : UInt8 := AKS_REGULAR_RELEASED
def OKMC_SHALLOW_ACTUATED : UInt8 := 1
def OKMC_DEEP_ACTUATED : UInt8 := 2
def OKMC_DEEP_DEACT_READY : UInt8 := 3
def OKMC_DEEP_DEACTUATED : UInt8 := 4

def FULL_TRAVEL_UNIT : UInt8 := 40
def BOTTOM_DEAD_ZONE : UInt8 := 38

def GC_MASK_XINPUT : UInt8 := 1
def GC_MASK_TYPING : UInt8 := 2

/-! ## Actions -/

/-- What a handler tells the rest of the firmware. -/
inductive Event
  /-- The travel of an axis of the game controller. -/
  | axis_travel (js_axis travel : UInt8)
  /-- A button of the game controller. -/
  | button (pressed : Bool) (index : UInt8)
  /-- The bit of the key in `game_controller_matrix`. -/
  | matrix (pressed : Bool)
  | shallow_actuate
  | shallow_deactuate
  | deep_actuate
  | deep_deactuate
  | release_okmc_keys
  deriving DecidableEq

structure Action where
  key : analog_key_t
  changed : Bool
  events : List Event
  deriving DecidableEq

def regular_trigger_action (key : analog_key_t) : Action :=
  if key.state = AKS_REGULAR_PRESSED ∧ (key.travel = 0 ∨ key.travel < key.regular.deactn_pt) then
    ⟨{ key with state := AKS_REGULAR_RELEASED }, true, []⟩
  else if key.state = AKS_REGULAR_RELEASED ∧ key.regular.actn_pt ≤ key.travel then
    ⟨{ key with state := AKS_REGULAR_PRESSED }, true, []⟩
  else ⟨key, false, []⟩

def toggle_action (key : analog_key_t) : Action :=
  if key.state = AKS_REGULAR_PRESSED ∧ (key.travel = 0 ∨ key.travel < key.regular.deactn_pt) then
    ⟨{ key with state := AKS_REGULAR_RELEASED }, false, []⟩
  else if key.state = AKS_REGULAR_RELEASED ∧ key.regular.actn_pt < key.travel then
    let hold := if key.rpd_trig_sen = 0 then 1 else 0
    ⟨{ key with state := AKS_REGULAR_PRESSED, rpd_trig_sen := hold }, true, []⟩
  else ⟨key, false, []⟩

/-- How the rapid trigger points follow the travel. -/
inductive Follow
  | no
  | down
  | up
  deriving DecidableEq

def update_rapid_pts (key : analog_key_t) : Follow → analog_key_t
  | .no => key
  | .up =>
    let deactn_pt :=
      if key.rpd_trig_sen_rls < key.travel then key.travel - key.rpd_trig_sen_rls else 0
    { key with rapid := ⟨key.travel, deactn_pt⟩ }
  | .down => { key with rapid := ⟨key.travel + key.rpd_trig_sen, key.travel⟩ }

def rapid_released (key : analog_key_t) : Prop :=
  key.travel ≤ key.rapid.deactn_pt ∧
    (key.travel.toNat : Int) < (BOTTOM_DEAD_ZONE * TRAVEL_SCALE).toNat - key.rpd_trig_sen_rls.toNat

instance : DecidablePred rapid_released := fun key =>
  inferInstanceAs (Decidable (key.travel ≤ key.rapid.deactn_pt ∧
    (key.travel.toNat : Int) <
      (BOTTOM_DEAD_ZONE * TRAVEL_SCALE).toNat - key.rpd_trig_sen_rls.toNat))

/-- The next state of a key in rapid mode, whether it changed, and what
becomes of the rapid trigger points. -/
def rapid_step (key : analog_key_t) : UInt8 × Bool × Follow :=
  if key.state = AKS_REGULAR_RELEASED then
    if key.regular.actn_pt ≤ key.travel then (AKS_REGULAR_PRESSED, true, .up)
    else (key.state, false, .no)
  else if key.state = AKS_REGULAR_PRESSED then
    if key.travel ≤ key.regular.deactn_pt then (AKS_REGULAR_RELEASED, true, .no)
    else if rapid_released key then (AKS_RAPID_RELEASED, true, .down)
    else if key.rapid.actn_pt < key.travel then (key.state, false, .up)
    else (key.state, false, .no)
  else if key.state = AKS_RAPID_RELEASED then
    if key.travel ≤ key.regular.deactn_pt then (AKS_REGULAR_RELEASED, false, .no)
    else if key.rapid.actn_pt ≤ key.travel ∧ key.regular.actn_pt ≤ key.travel then
      (AKS_RAPID_PRESSED, true, .up)
    else if key.travel < key.rapid.deactn_pt then (key.state, false, .down)
    else (key.state, false, .no)
  else if key.state = AKS_RAPID_PRESSED then
    if FULL_TRAVEL_UNIT * TRAVEL_SCALE < key.travel then (key.state, false, .no)
    else if key.travel ≤ key.regular.deactn_pt then (AKS_REGULAR_RELEASED, true, .no)
    else if rapid_released key then (AKS_RAPID_RELEASED, true, .down)
    else if key.rapid.actn_pt < key.travel then (key.state, false, .up)
    else (key.state, false, .no)
  else (key.state, false, .no)

def rapid_trigger_action (key : analog_key_t) : Action :=
  let (state, changed, follow) := rapid_step key
  ⟨update_rapid_pts { key with state } follow, changed, []⟩

def scaled (x : BitVec 6) : Nat := x.toNat * TRAVEL_SCALE.toNat

/-- The key is above both points at which a shallow actuation ends. -/
def shallow_released (cfg : okmc_traval_config_t) (travel : UInt8) : Prop :=
  (travel.toNat : Int) < ((cfg.shallow_act.toNat : Int) - 1) * TRAVEL_SCALE.toNat

instance (cfg : okmc_traval_config_t) : DecidablePred (shallow_released cfg) := fun travel =>
  inferInstanceAs (Decidable ((travel.toNat : Int) <
    ((cfg.shallow_act.toNat : Int) - 1) * TRAVEL_SCALE.toNat))

def okmc_action (cfg : okmc_traval_config_t) (key : analog_key_t) : Action :=
  let travel := key.travel.toNat
  if key.state = OKMC_RELEASED then
    if scaled cfg.shallow_act ≤ travel then
      ⟨{ key with state := OKMC_SHALLOW_ACTUATED }, true, [.shallow_actuate]⟩
    else ⟨key, false, []⟩
  else if key.state = OKMC_SHALLOW_ACTUATED then
    if travel < scaled cfg.shallow_deact ∧ shallow_released cfg key.travel then
      ⟨{ key with state := OKMC_RELEASED }, true, [.release_okmc_keys]⟩
    else if scaled cfg.deep_act ≤ travel then
      ⟨{ key with state := OKMC_DEEP_ACTUATED }, true, [.deep_actuate]⟩
    else ⟨key, false, []⟩
  else if key.state = OKMC_DEEP_ACTUATED then
    if scaled cfg.deep_deact < travel then
      ⟨{ key with state := OKMC_DEEP_DEACT_READY }, false, []⟩
    else if travel < scaled cfg.shallow_deact ∧ shallow_released cfg key.travel then
      ⟨{ key with state := OKMC_RELEASED }, true, [.release_okmc_keys]⟩
    else ⟨key, false, []⟩
  else if key.state = OKMC_DEEP_DEACT_READY then
    if travel ≤ scaled cfg.deep_deact then
      ⟨{ key with state := OKMC_DEEP_DEACTUATED }, true, [.deep_deactuate]⟩
    else ⟨key, false, []⟩
  else if key.state = OKMC_DEEP_DEACTUATED then
    if travel ≤ scaled cfg.shallow_deact ∧ shallow_released cfg key.travel then
      ⟨{ key with state := OKMC_RELEASED }, true, [.shallow_deactuate]⟩
    else ⟨key, false, []⟩
  else ⟨key, false, []⟩

/-! ## The game controller -/

def game_controller_xinput_enabled (mode : UInt8) : Bool := mode &&& GC_MASK_XINPUT ≠ 0

def game_controller_type_enabled (mode : UInt8) : Bool := mode &&& GC_MASK_TYPING ≠ 0

def controller_update (button : UInt8 → Option UInt8) (mode : UInt8) (key : analog_key_t) :
    Action :=
  let key := if key.travel < 1 * TRAVEL_SCALE then { key with travel := 0 } else key
  let axis := if key.rpd_trig_sen < GC_MAX then [Event.axis_travel key.rpd_trig_sen key.travel]
    else []
  let a := regular_trigger_action key
  if a.changed then
    let pressed : Bool := a.key.state = AKS_REGULAR_PRESSED
    let buttons := ((button key.rpd_trig_sen).map (Event.button pressed)).toList
    ⟨a.key, game_controller_type_enabled mode, axis ++ buttons ++ [.matrix pressed]⟩
  else ⟨a.key, false, axis⟩

def joystick_button (js_axis : UInt8) : Option UInt8 :=
  if GC_BUTTON_0 ≤ js_axis ∧ js_axis ≤ GC_BUTTON_31 then some (js_axis - GC_BUTTON_0) else none

def xinput_buttons_map : List UInt8 := [12, 13, 14, 15, 8, 9, 5, 4, 6, 7, 0, 1, 2, 3, 10, 11]

def xinput_button (js_axis : UInt8) : Option UInt8 :=
  if GC_BUTTON_0 ≤ js_axis ∧ js_axis < GC_BUTTON_0 + 16 then
    xinput_buttons_map[(js_axis - GC_BUTTON_0).toNat]?
  else none

def joystick_update (mode : UInt8) (key : analog_key_t) : Action :=
  controller_update joystick_button mode key

def xinput_update (mode : UInt8) (key : analog_key_t) : Action :=
  controller_update xinput_button mode key

/-! ## Samples -/

variable {R C : Nat}

/-- The OKMC setting of a key. The source reads an index past the array as
whatever lies behind it; here such an index reads a zeroed setting. -/
def okmc_setting (p : analog_matrix_profile_t R C) (okmc_idx : UInt8) : okmc_config_t :=
  if h : okmc_idx.toNat < OKMC_COUNT then p.okmc ⟨okmc_idx.toNat, h⟩ else .zero

def key_action (gc_mode : UInt8) (p : analog_matrix_profile_t R C) (key : analog_key_t) : Action :=
  if key.mode = AKM_RAPID then rapid_trigger_action key
  else if key.mode = AKM_DKS then okmc_action (okmc_setting p key.rpd_trig_sen).travel key
  else if key.mode = AKM_GAMEPAD then
    if game_controller_xinput_enabled gc_mode then xinput_update gc_mode key
    else joystick_update gc_mode key
  else if key.mode = AKM_TOGGLE then toggle_action key
  else regular_trigger_action key

/-- What the automatic calibration finds on a sample. -/
inductive AutoCalibration
  | unfinished
  /-- The key is calibrated anew, within the tolerance of what is saved. -/
  | adjusted
  | saved (value : calibrated_value_t)

/-- One sample of a key: the raw value, the travel that it converts to, and
the state of the two calibrations. -/
structure Sample where
  value : UInt16
  travel : UInt8
  calibrating : Bool
  auto : AutoCalibration

def Board.setKey (b : Board R C) (row : Fin R) (col : Fin C) (key : analog_key_t) : Board R C :=
  { b with
    analog_key_matrix := fun r c =>
      if r = row ∧ c = col then key else b.analog_key_matrix r c }

def auto_caliration_check (cfg : Config R C) (b : Board R C) (row : Fin R) (col : Fin C) :
    AutoCalibration → Board R C
  | .unfinished => b
  | .adjusted => (b.update_default_travel cfg).update_travel_configs
  | .saved v =>
    let b := { b with
      saved_calib_values := fun r c =>
        if r = row ∧ c = col then v else b.saved_calib_values r c }
    ((save_calibration_value b row col).update_default_travel cfg).update_travel_configs

def update_raw_value (cfg : Config R C) (b : Board R C) (row : Fin R) (col : Fin C) (s : Sample) :
    Bool × Board R C :=
  if s.value.toNat < VALID_ANALOG_RAW_VALUE_MIN ∨ VALID_ANALOG_RAW_VALUE_MAX < s.value.toNat then
    (false, b)
  else if s.calibrating then
    (false, b.setKey row col { b.analog_key_matrix row col with value := s.value })
  else
    let b := auto_caliration_check cfg b row col s.auto
    let k := b.analog_key_matrix row col
    if ((k.last_val.toNat : Int) - s.value.toNat).natAbs < 5 then (false, b)
    else
      let k := { k with last_val := s.value, value := s.value, travel := s.travel }
      if k.travel = k.last_travel then (false, b.setKey row col k)
      else
        let a := key_action b.game_controller_mode b.profile_get_current
          { k with last_travel := k.travel }
        (a.changed, b.setKey row col a.key)

def analog_matrix_get_key_state (b : Board R C) (row : Fin R) (col : Fin C) : Bool :=
  let k := b.analog_key_matrix row col
  if k.mode = AKM_REGULAR then k.state = AKS_REGULAR_PRESSED
  else if k.mode = AKM_RAPID then k.state = AKS_REGULAR_PRESSED ∨ k.state = AKS_RAPID_PRESSED
  else if k.mode = AKM_GAMEPAD then
    game_controller_type_enabled b.game_controller_mode ∧ k.state = AKS_REGULAR_PRESSED
  else if k.mode = AKM_TOGGLE then k.rpd_trig_sen ≠ 0
  else false

/-! ## Commands -/

def AMC_SELECT_PROFILE : UInt8 := 0x11
def AMC_SET_PROFILE_NAME : UInt8 := 0x13
def AMC_SET_TRAVAL : UInt8 := 0x14
def AMC_SET_ADVANCE_MODE : UInt8 := 0x15
def AMC_SET_SOCD : UInt8 := 0x16
def AMC_RESET_PROFILE : UInt8 := 0x1E
def AMC_SAVE_PROFILE : UInt8 := 0x1F
def AMC_SET_CURVE : UInt8 := 0x21
def AMC_SET_GAME_CONTROLLER_MODE : UInt8 := 0x23

def row_mask (data : Nat → UInt8) (r : Fin R) : UInt32 :=
  .ofNat (leNat (memory.readBlock data (8 + 3 * r) 3))

/-- `analog_matrix_rx` on a packet: whether the command succeeds, and the
board after it. The commands that are left out change nothing of a board. -/
def analog_matrix_rx (cfg : Config R C) (b : Board R C) (data : Nat → UInt8) : Bool × Board R C :=
  let cmd := data 1
  if data 0 ≠ 0xA9 then (false, b)
  else if cmd = AMC_SET_PROFILE_NAME then
    profile_set_name b (data 2) (data 3) fun i => data (4 + i)
  else if cmd = AMC_SELECT_PROFILE then profile_select b (data 2)
  else if cmd = AMC_SET_TRAVAL then
    let entire : Bool := data 7 ≠ 0
    profile_set_traval b (data 2) (data 3) (data 4) (data 5) (data 6) entire fun r =>
      if entire then 0 else row_mask data r
  else if cmd = AMC_SET_ADVANCE_MODE then profile_set_adv_mode b fun i => data (2 + i)
  else if cmd = AMC_SET_SOCD then profile_set_socd b fun i => data (2 + i)
  else if cmd = AMC_RESET_PROFILE then
    let (success, b) := profile_reset cfg b (data 2)
    (success, b.update_travel_configs)
  else if cmd = AMC_SAVE_PROFILE then profile_save b (data 2)
  else if cmd = AMC_SET_CURVE then game_controller_set_curve b (curveCodec.read data 2)
  else if cmd = AMC_SET_GAME_CONTROLLER_MODE then game_controller_mode_set b (data 2)
  else (true, b)

/-! ## Runs -/

/-- What can happen to a board: a packet from the host, a key that selects a
profile, a sample of a key, and a saved calibration of all keys. -/
inductive Input (R C : Nat)
  | rx (data : Nat → UInt8)
  | select (prof_idx : UInt8)
  | sample (row : Fin R) (col : Fin C) (s : Sample)
  | calibration

def react (cfg : Config R C) (b : Board R C) : Input R C → Board R C
  | .rx data => (analog_matrix_rx cfg b data).2
  | .select prof_idx => (profile_select b prof_idx).2
  | .sample row col s => (update_raw_value cfg b row col s).2
  | .calibration => save_calibration_values cfg b

end keychron_qmk.analog_matrix
