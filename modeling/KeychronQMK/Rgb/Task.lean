-- The lights while they render: `rgb_matrix_task` of `quantum/rgb_matrix/rgb_matrix.c`
-- with MIXED RGB of `keyboards/keychron/common/rgb/mixed_rgb.c`, and the commands that
-- write to EEPROM. What an effect draws is left out: no effect but MIXED RGB writes to the
-- configuration.
import KeychronQMK.Rgb.Funs
import KeychronQMK.Via.LightingSave

namespace keychron_qmk.rgb_matrix

open traced via_rgb_matrix

/-! ## Constants -/

def RGB_MATRIX_NONE : UInt8 := 0
def UINT8_MAX : UInt8 := 255
def LED_FLAG_ALL : UInt8 := 0xFF
def RGB_MATRIX_LED_FLUSH_LIMIT : UInt32 := 16
def TRANSITION_TIME : UInt32 := 1000

/-- A keyboard: its layers of effects, the options of its build, and what an empty
EEPROM is given. -/
structure Board extends Build where
  layers : rgb.Config
  RGB_MATRIX_HUE_STEP : UInt8
  RGB_MATRIX_SAT_STEP : UInt8
  RGB_MATRIX_SPD_STEP : UInt8
  default_config : rgb_config_t

/-! ## State -/

inductive rgb_task_states where
  | STARTING
  | RENDERING
  | FLUSHING
  | SYNCING
  deriving DecidableEq

structure effect_params_t where
  iter : UInt8
  flags : UInt8
  init : Bool
  region : UInt8

structure State where
  rgb_matrix_config : rgb_config_t
  dirty_rgb_matrix : Bool
  eeprom : Block
  rgb_last_enable : UInt8
  rgb_last_effect : UInt8
  rgb_effect_params : effect_params_t
  rgb_task_state : rgb_task_states
  g_rgb_timer : UInt32
  rgb_timer_buffer : UInt32
  lamps : rgb.Lamps

def enable_byte (c : rgb_config_t) : UInt8 := c.enable.toNat.toUInt8

def mode_of (c : rgb_config_t) : UInt8 := c.mode.toNat.toUInt8

def eeprom_write_hsv (hsv : hsv_t) (e : Block) : Block :=
  eeprom_write_byte offset_v hsv.v (eeprom_write_byte offset_s hsv.s
    (eeprom_write_byte offset_h hsv.h e))

def nvm_eeconfig_update_rgb_matrix (c : rgb_config_t) (e : Block) : Block :=
  eeprom_write_byte offset_flags c.flags (eeprom_write_byte offset_speed c.speed
    (eeprom_write_hsv c.hsv (eeprom_write_byte 0 (mode_byte c) e)))

def eeconfig_flush_rgb_matrix (force : Bool) (s : State) : State :=
  if force || s.dirty_rgb_matrix then
    { s with
      eeprom := nvm_eeconfig_update_rgb_matrix s.rgb_matrix_config s.eeprom
      dirty_rgb_matrix := false }
  else s

def eeconfig_init_rgb_matrix (s : State) : State :=
  { s with
    rgb_matrix_config := nvm_eeconfig_read_rgb_matrix s.eeprom
    dirty_rgb_matrix := false }

section

variable (b : Board)

def eeconfig_update_rgb_matrix_default (s : State) : State :=
  eeconfig_flush_rgb_matrix true { s with rgb_matrix_config := b.default_config }

def rgb_matrix_init (s : State) : State :=
  let s := eeconfig_init_rgb_matrix s
  if s.rgb_matrix_config.mode = 0 then eeconfig_update_rgb_matrix_default b s else s

/-! ## Commands -/

def rgb_matrix_sethsv (hue sat val : UInt8) (s : State) : State :=
  if s.rgb_matrix_config.enable = 0 then s
  else
    let c := rgb_matrix_sethsv_noeeprom b.toBuild hue sat val s.rgb_matrix_config
    { s with rgb_matrix_config := c, eeprom := eeprom_write_hsv c.hsv s.eeprom }

def qsub8 (i j : UInt8) : UInt8 := if i < j then 0 else i - j

def rgb_matrix_increase_hue (s : State) : State :=
  let hsv := s.rgb_matrix_config.hsv
  rgb_matrix_sethsv b (hsv.h + b.RGB_MATRIX_HUE_STEP) hsv.s hsv.v s

def rgb_matrix_decrease_hue (s : State) : State :=
  let hsv := s.rgb_matrix_config.hsv
  rgb_matrix_sethsv b (hsv.h - b.RGB_MATRIX_HUE_STEP) hsv.s hsv.v s

def rgb_matrix_increase_sat (s : State) : State :=
  let hsv := s.rgb_matrix_config.hsv
  rgb_matrix_sethsv b hsv.h (qadd8 hsv.s b.RGB_MATRIX_SAT_STEP) hsv.v s

def rgb_matrix_decrease_sat (s : State) : State :=
  let hsv := s.rgb_matrix_config.hsv
  rgb_matrix_sethsv b hsv.h (qsub8 hsv.s b.RGB_MATRIX_SAT_STEP) hsv.v s

/-- The step of an increase, with the lights on. -/
def brighter (s : State) : State :=
  let hsv := s.rgb_matrix_config.hsv
  rgb_matrix_sethsv b hsv.h hsv.s (qadd8 hsv.v b.RGB_MATRIX_VAL_STEP) s

def leave_dark_saved (dark : UInt8) : Nat → State → State
  | 0, s => s
  | n + 1, s =>
    if s.rgb_matrix_config.enable ≠ 0 ∧ s.rgb_matrix_config.hsv.v < dark then
      leave_dark_saved dark n (brighter b s)
    else s

def out_of_dark (s : State) : State :=
  match b.RGB_MATRIX_BRIGHTNESS_TURN_OFF_VAL with
  | some dark => leave_dark_saved b dark 255 s
  | none => s

def write_mode (s : State) : State :=
  { s with eeprom := eeprom_write_byte 0 (mode_byte s.rgb_matrix_config) s.eeprom }

def rgb_matrix_toggle (s : State) : State :=
  out_of_dark b (write_mode { s with
    rgb_matrix_config.enable := s.rgb_matrix_config.enable ^^^ 1
    rgb_task_state := .STARTING })

def rgb_matrix_increase_val (s : State) : State :=
  if b.RGB_MATRIX_BRIGHTNESS_TURN_OFF_VAL.isSome ∧ s.rgb_matrix_config.enable = 0 then
    rgb_matrix_toggle b s
  else brighter b s

def rgb_matrix_decrease_val (s : State) : State :=
  let hsv := s.rgb_matrix_config.hsv
  let s := rgb_matrix_sethsv b hsv.h hsv.s (qsub8 hsv.v b.RGB_MATRIX_VAL_STEP) s
  match b.RGB_MATRIX_BRIGHTNESS_TURN_OFF_VAL with
  | some dark =>
    if s.rgb_matrix_config.enable ≠ 0 ∧ s.rgb_matrix_config.hsv.v ≤ dark then
      rgb_matrix_toggle b s
    else s
  | none => s

/-- The lights leave the dark before the loop that would save the steps. -/
def rgb_matrix_enable (s : State) : State :=
  let started := if s.rgb_matrix_config.enable = 0 then .STARTING else s.rgb_task_state
  out_of_dark b (write_mode { s with
    rgb_matrix_config := rgb_matrix_enable_noeeprom b.toBuild s.rgb_matrix_config
    rgb_task_state := started })

def rgb_matrix_disable (s : State) : State :=
  let started := if s.rgb_matrix_config.enable = 0 then s.rgb_task_state else .STARTING
  write_mode { s with
    rgb_matrix_config := rgb_matrix_disable_noeeprom s.rgb_matrix_config
    rgb_task_state := started }

def rgb_matrix_mode (mode : UInt8) (s : State) : State :=
  if s.rgb_matrix_config.enable = 0 then s
  else write_mode { s with
    rgb_matrix_config := rgb_matrix_mode_noeeprom b.toBuild mode s.rgb_matrix_config
    rgb_task_state := .STARTING }

def rgb_matrix_step (s : State) : State :=
  let mode := mode_of s.rgb_matrix_config + 1
  rgb_matrix_mode b (if mode.toNat < b.RGB_MATRIX_EFFECT_MAX then mode else 1) s

def rgb_matrix_step_reverse (s : State) : State :=
  let mode := mode_of s.rgb_matrix_config - 1
  rgb_matrix_mode b (if mode < 1 then (b.RGB_MATRIX_EFFECT_MAX - 1).toUInt8 else mode) s

def rgb_matrix_set_speed (speed : UInt8) (s : State) : State :=
  if s.rgb_matrix_config.enable = 0 then s
  else
    { s with
      rgb_matrix_config.speed := speed
      eeprom := eeprom_write_byte offset_speed speed s.eeprom }

def rgb_matrix_increase_speed (s : State) : State :=
  rgb_matrix_set_speed (qadd8 s.rgb_matrix_config.speed b.RGB_MATRIX_SPD_STEP) s

def rgb_matrix_decrease_speed (s : State) : State :=
  rgb_matrix_set_speed (qsub8 s.rgb_matrix_config.speed b.RGB_MATRIX_SPD_STEP) s

/-- The commands that write to EEPROM. A hue has 16 bits, of which 8 are kept. -/
inductive Command where
  | toggle
  | enable
  | disable
  | mode (mode : UInt8)
  | step
  | step_reverse
  | sethsv (hue : UInt16) (sat val : UInt8)
  | increase_hue
  | decrease_hue
  | increase_sat
  | decrease_sat
  | increase_val
  | decrease_val
  | set_speed (speed : UInt8)
  | increase_speed
  | decrease_speed

def command (s : State) : Command → State
  | .toggle => rgb_matrix_toggle b s
  | .enable => rgb_matrix_enable b s
  | .disable => rgb_matrix_disable s
  | .mode mode => rgb_matrix_mode b mode s
  | .step => rgb_matrix_step b s
  | .step_reverse => rgb_matrix_step_reverse b s
  | .sethsv hue sat val => rgb_matrix_sethsv b hue.toUInt8 sat val s
  | .increase_hue => rgb_matrix_increase_hue b s
  | .decrease_hue => rgb_matrix_decrease_hue b s
  | .increase_sat => rgb_matrix_increase_sat b s
  | .decrease_sat => rgb_matrix_decrease_sat b s
  | .increase_val => rgb_matrix_increase_val b s
  | .decrease_val => rgb_matrix_decrease_val b s
  | .set_speed speed => rgb_matrix_set_speed speed s
  | .increase_speed => rgb_matrix_increase_speed b s
  | .decrease_speed => rgb_matrix_decrease_speed b s

end

/-! ## MIXED RGB -/

/-- One run of a layer: the reads of the clock, in their order, and what its effect
returns. -/
structure LayerRun where
  timer_read32 : Nat → UInt32
  rendering : Bool

/-- One run of the task: the clocks, whether the lights are suspended, and what the effect
returns. -/
structure TaskRun where
  now : UInt32
  sync_timer_read32 : UInt32
  suspended : Bool
  rendering : Bool
  reset_time : UInt32
  layer : Nat → LayerRun

/-- The place of a layer in its effects, and the value and transition of its effect. -/
structure Turn where
  lamps : rgb.Lamps
  effect_index : UInt8
  v : UInt8
  transation : Bool

section

variable (cfg : rgb.Config)

def heatmap_bit (layer : Nat) : UInt8 := (0x01 <<< layer).toUInt8

/-- The index after one more, which starts again behind the last effect. -/
def wrapped (index : UInt8) : UInt8 :=
  if cfg.EFFECTS_PER_LAYER ≤ index.toNat then 0 else index

def faded (backup_value : UInt8) (time : UInt32) : UInt8 :=
  (backup_value.toUInt32 * time / TRANSITION_TIME).toUInt8

def set_index (lamps : rgb.Lamps) (layer : Nat) (index : UInt8) : rgb.Lamps :=
  { lamps with
    layer_effect_index := Function.update lamps.layer_effect_index layer index }

/-- The time since the effect of a layer began, by the k-th read of the clock. -/
def elapsed (run : LayerRun) (layer : Nat) (lamps : rgb.Lamps) (k : Nat) : UInt32 :=
  run.timer_read32 k - lamps.layer_effect_timer layer

/-- The start of an effect. -/
def fade_in (run : LayerRun) (layer : Nat) (backup_value : UInt8) (turn : Turn) : Turn :=
  if elapsed run layer turn.lamps 3 < TRANSITION_TIME then
    { turn with
      v := faded backup_value (elapsed run layer turn.lamps 4)
      transation := true }
  else turn

/-- The turn of a layer with several effects. The next effect may have no time, and then
there is no turn. -/
def next_effect (run : LayerRun) (layer : Nat) (backup_value : UInt8) (lamps : rgb.Lamps) :
    rgb.Lamps × Option Turn :=
  let effect_index := lamps.layer_effect_index layer
  let time := (lamps.effect_list layer effect_index.toNat).time
  if time < elapsed run layer lamps 0 then
    let index := wrapped cfg (effect_index + 1)
    let lamps : rgb.Lamps := { set_index lamps layer index with
      layer_effect_timer :=
        Function.update lamps.layer_effect_timer layer (run.timer_read32 1) }
    if (lamps.effect_list layer index.toNat).time = 0 then (lamps, none)
    else (lamps, some (fade_in run layer backup_value ⟨lamps, index, backup_value, false⟩))
  else
    let turn := if time - TRANSITION_TIME < elapsed run layer lamps 1 then
        ⟨lamps, effect_index, faded backup_value (time - elapsed run layer lamps 2), true⟩
      else ⟨lamps, effect_index, backup_value, false⟩
    (lamps, some (fade_in run layer backup_value turn))

def only_effect (layer : Nat) (backup_value : UInt8) (lamps : rgb.Lamps) : Turn :=
  let effect_index := lamps.layer_effect_index layer
  if lamps.layer_effect_count layer = 1 ∧
      (lamps.effect_list layer effect_index.toNat).effect = 0 then
    match (List.range cfg.EFFECTS_PER_LAYER).find? fun i =>
        (lamps.effect_list layer i).effect ≠ 0 with
    | some i => ⟨set_index lamps layer i.toUInt8, i.toUInt8, backup_value, false⟩
    | none => ⟨lamps, effect_index, backup_value, false⟩
  else ⟨lamps, effect_index, backup_value, false⟩

def turn_layer (run : LayerRun) (layer : Nat) (backup_value : UInt8) (lamps : rgb.Lamps) :
    rgb.Lamps × Option Turn :=
  if 1 < lamps.layer_effect_count layer then next_effect cfg run layer backup_value lamps
  else (lamps, some (only_effect cfg layer backup_value lamps))

end

section

variable (b : Board)

/-- The effects that a layer can draw. An accepted list has no MIXED RGB in it, so MIXED
RGB does not draw itself. -/
def draws (effect : UInt8) : Bool :=
  RGB_MATRIX_NONE < effect ∧ effect < b.layers.RGB_MATRIX_CUSTOM_MIXED_RGB

def multiple_rgb_effect_runner (run : LayerRun) (s : State) : Bool × State :=
  let hsv := s.rgb_matrix_config.hsv
  let layer := s.rgb_effect_params.region.toNat
  let last_effect :=
    (s.lamps.effect_list layer (s.lamps.layer_effect_index layer).toNat).effect
  let lamps := { s.lamps with
    typingHeatmap := if last_effect = b.layers.RGB_MATRIX_TYPING_HEATMAP then
        s.lamps.typingHeatmap ||| heatmap_bit layer
      else s.lamps.typingHeatmap &&& ~~~heatmap_bit layer }
  match turn_layer b.layers run layer hsv.v lamps with
  | (lamps, none) => (true, { s with lamps := lamps })
  | (_, some turn) =>
    let e := turn.lamps.effect_list layer turn.effect_index.toNat
    let index := turn.lamps.layer_effect_index layer
    -- An empty effect is skipped from the next frame on.
    let index := if e.effect = 0 then index + 1 else index
    let lamps := set_index turn.lamps layer (wrapped b.layers index)
    let c := rgb_matrix_sethsv_noeeprom b.toBuild e.hue e.sat turn.v s.rgb_matrix_config
    let c := rgb_matrix_set_speed_noeeprom e.speed c
    let rendering := draws b e.effect && run.rendering
    let c := if turn.transation then
        rgb_matrix_sethsv_noeeprom b.toBuild e.hue e.sat hsv.v c
      else c
    (rendering, { s with
      rgb_matrix_config := c
      rgb_effect_params.init := last_effect ≠ e.effect
      lamps := lamps })

/-- The layers, the last one first. -/
def mixed_rgb (run : TaskRun) (s : State) : Bool × State :=
  let s := if s.rgb_effect_params.init then
      let lamps := { s.lamps with
        rgb_regions := fun i =>
          if i < b.layers.RGB_MATRIX_LED_COUNT then s.lamps.regions i else s.lamps.rgb_regions i
        layer_effect_index := fun i =>
          if i < b.layers.EFFECT_LAYERS then 0 else s.lamps.layer_effect_index i }
      let reset := (rgb.mixed_rgb_reset b.layers run.reset_time).next ⟨fun _ => 0, lamps⟩
      { s with lamps := reset.lamps }
    else s
  (List.range b.layers.EFFECT_LAYERS).reverse.foldl (fun r i =>
    multiple_rgb_effect_runner b (run.layer i)
      { r.2 with rgb_effect_params.region := i.toUInt8 }) (false, s)

/-! ## The task -/

def rgb_task_timers (run : TaskRun) (s : State) : State := { s with rgb_timer_buffer := run.now }

def rgb_task_sync (run : TaskRun) (s : State) : State :=
  let s := eeconfig_flush_rgb_matrix false s
  if RGB_MATRIX_LED_FLUSH_LIMIT ≤ run.sync_timer_read32 - s.g_rgb_timer then
    { s with rgb_task_state := .STARTING }
  else s

def rgb_task_start (s : State) : State :=
  { s with
    rgb_effect_params.iter := 0
    g_rgb_timer := s.rgb_timer_buffer
    rgb_task_state := .RENDERING }

/-- The configuration is loaded again when the effect has changed. -/
def reload (effect : UInt8) (s : State) : State :=
  if effect ≠ s.rgb_last_effect then
    let rgb_cfg := nvm_eeconfig_read_rgb_matrix s.eeprom
    { s with
      lamps.rgb_regions := fun i =>
        if i < b.layers.RGB_MATRIX_LED_COUNT then 0 else s.lamps.rgb_regions i
      rgb_matrix_config.hsv := rgb_cfg.hsv
      rgb_matrix_config.speed := rgb_cfg.speed }
  else s

def run_effect (run : TaskRun) (effect : UInt8) (s : State) : Bool × State :=
  if effect = RGB_MATRIX_NONE then (false, s)
  else if effect = b.layers.RGB_MATRIX_CUSTOM_MIXED_RGB then mixed_rgb b run s
  else (effect.toNat < b.RGB_MATRIX_EFFECT_MAX && run.rendering, s)

def rgb_task_render (run : TaskRun) (effect : UInt8) (s : State) : State :=
  let init := effect ≠ s.rgb_last_effect ∨ enable_byte s.rgb_matrix_config ≠ s.rgb_last_enable
  let s := reload b effect { s with rgb_effect_params.init := decide init }
  let s := { s with rgb_effect_params.flags := s.rgb_matrix_config.flags }
  if effect = UINT8_MAX then { s with rgb_task_state := .FLUSHING }
  else
    let (rendering, s) := run_effect b run effect s
    let s := { s with rgb_effect_params.iter := s.rgb_effect_params.iter + 1 }
    if rendering then s
    else if ¬ s.rgb_effect_params.init ∧ effect = RGB_MATRIX_NONE then
      { s with rgb_task_state := .SYNCING }
    else { s with rgb_task_state := .FLUSHING }

def rgb_task_flush (effect : UInt8) (s : State) : State :=
  { s with
    rgb_last_effect := effect
    rgb_last_enable := enable_byte s.rgb_matrix_config
    rgb_task_state := .SYNCING }

def rgb_matrix_task (run : TaskRun) (s : State) : State :=
  let s := rgb_task_timers run s
  let effect := if run.suspended ∨ s.rgb_matrix_config.enable = 0 then RGB_MATRIX_NONE
    else mode_of s.rgb_matrix_config
  match s.rgb_task_state with
  | .STARTING => rgb_task_start s
  | .RENDERING => rgb_task_render b run effect s
  | .FLUSHING => rgb_task_flush effect s
  | .SYNCING => rgb_task_sync run s

/-! ## Runs -/

inductive Input where
  | command (c : Command)
  | rgb_matrix_task (run : TaskRun)

def Input.isCommand : Input → Bool
  | .command _ => true
  | .rgb_matrix_task _ => false

def step (s : State) : Input → State
  | .command c => command b s c
  | .rgb_matrix_task run => rgb_matrix_task b run s

def powered (eeprom : Block) (lamps : rgb.Lamps) : State where
  rgb_matrix_config := ⟨0, 0, ⟨0, 0, 0⟩, 0, 0⟩
  dirty_rgb_matrix := false
  eeprom := eeprom
  rgb_last_enable := UINT8_MAX
  rgb_last_effect := UINT8_MAX
  rgb_effect_params := ⟨0, LED_FLAG_ALL, false, 0⟩
  rgb_task_state := .SYNCING
  g_rgb_timer := 0
  rgb_timer_buffer := 0
  lamps := lamps

end

end keychron_qmk.rgb_matrix
