-- The RGB commands of the host: `kc_rgb_matrix_rx` of
-- `keyboards/keychron/common/rgb/keychron_rgb.c` and its handlers, with every
-- element of the packet and of the arrays that they read and write.
import KeychronQMK.Lib.Traced
import Mathlib.Logic.Function.Basic

namespace keychron_qmk.rgb

open traced

/-! ## Constants -/

def PER_KEY_RGB_VER : UInt16 := 0x0001

def RGB_GET_PROTOCOL_VER : UInt8 := 0x01
def RGB_SAVE : UInt8 := 0x02
def GET_INDICATORS_CONFIG : UInt8 := 0x03
def SET_INDICATORS_CONFIG : UInt8 := 0x04
def RGB_GET_LED_COUNT : UInt8 := 0x05
def RGB_GET_LED_IDX : UInt8 := 0x06
def PER_KEY_RGB_GET_TYPE : UInt8 := 0x07
def PER_KEY_RGB_SET_TYPE : UInt8 := 0x08
def PER_KEY_RGB_GET_COLOR : UInt8 := 0x09
def PER_KEY_RGB_SET_COLOR : UInt8 := 0x0A
def MIXED_EFFECT_RGB_GET_INFO : UInt8 := 0x0B
def MIXED_EFFECT_RGB_GET_REGIONS : UInt8 := 0x0C
def MIXED_EFFECT_RGB_SET_REGIONS : UInt8 := 0x0D
def MIXED_EFFECT_RGB_GET_EFFECT_LIST : UInt8 := 0x0E
def MIXED_EFFECT_RGB_SET_EFFECT_LIST : UInt8 := 0x0F

def PER_KEY_RGB_MAX : UInt8 := 5
def NO_LED : UInt8 := 255
def EFFECT_DATA_LEN : Nat := 8
def RAW_EPSIZE : Nat := 32

/-- The sizes of a keyboard, which its loop counters can count to. `RGB_MATRIX_TYPING_HEATMAP` and
`RGB_MATRIX_CUSTOM_MIXED_RGB` are the numbers of two effects, and
`indicator_mask` says which indicators there are. -/
structure Config where
  RGB_MATRIX_LED_COUNT : Nat
  MATRIX_ROWS : Nat
  MATRIX_COLS : Nat
  EFFECT_LAYERS : Nat
  EFFECTS_PER_LAYER : Nat
  RGB_MATRIX_TYPING_HEATMAP : UInt8
  RGB_MATRIX_CUSTOM_MIXED_RGB : UInt8
  indicator_mask : UInt8
  cols_le : MATRIX_COLS ≤ 32
  layers_le : EFFECT_LAYERS ≤ 127
  effects_pos : 0 < EFFECTS_PER_LAYER
  effects_le : EFFECTS_PER_LAYER ≤ 255

/-! ## State -/

structure HSV where
  h : UInt8
  s : UInt8
  v : UInt8
  deriving DecidableEq

structure effect_config_t where
  effect : UInt8
  hue : UInt8
  sat : UInt8
  speed : UInt8
  time : UInt32
  deriving DecidableEq

structure os_indicator_config_t where
  disable : UInt8
  hsv : HSV
  deriving DecidableEq

structure Stored where
  os_ind_cfg : os_indicator_config_t
  per_key_rgb_type : UInt8
  per_key_led : Nat → HSV
  regions : Nat → UInt8
  effect_list : Nat → Nat → effect_config_t

/-- The state of the lamps. The arrays go on past their ends, where the memory
belongs to something else. -/
structure Lamps extends Stored where
  rgb_regions : Nat → UInt8
  layer_effect_count : Nat → UInt8
  layer_effect_index : Nat → UInt8
  layer_effect_timer : Nat → UInt32
  typingHeatmap : UInt8
  eeprom : Stored

structure Host where
  data : Nat → UInt8
  lamps : Lamps

inductive Access where
  | packet (i : Nat)
  | per_key_led (i : Nat)
  | regions (i : Nat)
  | rgb_regions (i : Nat)
  | effect_list (region i : Nat)
  | matrix_co (row column : Nat)
  deriving DecidableEq

abbrev Rgb (α : Type) := Traced Access Host α

/-! ## Elements -/

def byte (i : Nat) : Rgb UInt8 := do
  touch (.packet i)
  view fun h => h.data i

def put (i : Nat) (b : UInt8) : Rgb Unit := do
  touch (.packet i)
  change fun h => { h with data := Function.update h.data i b }

def get_led (i : Nat) : Rgb HSV := do
  touch (.per_key_led i)
  view fun h => h.lamps.per_key_led i

def set_led (i : Nat) (hsv : HSV) : Rgb Unit := do
  touch (.per_key_led i)
  change fun h => { h with
    lamps.per_key_led := Function.update h.lamps.per_key_led i hsv }

def get_region (i : Nat) : Rgb UInt8 := do
  touch (.regions i)
  view fun h => h.lamps.regions i

def set_region (i : Nat) (region : UInt8) : Rgb Unit := do
  touch (.regions i)
  touch (.rgb_regions i)
  change fun h => { h with
    lamps.regions := Function.update h.lamps.regions i region
    lamps.rgb_regions := Function.update h.lamps.rgb_regions i region }

def get_effect (region i : Nat) : Rgb effect_config_t := do
  touch (.effect_list region i)
  view fun h => h.lamps.effect_list region i

def set_effect (region i : Nat) (effect : effect_config_t) : Rgb Unit := do
  touch (.effect_list region i)
  change fun h => { h with
    lamps.effect_list := Function.update h.lamps.effect_list region
      (Function.update (h.lamps.effect_list region) i effect) }

/-! ## Handlers

`data` of a handler is the third byte of the packet. -/

section

variable (cfg : Config)

def rgb_get_version : Rgb Bool := do
  put 3 (PER_KEY_RGB_VER &&& 0xFF).toUInt8
  put 4 ((PER_KEY_RGB_VER >>> 8) &&& 0xFF).toUInt8
  pure true

def rgb_get_led_count : Rgb Bool := do
  put 3 cfg.RGB_MATRIX_LED_COUNT.toUInt8
  pure true

/-- Three bytes, the low one first. -/
def row_mask : Rgb UInt32 := do
  let low ← byte 3
  let mid ← byte 4
  let high ← byte 5
  pure (low.toUInt32 ||| mid.toUInt32 <<< 8 ||| high.toUInt32 <<< 16)

def rgb_matrix_map_row_column_to_led (matrix_co : Nat → Nat → UInt8) (row column : Nat) :
    Rgb UInt8 := do
  touch (.matrix_co row column)
  let led_index := matrix_co row column
  pure (if led_index ≠ NO_LED then led_index else 0xFF)

def masked_led (matrix_co : Nat → Nat → UInt8) (mask : UInt32) (row c : Nat) : Rgb UInt8 :=
  if mask.toNat.testBit c then rgb_matrix_map_row_column_to_led matrix_co row c else pure 0xFF

def rgb_get_led_idx (matrix_co : Nat → Nat → UInt8) : Rgb Bool := do
  let row ← byte 2
  if cfg.MATRIX_ROWS < row.toNat then pure false
  else do
    let mask ← row_mask
    each (fun c => do
      let led_idx ← masked_led matrix_co mask row.toNat c
      put (3 + c) led_idx) (List.range cfg.MATRIX_COLS)
    pure true

def per_key_rgb_get_type : Rgb Bool := do
  let type ← view fun h => h.lamps.per_key_rgb_type
  put 3 type
  pure true

def per_key_rgb_set_type : Rgb Bool := do
  let type ← byte 2
  if PER_KEY_RGB_MAX ≤ type then pure false
  else do
    change fun h => { h with lamps.per_key_rgb_type := type }
    pure true

def per_key_rgb_get_led_color : Rgb Bool := do
  let start ← byte 2
  let count ← byte 3
  if 9 < count then pure false
  else do
    each (fun i => do
      let led ← get_led (start.toNat + i)
      put (3 + i * 3) led.h
      put (4 + i * 3) led.s
      put (5 + i * 3) led.v) (List.range count.toNat)
    pure true

def per_key_rgb_set_led_color : Rgb Bool := do
  let start ← byte 2
  let count ← byte 3
  if 9 < count then pure false
  else do
    each (fun i => do
      let h ← byte (4 + i * 3)
      let s ← byte (5 + i * 3)
      let v ← byte (6 + i * 3)
      set_led (start.toNat + i) ⟨h, s, v⟩) (List.range count.toNat)
    pure true

def mixed_rgb_get_effect_info : Rgb Bool := do
  put 3 cfg.EFFECT_LAYERS.toUInt8
  put 4 cfg.EFFECTS_PER_LAYER.toUInt8
  pure true

def mixed_rgb_get_regions : Rgb Bool := do
  let start ← byte 2
  let count ← byte 3
  if 29 < count ∨ cfg.RGB_MATRIX_LED_COUNT < start.toNat + count.toNat then pure false
  else do
    each (fun i => do
      let region ← get_region (start.toNat + i)
      put (3 + i) region) (List.range count.toNat)
    pure true

def mixed_rgb_set_regions : Rgb Bool := do
  let start ← byte 2
  let count ← byte 3
  if 28 < count ∨ cfg.RGB_MATRIX_LED_COUNT < start.toNat + count.toNat then pure false
  else do
    let bad ← (List.range count.toNat).anyM fun i => do
      let region ← byte (4 + i)
      pure (decide (cfg.EFFECT_LAYERS ≤ region.toNat))
    if bad then pure false
    else do
      each (fun i => do
        let region ← byte (4 + i)
        set_region (start.toNat + i) region) (List.range count.toNat)
      pure true

/-- A number of four bytes, the low one first. -/
def put_time (i : Nat) (time : UInt32) : Rgb Unit := do
  put i (time &&& 0xFF).toUInt8
  put (i + 1) ((time >>> 8) &&& 0xFF).toUInt8
  put (i + 2) ((time >>> 16) &&& 0xFF).toUInt8
  put (i + 3) ((time >>> 24) &&& 0xFF).toUInt8

def get_time (i : Nat) : Rgb UInt32 := do
  let b0 ← byte i
  let b1 ← byte (i + 1)
  let b2 ← byte (i + 2)
  let b3 ← byte (i + 3)
  pure (b0.toUInt32 ||| b1.toUInt32 <<< 8 ||| b2.toUInt32 <<< 16 ||| b3.toUInt32 <<< 24)

def effects_rejected (region start count : UInt8) : Prop :=
  3 < count ∨ cfg.EFFECT_LAYERS < region.toNat ∨
    cfg.EFFECTS_PER_LAYER < start.toNat + count.toNat

instance (region start count : UInt8) : Decidable (effects_rejected cfg region start count) :=
  inferInstanceAs (Decidable (_ ∨ _ ∨ _))

def mixed_rgb_get_effect_list : Rgb Bool := do
  let region ← byte 2
  let start ← byte 3
  let count ← byte 4
  if effects_rejected cfg region start count then pure false
  else do
    each (fun i => do
      let e ← get_effect region.toNat (start.toNat + i)
      put (3 + i * EFFECT_DATA_LEN) e.effect
      put (4 + i * EFFECT_DATA_LEN) e.hue
      put (5 + i * EFFECT_DATA_LEN) e.sat
      put (6 + i * EFFECT_DATA_LEN) e.speed
      put_time (7 + i * EFFECT_DATA_LEN) e.time) (List.range count.toNat)
    pure true

def mixed_rgb_reset (now : UInt32) : Rgb Unit := do
  change fun h => { h with lamps.typingHeatmap := 0 }
  each (fun i => do
    let e ← get_effect i 0
    change fun h => { h with
      lamps.layer_effect_index := Function.update h.lamps.layer_effect_index i 0
      lamps.layer_effect_timer := Function.update h.lamps.layer_effect_timer i now
      lamps.typingHeatmap := if e.effect = cfg.RGB_MATRIX_TYPING_HEATMAP then
          h.lamps.typingHeatmap ||| (0x01 <<< i).toUInt8
        else h.lamps.typingHeatmap }) (List.range cfg.EFFECT_LAYERS)

def update_mixed_rgb_effect_count (now : UInt32) : Rgb Unit := do
  each (fun layer => do
    change fun h => { h with
      lamps.layer_effect_count := Function.update h.lamps.layer_effect_count layer 0 }
    each (fun i => do
      let e ← get_effect layer i
      if e.effect ≠ 0 then
        change fun h => { h with
          lamps.layer_effect_count := Function.update h.lamps.layer_effect_count layer
            (h.lamps.layer_effect_count layer + 1) }
      else pure ()) (List.range cfg.EFFECTS_PER_LAYER)) (List.range cfg.EFFECT_LAYERS)
  mixed_rgb_reset cfg now

def mixed_rgb_set_effect_list (now : UInt32) : Rgb Bool := do
  let region ← byte 2
  let start ← byte 3
  let count ← byte 4
  if effects_rejected cfg region start count then pure false
  else do
    let bad ← (List.range count.toNat).anyM fun i => do
      let effect ← byte (5 + i * EFFECT_DATA_LEN)
      pure (decide (cfg.RGB_MATRIX_CUSTOM_MIXED_RGB ≤ effect))
    if bad then pure false
    else do
      each (fun i => do
        let effect ← byte (5 + i * EFFECT_DATA_LEN)
        let hue ← byte (6 + i * EFFECT_DATA_LEN)
        let sat ← byte (7 + i * EFFECT_DATA_LEN)
        let speed ← byte (8 + i * EFFECT_DATA_LEN)
        let time ← get_time (9 + i * EFFECT_DATA_LEN)
        set_effect region.toNat (start.toNat + i) ⟨effect, hue, sat, speed, time⟩)
        (List.range count.toNat)
      update_mixed_rgb_effect_count cfg now
      pure true

/-- The whole arrays are read. -/
def kc_rgb_save : Rgb Bool := do
  each (fun i => do let _ ← get_led i) (List.range cfg.RGB_MATRIX_LED_COUNT)
  each (fun i => do let _ ← get_region i) (List.range cfg.RGB_MATRIX_LED_COUNT)
  each (fun region => each (fun i => do let _ ← get_effect region i)
    (List.range cfg.EFFECTS_PER_LAYER)) (List.range cfg.EFFECT_LAYERS)
  change fun h => { h with lamps.eeprom := h.lamps.toStored }
  pure true

def get_indicators_config : Rgb Bool := do
  let config ← view fun h => h.lamps.os_ind_cfg
  put 3 cfg.indicator_mask
  put 4 config.disable
  put 5 config.hsv.h
  put 6 config.hsv.s
  put 7 config.hsv.v
  pure true

def set_indicators_config : Rgb Bool := do
  let disable ← byte 2
  let h ← byte 3
  let s ← byte 4
  let v ← byte 5
  change fun host => { host with
    lamps.os_ind_cfg := ⟨disable, h, s, if v < 128 then 128 else v⟩ }
  pure true

/-! ## The switch -/

/-- The map of the lamps and the clock. -/
structure Board where
  matrix_co : Nat → Nat → UInt8
  now : UInt32

variable (b : Board)

/-- The result of a command is its success. -/
def request (cmd : UInt8) : Rgb Bool :=
  if cmd = RGB_GET_PROTOCOL_VER then rgb_get_version
  else if cmd = RGB_SAVE then kc_rgb_save cfg
  else if cmd = GET_INDICATORS_CONFIG then get_indicators_config cfg
  else if cmd = SET_INDICATORS_CONFIG then set_indicators_config
  else if cmd = RGB_GET_LED_COUNT then rgb_get_led_count cfg
  else if cmd = RGB_GET_LED_IDX then rgb_get_led_idx cfg b.matrix_co
  else if cmd = PER_KEY_RGB_GET_TYPE then per_key_rgb_get_type
  else if cmd = PER_KEY_RGB_SET_TYPE then per_key_rgb_set_type
  else if cmd = PER_KEY_RGB_GET_COLOR then per_key_rgb_get_led_color
  else if cmd = PER_KEY_RGB_SET_COLOR then per_key_rgb_set_led_color
  else if cmd = MIXED_EFFECT_RGB_GET_INFO then mixed_rgb_get_effect_info cfg
  else if cmd = MIXED_EFFECT_RGB_GET_REGIONS then mixed_rgb_get_regions cfg
  else if cmd = MIXED_EFFECT_RGB_SET_REGIONS then mixed_rgb_set_regions cfg
  else if cmd = MIXED_EFFECT_RGB_GET_EFFECT_LIST then mixed_rgb_get_effect_list cfg
  else if cmd = MIXED_EFFECT_RGB_SET_EFFECT_LIST then mixed_rgb_set_effect_list cfg b.now
  else do
    put 0 0xFF
    pure true

def kc_rgb_matrix_rx : Rgb Unit := do
  let cmd ← byte 1
  let success ← request cfg b cmd
  put 2 (if success then 0 else 1)

end

end keychron_qmk.rgb
