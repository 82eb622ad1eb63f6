-- The dynamic keymap: `quantum/dynamic_keymap.c` over the EEPROM of
-- `quantum/nvm/eeprom/nvm_dynamic_keymap.c`, with the default addresses. The
-- keys, then the encoders, then the macros.
import KeychronQMK.Lib.Memory
import Mathlib.Logic.Function.Basic
import Mathlib.Tactic.Ring.RingNF

namespace keychron_qmk.dynamic_keymap

open memory

abbrev Eeprom := Nat → UInt8

def KC_NO : UInt16 := 0

/-- The sizes of a build, and its two assertions. `NUM_ENCODERS` is 0 without
`ENCODER_MAP_ENABLE`. -/
structure Config where
  DYNAMIC_KEYMAP_LAYER_COUNT : Nat
  MATRIX_ROWS : Nat
  MATRIX_COLS : Nat
  NUM_ENCODERS : Nat
  DYNAMIC_KEYMAP_EEPROM_ADDR : Nat
  DYNAMIC_KEYMAP_EEPROM_MAX_ADDR : Nat
  layers_le : DYNAMIC_KEYMAP_LAYER_COUNT ≤ 255
  rows_le : MATRIX_ROWS ≤ 255
  cols_le : MATRIX_COLS ≤ 255
  encoders_le : NUM_ENCODERS ≤ 255
  max_addr_le : DYNAMIC_KEYMAP_EEPROM_MAX_ADDR ≤ 65535
  macros_fit : DYNAMIC_KEYMAP_EEPROM_ADDR +
    DYNAMIC_KEYMAP_LAYER_COUNT * MATRIX_ROWS * MATRIX_COLS * 2 +
    DYNAMIC_KEYMAP_LAYER_COUNT * NUM_ENCODERS * 2 * 2 + 100 ≤ DYNAMIC_KEYMAP_EEPROM_MAX_ADDR

namespace Config

variable (cfg : Config)

def dynamic_keymap_eeprom_size : Nat :=
  cfg.DYNAMIC_KEYMAP_LAYER_COUNT * cfg.MATRIX_ROWS * cfg.MATRIX_COLS * 2

def encoder_eeprom_size : Nat := cfg.DYNAMIC_KEYMAP_LAYER_COUNT * cfg.NUM_ENCODERS * 2 * 2

def DYNAMIC_KEYMAP_ENCODER_EEPROM_ADDR : Nat :=
  cfg.DYNAMIC_KEYMAP_EEPROM_ADDR + cfg.dynamic_keymap_eeprom_size

def DYNAMIC_KEYMAP_MACRO_EEPROM_ADDR : Nat :=
  cfg.DYNAMIC_KEYMAP_ENCODER_EEPROM_ADDR + cfg.encoder_eeprom_size

def DYNAMIC_KEYMAP_MACRO_EEPROM_SIZE : Nat :=
  cfg.DYNAMIC_KEYMAP_EEPROM_MAX_ADDR - cfg.DYNAMIC_KEYMAP_MACRO_EEPROM_ADDR + 1

end Config

/-! ## Two bytes -/

def eeprom_update_byte (addr : Nat) (value : UInt8) (e : Eeprom) : Eeprom :=
  Function.update e addr value

/-- Big endian. -/
def read_word (addr : Nat) (e : Eeprom) : UInt16 :=
  ((e addr).toUInt16 <<< 8) ||| (e (addr + 1)).toUInt16

def update_word (addr : Nat) (keycode : UInt16) (e : Eeprom) : Eeprom :=
  eeprom_update_byte (addr + 1) (keycode &&& 0xFF).toUInt8
    (eeprom_update_byte addr (keycode >>> 8).toUInt8 e)

/-! ## A region of bytes -/

/-- The loop of `nvm_dynamic_keymap_read_buffer`. -/
def read_region (base limit offset size : Nat) (e : Eeprom) : List UInt8 :=
  (List.range size).map fun i => if offset + i < limit then e (base + offset + i) else 0x00

/-- The loop of `nvm_dynamic_keymap_update_buffer`. -/
def update_region (base limit offset size : Nat) (data : Nat → UInt8) (e : Eeprom) : Eeprom :=
  (List.range size).foldl (fun e i =>
    if offset + i < limit then eeprom_update_byte (base + offset + i) (data i) e else e) e

section

variable (cfg : Config)

/-! ## Keys -/

def dynamic_keymap_key_to_eeprom_address (layer row column : UInt8) : Nat :=
  cfg.DYNAMIC_KEYMAP_EEPROM_ADDR + layer.toNat * cfg.MATRIX_ROWS * cfg.MATRIX_COLS * 2 +
    row.toNat * cfg.MATRIX_COLS * 2 + column.toNat * 2

/-- The index checks. -/
def KeyInRange (layer row column : UInt8) : Prop :=
  layer.toNat < cfg.DYNAMIC_KEYMAP_LAYER_COUNT ∧ row.toNat < cfg.MATRIX_ROWS ∧
    column.toNat < cfg.MATRIX_COLS

instance (layer row column : UInt8) : Decidable (KeyInRange cfg layer row column) :=
  inferInstanceAs (Decidable (_ ∧ _ ∧ _))

def nvm_dynamic_keymap_read_keycode (layer row column : UInt8) (e : Eeprom) : UInt16 :=
  if KeyInRange cfg layer row column then
    read_word (dynamic_keymap_key_to_eeprom_address cfg layer row column) e
  else KC_NO

def nvm_dynamic_keymap_update_keycode (layer row column : UInt8) (keycode : UInt16) (e : Eeprom) :
    Eeprom :=
  if KeyInRange cfg layer row column then
    update_word (dynamic_keymap_key_to_eeprom_address cfg layer row column) keycode e
  else e

/-! ## Encoders -/

def dynamic_keymap_encoder_to_eeprom_address (layer encoder_id : UInt8) : Nat :=
  cfg.DYNAMIC_KEYMAP_ENCODER_EEPROM_ADDR + layer.toNat * cfg.NUM_ENCODERS * 2 * 2 +
    encoder_id.toNat * 2 * 2

def EncoderInRange (layer encoder_id : UInt8) : Prop :=
  layer.toNat < cfg.DYNAMIC_KEYMAP_LAYER_COUNT ∧ encoder_id.toNat < cfg.NUM_ENCODERS

instance (layer encoder_id : UInt8) : Decidable (EncoderInRange cfg layer encoder_id) :=
  inferInstanceAs (Decidable (_ ∧ _))

def nvm_dynamic_keymap_read_encoder (layer encoder_id : UInt8) (clockwise : Bool) (e : Eeprom) :
    UInt16 :=
  if EncoderInRange cfg layer encoder_id then
    read_word (dynamic_keymap_encoder_to_eeprom_address cfg layer encoder_id +
      if clockwise then 0 else 2) e
  else KC_NO

def nvm_dynamic_keymap_update_encoder (layer encoder_id : UInt8) (clockwise : Bool)
    (keycode : UInt16) (e : Eeprom) : Eeprom :=
  if EncoderInRange cfg layer encoder_id then
    update_word (dynamic_keymap_encoder_to_eeprom_address cfg layer encoder_id +
      if clockwise then 0 else 2) keycode e
  else e

/-! ## Buffers -/

def nvm_dynamic_keymap_read_buffer (offset size : Nat) : Eeprom → List UInt8 :=
  read_region cfg.DYNAMIC_KEYMAP_EEPROM_ADDR cfg.dynamic_keymap_eeprom_size offset size

def nvm_dynamic_keymap_update_buffer (offset size : Nat) (data : Nat → UInt8) : Eeprom → Eeprom :=
  update_region cfg.DYNAMIC_KEYMAP_EEPROM_ADDR cfg.dynamic_keymap_eeprom_size offset size data

def nvm_dynamic_keymap_macro_read_buffer (offset size : Nat) : Eeprom → List UInt8 :=
  read_region cfg.DYNAMIC_KEYMAP_MACRO_EEPROM_ADDR cfg.DYNAMIC_KEYMAP_MACRO_EEPROM_SIZE offset size

def nvm_dynamic_keymap_macro_update_buffer (offset size : Nat) (data : Nat → UInt8) :
    Eeprom → Eeprom :=
  update_region cfg.DYNAMIC_KEYMAP_MACRO_EEPROM_ADDR cfg.DYNAMIC_KEYMAP_MACRO_EEPROM_SIZE offset
    size data

/-- One turn of the loop of `nvm_dynamic_keymap_macro_reset`: `start`,
`remaining` and the EEPROM. -/
def macro_reset_turn (s : Nat × Nat × Eeprom) : Nat × Nat × Eeprom :=
  let (start, remaining, e) := s
  let this_loop := if remaining < 16 then remaining else 16
  (start + this_loop, remaining - this_loop, patch e start (List.replicate this_loop 0))

/-- The loop counts to the size in steps of 16. -/
def nvm_dynamic_keymap_macro_reset (e : Eeprom) : Eeprom :=
  (macro_reset_turn^[(cfg.DYNAMIC_KEYMAP_MACRO_EEPROM_SIZE + 15) / 16]
    (cfg.DYNAMIC_KEYMAP_MACRO_EEPROM_ADDR, cfg.DYNAMIC_KEYMAP_MACRO_EEPROM_SIZE, e)).2.2

/-! ## The calls of `dynamic_keymap.c` -/

def dynamic_keymap_get_keycode (layer row column : UInt8) : Eeprom → UInt16 :=
  nvm_dynamic_keymap_read_keycode cfg layer row column

def dynamic_keymap_set_keycode (layer row column : UInt8) (keycode : UInt16) : Eeprom → Eeprom :=
  nvm_dynamic_keymap_update_keycode cfg layer row column keycode

def dynamic_keymap_get_encoder (layer encoder_id : UInt8) (clockwise : Bool) : Eeprom → UInt16 :=
  nvm_dynamic_keymap_read_encoder cfg layer encoder_id clockwise

def dynamic_keymap_set_encoder (layer encoder_id : UInt8) (clockwise : Bool) (keycode : UInt16) :
    Eeprom → Eeprom :=
  nvm_dynamic_keymap_update_encoder cfg layer encoder_id clockwise keycode

def dynamic_keymap_get_buffer (offset size : UInt16) : Eeprom → List UInt8 :=
  nvm_dynamic_keymap_read_buffer cfg offset.toNat size.toNat

def dynamic_keymap_set_buffer (offset size : UInt16) (data : Nat → UInt8) : Eeprom → Eeprom :=
  nvm_dynamic_keymap_update_buffer cfg offset.toNat size.toNat data

def dynamic_keymap_macro_get_buffer (offset size : UInt16) : Eeprom → List UInt8 :=
  nvm_dynamic_keymap_macro_read_buffer cfg offset.toNat size.toNat

def dynamic_keymap_macro_set_buffer (offset size : UInt16) (data : Nat → UInt8) :
    Eeprom → Eeprom :=
  nvm_dynamic_keymap_macro_update_buffer cfg offset.toNat size.toNat data

def dynamic_keymap_macro_reset : Eeprom → Eeprom := nvm_dynamic_keymap_macro_reset cfg

end

/-- The keymap in flash: `keycode_at_keymap_location_raw` and
`keycode_at_encodermap_location_raw`. -/
structure Flash where
  keymap : Nat → Nat → Nat → UInt16
  encodermap : Nat → Nat → Bool → UInt16

def dynamic_keymap_reset_layer (cfg : Config) (flash : Flash) (e : Eeprom) (layer : Nat) : Eeprom :=
  let e := (List.range cfg.MATRIX_ROWS).foldl (fun e row =>
    (List.range cfg.MATRIX_COLS).foldl (fun e column =>
      dynamic_keymap_set_keycode cfg layer.toUInt8 row.toUInt8 column.toUInt8
        (flash.keymap layer row column) e) e) e
  (List.range cfg.NUM_ENCODERS).foldl (fun e encoder =>
    dynamic_keymap_set_encoder cfg layer.toUInt8 encoder.toUInt8 false
      (flash.encodermap layer encoder false)
      (dynamic_keymap_set_encoder cfg layer.toUInt8 encoder.toUInt8 true
        (flash.encodermap layer encoder true) e)) e

def dynamic_keymap_reset (cfg : Config) (flash : Flash) (e : Eeprom) : Eeprom :=
  (List.range cfg.DYNAMIC_KEYMAP_LAYER_COUNT).foldl (dynamic_keymap_reset_layer cfg flash) e

end keychron_qmk.dynamic_keymap
