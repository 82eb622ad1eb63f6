-- The commands of the host: `raw_hid_receive` of `quantum/via.c`, with every
-- byte of the packet that it reads and writes. The keymap is that of
-- `Keymap/DynamicKeymap.lean`; what a lamp or a buzzer does with its values is
-- a parameter, and so is the code that the keyboard may override.
import KeychronQMK.Keymap.DynamicKeymap
import KeychronQMK.Lib.Traced

namespace keychron_qmk.via

open traced dynamic_keymap

/-! ## Constants -/

def id_get_protocol_version : UInt8 := 0x01
def id_get_keyboard_value : UInt8 := 0x02
def id_set_keyboard_value : UInt8 := 0x03
def id_dynamic_keymap_get_keycode : UInt8 := 0x04
def id_dynamic_keymap_set_keycode : UInt8 := 0x05
def id_dynamic_keymap_reset : UInt8 := 0x06
def id_custom_set_value : UInt8 := 0x07
def id_custom_get_value : UInt8 := 0x08
def id_custom_save : UInt8 := 0x09
def id_eeprom_reset : UInt8 := 0x0A
def id_dynamic_keymap_macro_get_count : UInt8 := 0x0C
def id_dynamic_keymap_macro_get_buffer_size : UInt8 := 0x0D
def id_dynamic_keymap_macro_get_buffer : UInt8 := 0x0E
def id_dynamic_keymap_macro_set_buffer : UInt8 := 0x0F
def id_dynamic_keymap_macro_reset : UInt8 := 0x10
def id_dynamic_keymap_get_layer_count : UInt8 := 0x11
def id_dynamic_keymap_get_buffer : UInt8 := 0x12
def id_dynamic_keymap_set_buffer : UInt8 := 0x13
def id_dynamic_keymap_get_encoder : UInt8 := 0x14
def id_dynamic_keymap_set_encoder : UInt8 := 0x15
def id_signalrgb_qmk_version : UInt8 := 0x21
def id_signalrgb_stream_leds : UInt8 := 0x24
def id_signalrgb_firmware_type : UInt8 := 0x28
def id_unhandled : UInt8 := 0xFF

def id_uptime : UInt8 := 0x01
def id_layout_options : UInt8 := 0x02
def id_switch_matrix_state : UInt8 := 0x03
def id_firmware_version : UInt8 := 0x04
def id_device_indication : UInt8 := 0x05

def id_qmk_backlight_channel : UInt8 := 1
def id_qmk_rgblight_channel : UInt8 := 2
def id_qmk_rgb_matrix_channel : UInt8 := 3
def id_qmk_audio_channel : UInt8 := 4
def id_qmk_led_matrix_channel : UInt8 := 5

def VIA_PROTOCOL_VERSION : UInt16 := 0x000C

def VIA_EEPROM_LAYOUT_OPTIONS_DEFAULT : UInt32 := 0

def RAW_EPSIZE : Nat := 32

def EECONFIG_BASE_SIZE : Nat := 37

/-! ## Builds -/

/-- The EEPROM of VIA lies before the keymap: a magic number, the layout
options and what the keyboard stores of its own. -/
structure Config extends dynamic_keymap.Config where
  VIA_FIRMWARE_VERSION : UInt32
  DYNAMIC_KEYMAP_MACRO_COUNT : UInt8
  EECONFIG_SIZE : Nat
  VIA_EEPROM_LAYOUT_OPTIONS_SIZE : Nat
  VIA_EEPROM_CUSTOM_CONFIG_SIZE : Nat
  VIA_EEPROM_ALLOW_RESET : Bool
  ENCODER_MAP_ENABLE : Bool
  cols_pos : 0 < MATRIX_COLS
  cols_le_row : MATRIX_COLS ≤ 32
  base_le : EECONFIG_BASE_SIZE ≤ EECONFIG_SIZE
  keymap_start : DYNAMIC_KEYMAP_EEPROM_ADDR =
    EECONFIG_SIZE + 3 + VIA_EEPROM_LAYOUT_OPTIONS_SIZE + VIA_EEPROM_CUSTOM_CONFIG_SIZE

def Config.VIA_EEPROM_MAGIC_ADDR (cfg : Config) : Nat := cfg.EECONFIG_SIZE

def Config.VIA_EEPROM_LAYOUT_OPTIONS_ADDR (cfg : Config) : Nat := cfg.VIA_EEPROM_MAGIC_ADDR + 3

/-- A byte of the core configuration and what is written there. -/
abbrev CoreByte := Fin EECONFIG_BASE_SIZE × UInt8

/-- A channel: what its values are, and what setting or saving them does to
the state of the lights and to the core configuration. -/
structure Channel (L : Type) where
  get_value : L → UInt8 → Nat → UInt8
  set_value : UInt8 → List UInt8 → L → L × List CoreByte
  save : L → L × List CoreByte

/-- What is enabled, and what the rest of the keyboard answers. -/
structure Board (L : Type) where
  cfg : Config
  flash : Flash
  backlight : Option (Channel L)
  rgblight : Option (Channel L)
  rgb_matrix : Option (Channel L)
  audio : Option (Channel L)
  led_matrix : Option (Channel L)
  via_set_device_indication : UInt8 → L → L × List CoreByte
  LED_COUNT : Nat
  stream_led : Nat → List UInt8 → L → L
  signalrgb : UInt8 → Eeprom → L → L
  timer_read32 : UInt32
  matrix_get_row : Nat → UInt32
  magic0 : UInt8
  magic1 : UInt8
  magic2 : UInt8

/-! ## The packet -/

inductive Access where
  | read (i : Nat)
  | write (i : Nat)
  deriving DecidableEq

def Access.index : Access → Nat
  | .read i => i
  | .write i => i

/-- The memory from the first byte of the packet on, the EEPROM and the state
of the lights. -/
structure Host (L : Type) where
  data : Nat → UInt8
  eeprom : Eeprom
  lights : L

variable {L : Type}

abbrev Via (L α : Type) := Traced Access (Host L) α

def byte (i : Nat) : Via L UInt8 := do
  touch (.read i)
  view fun h => h.data i

def put (i : Nat) (b : UInt8) : Via L Unit := do
  touch (.write i)
  change fun h => { h with data := Function.update h.data i b }

/-- Two bytes of the packet, big endian. -/
def word (i : Nat) : Via L UInt16 := do
  let high ← byte i
  let low ← byte (i + 1)
  pure (high.toUInt16 <<< 8 ||| low.toUInt16)

def put_word (i : Nat) (w : UInt16) : Via L Unit := do
  put i (w >>> 8).toUInt8
  put (i + 1) (w &&& 0xFF).toUInt8

def put_long (i : Nat) (w : UInt32) : Via L Unit := do
  put i ((w >>> 24) &&& 0xFF).toUInt8
  put (i + 1) ((w >>> 16) &&& 0xFF).toUInt8
  put (i + 2) ((w >>> 8) &&& 0xFF).toUInt8
  put (i + 3) (w &&& 0xFF).toUInt8

def read_eeprom {α : Type} (f : Eeprom → α) : Via L α := view fun h => f h.eeprom

def write_eeprom (f : Eeprom → Eeprom) : Via L Unit := change fun h => { h with eeprom := f h.eeprom }

/-! ## Buffers -/

/-- The loop that copies bytes to the packet. -/
def fill (target : Nat) (bytes : List UInt8) : Via L Unit :=
  each (fun b => put (target + b.2) b.1) bytes.zipIdx

/-- The loop that copies a part of the packet to a region of the EEPROM. -/
def store (base limit offset size source : Nat) : Via L Unit :=
  each (fun i => do
    if offset + i < limit then do
      let b ← byte (source + i)
      write_eeprom (eeprom_update_byte (base + offset + i) b)
    else pure ()) (List.range size)

/-! ## Settings -/

def update_core (bytes : List CoreByte) (e : Eeprom) : Eeprom :=
  bytes.foldl (fun e b => eeprom_update_byte b.1.val b.2 e) e

def nvm_via_read_layout_options (cfg : Config) (e : Eeprom) : UInt32 :=
  (List.range cfg.VIA_EEPROM_LAYOUT_OPTIONS_SIZE).foldl (fun value i =>
    value <<< 8 ||| (e (cfg.VIA_EEPROM_LAYOUT_OPTIONS_ADDR + i)).toUInt32) 0

/-- From the least significant byte on, which is the last one. -/
def nvm_via_update_layout_options (cfg : Config) (val : UInt32) (e : Eeprom) : Eeprom :=
  ((List.range cfg.VIA_EEPROM_LAYOUT_OPTIONS_SIZE).foldl (fun (s : UInt32 × Eeprom) i =>
    (s.1 >>> 8, eeprom_update_byte
      (cfg.VIA_EEPROM_LAYOUT_OPTIONS_ADDR + cfg.VIA_EEPROM_LAYOUT_OPTIONS_SIZE - 1 - i)
      (s.1 &&& 0xFF).toUInt8 s.2)) (val, e)).2

def nvm_via_update_magic (cfg : Config) (magic0 magic1 magic2 : UInt8) (e : Eeprom) : Eeprom :=
  eeprom_update_byte (cfg.VIA_EEPROM_MAGIC_ADDR + 2) magic2
    (eeprom_update_byte (cfg.VIA_EEPROM_MAGIC_ADDR + 1) magic1
      (eeprom_update_byte cfg.VIA_EEPROM_MAGIC_ADDR magic0 e))

def eeconfig_init_via (b : Board L) (e : Eeprom) : Eeprom :=
  nvm_via_update_magic b.cfg b.magic0 b.magic1 b.magic2
    (dynamic_keymap.dynamic_keymap_macro_reset b.cfg.toConfig
      (dynamic_keymap.dynamic_keymap_reset b.cfg.toConfig b.flash
        (nvm_via_update_layout_options b.cfg VIA_EEPROM_LAYOUT_OPTIONS_DEFAULT
          (nvm_via_update_magic b.cfg 0xFF 0xFF 0xFF e))))

/-! ## Channels -/

/-- The shape of the five command functions. `width` is the number of bytes of
each value. -/
def via_qmk_command (width : UInt8 → Nat) (c : Channel L) : Via L Unit := do
  let command_id ← byte 0
  if command_id = id_custom_set_value then do
    let value_id ← byte 2
    each (fun i => do let _ ← byte (3 + i)) (List.range (width value_id))
    change fun h =>
      let set := c.set_value value_id ((List.range (width value_id)).map fun i => h.data (3 + i))
        h.lights
      { h with lights := set.1, eeprom := update_core set.2 h.eeprom }
  else if command_id = id_custom_get_value then do
    let value_id ← byte 2
    let lights ← view Host.lights
    each (fun i => put (3 + i) (c.get_value lights value_id i)) (List.range (width value_id))
  else if command_id = id_custom_save then
    change fun h =>
      let saved := c.save h.lights
      { h with lights := saved.1, eeprom := update_core saved.2 h.eeprom }
  else put 0 id_unhandled

/-- Brightness and effect. -/
def via_qmk_backlight_command : Channel L → Via L Unit :=
  via_qmk_command fun value_id => if value_id = 1 ∨ value_id = 2 then 1 else 0

/-- Brightness, effect and speed, and a colour of two bytes. -/
def via_qmk_rgblight_command : Channel L → Via L Unit :=
  via_qmk_command fun value_id =>
    if value_id = 4 then 2 else if value_id = 1 ∨ value_id = 2 ∨ value_id = 3 then 1 else 0

def via_qmk_rgb_matrix_command : Channel L → Via L Unit :=
  via_qmk_command fun value_id =>
    if value_id = 4 then 2 else if value_id = 1 ∨ value_id = 2 ∨ value_id = 3 then 1 else 0

def via_qmk_led_matrix_command : Channel L → Via L Unit :=
  via_qmk_command fun value_id =>
    if value_id = 1 ∨ value_id = 2 ∨ value_id = 3 then 1 else 0

def via_qmk_audio_command : Channel L → Via L Unit :=
  via_qmk_command fun value_id => if value_id = 1 ∨ value_id = 2 then 1 else 0

def on_channel (c : Option (Channel L)) (command : Channel L → Via L Unit) : Via L Unit :=
  match c with
  | some c => command c
  | none => put 0 id_unhandled

def via_custom_value_command (b : Board L) : Via L Unit := do
  let channel_id ← byte 1
  if channel_id = id_qmk_backlight_channel then on_channel b.backlight via_qmk_backlight_command
  else if channel_id = id_qmk_rgblight_channel then on_channel b.rgblight via_qmk_rgblight_command
  else if channel_id = id_qmk_rgb_matrix_channel then
    on_channel b.rgb_matrix via_qmk_rgb_matrix_command
  else if channel_id = id_qmk_led_matrix_channel then
    on_channel b.led_matrix via_qmk_led_matrix_command
  else if channel_id = id_qmk_audio_channel then on_channel b.audio via_qmk_audio_command
  else put 0 id_unhandled

/-! ## Keyboard values -/

def put_row (cfg : Config) (i : Nat) (value : UInt32) : Via L Unit :=
  let width := (cfg.MATRIX_COLS + 7) / 8
  each (fun k => put (i + k) ((value >>> (8 * (width - 1 - k)).toUInt32) &&& 0xFF).toUInt8)
    (List.range width)

def switch_matrix_state (b : Board L) : Via L Unit := do
  let offset ← byte 2
  let width := (b.cfg.MATRIX_COLS + 7) / 8
  each (fun row => put_row b.cfg (3 + width * row) (b.matrix_get_row (row + offset.toNat)))
    ((List.range (28 / width)).takeWhile fun row => row + offset.toNat < b.cfg.MATRIX_ROWS)

def get_keyboard_value (b : Board L) : Via L Unit := do
  let value_id ← byte 1
  if value_id = id_uptime then put_long 2 b.timer_read32
  else if value_id = id_layout_options then do
    let value ← read_eeprom (nvm_via_read_layout_options b.cfg)
    put_long 2 value
  else if value_id = id_switch_matrix_state then switch_matrix_state b
  else if value_id = id_firmware_version then put_long 2 b.cfg.VIA_FIRMWARE_VERSION
  else put 0 id_unhandled

def set_keyboard_value (b : Board L) : Via L Unit := do
  let value_id ← byte 1
  if value_id = id_layout_options then do
    let high ← word 2
    let low ← word 4
    write_eeprom (nvm_via_update_layout_options b.cfg (high.toUInt32 <<< 16 ||| low.toUInt32))
  else if value_id = id_device_indication then do
    let value ← byte 2
    change fun h =>
      let shown := b.via_set_device_indication value h.lights
      { h with lights := shown.1, eeprom := update_core shown.2 h.eeprom }
  else put 0 id_unhandled

/-! ## SignalRGB -/

def stream_led (b : Board L) (index : UInt8) (i : Nat) : Via L Unit := do
  let offset := i * 3 + 3
  let red ← byte offset
  let green ← byte (offset + 1)
  let blue ← byte (offset + 2)
  change fun h => { h with lights := b.stream_led (index.toNat + i) [red, green, blue] h.lights }

def led_streaming (b : Board L) : Via L Unit := do
  let index ← byte 1
  let numberofleds ← byte 2
  if b.LED_COUNT < index.toNat + numberofleds.toNat then pure ()
  else if 10 ≤ numberofleds then pure ()
  else each (stream_led b index) (List.range numberofleds.toNat)

/-- The other commands reply from a packet of their own. -/
def signalrgb_command (b : Board L) (command_id : UInt8) : Via L Unit :=
  if command_id = id_signalrgb_stream_leds then led_streaming b
  else change fun h => { h with lights := b.signalrgb command_id h.eeprom h.lights }

/-! ## The switch -/

section

variable (b : Board L)

def get_keycode_command : Via L Unit := do
  let layer ← byte 1
  let row ← byte 2
  let column ← byte 3
  let keycode ← read_eeprom (dynamic_keymap_get_keycode b.cfg.toConfig layer row column)
  put_word 4 keycode

def set_keycode_command : Via L Unit := do
  let layer ← byte 1
  let row ← byte 2
  let column ← byte 3
  let keycode ← word 4
  write_eeprom (dynamic_keymap_set_keycode b.cfg.toConfig layer row column keycode)

def get_encoder_command : Via L Unit := do
  let layer ← byte 1
  let encoder_id ← byte 2
  let clockwise ← byte 3
  let keycode ← read_eeprom
    (dynamic_keymap_get_encoder b.cfg.toConfig layer encoder_id (clockwise != 0))
  put_word 4 keycode

def set_encoder_command : Via L Unit := do
  let layer ← byte 1
  let encoder_id ← byte 2
  let clockwise ← byte 3
  let keycode ← word 4
  write_eeprom (dynamic_keymap_set_encoder b.cfg.toConfig layer encoder_id (clockwise != 0) keycode)

def get_buffer_command (get : UInt16 → UInt16 → Eeprom → List UInt8) : Via L Unit := do
  let offset ← word 1
  let size ← byte 3
  let bytes ← read_eeprom (get offset size.toUInt16)
  fill 4 bytes

/-- The two commands that write a buffer, at the base and up to the limit of
its region. -/
def set_buffer_command (base limit : Nat) : Via L Unit := do
  let offset ← word 1
  let size ← byte 3
  store base limit offset.toNat size.toNat 4

def command (command_id : UInt8) : Via L Unit :=
  if command_id = id_get_protocol_version then put_word 1 VIA_PROTOCOL_VERSION
  else if id_signalrgb_qmk_version ≤ command_id ∧ command_id ≤ id_signalrgb_firmware_type then
    signalrgb_command b command_id
  else if command_id = id_get_keyboard_value then get_keyboard_value b
  else if command_id = id_set_keyboard_value then set_keyboard_value b
  else if command_id = id_dynamic_keymap_get_keycode then get_keycode_command b
  else if command_id = id_dynamic_keymap_set_keycode then set_keycode_command b
  else if command_id = id_dynamic_keymap_reset then
    write_eeprom (dynamic_keymap_reset b.cfg.toConfig b.flash)
  else if command_id = id_custom_set_value ∨ command_id = id_custom_get_value ∨
      command_id = id_custom_save then via_custom_value_command b
  else if command_id = id_eeprom_reset ∧ b.cfg.VIA_EEPROM_ALLOW_RESET then
    write_eeprom (eeconfig_init_via b)
  else if command_id = id_dynamic_keymap_macro_get_count then
    put 1 b.cfg.DYNAMIC_KEYMAP_MACRO_COUNT
  else if command_id = id_dynamic_keymap_macro_get_buffer_size then
    put_word 1 b.cfg.DYNAMIC_KEYMAP_MACRO_EEPROM_SIZE.toUInt16
  else if command_id = id_dynamic_keymap_macro_get_buffer then
    get_buffer_command (dynamic_keymap_macro_get_buffer b.cfg.toConfig)
  else if command_id = id_dynamic_keymap_macro_set_buffer then
    set_buffer_command b.cfg.DYNAMIC_KEYMAP_MACRO_EEPROM_ADDR b.cfg.DYNAMIC_KEYMAP_MACRO_EEPROM_SIZE
  else if command_id = id_dynamic_keymap_macro_reset then
    write_eeprom (dynamic_keymap_macro_reset b.cfg.toConfig)
  else if command_id = id_dynamic_keymap_get_layer_count then
    put 1 b.cfg.DYNAMIC_KEYMAP_LAYER_COUNT.toUInt8
  else if command_id = id_dynamic_keymap_get_buffer then
    get_buffer_command (dynamic_keymap_get_buffer b.cfg.toConfig)
  else if command_id = id_dynamic_keymap_set_buffer then
    set_buffer_command b.cfg.DYNAMIC_KEYMAP_EEPROM_ADDR b.cfg.dynamic_keymap_eeprom_size
  else if command_id = id_dynamic_keymap_get_encoder ∧ b.cfg.ENCODER_MAP_ENABLE then
    get_encoder_command b
  else if command_id = id_dynamic_keymap_set_encoder ∧ b.cfg.ENCODER_MAP_ENABLE then
    set_encoder_command b
  else put 0 id_unhandled

def raw_hid_send : Via L Unit := each (fun i => do let _ ← byte i) (List.range RAW_EPSIZE)

def raw_hid_receive : Via L Unit := do
  let command_id ← byte 0
  command b command_id
  raw_hid_send

end

end keychron_qmk.via
