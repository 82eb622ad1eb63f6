-- The lighting commands of the host: `via_qmk_rgb_matrix_set_value` and
-- `via_qmk_rgb_matrix_save` of `quantum/via.c`, on the configuration of
-- `quantum/rgb_matrix/rgb_matrix.c` and its block in EEPROM.
import KeychronQMK.Lib.Runs
import Mathlib.Logic.Function.Basic
import Mathlib.Data.Nat.Bitwise

namespace keychron_qmk.via_rgb_matrix

open runs

/-! ## Constants -/

def id_qmk_rgb_matrix_brightness : UInt8 := 1
def id_qmk_rgb_matrix_effect : UInt8 := 2
def id_qmk_rgb_matrix_effect_speed : UInt8 := 3
def id_qmk_rgb_matrix_color : UInt8 := 4

/-- The options of a build, which its loop needs to end. There may be no
`RGB_MATRIX_BRIGHTNESS_TURN_OFF_VAL`. -/
structure Build where
  RGB_MATRIX_MAXIMUM_BRIGHTNESS : UInt8
  RGB_MATRIX_BRIGHTNESS_TURN_OFF_VAL : Option UInt8
  RGB_MATRIX_VAL_STEP : UInt8
  RGB_MATRIX_EFFECT_MAX : Nat
  effects_le : RGB_MATRIX_EFFECT_MAX ≤ 64
  step_pos : 0 < RGB_MATRIX_VAL_STEP
  turn_off_lt : ∀ v ∈ RGB_MATRIX_BRIGHTNESS_TURN_OFF_VAL, v < RGB_MATRIX_MAXIMUM_BRIGHTNESS

/-! ## The configuration -/

structure hsv_t where
  h : UInt8
  s : UInt8
  v : UInt8
  deriving DecidableEq

/-- `enable` and `mode` share a byte. -/
structure rgb_config_t where
  enable : BitVec 2
  mode : BitVec 6
  hsv : hsv_t
  speed : UInt8
  flags : UInt8
  deriving DecidableEq

/-- The places of the fields in the block. -/
def offset_h : Nat := 1
def offset_s : Nat := 2
def offset_v : Nat := 3
def offset_speed : Nat := 4
def offset_flags : Nat := 5

/-- The block from `EECONFIG_RGB_MATRIX` on. -/
abbrev Block := Nat → UInt8

def nvm_eeconfig_read_rgb_matrix (e : Block) : rgb_config_t where
  enable := BitVec.ofNat 2 (e 0).toNat
  mode := BitVec.ofNat 6 ((e 0).toNat / 4)
  hsv := ⟨e offset_h, e offset_s, e offset_v⟩
  speed := e offset_speed
  flags := e offset_flags

section

variable (b : Build)

def qadd8 (i j : UInt8) : UInt8 := if 255 < i.toNat + j.toNat then 255 else i + j

def scale8 (i scale : UInt8) : UInt8 := (i.toUInt16 * scale.toUInt16 >>> 8).toUInt8

def rgb_matrix_sethsv_noeeprom (hue sat val : UInt8) (c : rgb_config_t) : rgb_config_t :=
  if c.enable = 0 then c
  else { c with
    hsv := ⟨hue, sat, if b.RGB_MATRIX_MAXIMUM_BRIGHTNESS < val then
      b.RGB_MATRIX_MAXIMUM_BRIGHTNESS else val⟩ }

/-- With the lights on. -/
def rgb_matrix_increase_val (c : rgb_config_t) : rgb_config_t :=
  rgb_matrix_sethsv_noeeprom b c.hsv.h c.hsv.s (qadd8 c.hsv.v b.RGB_MATRIX_VAL_STEP) c

def leave_dark (dark : UInt8) : Nat → rgb_config_t → rgb_config_t
  | 0, c => c
  | n + 1, c =>
    if c.hsv.v < dark then leave_dark dark n (rgb_matrix_increase_val b c) else c

def rgb_matrix_enable_noeeprom (c : rgb_config_t) : rgb_config_t :=
  let c := { c with enable := 1 }
  match b.RGB_MATRIX_BRIGHTNESS_TURN_OFF_VAL with
  | some dark => leave_dark b dark 255 c
  | none => c

def rgb_matrix_disable_noeeprom (c : rgb_config_t) : rgb_config_t := { c with enable := 0 }

def rgb_matrix_mode_noeeprom (mode : UInt8) (c : rgb_config_t) : rgb_config_t :=
  if c.enable = 0 then c
  else if mode < 1 then { c with mode := 1 }
  else if b.RGB_MATRIX_EFFECT_MAX ≤ mode.toNat then
    { c with mode := BitVec.ofNat 6 (b.RGB_MATRIX_EFFECT_MAX - 1) }
  else { c with mode := BitVec.ofNat 6 mode.toNat }

def rgb_matrix_set_speed_noeeprom (speed : UInt8) (c : rgb_config_t) : rgb_config_t :=
  if c.enable = 0 then c else { c with speed := speed }

/-! ## The commands -/

structure Command where
  value_id : UInt8
  value_data : Nat → UInt8

structure State where
  rgb_matrix_config : rgb_config_t
  rgb_matrix_value_id_mask : UInt8
  eeprom : Block

/-- The mask is a byte, so only the first eight ids have a bit. From 32 on the
shift is left to the processor; here it has none either. -/
def id_bit (value_id : UInt8) : UInt8 := (1 <<< value_id.toNat : Nat).toUInt8

def set_config (d : Command) (c : rgb_config_t) : rgb_config_t :=
  if d.value_id = id_qmk_rgb_matrix_brightness then
    rgb_matrix_sethsv_noeeprom b c.hsv.h c.hsv.s
      (scale8 (d.value_data 0) b.RGB_MATRIX_MAXIMUM_BRIGHTNESS) c
  else if d.value_id = id_qmk_rgb_matrix_effect then
    if d.value_data 0 = 0 then rgb_matrix_disable_noeeprom c
    else rgb_matrix_mode_noeeprom b (d.value_data 0) (rgb_matrix_enable_noeeprom b c)
  else if d.value_id = id_qmk_rgb_matrix_effect_speed then
    rgb_matrix_set_speed_noeeprom (d.value_data 0) c
  else if d.value_id = id_qmk_rgb_matrix_color then
    rgb_matrix_sethsv_noeeprom b (d.value_data 0) (d.value_data 1) c.hsv.v c
  else c

def via_qmk_rgb_matrix_set_value (s : State) (d : Command) : State :=
  { s with
    rgb_matrix_value_id_mask := s.rgb_matrix_value_id_mask ||| id_bit d.value_id
    rgb_matrix_config := set_config b d s.rgb_matrix_config }

end

def eeprom_write_byte (addr : Nat) (x : UInt8) (e : Block) : Block := Function.update e addr x

def mode_byte (c : rgb_config_t) : UInt8 := (c.mode.toNat <<< 2 ||| c.enable.toNat).toUInt8

def save_brightness (s : State) (e : Block) : Block :=
  if s.rgb_matrix_value_id_mask = id_bit id_qmk_rgb_matrix_brightness then
    eeprom_write_byte offset_v s.rgb_matrix_config.hsv.v e
  else e

def save_effect (s : State) (e : Block) : Block :=
  if s.rgb_matrix_value_id_mask = id_bit id_qmk_rgb_matrix_effect then
    eeprom_write_byte 0 (mode_byte s.rgb_matrix_config) e
  else e

def save_color (s : State) (e : Block) : Block :=
  if s.rgb_matrix_value_id_mask = id_bit id_qmk_rgb_matrix_color then
    eeprom_write_byte offset_s s.rgb_matrix_config.hsv.s
      (eeprom_write_byte offset_h s.rgb_matrix_config.hsv.h e)
  else e

def save_speed (s : State) (e : Block) : Block :=
  if s.rgb_matrix_value_id_mask = id_bit id_qmk_rgb_matrix_effect_speed then
    eeprom_write_byte offset_speed s.rgb_matrix_config.speed e
  else e

def via_qmk_rgb_matrix_save (s : State) : State :=
  { s with
    rgb_matrix_value_id_mask := 0
    eeprom := save_speed s (save_color s (save_effect s (save_brightness s s.eeprom))) }

/-! ## The way out of the dark -/

section

variable {b : Build}

theorem qadd8_toNat (i j : UInt8) : (qadd8 i j).toNat = min (i.toNat + j.toNat) 255 := by
  unfold qadd8
  split
  · rename_i h
    rw [Nat.min_eq_right (by omega)]
    rfl
  · rename_i h
    rw [UInt8.toNat_add, Nat.min_eq_left (by omega)]
    omega

theorem increase_val_lt {c : rgb_config_t} (hon : c.enable ≠ 0)
    (h : c.hsv.v < b.RGB_MATRIX_MAXIMUM_BRIGHTNESS) :
    c.hsv.v.toNat < (rgb_matrix_increase_val b c).hsv.v.toNat ∧
      (rgb_matrix_increase_val b c).enable = c.enable := by
  have hstep : 0 < b.RGB_MATRIX_VAL_STEP.toNat := UInt8.lt_iff_toNat_lt.mp b.step_pos
  have hlt := UInt8.lt_iff_toNat_lt.mp h
  have hmax := b.RGB_MATRIX_MAXIMUM_BRIGHTNESS.toNat_lt
  have hadd := qadd8_toNat c.hsv.v b.RGB_MATRIX_VAL_STEP
  unfold rgb_matrix_increase_val rgb_matrix_sethsv_noeeprom
  rw [if_neg hon]
  refine ⟨?_, rfl⟩
  dsimp only
  split
  · exact hlt
  · omega

theorem leave_dark_ends {dark : UInt8} (hdark : dark < b.RGB_MATRIX_MAXIMUM_BRIGHTNESS) (n : Nat)
    {c : rgb_config_t} (hon : c.enable ≠ 0) (hn : dark.toNat ≤ c.hsv.v.toNat + n) :
    dark ≤ (leave_dark b dark n c).hsv.v := by
  induction n generalizing c with
  | zero => exact UInt8.le_iff_toNat_le.mpr hn
  | succ n ih =>
    rw [leave_dark]
    split
    · rename_i hlt
      obtain ⟨hbright, henable⟩ := increase_val_lt hon (UInt8.lt_trans hlt hdark)
      exact ih (henable ▸ hon) (by omega)
    · rename_i hle
      exact UInt8.not_lt.mp hle

theorem enabled_out_of_dark {dark : UInt8}
    (h : b.RGB_MATRIX_BRIGHTNESS_TURN_OFF_VAL = some dark) (c : rgb_config_t) :
    dark ≤ (rgb_matrix_enable_noeeprom b c).hsv.v := by
  have hfuel := dark.toNat_lt
  unfold rgb_matrix_enable_noeeprom
  rw [h]
  exact leave_dark_ends (b.turn_off_lt dark h) 255 (by decide : (1 : BitVec 2) ≠ 0) (by omega)

end

/-! ## Fields -/

inductive Field where
  | brightness
  | mode
  | enable
  | speed
  | hue
  | saturation
  deriving DecidableEq

def Field.get (c : rgb_config_t) : Field → Nat
  | .brightness => c.hsv.v.toNat
  | .mode => c.mode.toNat
  | .enable => c.enable.toNat
  | .speed => c.speed.toNat
  | .hue => c.hsv.h.toNat
  | .saturation => c.hsv.s.toNat

def Field.value_id : Field → UInt8
  | .brightness => id_qmk_rgb_matrix_brightness
  | .mode => id_qmk_rgb_matrix_effect
  | .enable => id_qmk_rgb_matrix_effect
  | .speed => id_qmk_rgb_matrix_effect_speed
  | .hue => id_qmk_rgb_matrix_color
  | .saturation => id_qmk_rgb_matrix_color

theorem Field.value_id_lt (f : Field) : f.value_id.toNat < 8 := by
  cases f <;> decide

/-! ## The mask -/

theorem id_bit_toNat (value_id : UInt8) :
    (id_bit value_id).toNat = if value_id.toNat < 8 then 2 ^ value_id.toNat else 0 := by
  unfold id_bit
  rw [Nat.toUInt8, UInt8.toNat_ofNat', Nat.one_shiftLeft]
  split
  · rename_i h
    exact Nat.mod_eq_of_lt (Nat.pow_lt_pow_right (by decide) h)
  · rename_i h
    exact Nat.mod_eq_zero_of_dvd (Nat.pow_dvd_pow 2 (Nat.not_lt.mp h))

theorem id_bit_testBit (value_id : UInt8) (i : Nat) :
    (id_bit value_id).toNat.testBit i = decide (value_id.toNat < 8 ∧ value_id.toNat = i) := by
  rw [id_bit_toNat]
  split
  · rename_i h
    rw [Nat.testBit_two_pow]
    simp [h]
  · rename_i h
    simp [h]

theorem mask_testBit (b : Build) (cmds : List Command) (s : State) (i : Nat) :
    (cmds.foldl (via_qmk_rgb_matrix_set_value b) s).rgb_matrix_value_id_mask.toNat.testBit i = true ↔
      s.rgb_matrix_value_id_mask.toNat.testBit i = true ∨
        ∃ d ∈ cmds, d.value_id.toNat < 8 ∧ d.value_id.toNat = i := by
  induction cmds generalizing s with
  | nil => simp
  | cons d ds ih =>
    rw [List.foldl_cons, ih]
    simp only [via_qmk_rgb_matrix_set_value, UInt8.toNat_or, Nat.testBit_or, id_bit_testBit,
      Bool.or_eq_true, decide_eq_true_eq, List.mem_cons, or_and_right, exists_or, exists_eq_left]
    rw [or_assoc]

def OnlySet (cmds : List Command) (value_id : UInt8) : Prop :=
  (∃ d ∈ cmds, d.value_id = value_id) ∧
    ∀ d ∈ cmds, d.value_id.toNat < 8 → d.value_id = value_id

/-- The mask of the commands since a save is one bit exactly when only its id
was set. -/
theorem mask_eq_iff (b : Build) (cmds : List Command) {s : State}
    (h0 : s.rgb_matrix_value_id_mask = 0) {value_id : UInt8} (hid : value_id.toNat < 8) :
    (cmds.foldl (via_qmk_rgb_matrix_set_value b) s).rgb_matrix_value_id_mask = id_bit value_id ↔
      OnlySet cmds value_id := by
  have hbits := mask_testBit b cmds s
  rw [h0] at hbits
  simp only [UInt8.toNat_zero, Nat.zero_testBit, Bool.false_eq_true, false_or] at hbits
  constructor
  · intro hmask
    rw [hmask] at hbits
    simp only [id_bit_testBit, decide_eq_true_eq, hid, true_and] at hbits
    constructor
    · obtain ⟨d, hd, -, heq⟩ := (hbits value_id.toNat).mp rfl
      exact ⟨d, hd, UInt8.toNat_inj.mp heq⟩
    · intro d hd hlt
      exact (UInt8.toNat_inj.mp ((hbits d.value_id.toNat).mpr ⟨d, hd, hlt, rfl⟩)).symm
  · rintro ⟨⟨d, hd, heq⟩, hall⟩
    apply UInt8.toNat_inj.mp
    apply Nat.eq_of_testBit_eq
    intro i
    rw [Bool.eq_iff_iff, hbits, id_bit_testBit, decide_eq_true_eq]
    constructor
    · rintro ⟨d', hd', hlt, rfl⟩
      rw [hall d' hd' hlt]
      exact ⟨hid, rfl⟩
    · rintro ⟨-, rfl⟩
      exact ⟨d, hd, heq ▸ hid, heq ▸ rfl⟩

/-! ## Saves -/

theorem mode_byte_toNat (c : rgb_config_t) :
    (mode_byte c).toNat = 4 * c.mode.toNat + c.enable.toNat := by
  have henable := c.enable.isLt
  unfold mode_byte
  rw [Nat.toUInt8, UInt8.toNat_ofNat', ← Nat.shiftLeft_add_eq_or_of_lt henable, Nat.shiftLeft_eq]
  omega

theorem read_mode_byte {e : Block} {c : rgb_config_t} (h : e 0 = mode_byte c) :
    (nvm_eeconfig_read_rgb_matrix e).mode = c.mode ∧
      (nvm_eeconfig_read_rgb_matrix e).enable = c.enable := by
  unfold nvm_eeconfig_read_rgb_matrix
  rw [h, mode_byte_toNat]
  constructor
  · apply BitVec.eq_of_toNat_eq
    rw [BitVec.toNat_ofNat]
    omega
  · apply BitVec.eq_of_toNat_eq
    rw [BitVec.toNat_ofNat]
    omega

section

variable (s : State) (e : Block) (a : Nat)

theorem save_brightness_apply : save_brightness s e a =
    if a = offset_v ∧ s.rgb_matrix_value_id_mask = id_bit id_qmk_rgb_matrix_brightness then
      s.rgb_matrix_config.hsv.v
    else e a := by
  unfold save_brightness eeprom_write_byte
  split
  · rename_i h
    simp [h, Function.update_apply]
  · rename_i h
    simp [h]

theorem save_effect_apply : save_effect s e a =
    if a = 0 ∧ s.rgb_matrix_value_id_mask = id_bit id_qmk_rgb_matrix_effect then
      mode_byte s.rgb_matrix_config
    else e a := by
  unfold save_effect eeprom_write_byte
  split
  · rename_i h
    simp [h, Function.update_apply]
  · rename_i h
    simp [h]

theorem save_color_apply : save_color s e a =
    if a = offset_s ∧ s.rgb_matrix_value_id_mask = id_bit id_qmk_rgb_matrix_color then
      s.rgb_matrix_config.hsv.s
    else if a = offset_h ∧ s.rgb_matrix_value_id_mask = id_bit id_qmk_rgb_matrix_color then
      s.rgb_matrix_config.hsv.h
    else e a := by
  unfold save_color eeprom_write_byte
  split
  · rename_i h
    simp [h, Function.update_apply]
  · rename_i h
    simp [h]

theorem save_speed_apply : save_speed s e a =
    if a = offset_speed ∧ s.rgb_matrix_value_id_mask = id_bit id_qmk_rgb_matrix_effect_speed then
      s.rgb_matrix_config.speed
    else e a := by
  unfold save_speed eeprom_write_byte
  split
  · rename_i h
    simp [h, Function.update_apply]
  · rename_i h
    simp [h]

theorem saved_apply : (via_qmk_rgb_matrix_save s).eeprom a =
    if a = offset_speed ∧ s.rgb_matrix_value_id_mask = id_bit id_qmk_rgb_matrix_effect_speed then
      s.rgb_matrix_config.speed
    else if a = offset_s ∧ s.rgb_matrix_value_id_mask = id_bit id_qmk_rgb_matrix_color then
      s.rgb_matrix_config.hsv.s
    else if a = offset_h ∧ s.rgb_matrix_value_id_mask = id_bit id_qmk_rgb_matrix_color then
      s.rgb_matrix_config.hsv.h
    else if a = 0 ∧ s.rgb_matrix_value_id_mask = id_bit id_qmk_rgb_matrix_effect then
      mode_byte s.rgb_matrix_config
    else if a = offset_v ∧ s.rgb_matrix_value_id_mask = id_bit id_qmk_rgb_matrix_brightness then
      s.rgb_matrix_config.hsv.v
    else s.eeprom a := by
  unfold via_qmk_rgb_matrix_save
  dsimp only
  rw [save_speed_apply, save_color_apply, save_effect_apply, save_brightness_apply]

theorem saved_flags : (via_qmk_rgb_matrix_save s).eeprom offset_flags = s.eeprom offset_flags := by
  rw [saved_apply]
  simp [offset_flags, offset_speed, offset_s, offset_h, offset_v]

end

theorem saved_mode (s : State) : (via_qmk_rgb_matrix_save s).eeprom 0 =
    if s.rgb_matrix_value_id_mask = id_bit id_qmk_rgb_matrix_effect then
      mode_byte s.rgb_matrix_config
    else s.eeprom 0 := by
  rw [saved_apply]
  simp [offset_speed, offset_s, offset_h, offset_v]

theorem save_stores {s : State} {f : Field}
    (h : s.rgb_matrix_value_id_mask = id_bit f.value_id) :
    f.get (nvm_eeconfig_read_rgb_matrix (via_qmk_rgb_matrix_save s).eeprom) =
      f.get s.rgb_matrix_config := by
  have hmode := saved_mode s
  cases f with
  | brightness =>
    simp only [Field.value_id] at h
    simp [Field.get, nvm_eeconfig_read_rgb_matrix, saved_apply, h, offset_speed, offset_s, offset_h,
      offset_v]
  | mode =>
    simp only [Field.value_id] at h
    rw [if_pos h] at hmode
    exact congrArg BitVec.toNat (read_mode_byte hmode).1
  | enable =>
    simp only [Field.value_id] at h
    rw [if_pos h] at hmode
    exact congrArg BitVec.toNat (read_mode_byte hmode).2
  | speed =>
    simp only [Field.value_id] at h
    simp [Field.get, nvm_eeconfig_read_rgb_matrix, saved_apply, h]
  | hue =>
    simp only [Field.value_id] at h
    simp [Field.get, nvm_eeconfig_read_rgb_matrix, saved_apply, h, offset_speed, offset_s, offset_h]
  | saturation =>
    simp only [Field.value_id] at h
    simp [Field.get, nvm_eeconfig_read_rgb_matrix, saved_apply, h, offset_speed, offset_s]

theorem save_keeps {s : State} {f : Field}
    (h : s.rgb_matrix_value_id_mask ≠ id_bit f.value_id) :
    f.get (nvm_eeconfig_read_rgb_matrix (via_qmk_rgb_matrix_save s).eeprom) =
      f.get (nvm_eeconfig_read_rgb_matrix s.eeprom) := by
  have hmode := saved_mode s
  cases f with
  | brightness =>
    simp only [Field.value_id] at h
    simp [Field.get, nvm_eeconfig_read_rgb_matrix, saved_apply, h, offset_speed, offset_s, offset_h,
      offset_v]
  | mode =>
    simp only [Field.value_id] at h
    rw [if_neg h] at hmode
    simp only [Field.get, nvm_eeconfig_read_rgb_matrix, hmode]
  | enable =>
    simp only [Field.value_id] at h
    rw [if_neg h] at hmode
    simp only [Field.get, nvm_eeconfig_read_rgb_matrix, hmode]
  | speed =>
    simp only [Field.value_id] at h
    simp [Field.get, nvm_eeconfig_read_rgb_matrix, saved_apply, h, offset_speed, offset_s, offset_h,
      offset_v]
  | hue =>
    simp only [Field.value_id] at h
    simp [Field.get, nvm_eeconfig_read_rgb_matrix, saved_apply, h, offset_speed, offset_s, offset_h,
      offset_v]
  | saturation =>
    simp only [Field.value_id] at h
    simp [Field.get, nvm_eeconfig_read_rgb_matrix, saved_apply, h, offset_speed, offset_s, offset_h,
      offset_v]

/-! ## Completeness -/

section

variable (b : Build) (cmds : List Command) (s : State)

/-- After a save and then the commands. -/
def current : State :=
  cmds.foldl (via_qmk_rgb_matrix_set_value b) { s with rgb_matrix_value_id_mask := 0 }

/-- The configuration that the next save leaves in EEPROM. -/
def reloaded : rgb_config_t :=
  nvm_eeconfig_read_rgb_matrix (via_qmk_rgb_matrix_save (current b cmds s)).eeprom

def Changed (f : Field) : Prop :=
  f.get (current b cmds s).rgb_matrix_config ≠ f.get s.rgb_matrix_config

/-- A field that changed is stored as it is now, any other as it was. -/
structure Complete : Prop where
  changed : ∀ f, Changed b cmds s f →
    f.get (reloaded b cmds s) = f.get (current b cmds s).rgb_matrix_config
  unchanged : ∀ f, ¬ Changed b cmds s f →
    f.get (reloaded b cmds s) = f.get (nvm_eeconfig_read_rgb_matrix s.eeprom)
  flags : (reloaded b cmds s).flags = (nvm_eeconfig_read_rgb_matrix s.eeprom).flags

theorem current_eeprom : (current b cmds s).eeprom = s.eeprom := by
  apply foldl_miss State.eeprom
  intro s d _
  rfl

theorem current_mask (f : Field) :
    (current b cmds s).rgb_matrix_value_id_mask = id_bit f.value_id ↔ OnlySet cmds f.value_id :=
  mask_eq_iff b cmds rfl f.value_id_lt

theorem reloaded_set {f : Field} (h : OnlySet cmds f.value_id) :
    f.get (reloaded b cmds s) = f.get (current b cmds s).rgb_matrix_config :=
  save_stores ((current_mask b cmds s f).mpr h)

theorem reloaded_other {f : Field} (h : ¬ OnlySet cmds f.value_id) :
    f.get (reloaded b cmds s) = f.get (nvm_eeconfig_read_rgb_matrix s.eeprom) := by
  unfold reloaded
  rw [save_keeps fun hmask => h ((current_mask b cmds s f).mp hmask), current_eeprom]

end

/-! ## Two values at once -/

def build : Build where
  RGB_MATRIX_MAXIMUM_BRIGHTNESS := 255
  RGB_MATRIX_BRIGHTNESS_TURN_OFF_VAL := some 48
  RGB_MATRIX_VAL_STEP := 16
  RGB_MATRIX_EFFECT_MAX := 45
  effects_le := by decide
  step_pos := by decide
  turn_off_lt := by
    rintro v ⟨⟩
    decide

/-- The lights are on, as they are stored. -/
def lit : State where
  rgb_matrix_config := ⟨1, 1, ⟨0, 255, 128⟩, 127, 255⟩
  rgb_matrix_value_id_mask := 0
  eeprom i := [0x05, 0, 255, 128, 127, 255].getD i 0

def twoValues : List Command :=
  [⟨id_qmk_rgb_matrix_brightness, fun _ => 200⟩, ⟨id_qmk_rgb_matrix_effect_speed, fun _ => 50⟩]

end keychron_qmk.via_rgb_matrix
