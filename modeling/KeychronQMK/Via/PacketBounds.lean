-- Where a packet of the host reaches: each command stays in the packet and in
-- the region of the EEPROM that it addresses, except that nothing holds the
-- size of a buffer to the packet.
import KeychronQMK.Via.Commands
import KeychronQMK.Keymap.KeymapViews

namespace keychron_qmk.via

open traced dynamic_keymap runs

variable {L : Type}

/-! ## One access -/

def InPacket (a : Access) : Prop := a.index < RAW_EPSIZE

section

variable (i : Nat) (x : UInt8) (w : UInt16) (v : UInt32) (h : Host L)

@[simp] theorem val_byte : (byte i : Via L UInt8).val h = h.data i := rfl

@[simp] theorem next_byte : (byte i : Via L UInt8).next h = h := rfl

@[simp] theorem safe_byte : Safe InPacket (byte i : Via L UInt8) h ↔ i < 32 := by
  simp [byte, InPacket, Access.index, RAW_EPSIZE]

@[simp] theorem next_put :
    (put i x : Via L Unit).next h = { h with data := Function.update h.data i x } := rfl

@[simp] theorem safe_put : Safe InPacket (put i x : Via L Unit) h ↔ i < 32 := by
  simp [put, InPacket, Access.index, RAW_EPSIZE]

def packetWord (data : Nat → UInt8) (i : Nat) : UInt16 :=
  (data i).toUInt16 <<< 8 ||| (data (i + 1)).toUInt16

@[simp] theorem val_word : (word i : Via L UInt16).val h = packetWord h.data i := rfl

@[simp] theorem next_word : (word i : Via L UInt16).next h = h := rfl

@[simp] theorem safe_word : Safe InPacket (word i : Via L UInt16) h ↔ i + 1 < 32 := by
  simp only [word, safe_bind, safe_byte, safe_pure, and_true]
  omega

@[simp] theorem eeprom_put_word : ((put_word i w : Via L Unit).next h).eeprom = h.eeprom := rfl

@[simp] theorem safe_put_word : Safe InPacket (put_word i w : Via L Unit) h ↔ i + 1 < 32 := by
  simp only [put_word, safe_bind, safe_put]
  omega

@[simp] theorem eeprom_put_long : ((put_long i v : Via L Unit).next h).eeprom = h.eeprom := rfl

@[simp] theorem safe_put_long : Safe InPacket (put_long i v : Via L Unit) h ↔ i + 3 < 32 := by
  simp only [put_long, safe_bind, safe_put]
  omega

variable {α : Type} (f : Eeprom → α) (g : Eeprom → Eeprom)

@[simp] theorem val_read_eeprom : (read_eeprom f : Via L α).val h = f h.eeprom := rfl

@[simp] theorem next_read_eeprom : (read_eeprom f : Via L α).next h = h := rfl

@[simp] theorem safe_read_eeprom : Safe InPacket (read_eeprom f : Via L α) h := safe_view _

@[simp] theorem next_write_eeprom :
    (write_eeprom g : Via L Unit).next h = { h with eeprom := g h.eeprom } := rfl

@[simp] theorem safe_write_eeprom : Safe InPacket (write_eeprom g : Via L Unit) h := safe_change _

end

/-! ## Buffers -/

theorem eeprom_fill (target : Nat) (bytes : List UInt8) (h : Host L) :
    ((fill target bytes : Via L Unit).next h).eeprom = h.eeprom := by
  unfold fill
  rw [next_each]
  apply foldl_miss Host.eeprom
  intro s x _
  rfl

theorem safe_fill {target : Nat} (ht : target < 32) (bytes : List UInt8) (h : Host L) :
    Safe InPacket (fill target bytes : Via L Unit) h ↔ target + bytes.length ≤ 32 := by
  unfold fill
  rw [safe_each (I := fun _ => True) (C := fun b : UInt8 × Nat => target + b.2 < 32)
    (fun x _ s _ => safe_put _ _ s) (fun _ _ _ _ => trivial) trivial]
  constructor
  · intro hall
    by_contra hlong
    have hlt : bytes.length - 1 < bytes.length := by omega
    have hlast := hall (bytes.get ⟨bytes.length - 1, hlt⟩, bytes.length - 1) (by
      rw [List.mk_mem_zipIdx_iff_getElem?]
      exact List.getElem?_eq_getElem hlt)
    omega
  · intro hle b hb
    have := List.snd_lt_of_mem_zipIdx hb
    omega

theorem next_store (base limit offset size source : Nat) (h : Host L) :
    (store base limit offset size source : Via L Unit).next h =
      { h with
        eeprom := update_region base limit offset size (fun i => h.data (source + i)) h.eeprom } := by
  unfold store update_region
  rw [next_each]
  induction List.range size generalizing h with
  | nil => rfl
  | cons i is ih =>
    rw [List.foldl_cons, ih]
    by_cases hin : offset + i < limit
    · simp [hin]
    · simp [hin]

/-- A copy from the packet is in it when its end is, or where the region ends
first. -/
theorem safe_store {source : Nat} (hs : source < 32) (base limit offset size : Nat) (h : Host L) :
    Safe InPacket (store base limit offset size source : Via L Unit) h ↔
      source + size ≤ 32 ∨ source + limit ≤ 32 + offset := by
  unfold store
  rw [safe_each (I := fun _ => True) (C := fun i => offset + i < limit → source + i < 32)
    ?_ (fun _ _ _ _ => trivial) trivial]
  · constructor
    · intro hall
      by_contra hlong
      have hfirst := hall (32 - source) (List.mem_range.mpr (by omega))
      omega
    · intro hle i hi hin
      have := List.mem_range.mp hi
      omega
  · intro i _ s _
    split
    · rename_i hin
      simp [hin]
    · rename_i hin
      simp [hin]

/-! ## Regions -/

def SettingsByte (cfg : Config) (a : Nat) : Prop := a < cfg.DYNAMIC_KEYMAP_EEPROM_ADDR

/-- The bytes that a command may write. Those of the settings are in none of
the three regions of the keymap. -/
inductive Addressed (cfg : Config) : UInt8 → Nat → Prop
  | set_keycode {a} (h : KeymapByte cfg.toConfig a) : Addressed cfg id_dynamic_keymap_set_keycode a
  | set_buffer {a} (h : KeymapByte cfg.toConfig a) : Addressed cfg id_dynamic_keymap_set_buffer a
  | set_encoder {a} (h : EncoderByte cfg.toConfig a) : Addressed cfg id_dynamic_keymap_set_encoder a
  | macro_set_buffer {a} (h : MacroByte cfg.toConfig a) :
    Addressed cfg id_dynamic_keymap_macro_set_buffer a
  | macro_reset {a} (h : MacroByte cfg.toConfig a) : Addressed cfg id_dynamic_keymap_macro_reset a
  | reset {a} (h : KeymapByte cfg.toConfig a ∨ EncoderByte cfg.toConfig a) :
    Addressed cfg id_dynamic_keymap_reset a
  | set_keyboard_value {a} (h : SettingsByte cfg a) : Addressed cfg id_set_keyboard_value a
  | custom {id a} (hid : id = id_custom_set_value ∨ id = id_custom_get_value ∨ id = id_custom_save)
    (h : SettingsByte cfg a) : Addressed cfg id a
  | eeprom_reset {a} (h : SettingsByte cfg a ∨ KeymapByte cfg.toConfig a ∨
      EncoderByte cfg.toConfig a ∨ MacroByte cfg.toConfig a) : Addressed cfg id_eeprom_reset a

/-- A buffer that the packet can hold. Of a buffer that is written, the part
past the end of its region does not count. -/
def BufferFits (cfg : Config) (data : Nat → UInt8) (command_id : UInt8) : Prop :=
  let offset := (packetWord data 1).toNat
  let size := (data 3).toNat
  (command_id = id_dynamic_keymap_get_buffer ∨ command_id = id_dynamic_keymap_macro_get_buffer →
    size ≤ 28) ∧
  (command_id = id_dynamic_keymap_set_buffer →
    size ≤ 28 ∨ cfg.dynamic_keymap_eeprom_size ≤ 28 + offset) ∧
  (command_id = id_dynamic_keymap_macro_set_buffer →
    size ≤ 28 ∨ cfg.DYNAMIC_KEYMAP_MACRO_EEPROM_SIZE ≤ 28 + offset)

/-- Nothing outside a region of the EEPROM is written. -/
def within (R : Nat → Prop) : Frame (Host L) where
  keeps h h' := ∀ a, ¬ R a → h'.eeprom a = h.eeprom a
  refl _ _ _ := rfl
  trans h h' a ha := (h' a ha).trans (h a ha)

/-! ## Settings -/

section

variable {cfg : Config} {a : Nat}

theorem settings_end (cfg : Config) :
    EECONFIG_BASE_SIZE ≤ cfg.DYNAMIC_KEYMAP_EEPROM_ADDR ∧
      cfg.VIA_EEPROM_MAGIC_ADDR + 3 ≤ cfg.DYNAMIC_KEYMAP_EEPROM_ADDR ∧
      cfg.VIA_EEPROM_LAYOUT_OPTIONS_ADDR + cfg.VIA_EEPROM_LAYOUT_OPTIONS_SIZE ≤
        cfg.DYNAMIC_KEYMAP_EEPROM_ADDR := by
  have hstart := cfg.keymap_start
  have hbase := cfg.base_le
  unfold Config.VIA_EEPROM_LAYOUT_OPTIONS_ADDR Config.VIA_EEPROM_MAGIC_ADDR
  omega

theorem update_core_frame (h : ¬ SettingsByte cfg a) (bytes : List CoreByte) (e : Eeprom) :
    update_core bytes e a = e a := by
  have hend := (settings_end cfg).1
  unfold SettingsByte at h
  apply foldl_miss fun e : Eeprom => e a
  intro s b _
  exact Function.update_of_ne (by omega) _ _

theorem layout_options_frame (h : ¬ SettingsByte cfg a) (val : UInt32) (e : Eeprom) :
    nvm_via_update_layout_options cfg val e a = e a := by
  have hend := (settings_end cfg).2.2
  unfold SettingsByte at h
  apply foldl_miss fun s : UInt32 × Eeprom => s.2 a
  intro s i hi
  have := List.mem_range.mp hi
  exact Function.update_of_ne (by omega) _ _

theorem magic_frame (h : ¬ SettingsByte cfg a) (magic0 magic1 magic2 : UInt8) (e : Eeprom) :
    nvm_via_update_magic cfg magic0 magic1 magic2 e a = e a := by
  have hend := (settings_end cfg).2.1
  unfold SettingsByte at h
  unfold nvm_via_update_magic eeprom_update_byte
  rw [Function.update_of_ne (by omega), Function.update_of_ne (by omega),
    Function.update_of_ne (by omega)]

end

/-! ## Commands -/

section

variable {R : Nat → Prop} {h : Host L}

variable {i : Nat}

theorem confined_byte (hi : i < 32) : Confined InPacket (within R) (byte i : Via L UInt8) h :=
  ⟨(safe_byte i h).mpr hi, fun _ _ => rfl⟩

theorem confined_put (hi : i < 32) (x : UInt8) :
    Confined InPacket (within R) (put i x : Via L Unit) h :=
  ⟨(safe_put i x h).mpr hi, fun _ _ => rfl⟩

theorem confined_word (hi : i + 1 < 32) :
    Confined InPacket (within R) (word i : Via L UInt16) h :=
  ⟨(safe_word i h).mpr hi, fun _ _ => rfl⟩

theorem confined_put_word (hi : i + 1 < 32) (w : UInt16) :
    Confined InPacket (within R) (put_word i w : Via L Unit) h :=
  ⟨(safe_put_word i w h).mpr hi, fun _ _ => rfl⟩

theorem confined_put_long (hi : i + 3 < 32) (w : UInt32) :
    Confined InPacket (within R) (put_long i w : Via L Unit) h :=
  ⟨(safe_put_long i w h).mpr hi, fun _ _ => rfl⟩

theorem confined_read_eeprom {α : Type} (f : Eeprom → α) :
    Confined InPacket (within R) (read_eeprom f : Via L α) h :=
  confined_view _

theorem confined_write_eeprom {f : Eeprom → Eeprom} (hf : ∀ a, ¬ R a → ∀ e, f e a = e a) :
    Confined InPacket (within R) (write_eeprom f : Via L Unit) h :=
  confined_change fun a ha => hf a ha h.eeprom

variable (b : Board L)

theorem via_qmk_command_confined {width : UInt8 → Nat} (hw : ∀ v, width v ≤ 2) (c : Channel L) :
    Confined InPacket (within (SettingsByte b.cfg)) (via_qmk_command width c) h := by
  have hbyte : ∀ (v : UInt8), ∀ i ∈ List.range (width v), 3 + i < 32 := by
    intro v i hi
    have := hw v
    have := List.mem_range.mp hi
    omega
  apply confined_bind (confined_byte (by decide))
  intro command_id s
  apply confined_ite
  · intro _
    apply confined_bind (confined_byte (by decide))
    intro value_id s
    apply confined_bind
    · apply confined_each
      intro i hi s
      exact confined_bind (confined_byte (hbyte value_id i hi)) fun _ _ => confined_pure ()
    · intro _ s
      exact confined_change fun a ha => update_core_frame ha _ _
  intro _
  apply confined_ite
  · intro _
    apply confined_bind (confined_byte (by decide))
    intro value_id s
    apply confined_bind (confined_view _)
    intro lights s
    apply confined_each
    intro i hi s
    exact confined_put (hbyte value_id i hi) _
  intro _
  apply confined_ite
  · intro _
    exact confined_change fun a ha => update_core_frame ha _ _
  · intro _
    exact confined_put (by decide) _

theorem on_channel_confined (c : Option (Channel L)) {command : Channel L → Via L Unit}
    (hc : ∀ c, Confined InPacket (within R) (command c) h) :
    Confined InPacket (within R) (on_channel c command) h := by
  cases c with
  | none => exact confined_put (by decide) _
  | some c => exact hc c

theorem via_custom_value_command_confined :
    Confined InPacket (within (SettingsByte b.cfg)) (via_custom_value_command b) h := by
  apply confined_bind (confined_byte (by decide))
  intro channel_id s
  apply confined_ite
  · intro _
    apply on_channel_confined
    apply via_qmk_command_confined
    intro v
    split <;> decide
  intro _
  apply confined_ite
  · intro _
    apply on_channel_confined
    apply via_qmk_command_confined
    intro v
    split <;> [decide; split <;> decide]
  intro _
  apply confined_ite
  · intro _
    apply on_channel_confined
    apply via_qmk_command_confined
    intro v
    split <;> [decide; split <;> decide]
  intro _
  apply confined_ite
  · intro _
    apply on_channel_confined
    apply via_qmk_command_confined
    intro v
    split <;> decide
  intro _
  apply confined_ite
  · intro _
    apply on_channel_confined
    apply via_qmk_command_confined
    intro v
    split <;> decide
  · intro _
    exact confined_put (by decide) _

theorem switch_matrix_state_confined :
    Confined InPacket (within R) (switch_matrix_state b) h := by
  apply confined_bind (confined_byte (by decide))
  intro offset s
  apply confined_each
  intro row hrow s
  apply confined_each
  intro k hk s
  have hrow' := List.mem_range.mp ((List.takeWhile_sublist _).subset hrow)
  have hk' := List.mem_range.mp hk
  apply confined_put
  have hrows := Nat.mul_le_mul_left ((b.cfg.MATRIX_COLS + 7) / 8) (Nat.succ_le_of_lt hrow')
  have hfit := Nat.mul_div_le 28 ((b.cfg.MATRIX_COLS + 7) / 8)
  rw [Nat.mul_succ] at hrows
  omega

theorem get_keyboard_value_confined :
    Confined InPacket (within R) (get_keyboard_value b) h := by
  apply confined_bind (confined_byte (by decide))
  intro value_id s
  apply confined_ite
  · intro _
    exact confined_put_long (by decide) _
  intro _
  apply confined_ite
  · intro _
    apply confined_bind (confined_read_eeprom _)
    intro value s
    exact confined_put_long (by decide) _
  intro _
  apply confined_ite
  · intro _
    exact switch_matrix_state_confined b
  intro _
  apply confined_ite
  · intro _
    exact confined_put_long (by decide) _
  · intro _
    exact confined_put (by decide) _

theorem set_keyboard_value_confined :
    Confined InPacket (within (SettingsByte b.cfg)) (set_keyboard_value b) h := by
  apply confined_bind (confined_byte (by decide))
  intro value_id s
  apply confined_ite
  · intro _
    apply confined_bind (confined_word (by decide))
    intro high s
    apply confined_bind (confined_word (by decide))
    intro low s
    exact confined_write_eeprom fun a ha e => layout_options_frame ha _ e
  intro _
  apply confined_ite
  · intro _
    apply confined_bind (confined_byte (by decide))
    intro value s
    exact confined_change fun a ha => update_core_frame ha _ _
  · intro _
    exact confined_put (by decide) _

theorem get_keycode_confined : Confined InPacket (within R) (get_keycode_command b) h := by
  apply confined_bind (confined_byte (by decide))
  intro layer s
  apply confined_bind (confined_byte (by decide))
  intro row s
  apply confined_bind (confined_byte (by decide))
  intro column s
  apply confined_bind (confined_read_eeprom _)
  intro keycode s
  exact confined_put_word (by decide) _

theorem set_keycode_confined : Confined InPacket (within (KeymapByte b.cfg.toConfig))
    (set_keycode_command b) h := by
  apply confined_bind (confined_byte (by decide))
  intro layer s
  apply confined_bind (confined_byte (by decide))
  intro row s
  apply confined_bind (confined_byte (by decide))
  intro column s
  apply confined_bind (confined_word (by decide))
  intro keycode s
  exact confined_write_eeprom fun a ha e => set_keycode_frame ha _ _ _ _ e

theorem get_encoder_confined : Confined InPacket (within R) (get_encoder_command b) h := by
  apply confined_bind (confined_byte (by decide))
  intro layer s
  apply confined_bind (confined_byte (by decide))
  intro encoder_id s
  apply confined_bind (confined_byte (by decide))
  intro clockwise s
  apply confined_bind (confined_read_eeprom _)
  intro keycode s
  exact confined_put_word (by decide) _

theorem set_encoder_confined : Confined InPacket (within (EncoderByte b.cfg.toConfig))
    (set_encoder_command b) h := by
  apply confined_bind (confined_byte (by decide))
  intro layer s
  apply confined_bind (confined_byte (by decide))
  intro encoder_id s
  apply confined_bind (confined_byte (by decide))
  intro clockwise s
  apply confined_bind (confined_word (by decide))
  intro keycode s
  exact confined_write_eeprom fun a ha e => set_encoder_frame ha _ _ _ _ e

theorem eeconfig_init_via_frame {a : Nat} (hs : ¬ SettingsByte b.cfg a)
    (hk : ¬ KeymapByte b.cfg.toConfig a) (he : ¬ EncoderByte b.cfg.toConfig a)
    (hm : ¬ MacroByte b.cfg.toConfig a) (e : Eeprom) : eeconfig_init_via b e a = e a := by
  unfold eeconfig_init_via
  rw [magic_frame hs, macro_reset_frame hm, reset_frame hk he, layout_options_frame hs,
    magic_frame hs]

theorem signalrgb_confined (command_id : UInt8) :
    Confined InPacket (within R) (signalrgb_command b command_id) h := by
  apply confined_ite
  · intro _
    apply confined_bind (confined_byte (by decide))
    intro index s
    apply confined_bind (confined_byte (by decide))
    intro numberofleds s
    apply confined_ite
    · intro _
      exact confined_pure ()
    intro _
    apply confined_ite
    · intro _
      exact confined_pure ()
    intro hfew
    have hfew' : numberofleds.toNat < 10 := UInt8.lt_iff_toNat_lt.mp (UInt8.not_le.mp hfew)
    apply confined_each
    intro i hi s
    have hi' := List.mem_range.mp hi
    apply confined_bind (confined_byte (by omega))
    intro red s
    apply confined_bind (confined_byte (by omega))
    intro green s
    apply confined_bind (confined_byte (by omega))
    intro blue s
    exact confined_change fun _ _ => rfl
  · intro _
    exact confined_change fun _ _ => rfl

theorem raw_hid_send_confined : Confined InPacket (within R) (raw_hid_send : Via L Unit) h := by
  apply confined_each
  intro i hi s
  exact confined_bind (confined_byte (List.mem_range.mp hi)) fun _ _ => confined_pure ()

/-- What a command does: it is safe exactly when its buffer fits, and in any
case it keeps to what it addresses. -/
def Law (b : Board L) (command_id : UInt8) (m : Via L Unit) (h : Host L) : Prop :=
  (Safe InPacket m h ↔ BufferFits b.cfg h.data command_id) ∧
    (within (Addressed b.cfg command_id)).keeps h (m.next h)

variable {command_id : UInt8} {m : Via L Unit}

theorem law_of_confined (hm : Confined InPacket (within R) m h)
    (hR : ∀ a, R a → Addressed b.cfg command_id a) (hfit : BufferFits b.cfg h.data command_id) :
    Law b command_id m h := by
  obtain ⟨hsafe, hkeep⟩ := hm
  exact ⟨iff_of_true hsafe hfit, fun a ha => hkeep a fun hr => ha (hR a hr)⟩

theorem fits_of_other {cfg : Config} {data : Nat → UInt8}
    (h : command_id ∉ [id_dynamic_keymap_get_buffer, id_dynamic_keymap_macro_get_buffer,
      id_dynamic_keymap_set_buffer, id_dynamic_keymap_macro_set_buffer]) :
    BufferFits cfg data command_id := by
  simp only [List.mem_cons, List.not_mem_nil, or_false, not_or] at h
  obtain ⟨hget, hmacroget, hset, hmacroset⟩ := h
  refine ⟨fun hor => ?_, fun heq => absurd heq hset, fun heq => absurd heq hmacroset⟩
  rcases hor with heq | heq
  · exact absurd heq hget
  · exact absurd heq hmacroget

variable {get : UInt16 → UInt16 → Eeprom → List UInt8}

theorem safe_get_buffer (hlen : ∀ offset size e, (get offset size e).length = size.toNat) :
    Safe InPacket (get_buffer_command get : Via L Unit) h ↔ (h.data 3).toNat ≤ 28 := by
  unfold get_buffer_command
  simp only [safe_bind, safe_word, safe_byte, safe_read_eeprom, true_and, next_word, next_byte,
    next_read_eeprom, val_word, val_byte, val_read_eeprom]
  rw [safe_fill (by decide), hlen, UInt8.toNat_toUInt16]
  omega

theorem get_buffer_frame (get : UInt16 → UInt16 → Eeprom → List UInt8) (F : Nat → Prop) :
    (within F).keeps h ((get_buffer_command get : Via L Unit).next h) := by
  intro a _
  unfold get_buffer_command
  simp only [next_bind]
  rw [eeprom_fill]
  rfl

theorem safe_set_buffer (base limit : Nat) :
    Safe InPacket (set_buffer_command base limit : Via L Unit) h ↔
      (h.data 3).toNat ≤ 28 ∨ limit ≤ 28 + (packetWord h.data 1).toNat := by
  unfold set_buffer_command
  simp only [safe_bind, safe_word, safe_byte, next_word, next_byte, val_word, val_byte]
  rw [safe_store (by decide)]
  omega

theorem set_buffer_next (base limit : Nat) :
    ((set_buffer_command base limit : Via L Unit).next h).eeprom =
      update_region base limit (packetWord h.data 1).toNat (h.data 3).toNat
        (fun i => h.data (4 + i)) h.eeprom := by
  have hstore : (set_buffer_command base limit : Via L Unit).next h =
      (store base limit (packetWord h.data 1).toNat (h.data 3).toNat 4 : Via L Unit).next h := by
    unfold set_buffer_command
    rw [next_bind, next_bind, next_word, next_byte, val_word, val_byte]
  rw [hstore, next_store]

theorem law_ite {c : Prop} [Decidable c] {m' : Via L Unit} (hm : c → Law b command_id m h)
    (hm' : ¬ c → Law b command_id m' h) : Law b command_id (if c then m else m') h := by
  split
  · rename_i hc
    exact hm hc
  · rename_i hc
    exact hm' hc

theorem law_of_reader (hm : Confined InPacket (within fun _ => False) m h)
    (hid : command_id ∉ [id_dynamic_keymap_get_buffer, id_dynamic_keymap_macro_get_buffer,
      id_dynamic_keymap_set_buffer, id_dynamic_keymap_macro_set_buffer]) :
    Law b command_id m h :=
  law_of_confined b hm (fun _ hf => hf.elim) (fits_of_other hid)

theorem signalrgb_ids (h : id_signalrgb_qmk_version ≤ command_id) :
    command_id ∉ [id_dynamic_keymap_get_buffer, id_dynamic_keymap_macro_get_buffer,
      id_dynamic_keymap_set_buffer, id_dynamic_keymap_macro_set_buffer] := by
  intro hmem
  simp only [List.mem_cons, List.not_mem_nil, or_false] at hmem
  rcases hmem with rfl | rfl | rfl | rfl
  · exact absurd h (by decide)
  · exact absurd h (by decide)
  · exact absurd h (by decide)
  · exact absurd h (by decide)

theorem get_buffer_law (hlen : ∀ offset size e, (get offset size e).length = size.toNat)
    (hid : command_id = id_dynamic_keymap_get_buffer ∨
      command_id = id_dynamic_keymap_macro_get_buffer) :
    Law b command_id (get_buffer_command get) h := by
  refine ⟨?_, get_buffer_frame get _⟩
  rw [safe_get_buffer hlen]
  constructor
  · intro hsize
    exact ⟨fun _ => hsize, fun _ => .inl hsize, fun _ => .inl hsize⟩
  · intro hfit
    exact hfit.1 hid

theorem command_law (command_id : UInt8) : Law b command_id (command b command_id) h := by
  apply law_ite
  · rintro rfl
    exact law_of_reader b (confined_put_word (by decide) _) (by decide)
  intro _
  apply law_ite
  · rintro ⟨hid, -⟩
    exact law_of_reader b (signalrgb_confined b command_id) (signalrgb_ids hid)
  intro _
  apply law_ite
  · rintro rfl
    exact law_of_reader b (get_keyboard_value_confined b) (by decide)
  intro _
  apply law_ite
  · rintro rfl
    exact law_of_confined b (set_keyboard_value_confined b) (fun _ => .set_keyboard_value)
      (fits_of_other (by decide))
  intro _
  apply law_ite
  · rintro rfl
    exact law_of_reader b (get_keycode_confined b) (by decide)
  intro _
  apply law_ite
  · rintro rfl
    exact law_of_confined b (set_keycode_confined b) (fun _ => .set_keycode)
      (fits_of_other (by decide))
  intro _
  apply law_ite
  · rintro rfl
    apply law_of_confined b (R := fun a => KeymapByte b.cfg.toConfig a ∨ EncoderByte b.cfg.toConfig a)
    · apply confined_write_eeprom
      intro a ha e
      rw [not_or] at ha
      exact reset_frame ha.1 ha.2 b.flash e
    · exact fun _ => .reset
    · exact fits_of_other (by decide)
  intro _
  apply law_ite
  · intro hid
    apply law_of_confined b (via_custom_value_command_confined b) (fun _ => .custom hid)
    apply fits_of_other
    rcases hid with rfl | rfl | rfl <;> decide
  intro _
  apply law_ite
  · rintro ⟨rfl, -⟩
    apply law_of_confined b (R := fun a => SettingsByte b.cfg a ∨ KeymapByte b.cfg.toConfig a ∨
      EncoderByte b.cfg.toConfig a ∨ MacroByte b.cfg.toConfig a)
    · apply confined_write_eeprom
      intro a ha e
      simp only [not_or] at ha
      exact eeconfig_init_via_frame b ha.1 ha.2.1 ha.2.2.1 ha.2.2.2 e
    · exact fun _ => .eeprom_reset
    · exact fits_of_other (by decide)
  intro _
  apply law_ite
  · rintro rfl
    exact law_of_reader b (confined_put (by decide) _) (by decide)
  intro _
  apply law_ite
  · rintro rfl
    exact law_of_reader b (confined_put_word (by decide) _) (by decide)
  intro _
  apply law_ite
  · rintro rfl
    exact get_buffer_law b (fun offset size e => by
      simp [dynamic_keymap_macro_get_buffer, nvm_dynamic_keymap_macro_read_buffer, read_region])
      (.inr rfl)
  intro hmacroget
  apply law_ite
  · rintro rfl
    constructor
    · rw [safe_set_buffer]
      constructor
      · intro hfit
        exact ⟨fun h => absurd h (by decide), fun h => absurd h (by decide), fun _ => hfit⟩
      · intro hfit
        exact hfit.2.2 rfl
    · intro a ha
      rw [set_buffer_next]
      exact macro_set_buffer_frame (fun h => ha (.macro_set_buffer h)) _ (h.data 3).toUInt16 _ _
  intro hmacroset
  apply law_ite
  · rintro rfl
    apply law_of_confined b (R := MacroByte b.cfg.toConfig)
    · exact confined_write_eeprom fun a ha e => macro_reset_frame ha e
    · exact fun _ => .macro_reset
    · exact fits_of_other (by decide)
  intro _
  apply law_ite
  · rintro rfl
    exact law_of_reader b (confined_put (by decide) _) (by decide)
  intro _
  apply law_ite
  · rintro rfl
    exact get_buffer_law b (fun offset size e => by
      simp [dynamic_keymap_get_buffer, nvm_dynamic_keymap_read_buffer, read_region]) (.inl rfl)
  intro hget
  apply law_ite
  · rintro rfl
    constructor
    · rw [safe_set_buffer]
      constructor
      · intro hfit
        exact ⟨fun h => absurd h (by decide), fun _ => hfit, fun h => absurd h (by decide)⟩
      · intro hfit
        exact hfit.2.1 rfl
    · intro a ha
      rw [set_buffer_next]
      exact set_buffer_frame (fun h => ha (.set_buffer h)) _ (h.data 3).toUInt16 _ _
  intro hset
  apply law_ite
  · rintro ⟨rfl, -⟩
    exact law_of_reader b (get_encoder_confined b) (by decide)
  intro _
  apply law_ite
  · rintro ⟨rfl, -⟩
    exact law_of_confined b (set_encoder_confined b) (fun _ => .set_encoder)
      (fits_of_other (by decide))
  · intro _
    apply law_of_reader b (confined_put (by decide) _)
    simp only [List.mem_cons, List.not_mem_nil, or_false, not_or]
    exact ⟨hget, hmacroget, hset, hmacroset⟩

end

/-! ## Packets -/

section

variable (b : Board L) (h : Host L)

theorem next_raw_hid_receive : (raw_hid_receive b).next h =
    (raw_hid_send : Via L Unit).next ((command b (h.data 0)).next h) := by
  unfold raw_hid_receive
  rw [next_bind, next_bind, next_byte, val_byte]

theorem safe_raw_hid_receive :
    Safe InPacket (raw_hid_receive b) h ↔ BufferFits b.cfg h.data (h.data 0) := by
  have hsend : Confined InPacket (within fun _ => False) (raw_hid_send : Via L Unit)
    ((command b (h.data 0)).next h) := raw_hid_send_confined
  unfold raw_hid_receive
  rw [safe_bind, safe_bind, next_byte, val_byte, safe_byte, and_iff_right (by decide),
    and_iff_left hsend.1]
  exact (command_law b (h.data 0)).1

/-- A packet stays in its bytes and in the region that it addresses exactly
when its buffer fits: the size of a buffer is not checked. -/
theorem a_packet_is_confined_when_its_buffer_fits :
    Confined InPacket (within (Addressed b.cfg (h.data 0))) (raw_hid_receive b) h ↔
      BufferFits b.cfg h.data (h.data 0) := by
  unfold Confined
  rw [safe_raw_hid_receive, and_iff_left_iff_imp]
  intro _
  rw [next_raw_hid_receive]
  exact (within _).trans (command_law b (h.data 0)).2 raw_hid_send_confined.2

end

def board : Board Unit where
  cfg :=
    { DYNAMIC_KEYMAP_LAYER_COUNT := 4
      MATRIX_ROWS := 4
      MATRIX_COLS := 17
      NUM_ENCODERS := 3
      DYNAMIC_KEYMAP_EEPROM_ADDR := 41
      DYNAMIC_KEYMAP_EEPROM_MAX_ADDR := 2047
      VIA_FIRMWARE_VERSION := 0
      DYNAMIC_KEYMAP_MACRO_COUNT := 16
      EECONFIG_SIZE := 37
      VIA_EEPROM_LAYOUT_OPTIONS_SIZE := 1
      VIA_EEPROM_CUSTOM_CONFIG_SIZE := 0
      VIA_EEPROM_ALLOW_RESET := false
      ENCODER_MAP_ENABLE := true
      layers_le := by decide
      rows_le := by decide
      cols_le := by decide
      encoders_le := by decide
      max_addr_le := by decide
      macros_fit := by decide
      cols_pos := by decide
      cols_le_row := by decide
      base_le := by decide
      keymap_start := rfl }
  flash := ⟨fun _ _ _ => 0, fun _ _ _ => 0⟩
  backlight := none
  rgblight := none
  rgb_matrix := none
  audio := none
  led_matrix := none
  via_set_device_indication _ lights := (lights, [])
  LED_COUNT := 0
  stream_led _ _ lights := lights
  signalrgb _ _ lights := lights
  timer_read32 := 0
  matrix_get_row _ := 0
  magic0 := 0x22
  magic1 := 0x51
  magic2 := 0x00

/-- `id_dynamic_keymap_get_buffer` of 255 bytes from the first key on. -/
def longBuffer : Host Unit where
  data i := [0x12, 0x00, 0x00, 0xFF].getD i 0
  eeprom _ := 0
  lights := ()

theorem a_long_buffer_leaves_the_packet :
    ¬ Confined InPacket (within (Addressed board.cfg (longBuffer.data 0)))
      (raw_hid_receive board) longBuffer := by
  rintro ⟨hsafe, -⟩
  have hfit := (safe_raw_hid_receive board longBuffer).mp hsafe
  exact absurd (hfit.1 (.inl rfl)) (by decide)

end keychron_qmk.via
