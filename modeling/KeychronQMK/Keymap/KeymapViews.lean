-- The laws of the dynamic keymap: the keys, the encoders and the macros are
-- three tables, each call changes the cells that it addresses, and a key
-- reads the same through the buffer and by its index.
import KeychronQMK.Keymap.DynamicKeymap
import KeychronQMK.Lib.Runs

namespace keychron_qmk.dynamic_keymap

open memory runs

/-! ## Words -/

def highByte (w : UInt16) : UInt8 := (w >>> 8).toUInt8

def lowByte (w : UInt16) : UInt8 := (w &&& 0xFF).toUInt8

def joinBytes (high low : UInt8) : UInt16 := (high.toUInt16 <<< 8) ||| low.toUInt16

theorem highByte_toNat (w : UInt16) : (highByte w).toNat = w.toNat / 256 := by
  have := w.toNat_lt
  simp [highByte, Nat.shiftRight_eq_div_pow]
  omega

theorem lowByte_toNat (w : UInt16) : (lowByte w).toNat = w.toNat % 256 := by
  have hmask := Nat.and_two_pow_sub_one_eq_mod (w.toNat % 256) 8
  simp [lowByte] at hmask ⊢
  omega

theorem joinBytes_toNat (high low : UInt8) :
    (joinBytes high low).toNat = 256 * high.toNat + low.toNat := by
  have hh := high.toNat_lt
  have hl := low.toNat_lt
  have hshift : high.toNat <<< 8 % 65536 = high.toNat <<< 8 := by
    omega
  simp [joinBytes]
  rw [hshift, ← Nat.shiftLeft_add_eq_or_of_lt hl, Nat.shiftLeft_eq]
  omega

theorem joinBytes_bytes (w : UInt16) : joinBytes (highByte w) (lowByte w) = w := by
  apply UInt16.toNat_inj.mp
  rw [joinBytes_toNat, highByte_toNat, lowByte_toNat]
  omega

theorem highByte_join (high low : UInt8) : highByte (joinBytes high low) = high := by
  have hl := low.toNat_lt
  apply UInt8.toNat_inj.mp
  rw [highByte_toNat, joinBytes_toNat]
  omega

theorem lowByte_join (high low : UInt8) : lowByte (joinBytes high low) = low := by
  have hl := low.toNat_lt
  apply UInt8.toNat_inj.mp
  rw [lowByte_toNat, joinBytes_toNat]
  omega

theorem read_word_eq (addr : Nat) (e : Eeprom) :
    read_word addr e = joinBytes (e addr) (e (addr + 1)) := rfl

theorem update_word_apply (addr : Nat) (w : UInt16) (e : Eeprom) (a : Nat) :
    update_word addr w e a =
      if a = addr then highByte w else if a = addr + 1 then lowByte w else e a := by
  unfold update_word eeprom_update_byte
  by_cases h1 : a = addr + 1
  · subst h1
    simp [lowByte]
  · by_cases h : a = addr
    · subst h
      simp [highByte]
    · simp [h, h1]

theorem read_update_word_self (addr : Nat) (w : UInt16) (e : Eeprom) :
    read_word addr (update_word addr w e) = w := by
  rw [read_word_eq, update_word_apply, update_word_apply]
  simp [joinBytes_bytes]

variable {addr i m : Nat}

theorem read_word_congr {e e' : Eeprom} (h : e' addr = e addr) (h' : e' (addr + 1) = e (addr + 1)) :
    read_word addr e' = read_word addr e := by
  rw [read_word_eq, read_word_eq, h, h']

theorem read_update_word_other {other : Nat} (h : addr + 2 ≤ other ∨ other + 2 ≤ addr) (w : UInt16)
    (e : Eeprom) : read_word addr (update_word other w e) = read_word addr e := by
  apply read_word_congr
  · rw [update_word_apply, if_neg (by omega), if_neg (by omega)]
  · rw [update_word_apply, if_neg (by omega), if_neg (by omega)]

/-! ## Regions -/

theorem update_region_apply (base limit offset size : Nat) (data : Nat → UInt8) (e : Eeprom)
    (a : Nat) : update_region base limit offset size data e a =
      if base + offset ≤ a ∧ a < base + offset + size ∧ a < base + limit then
        data (a - (base + offset))
      else e a := by
  unfold update_region
  induction size with
  | zero =>
    rw [if_neg (by omega)]
    rfl
  | succ size ih =>
    rw [List.range_succ, List.foldl_append, List.foldl_cons, List.foldl_nil]
    by_cases hin : offset + size < limit
    · rw [if_pos hin]
      by_cases ha : a = base + offset + size
      · subst ha
        rw [if_pos (by omega)]
        refine (Function.update_self _ _ _).trans ?_
        congr 1
        omega
      · refine (Function.update_of_ne ha _ _).trans ?_
        rw [ih]
        congr 1
        apply propext
        omega
    · rw [if_neg hin, ih]
      congr 1
      apply propext
      omega

theorem read_region_getElem? (base limit offset size : Nat) (e : Eeprom) (h : i < size) :
    (read_region base limit offset size e)[i]? =
      some (if offset + i < limit then e (base + offset + i) else 0) := by
  unfold read_region
  simp [h]

/-- The turns of the loop that have zeroed the first cells. -/
theorem macro_reset_turns (start size n : Nat) (e : Eeprom) :
    let s := macro_reset_turn^[n] (start, size, e)
    s.1 = start + min (16 * n) size ∧ s.2.1 = size - 16 * n ∧
      ∀ a, s.2.2 a = if start ≤ a ∧ a < start + min (16 * n) size then 0 else e a := by
  induction n with
  | zero =>
    refine ⟨by simp, by simp, fun a => ?_⟩
    rw [if_neg (by omega)]
    rfl
  | succ n ih =>
    rw [Function.iterate_succ_apply']
    generalize macro_reset_turn^[n] (start, size, e) = s at ih
    obtain ⟨at_, remaining, e'⟩ := s
    obtain ⟨rfl, rfl, hzero⟩ := ih
    unfold macro_reset_turn
    dsimp only
    refine ⟨by split <;> omega, by split <;> omega, fun a => ?_⟩
    have hpatch : ∀ n b, patch e' b (List.replicate n 0) a =
        if b ≤ a ∧ a < b + n then 0 else e' a := by
      intro n b
      by_cases hin : b ≤ a ∧ a < b + n
      · rw [if_pos hin, patch_in _ _ hin.1 (by simp; omega)]
        simp
      · rw [if_neg hin]
        by_cases hb : b ≤ a
        · exact patch_ge _ _ (by simp; omega)
        · exact patch_lt _ _ (by omega)
    rw [hpatch]
    dsimp only at hzero
    rw [hzero]
    have hloop : min (16 * n) size + (if size - 16 * n < 16 then size - 16 * n else 16) =
        min (16 * (n + 1)) size := by
      split <;> omega
    rw [Nat.add_assoc, hloop]
    by_cases hnew : start + min (16 * n) size ≤ a ∧ a < start + min (16 * (n + 1)) size
    · rw [if_pos hnew, if_pos (by omega)]
    · rw [if_neg hnew]
      congr 1
      apply propext
      omega

theorem macro_reset_apply (cfg : Config) (e : Eeprom) (a : Nat) :
    dynamic_keymap_macro_reset cfg e a =
      if cfg.DYNAMIC_KEYMAP_MACRO_EEPROM_ADDR ≤ a ∧
          a < cfg.DYNAMIC_KEYMAP_MACRO_EEPROM_ADDR + cfg.DYNAMIC_KEYMAP_MACRO_EEPROM_SIZE then 0
      else e a := by
  obtain ⟨-, -, hzero⟩ := macro_reset_turns cfg.DYNAMIC_KEYMAP_MACRO_EEPROM_ADDR
    cfg.DYNAMIC_KEYMAP_MACRO_EEPROM_SIZE ((cfg.DYNAMIC_KEYMAP_MACRO_EEPROM_SIZE + 15) / 16) e
  rw [show min (16 * ((cfg.DYNAMIC_KEYMAP_MACRO_EEPROM_SIZE + 15) / 16))
    cfg.DYNAMIC_KEYMAP_MACRO_EEPROM_SIZE = cfg.DYNAMIC_KEYMAP_MACRO_EEPROM_SIZE by omega] at hzero
  exact hzero a

/-! ## Addresses -/

theorem digits_lt {n a : Nat} (ha : a < n) (hi : i < m) : a * m + i < n * m := by
  have := Nat.mul_le_mul_right m ha
  rw [Nat.succ_mul] at this
  omega

theorem digits_inj {a b j : Nat} (hi : i < m) (hj : j < m) (h : a * m + i = b * m + j) :
    a = b ∧ i = j := by
  rcases Nat.lt_trichotomy a b with hab | rfl | hab
  · have := digits_lt hab hi
    omega
  · exact ⟨rfl, by omega⟩
  · have := digits_lt hab hj
    omega

section

variable (cfg : Config)

def keyOffset (layer row column : UInt8) : Nat :=
  2 * ((layer.toNat * cfg.MATRIX_ROWS + row.toNat) * cfg.MATRIX_COLS + column.toNat)

def encoderOffset (layer encoder_id : UInt8) (clockwise : Bool) : Nat :=
  4 * (layer.toNat * cfg.NUM_ENCODERS + encoder_id.toNat) + if clockwise then 0 else 2

theorem key_address (layer row column : UInt8) :
    dynamic_keymap_key_to_eeprom_address cfg layer row column =
      cfg.DYNAMIC_KEYMAP_EEPROM_ADDR + keyOffset cfg layer row column := by
  unfold dynamic_keymap_key_to_eeprom_address keyOffset
  ring

theorem encoder_address (layer encoder_id : UInt8) (clockwise : Bool) :
    dynamic_keymap_encoder_to_eeprom_address cfg layer encoder_id +
        (if clockwise then 0 else 2) =
      cfg.DYNAMIC_KEYMAP_ENCODER_EEPROM_ADDR + encoderOffset cfg layer encoder_id clockwise := by
  unfold dynamic_keymap_encoder_to_eeprom_address encoderOffset
  ring

end

section

variable {cfg : Config}

variable {layer row column layer' row' column' encoder_id encoder_id' : UInt8}

theorem keyOffset_lt (h : KeyInRange cfg layer row column) :
    keyOffset cfg layer row column + 2 ≤ cfg.dynamic_keymap_eeprom_size := by
  obtain ⟨hl, hr, hc⟩ := h
  have := digits_lt (digits_lt hl hr) hc
  unfold keyOffset Config.dynamic_keymap_eeprom_size
  omega

theorem keyOffset_inj (h : KeyInRange cfg layer row column)
    (h' : KeyInRange cfg layer' row' column')
    (heq : keyOffset cfg layer row column = keyOffset cfg layer' row' column') :
    layer = layer' ∧ row = row' ∧ column = column' := by
  obtain ⟨hlr, hc⟩ := digits_inj h.2.2 h'.2.2 (Nat.eq_of_mul_eq_mul_left (by omega) heq)
  obtain ⟨hl, hr⟩ := digits_inj h.2.1 h'.2.1 hlr
  exact ⟨UInt8.toNat_inj.mp hl, UInt8.toNat_inj.mp hr, UInt8.toNat_inj.mp hc⟩

theorem encoderOffset_lt (h : EncoderInRange cfg layer encoder_id) (clockwise : Bool) :
    encoderOffset cfg layer encoder_id clockwise + 2 ≤ cfg.encoder_eeprom_size := by
  have := digits_lt h.1 h.2
  unfold encoderOffset Config.encoder_eeprom_size
  split <;> omega

variable {clockwise clockwise' : Bool}

theorem encoderOffset_inj (h : EncoderInRange cfg layer encoder_id)
    (h' : EncoderInRange cfg layer' encoder_id')
    (heq : encoderOffset cfg layer encoder_id clockwise =
      encoderOffset cfg layer' encoder_id' clockwise') :
    layer = layer' ∧ encoder_id = encoder_id' ∧ clockwise = clockwise' := by
  have hdir : clockwise = clockwise' := by
    unfold encoderOffset at heq
    cases clockwise <;> cases clockwise' <;> simp at heq ⊢ <;> omega
  rw [hdir] at heq
  obtain ⟨hl, hi⟩ := digits_inj h.2 h'.2
    (Nat.eq_of_mul_eq_mul_left (by omega) (Nat.add_right_cancel heq))
  exact ⟨UInt8.toNat_inj.mp hl, UInt8.toNat_inj.mp hi, hdir⟩

theorem keyOffset_apart (h : keyOffset cfg layer row column ≠ keyOffset cfg layer' row' column') :
    keyOffset cfg layer row column + 2 ≤ keyOffset cfg layer' row' column' ∨
      keyOffset cfg layer' row' column' + 2 ≤ keyOffset cfg layer row column := by
  unfold keyOffset at *
  omega

theorem encoderOffset_apart (h : encoderOffset cfg layer encoder_id clockwise ≠
      encoderOffset cfg layer' encoder_id' clockwise') :
    encoderOffset cfg layer encoder_id clockwise + 2 ≤
        encoderOffset cfg layer' encoder_id' clockwise' ∨
      encoderOffset cfg layer' encoder_id' clockwise' + 2 ≤
        encoderOffset cfg layer encoder_id clockwise := by
  unfold encoderOffset at *
  cases clockwise <;> cases clockwise' <;> simp at h ⊢ <;> omega

theorem macros_end (cfg : Config) :
    cfg.DYNAMIC_KEYMAP_MACRO_EEPROM_ADDR + cfg.DYNAMIC_KEYMAP_MACRO_EEPROM_SIZE =
      cfg.DYNAMIC_KEYMAP_EEPROM_MAX_ADDR + 1 := by
  have := cfg.macros_fit
  unfold Config.DYNAMIC_KEYMAP_MACRO_EEPROM_SIZE Config.DYNAMIC_KEYMAP_MACRO_EEPROM_ADDR
    Config.DYNAMIC_KEYMAP_ENCODER_EEPROM_ADDR Config.dynamic_keymap_eeprom_size
    Config.encoder_eeprom_size
  omega

end

/-! ## The three tables -/

/-- What a keymap is: a keycode for each key, a keycode for each direction of
each encoder, and the bytes of the macros. Out of range there is nothing. -/
@[ext]
structure Keymap where
  keys : UInt8 → UInt8 → UInt8 → UInt16
  encoders : UInt8 → UInt8 → Bool → UInt16
  macros : Nat → UInt8

def keymapOf (cfg : Config) (e : Eeprom) : Keymap where
  keys layer row column := dynamic_keymap_get_keycode cfg layer row column e
  encoders layer encoder_id clockwise := dynamic_keymap_get_encoder cfg layer encoder_id clockwise e
  macros i := if i < cfg.DYNAMIC_KEYMAP_MACRO_EEPROM_SIZE then
      e (cfg.DYNAMIC_KEYMAP_MACRO_EEPROM_ADDR + i)
    else 0

/-- The byte at a place of a region, under a buffer. -/
def overlay (offset size : UInt16) (data : Nat → UInt8) (place : Nat) (old : UInt8) : UInt8 :=
  if offset.toNat ≤ place ∧ place < offset.toNat + size.toNat then data (place - offset.toNat)
  else old

inductive Op where
  | dynamic_keymap_set_keycode (layer row column : UInt8) (keycode : UInt16)
  | dynamic_keymap_set_encoder (layer encoder_id : UInt8) (clockwise : Bool) (keycode : UInt16)
  | dynamic_keymap_set_buffer (offset size : UInt16) (data : Nat → UInt8)
  | dynamic_keymap_macro_set_buffer (offset size : UInt16) (data : Nat → UInt8)
  | dynamic_keymap_reset
  | dynamic_keymap_macro_reset

section

variable (cfg : Config) (flash : Flash)

def Op.run (e : Eeprom) : Op → Eeprom
  | .dynamic_keymap_set_keycode layer row column keycode =>
    dynamic_keymap.dynamic_keymap_set_keycode cfg layer row column keycode e
  | .dynamic_keymap_set_encoder layer encoder_id clockwise keycode =>
    dynamic_keymap.dynamic_keymap_set_encoder cfg layer encoder_id clockwise keycode e
  | .dynamic_keymap_set_buffer offset size data =>
    dynamic_keymap.dynamic_keymap_set_buffer cfg offset size data e
  | .dynamic_keymap_macro_set_buffer offset size data =>
    dynamic_keymap.dynamic_keymap_macro_set_buffer cfg offset size data e
  | .dynamic_keymap_reset => dynamic_keymap.dynamic_keymap_reset cfg flash e
  | .dynamic_keymap_macro_reset => dynamic_keymap.dynamic_keymap_macro_reset cfg e

/-- What each call does to the tables: it changes the cells that it addresses. -/
def Keymap.step (m : Keymap) : Op → Keymap
  | .dynamic_keymap_set_keycode layer row column keycode =>
    { m with keys := fun l r c =>
        if KeyInRange cfg layer row column ∧ l = layer ∧ r = row ∧ c = column then keycode
        else m.keys l r c }
  | .dynamic_keymap_set_encoder layer encoder_id clockwise keycode =>
    { m with encoders := fun l i d =>
        if EncoderInRange cfg layer encoder_id ∧ l = layer ∧ i = encoder_id ∧ d = clockwise then
          keycode
        else m.encoders l i d }
  | .dynamic_keymap_set_buffer offset size data =>
    { m with
      keys := fun l r c =>
        let place := keyOffset cfg l r c
        if KeyInRange cfg l r c then
          joinBytes (overlay offset size data place (highByte (m.keys l r c)))
            (overlay offset size data (place + 1) (lowByte (m.keys l r c)))
        else KC_NO }
  | .dynamic_keymap_macro_set_buffer offset size data =>
    { m with macros := fun i =>
        if i < cfg.DYNAMIC_KEYMAP_MACRO_EEPROM_SIZE then overlay offset size data i (m.macros i)
        else 0 }
  | .dynamic_keymap_reset =>
    { m with
      keys := fun l r c => if KeyInRange cfg l r c then flash.keymap l.toNat r.toNat c.toNat
        else KC_NO
      encoders := fun l i d => if EncoderInRange cfg l i then flash.encodermap l.toNat i.toNat d
        else KC_NO }
  | .dynamic_keymap_macro_reset => { m with macros := fun _ => 0 }

end

/-! ## Each call on the tables -/

section

variable {cfg : Config}

theorem keys_of_eq {layer row column : UInt8} (h : KeyInRange cfg layer row column) (e : Eeprom) :
    dynamic_keymap_get_keycode cfg layer row column e =
      read_word (cfg.DYNAMIC_KEYMAP_EEPROM_ADDR + keyOffset cfg layer row column) e := by
  unfold dynamic_keymap_get_keycode nvm_dynamic_keymap_read_keycode
  rw [if_pos h, key_address]

theorem encoders_of_eq {layer encoder_id : UInt8} (h : EncoderInRange cfg layer encoder_id)
    (clockwise : Bool) (e : Eeprom) :
    dynamic_keymap_get_encoder cfg layer encoder_id clockwise e =
      read_word (cfg.DYNAMIC_KEYMAP_ENCODER_EEPROM_ADDR +
        encoderOffset cfg layer encoder_id clockwise) e := by
  unfold dynamic_keymap_get_encoder nvm_dynamic_keymap_read_encoder
  rw [if_pos h, encoder_address]

variable {e e' : Eeprom}

theorem keys_congr
    (h : ∀ a, cfg.DYNAMIC_KEYMAP_EEPROM_ADDR ≤ a → a < cfg.DYNAMIC_KEYMAP_ENCODER_EEPROM_ADDR →
      e' a = e a) : (keymapOf cfg e').keys = (keymapOf cfg e).keys := by
  funext layer row column
  by_cases hr : KeyInRange cfg layer row column
  · have hlt := keyOffset_lt hr
    have hend : cfg.DYNAMIC_KEYMAP_ENCODER_EEPROM_ADDR =
      cfg.DYNAMIC_KEYMAP_EEPROM_ADDR + cfg.dynamic_keymap_eeprom_size := rfl
    simp only [keymapOf, keys_of_eq hr]
    exact read_word_congr (h _ (by omega) (by omega)) (h _ (by omega) (by omega))
  · simp [keymapOf, dynamic_keymap_get_keycode, nvm_dynamic_keymap_read_keycode, hr]

theorem encoders_congr (h : ∀ a, cfg.DYNAMIC_KEYMAP_ENCODER_EEPROM_ADDR ≤ a →
      a < cfg.DYNAMIC_KEYMAP_MACRO_EEPROM_ADDR → e' a = e a) :
    (keymapOf cfg e').encoders = (keymapOf cfg e).encoders := by
  funext layer encoder_id clockwise
  by_cases hr : EncoderInRange cfg layer encoder_id
  · have hlt := encoderOffset_lt hr clockwise
    have hend : cfg.DYNAMIC_KEYMAP_MACRO_EEPROM_ADDR =
      cfg.DYNAMIC_KEYMAP_ENCODER_EEPROM_ADDR + cfg.encoder_eeprom_size := rfl
    simp only [keymapOf, encoders_of_eq hr]
    exact read_word_congr (h _ (by omega) (by omega)) (h _ (by omega) (by omega))
  · simp [keymapOf, dynamic_keymap_get_encoder, nvm_dynamic_keymap_read_encoder, hr]

theorem macros_congr (h : ∀ a, cfg.DYNAMIC_KEYMAP_MACRO_EEPROM_ADDR ≤ a → e' a = e a) :
    (keymapOf cfg e').macros = (keymapOf cfg e).macros := by
  funext i
  simp [keymapOf, h _ (Nat.le_add_right _ i)]

theorem keys_end (cfg : Config) : cfg.DYNAMIC_KEYMAP_ENCODER_EEPROM_ADDR =
    cfg.DYNAMIC_KEYMAP_EEPROM_ADDR + cfg.dynamic_keymap_eeprom_size := rfl

theorem encoders_end (cfg : Config) : cfg.DYNAMIC_KEYMAP_MACRO_EEPROM_ADDR =
    cfg.DYNAMIC_KEYMAP_ENCODER_EEPROM_ADDR + cfg.encoder_eeprom_size := rfl

variable (cfg) in
theorem set_keycode_tables (flash : Flash) (layer row column : UInt8) (keycode : UInt16)
    (e : Eeprom) : keymapOf cfg (dynamic_keymap_set_keycode cfg layer row column keycode e) =
      (keymapOf cfg e).step cfg flash (.dynamic_keymap_set_keycode layer row column keycode) := by
  have hend := keys_end cfg
  have hend' := encoders_end cfg
  unfold dynamic_keymap_set_keycode nvm_dynamic_keymap_update_keycode
  by_cases hr : KeyInRange cfg layer row column
  · have hlt := keyOffset_lt hr
    rw [if_pos hr, key_address]
    apply Keymap.ext
    · funext l r c
      by_cases hr' : KeyInRange cfg l r c
      · simp only [keymapOf, Keymap.step, hr, true_and, keys_of_eq hr']
        by_cases hsame : l = layer ∧ r = row ∧ c = column
        · obtain ⟨rfl, rfl, rfl⟩ := hsame
          simp [read_update_word_self]
        · rw [if_neg hsame]
          apply read_update_word_other
          rcases keyOffset_apart fun heq => hsame (keyOffset_inj hr' hr heq) with h | h <;> omega
      · have hne : ¬ (l = layer ∧ r = row ∧ c = column) := by
          rintro ⟨rfl, rfl, rfl⟩
          exact hr' hr
        simp [keymapOf, Keymap.step, hr, hne, dynamic_keymap_get_keycode,
          nvm_dynamic_keymap_read_keycode, hr']
    · apply encoders_congr (e := e)
      intro a ha _
      rw [update_word_apply, if_neg (by omega), if_neg (by omega)]
    · apply macros_congr (e := e)
      intro a ha
      rw [update_word_apply, if_neg (by omega), if_neg (by omega)]
  · simp [hr, Keymap.step]

variable (cfg) in
theorem set_encoder_tables (flash : Flash) (layer encoder_id : UInt8) (clockwise : Bool)
    (keycode : UInt16) (e : Eeprom) :
    keymapOf cfg (dynamic_keymap_set_encoder cfg layer encoder_id clockwise keycode e) =
      (keymapOf cfg e).step cfg flash
        (.dynamic_keymap_set_encoder layer encoder_id clockwise keycode) := by
  have hend' := encoders_end cfg
  unfold dynamic_keymap_set_encoder nvm_dynamic_keymap_update_encoder
  by_cases hr : EncoderInRange cfg layer encoder_id
  · have hlt := encoderOffset_lt hr clockwise
    rw [if_pos hr, encoder_address]
    apply Keymap.ext
    · apply keys_congr (e := e)
      intro a _ ha
      rw [update_word_apply, if_neg (by omega), if_neg (by omega)]
    · funext l i d
      by_cases hr' : EncoderInRange cfg l i
      · simp only [keymapOf, Keymap.step, hr, true_and, encoders_of_eq hr']
        by_cases hsame : l = layer ∧ i = encoder_id ∧ d = clockwise
        · obtain ⟨rfl, rfl, rfl⟩ := hsame
          simp [read_update_word_self]
        · rw [if_neg hsame]
          apply read_update_word_other
          rcases encoderOffset_apart fun heq => hsame (encoderOffset_inj hr' hr heq) with h | h <;>
            omega
      · have hne : ¬ (l = layer ∧ i = encoder_id ∧ d = clockwise) := by
          rintro ⟨rfl, rfl, -⟩
          exact hr' hr
        simp [keymapOf, Keymap.step, hr, hne, dynamic_keymap_get_encoder,
          nvm_dynamic_keymap_read_encoder, hr']
    · apply macros_congr (e := e)
      intro a ha
      rw [update_word_apply, if_neg (by omega), if_neg (by omega)]
  · simp [hr, Keymap.step]

theorem update_region_overlay {base limit place : Nat} (h : place < limit) (offset size : UInt16)
    (data : Nat → UInt8) (e : Eeprom) :
    update_region base limit offset.toNat size.toNat data e (base + place) =
      overlay offset size data place (e (base + place)) := by
  rw [update_region_apply]
  unfold overlay
  by_cases hin : offset.toNat ≤ place ∧ place < offset.toNat + size.toNat
  · rw [if_pos (by omega), if_pos hin]
    congr 1
    omega
  · rw [if_neg (by omega), if_neg hin]

theorem set_buffer_tables (flash : Flash) (offset size : UInt16) (data : Nat → UInt8) (e : Eeprom) :
    keymapOf cfg (dynamic_keymap_set_buffer cfg offset size data e) =
      (keymapOf cfg e).step cfg flash (.dynamic_keymap_set_buffer offset size data) := by
  have hend := keys_end cfg
  have hend' := encoders_end cfg
  unfold dynamic_keymap_set_buffer nvm_dynamic_keymap_update_buffer
  apply Keymap.ext
  · funext l r c
    by_cases hr : KeyInRange cfg l r c
    · have hlt := keyOffset_lt hr
      simp only [keymapOf, Keymap.step, hr, if_true, keys_of_eq hr]
      rw [read_word_eq, read_word_eq, highByte_join, lowByte_join, Nat.add_assoc,
        update_region_overlay (by omega), update_region_overlay (by omega)]
    · simp [keymapOf, Keymap.step, hr, dynamic_keymap_get_keycode, nvm_dynamic_keymap_read_keycode]
  · apply encoders_congr (e := e)
    intro a ha _
    rw [update_region_apply, if_neg (by omega)]
  · apply macros_congr (e := e)
    intro a ha
    rw [update_region_apply, if_neg (by omega)]

theorem macro_set_buffer_tables (flash : Flash) (offset size : UInt16) (data : Nat → UInt8)
    (e : Eeprom) : keymapOf cfg (dynamic_keymap_macro_set_buffer cfg offset size data e) =
      (keymapOf cfg e).step cfg flash (.dynamic_keymap_macro_set_buffer offset size data) := by
  have hend' := encoders_end cfg
  unfold dynamic_keymap_macro_set_buffer nvm_dynamic_keymap_macro_update_buffer
  apply Keymap.ext
  · apply keys_congr (e := e)
    intro a _ ha
    rw [update_region_apply, if_neg (by omega)]
  · apply encoders_congr (e := e)
    intro a _ ha
    rw [update_region_apply, if_neg (by omega)]
  · funext i
    by_cases hi : i < cfg.DYNAMIC_KEYMAP_MACRO_EEPROM_SIZE
    · simp only [keymapOf, Keymap.step, if_pos hi]
      rw [update_region_overlay hi]
    · simp [keymapOf, Keymap.step, hi]

theorem macro_reset_tables (flash : Flash) (e : Eeprom) :
    keymapOf cfg (dynamic_keymap_macro_reset cfg e) =
      (keymapOf cfg e).step cfg flash .dynamic_keymap_macro_reset := by
  have hend' := encoders_end cfg
  apply Keymap.ext
  · apply keys_congr (e := e)
    intro a _ ha
    rw [macro_reset_apply, if_neg (by omega)]
  · apply encoders_congr (e := e)
    intro a _ ha
    rw [macro_reset_apply, if_neg (by omega)]
  · funext i
    simp only [keymapOf, Keymap.step]
    by_cases hi : i < cfg.DYNAMIC_KEYMAP_MACRO_EEPROM_SIZE
    · rw [if_pos hi, macro_reset_apply, if_pos (by omega)]
    · rw [if_neg hi]

end

/-! ## The reset -/

section

variable {cfg : Config} (flash : Flash)

theorem toUInt8_eq_iff {n : Nat} (h : n ≤ 255) (x : UInt8) : x = n.toUInt8 ↔ n = x.toNat := by
  rw [← UInt8.toNat_inj, UInt8.toNat_ofNat']
  omega

variable {layer : Nat}

theorem set_keycode_keys {row column : Nat} (hl : layer < cfg.DYNAMIC_KEYMAP_LAYER_COUNT)
    (hr : row < cfg.MATRIX_ROWS) (hc : column < cfg.MATRIX_COLS) (l r c : UInt8) (e : Eeprom) :
    dynamic_keymap_get_keycode cfg l r c (dynamic_keymap_set_keycode cfg layer.toUInt8 row.toUInt8
      column.toUInt8 (flash.keymap layer row column) e) =
      if layer = l.toNat ∧ row = r.toNat ∧ column = c.toNat then
        flash.keymap l.toNat r.toNat c.toNat
      else dynamic_keymap_get_keycode cfg l r c e := by
  have := cfg.layers_le
  have := cfg.rows_le
  have := cfg.cols_le
  have hin : KeyInRange cfg layer.toUInt8 row.toUInt8 column.toUInt8 := by
    unfold KeyInRange
    simp only [Nat.toUInt8, UInt8.toNat_ofNat']
    omega
  have htables := congrFun (congrFun (congrFun (congrArg Keymap.keys
    (set_keycode_tables cfg flash layer.toUInt8 row.toUInt8 column.toUInt8
      (flash.keymap layer row column) e)) l) r) c
  simp only [keymapOf, Keymap.step, hin, true_and, toUInt8_eq_iff (show layer ≤ 255 by omega),
    toUInt8_eq_iff (show row ≤ 255 by omega),
    toUInt8_eq_iff (show column ≤ 255 by omega)] at htables
  rw [htables]
  split
  · rename_i h
    rw [h.1, h.2.1, h.2.2]
  · rfl

include flash in
theorem set_encoder_keys (l r c layer encoder_id : UInt8) (clockwise : Bool) (keycode : UInt16)
    (e : Eeprom) : dynamic_keymap_get_keycode cfg l r c
      (dynamic_keymap_set_encoder cfg layer encoder_id clockwise keycode e) =
        dynamic_keymap_get_keycode cfg l r c e := by
  have htables := congrArg Keymap.keys
    (set_encoder_tables cfg flash layer encoder_id clockwise keycode e)
  exact congrFun (congrFun (congrFun htables l) r) c

include flash in
theorem set_keycode_encoders (l i : UInt8) (d : Bool) (layer row column : UInt8)
    (keycode : UInt16) (e : Eeprom) : dynamic_keymap_get_encoder cfg l i d
      (dynamic_keymap_set_keycode cfg layer row column keycode e) =
        dynamic_keymap_get_encoder cfg l i d e := by
  have htables := congrArg Keymap.encoders
    (set_keycode_tables cfg flash layer row column keycode e)
  exact congrFun (congrFun (congrFun htables l) i) d

theorem set_encoder_encoders {encoder : Nat} (hl : layer < cfg.DYNAMIC_KEYMAP_LAYER_COUNT)
    (he : encoder < cfg.NUM_ENCODERS) (clockwise : Bool) (l i : UInt8) (d : Bool) (e : Eeprom) :
    dynamic_keymap_get_encoder cfg l i d (dynamic_keymap_set_encoder cfg layer.toUInt8
      encoder.toUInt8 clockwise (flash.encodermap layer encoder clockwise) e) =
      if layer = l.toNat ∧ encoder = i.toNat ∧ d = clockwise then
        flash.encodermap l.toNat i.toNat d
      else dynamic_keymap_get_encoder cfg l i d e := by
  have := cfg.layers_le
  have := cfg.encoders_le
  have hin : EncoderInRange cfg layer.toUInt8 encoder.toUInt8 := by
    unfold EncoderInRange
    simp only [Nat.toUInt8, UInt8.toNat_ofNat']
    omega
  have htables := congrFun (congrFun (congrFun (congrArg Keymap.encoders
    (set_encoder_tables cfg flash layer.toUInt8 encoder.toUInt8 clockwise
      (flash.encodermap layer encoder clockwise) e)) l) i) d
  simp only [keymapOf, Keymap.step, hin, true_and, toUInt8_eq_iff (show layer ≤ 255 by omega),
    toUInt8_eq_iff (show encoder ≤ 255 by omega)] at htables
  rw [htables]
  split
  · rename_i h
    rw [h.1, h.2.1, h.2.2]
  · rfl

/-- The two loops of a layer. -/
theorem reset_layer_keys (hl : layer < cfg.DYNAMIC_KEYMAP_LAYER_COUNT) {l r c : UInt8}
    (h : KeyInRange cfg l r c) (e : Eeprom) :
    dynamic_keymap_get_keycode cfg l r c (dynamic_keymap_reset_layer cfg flash e layer) =
      if layer = l.toNat then flash.keymap l.toNat r.toNat c.toNat
      else dynamic_keymap_get_keycode cfg l r c e := by
  refine (foldl_miss (dynamic_keymap_get_keycode cfg l r c) ?_ _).trans ?_
  · intro s encoder _
    rw [set_encoder_keys flash, set_encoder_keys flash]
  have hset := fun row (hr : row ∈ List.range cfg.MATRIX_ROWS) column
    (hc : column ∈ List.range cfg.MATRIX_COLS) e => set_keycode_keys flash hl
    (List.mem_range.mp hr) (List.mem_range.mp hc) l r c e
  split
  · rename_i heq
    apply foldl_hit (dynamic_keymap_get_keycode cfg l r c) (fun row => row = r.toNat)
    · intro s row hr heq'
      apply foldl_hit (dynamic_keymap_get_keycode cfg l r c)
        (fun column => column = c.toNat)
      · intro s column hc heq''
        rw [hset row hr column hc, if_pos ⟨heq, heq', heq''⟩]
      · intro s column hc hne
        rw [hset row hr column hc, if_neg fun h => hne h.2.2]
      · exact ⟨c.toNat, List.mem_range.mpr h.2.2, rfl⟩
    · intro s row hr hne
      apply foldl_miss (dynamic_keymap_get_keycode cfg l r c)
      intro s column hc
      rw [hset row hr column hc, if_neg fun h => hne h.2.1]
    · exact ⟨r.toNat, List.mem_range.mpr h.2.1, rfl⟩
  · rename_i hne
    apply foldl_miss (dynamic_keymap_get_keycode cfg l r c)
    intro s row hr
    apply foldl_miss (dynamic_keymap_get_keycode cfg l r c)
    intro s column hc
    rw [hset row hr column hc, if_neg fun h => hne h.1]

theorem reset_layer_encoders (hl : layer < cfg.DYNAMIC_KEYMAP_LAYER_COUNT) {l i : UInt8}
    (h : EncoderInRange cfg l i) (d : Bool) (e : Eeprom) :
    dynamic_keymap_get_encoder cfg l i d (dynamic_keymap_reset_layer cfg flash e layer) =
      if layer = l.toNat then flash.encodermap l.toNat i.toNat d
      else dynamic_keymap_get_encoder cfg l i d e := by
  have hset := fun encoder (he : encoder ∈ List.range cfg.NUM_ENCODERS) clockwise e =>
    set_encoder_encoders flash hl (List.mem_range.mp he) clockwise l i d e
  split
  · rename_i heq
    apply foldl_hit (dynamic_keymap_get_encoder cfg l i d)
      (fun encoder => encoder = i.toNat)
    · intro s encoder he heq'
      rw [hset encoder he false, hset encoder he true]
      cases d <;> simp [heq, heq']
    · intro s encoder he hne
      rw [hset encoder he false, hset encoder he true, if_neg fun h => hne h.2.1,
        if_neg fun h => hne h.2.1]
    · exact ⟨i.toNat, List.mem_range.mpr h.2, rfl⟩
  · rename_i hne
    refine (foldl_miss (dynamic_keymap_get_encoder cfg l i d) ?_ _).trans ?_
    · intro s encoder he
      rw [hset encoder he false, hset encoder he true, if_neg fun h => hne h.1,
        if_neg fun h => hne h.1]
    · apply foldl_miss (dynamic_keymap_get_encoder cfg l i d)
      intro s row _
      apply foldl_miss (dynamic_keymap_get_encoder cfg l i d)
      intro s column _
      exact set_keycode_encoders flash l i d _ _ _ _ s

theorem reset_layer_macros (e : Eeprom) (layer : Nat) :
    (keymapOf cfg (dynamic_keymap_reset_layer cfg flash e layer)).macros =
      (keymapOf cfg e).macros := by
  have hkeycode := fun (layer row column : UInt8) (keycode : UInt16) (e : Eeprom) =>
    congrArg Keymap.macros (set_keycode_tables cfg flash layer row column keycode e)
  have hencoder := fun (layer encoder_id : UInt8) (d : Bool) (keycode : UInt16) (e : Eeprom) =>
    congrArg Keymap.macros (set_encoder_tables cfg flash layer encoder_id d keycode e)
  refine (foldl_miss (fun e => (keymapOf cfg e).macros) ?_ _).trans ?_
  · intro s encoder _
    exact (hencoder _ _ _ _ _).trans (hencoder _ _ _ _ _)
  · apply foldl_miss (fun e => (keymapOf cfg e).macros)
    intro s row _
    apply foldl_miss (fun e => (keymapOf cfg e).macros)
    intro s column _
    exact hkeycode _ _ _ _ _

theorem reset_tables (e : Eeprom) : keymapOf cfg (dynamic_keymap_reset cfg flash e) =
    (keymapOf cfg e).step cfg flash .dynamic_keymap_reset := by
  apply Keymap.ext
  · funext l r c
    by_cases h : KeyInRange cfg l r c
    · simp only [Keymap.step, h, if_true]
      apply foldl_hit (dynamic_keymap_get_keycode cfg l r c)
        (fun layer => layer = l.toNat)
      · intro s layer hl heq
        rw [reset_layer_keys flash (List.mem_range.mp hl) h, if_pos heq]
      · intro s layer hl hne
        rw [reset_layer_keys flash (List.mem_range.mp hl) h, if_neg hne]
      · exact ⟨l.toNat, List.mem_range.mpr h.1, rfl⟩
    · simp [keymapOf, Keymap.step, h, dynamic_keymap_get_keycode, nvm_dynamic_keymap_read_keycode]
  · funext l i d
    by_cases h : EncoderInRange cfg l i
    · simp only [Keymap.step, h, if_true]
      apply foldl_hit (dynamic_keymap_get_encoder cfg l i d)
        (fun layer => layer = l.toNat)
      · intro s layer hl heq
        rw [reset_layer_encoders flash (List.mem_range.mp hl) h, if_pos heq]
      · intro s layer hl hne
        rw [reset_layer_encoders flash (List.mem_range.mp hl) h, if_neg hne]
      · exact ⟨l.toNat, List.mem_range.mpr h.1, rfl⟩
    · simp [keymapOf, Keymap.step, h, dynamic_keymap_get_encoder, nvm_dynamic_keymap_read_encoder]
  · apply foldl_miss (fun e => (keymapOf cfg e).macros)
    intro s layer _
    exact reset_layer_macros flash s layer

theorem run_tables (e : Eeprom) (op : Op) :
    keymapOf cfg (op.run cfg flash e) = (keymapOf cfg e).step cfg flash op := by
  cases op with
  | dynamic_keymap_set_keycode layer row column keycode =>
    exact set_keycode_tables cfg flash layer row column keycode e
  | dynamic_keymap_set_encoder layer encoder_id clockwise keycode =>
    exact set_encoder_tables cfg flash layer encoder_id clockwise keycode e
  | dynamic_keymap_set_buffer offset size data => exact set_buffer_tables flash offset size data e
  | dynamic_keymap_macro_set_buffer offset size data =>
    exact macro_set_buffer_tables flash offset size data e
  | dynamic_keymap_reset => exact reset_tables flash e
  | dynamic_keymap_macro_reset => exact macro_reset_tables flash e

end

/-! ## The two views -/

/-- A key by its index is the two bytes at its offset of every buffer that
has them, the high byte first. There is no key out of range. -/
def ViewsAgree (cfg : Config) (e : Eeprom) : Prop :=
  ∀ layer row column,
    let keycode := dynamic_keymap_get_keycode cfg layer row column e
    (KeyInRange cfg layer row column → ∀ offset size : UInt16, ∀ i,
      offset.toNat + i = keyOffset cfg layer row column → i + 1 < size.toNat →
        (dynamic_keymap_get_buffer cfg offset size e)[i]? = some (keycode >>> 8).toUInt8 ∧
          (dynamic_keymap_get_buffer cfg offset size e)[i + 1]? =
            some (keycode &&& 0xFF).toUInt8) ∧
      (¬ KeyInRange cfg layer row column → keycode = KC_NO)

theorem views_agree (cfg : Config) (e : Eeprom) : ViewsAgree cfg e := by
  intro layer row column
  constructor
  · intro hr offset size i hplace hsize
    have hlt := keyOffset_lt hr
    unfold dynamic_keymap_get_buffer nvm_dynamic_keymap_read_buffer
    rw [read_region_getElem? _ _ _ _ _ (by omega), read_region_getElem? _ _ _ _ _ hsize,
      if_pos (by omega), if_pos (by omega), keys_of_eq hr e, read_word_eq]
    constructor
    · rw [Nat.add_assoc, hplace]
      exact congrArg some (highByte_join _ _).symm
    · rw [show cfg.DYNAMIC_KEYMAP_EEPROM_ADDR + offset.toNat + (i + 1) =
        cfg.DYNAMIC_KEYMAP_EEPROM_ADDR + keyOffset cfg layer row column + 1 by omega]
      exact congrArg some (lowByte_join _ _).symm
  · intro hr
    exact if_neg hr

/-! ## The frame -/

def KeymapByte (cfg : Config) (a : Nat) : Prop :=
  cfg.DYNAMIC_KEYMAP_EEPROM_ADDR ≤ a ∧ a < cfg.DYNAMIC_KEYMAP_ENCODER_EEPROM_ADDR

def EncoderByte (cfg : Config) (a : Nat) : Prop :=
  cfg.DYNAMIC_KEYMAP_ENCODER_EEPROM_ADDR ≤ a ∧ a < cfg.DYNAMIC_KEYMAP_MACRO_EEPROM_ADDR

def MacroByte (cfg : Config) (a : Nat) : Prop :=
  cfg.DYNAMIC_KEYMAP_MACRO_EEPROM_ADDR ≤ a ∧ a ≤ cfg.DYNAMIC_KEYMAP_EEPROM_MAX_ADDR

def Outside (cfg : Config) (a : Nat) : Prop :=
  ¬ KeymapByte cfg a ∧ ¬ EncoderByte cfg a ∧ ¬ MacroByte cfg a

/-- The indices of a call. -/
def Op.InRange (cfg : Config) : Op → Prop
  | .dynamic_keymap_set_keycode layer row column _ => KeyInRange cfg layer row column
  | .dynamic_keymap_set_encoder layer encoder_id _ _ => EncoderInRange cfg layer encoder_id
  | _ => True

section

variable {cfg : Config} {a : Nat}

theorem set_keycode_frame (h : ¬ KeymapByte cfg a) (layer row column : UInt8) (keycode : UInt16)
    (e : Eeprom) : dynamic_keymap_set_keycode cfg layer row column keycode e a = e a := by
  have hend := keys_end cfg
  unfold KeymapByte at h
  unfold dynamic_keymap_set_keycode nvm_dynamic_keymap_update_keycode
  split
  · rename_i hr
    have hlt := keyOffset_lt hr
    rw [key_address, update_word_apply, if_neg (by omega), if_neg (by omega)]
  · rfl

theorem set_encoder_frame (h : ¬ EncoderByte cfg a) (layer encoder_id : UInt8) (clockwise : Bool)
    (keycode : UInt16) (e : Eeprom) :
    dynamic_keymap_set_encoder cfg layer encoder_id clockwise keycode e a = e a := by
  have hend := encoders_end cfg
  unfold EncoderByte at h
  unfold dynamic_keymap_set_encoder nvm_dynamic_keymap_update_encoder
  split
  · rename_i hr
    have hlt := encoderOffset_lt hr clockwise
    rw [encoder_address, update_word_apply, if_neg (by omega), if_neg (by omega)]
  · rfl

theorem set_buffer_frame (h : ¬ KeymapByte cfg a) (offset size : UInt16) (data : Nat → UInt8)
    (e : Eeprom) : dynamic_keymap_set_buffer cfg offset size data e a = e a := by
  have hend := keys_end cfg
  unfold KeymapByte at h
  exact (update_region_apply ..).trans (if_neg (by omega))

theorem macro_set_buffer_frame (h : ¬ MacroByte cfg a) (offset size : UInt16)
    (data : Nat → UInt8) (e : Eeprom) :
    dynamic_keymap_macro_set_buffer cfg offset size data e a = e a := by
  have hend := macros_end cfg
  unfold MacroByte at h
  exact (update_region_apply ..).trans (if_neg (by omega))

theorem reset_frame (h : ¬ KeymapByte cfg a) (h' : ¬ EncoderByte cfg a) (flash : Flash)
    (e : Eeprom) : dynamic_keymap_reset cfg flash e a = e a := by
  apply foldl_miss fun e : Eeprom => e a
  intro s layer _
  refine (foldl_miss (fun e : Eeprom => e a) ?_ _).trans ?_
  · intro s encoder _
    rw [set_encoder_frame h', set_encoder_frame h']
  · apply foldl_miss fun e : Eeprom => e a
    intro s row _
    apply foldl_miss fun e : Eeprom => e a
    intro s column _
    exact set_keycode_frame h _ _ _ _ s

theorem macro_reset_frame (h : ¬ MacroByte cfg a) (e : Eeprom) :
    dynamic_keymap_macro_reset cfg e a = e a := by
  have hend := macros_end cfg
  unfold MacroByte at h
  exact (macro_reset_apply ..).trans (if_neg (by omega))

theorem run_outside (h : Outside cfg a) (flash : Flash) (e : Eeprom) (op : Op) :
    op.run cfg flash e a = e a := by
  obtain ⟨hkeys, hencoders, hmacros⟩ := h
  cases op with
  | dynamic_keymap_set_keycode layer row column keycode =>
    exact set_keycode_frame hkeys layer row column keycode e
  | dynamic_keymap_set_encoder layer encoder_id clockwise keycode =>
    exact set_encoder_frame hencoders layer encoder_id clockwise keycode e
  | dynamic_keymap_set_buffer offset size data => exact set_buffer_frame hkeys offset size data e
  | dynamic_keymap_macro_set_buffer offset size data =>
    exact macro_set_buffer_frame hmacros offset size data e
  | dynamic_keymap_reset => exact reset_frame hkeys hencoders flash e
  | dynamic_keymap_macro_reset => exact macro_reset_frame hmacros e

end

structure Refines (cfg : Config) (flash : Flash) (e : Eeprom) (op : Op) : Prop where
  tables : keymapOf cfg (op.run cfg flash e) = (keymapOf cfg e).step cfg flash op
  views : ViewsAgree cfg (op.run cfg flash e)
  outside : ∀ a, Outside cfg a → op.run cfg flash e a = e a
  out_of_range : ¬ op.InRange cfg → op.run cfg flash e = e

theorem run_refines (cfg : Config) (flash : Flash) (e : Eeprom) (op : Op) :
    Refines cfg flash e op where
  tables := run_tables flash e op
  views := views_agree cfg _
  outside := fun _ h => run_outside h flash e op
  out_of_range := by
    intro h
    cases op with
    | dynamic_keymap_set_keycode layer row column keycode => exact if_neg h
    | dynamic_keymap_set_encoder layer encoder_id clockwise keycode => exact if_neg h
    | dynamic_keymap_set_buffer offset size data => exact absurd trivial h
    | dynamic_keymap_macro_set_buffer offset size data => exact absurd trivial h
    | dynamic_keymap_reset => exact absurd trivial h
    | dynamic_keymap_macro_reset => exact absurd trivial h

/-- Over every run of calls the keymap is three tables that do not touch, and
its two views agree. -/
theorem the_views_of_a_keymap_agree (cfg : Config) (flash : Flash) (e : Eeprom) (ops : List Op) :
    ViewsAgree cfg e ∧
      Along (fun e op => op.run cfg flash e) (fun e op => Refines cfg flash e op) e ops := by
  constructor
  · exact views_agree cfg e
  · apply Along.of_forall
    intro e op
    exact run_refines cfg flash e op

end keychron_qmk.dynamic_keymap
