-- How a Unicode character is typed, after `unicode.c`: hexadecimal digits without
-- leading zeros, but four at least, between what starts and what finishes the
-- input. A string is typed character by character.
import KeychronQMK.Unicode.Utf8
import Mathlib.Tactic.Ring

namespace keychron_qmk.unicode

/-! ## Typing -/

def UNICODE_MODE_MACOS : UInt8 := 0

def UNICODE_MODE_WINDOWS : UInt8 := 2

def UNICODE_MODE_WINCOMPOSE : UInt8 := 4

def KC_A : UInt8 := 0x04

def KC_KP_1 : UInt8 := 0x59

/-- What is typed for a digit: a character of the tables of `send_char`, or a key. -/
inductive Digit
  | send_char (ascii_code : UInt8)
  | tap_code (keycode : UInt8)
  deriving DecidableEq

inductive Call
  | unicode_input_start
  | digit (d : Digit)
  | unicode_input_finish
  deriving DecidableEq

/-- `'0'` is 48 and `'a'` is 97. -/
def send_nibble (number : UInt8) : Digit :=
  if number &&& 0xF ≤ 9 then .send_char (number + 48) else .send_char (number - 10 + 97)

section

variable (input_mode : UInt8)

def send_nibble_wrapper (digit : UInt8) : Digit :=
  if input_mode = UNICODE_MODE_WINDOWS then
    .tap_code (if digit < 10 then KC_KP_1 + (10 + digit - 1) % 10 else KC_A + (digit - 10))
  else send_nibble digit

def nibble (hex : UInt32) (i : Nat) : UInt8 := .ofNat (hex.toNat >>> (i * 4) &&& 0xF)

def hex_from (hex : UInt32) : Nat → Bool → List Digit
  | 0, _ => []
  | i + 1, first_digit =>
    let digit := nibble hex i
    let zero :=
      if first_digit && input_mode = UNICODE_MODE_WINCOMPOSE && digit > 9 then
        [send_nibble_wrapper input_mode 0]
      else []
    if digit ≠ 0 ∨ first_digit = false ∨ i < 4 then
      zero ++ send_nibble_wrapper input_mode digit :: hex_from hex i false
    else zero ++ hex_from hex i first_digit

def register_hex32 (hex : UInt32) : List Digit := hex_from input_mode hex 8 true

def register_unicode (code_point : UInt32) : List Call :=
  if code_point > 0x10FFFF ∨ (code_point > 0xFFFF ∧ input_mode = UNICODE_MODE_WINDOWS) then []
  else
    let digits :=
      if code_point > 0xFFFF ∧ input_mode = UNICODE_MODE_MACOS then
        let code_point := code_point - 0x10000
        let lo := code_point &&& 0x3FF
        let hi := (code_point &&& 0xFFC00) >>> 10
        register_hex32 input_mode (hi + 0xD800) ++ register_hex32 input_mode (lo + 0xDC00)
      else register_hex32 input_mode code_point
    .unicode_input_start :: digits.map .digit ++ [.unicode_input_finish]

end

/-! ## Reading -/

def Digit.value : Digit → Option Nat
  | .send_char c =>
    if 48 ≤ c ∧ c ≤ 57 then some (c.toNat - 48)
    else if 97 ≤ c ∧ c ≤ 102 then some (c.toNat - 87)
    else none
  | .tap_code kc =>
    if KC_KP_1 ≤ kc ∧ kc ≤ KC_KP_1 + 8 then some (kc.toNat - 0x58)
    else if kc = KC_KP_1 + 9 then some 0
    else if KC_A ≤ kc ∧ kc ≤ KC_A + 5 then some (kc.toNat + 6)
    else none

/-- The number that a group of digits denotes, after another number. -/
def denoteFrom : Nat → List Digit → Option Nat
  | n, [] => some n
  | n, d :: ds => d.value.bind fun k => denoteFrom (16 * n + k) ds

def denote (ds : List Digit) : Option Nat := denoteFrom 0 ds

/-! ## Digits -/

section

variable {input_mode : UInt8}

theorem value_of_digit {d : Nat} (h : d < 16) :
    (send_nibble_wrapper input_mode (.ofNat d)).value = some d := by
  unfold send_nibble_wrapper
  split
  · revert d
    decide
  · revert d
    decide

theorem nibble_eq (hex : UInt32) (i : Nat) :
    nibble hex i = .ofNat (hex.toNat / 16 ^ i % 16) := by
  change UInt8.ofNat (hex.toNat >>> (i * 4) &&& 2 ^ 4 - 1) = _
  rw [Nat.and_two_pow_sub_one_eq_mod, Nat.shiftRight_eq_div_pow, Nat.mul_comm, Nat.pow_mul]

theorem mod_pow_succ (n i : Nat) : n % 16 ^ (i + 1) = n / 16 ^ i % 16 * 16 ^ i + n % 16 ^ i := by
  rw [Nat.pow_succ, Nat.mod_mul]
  ring

theorem denote_rest (hex : UInt32) (i n : Nat) :
    denoteFrom n (hex_from input_mode hex i false) = some (n * 16 ^ i + hex.toNat % 16 ^ i) ∧
      (hex_from input_mode hex i false).length = i := by
  induction i generalizing n with
  | zero =>
    rw [Nat.pow_zero, Nat.mod_one, Nat.mul_one]
    exact ⟨rfl, rfl⟩
  | succ i ih =>
    have hdigit : hex.toNat / 16 ^ i % 16 < 16 := Nat.mod_lt _ (by decide)
    obtain ⟨hrest, hlength⟩ := ih (16 * n + hex.toNat / 16 ^ i % 16)
    unfold hex_from
    rw [nibble_eq]
    rw [if_pos (.inr (.inl rfl)), Bool.false_and, Bool.false_and, if_neg Bool.false_ne_true,
      List.nil_append]
    refine ⟨?_, congrArg (· + 1) hlength⟩
    rw [denoteFrom, value_of_digit hdigit, Option.bind_some, hrest, mod_pow_succ]
    congr 1
    ring

/-- The zero that WinCompose wants before a letter. -/
def leading (input_mode digit : UInt8) : List Digit :=
  if input_mode = UNICODE_MODE_WINCOMPOSE ∧ digit > 9 then [send_nibble_wrapper input_mode 0] else []

theorem hex_from_sends {hex : UInt32} {i : Nat} (h : nibble hex i ≠ 0 ∨ i < 4) :
    hex_from input_mode hex (i + 1) true = leading input_mode (nibble hex i) ++
      send_nibble_wrapper input_mode (nibble hex i) :: hex_from input_mode hex i false := by
  conv_lhs => unfold hex_from
  unfold leading
  rw [if_pos (h.imp_right .inr)]
  simp

theorem hex_from_skips {hex : UInt32} {i : Nat} (h : nibble hex i = 0) (hi : 4 ≤ i) :
    hex_from input_mode hex (i + 1) true = hex_from input_mode hex i true := by
  conv_lhs => unfold hex_from
  rw [h, if_neg (by simpa using hi), if_neg (by simp), List.nil_append]

theorem decimal_of_sends (hex : UInt32) (i : Nat) (rest : List Digit) :
    ∃ d ds k, leading UNICODE_MODE_WINCOMPOSE (nibble hex i) ++
        send_nibble_wrapper UNICODE_MODE_WINCOMPOSE (nibble hex i) :: rest = d :: ds ∧
      d.value = some k ∧ k ≤ 9 := by
  have hdigit : hex.toNat / 16 ^ i % 16 < 16 := Nat.mod_lt _ (by decide)
  unfold leading
  by_cases hletter : nibble hex i > 9
  · rw [if_pos ⟨rfl, hletter⟩]
    exact ⟨_, _, 0, rfl, value_of_digit (by decide : 0 < 16), by decide⟩
  · rw [if_neg fun h => hletter h.2, nibble_eq]
    refine ⟨_, _, _, rfl, value_of_digit hdigit, ?_⟩
    rw [nibble_eq, gt_iff_lt, UInt8.lt_iff_toNat_lt, UInt8.toNat_ofNat'] at hletter
    change ¬ 9 < _ at hletter
    omega

/-- The digits of a number, with four at least. -/
theorem denote_hex (hex : UInt32) (i : Nat) :
    denote (hex_from input_mode hex i true) = some (hex.toNat % 16 ^ i) ∧
      min i 4 ≤ (hex_from input_mode hex i true).length := by
  induction i with
  | zero =>
    rw [Nat.pow_zero, Nat.mod_one]
    exact ⟨rfl, Nat.zero_le _⟩
  | succ i ih =>
    have hdigit : hex.toNat / 16 ^ i % 16 < 16 := Nat.mod_lt _ (by decide)
    by_cases hsends : nibble hex i ≠ 0 ∨ i < 4
    · obtain ⟨hrest, hlength⟩ := @denote_rest input_mode hex i (hex.toNat / 16 ^ i % 16)
      have hdenote : denoteFrom 0 (send_nibble_wrapper input_mode (nibble hex i) ::
          hex_from input_mode hex i false) = some (hex.toNat % 16 ^ (i + 1)) := by
        rw [denoteFrom, nibble_eq, value_of_digit hdigit, Option.bind_some, Nat.mul_zero,
          Nat.zero_add, hrest, mod_pow_succ]
      have hzero : (send_nibble_wrapper input_mode 0).value = some 0 :=
        value_of_digit (by decide : 0 < 16)
      rw [hex_from_sends hsends]
      unfold leading denote
      split
      · refine ⟨?_, ?_⟩
        · rw [List.singleton_append, denoteFrom, hzero, Option.bind_some]
          exact hdenote
        · rw [List.length_append, List.length_cons, List.length_cons, hlength]
          omega
      · refine ⟨hdenote, ?_⟩
        rw [List.nil_append, List.length_cons, hlength]
        omega
    · rw [not_or, not_not] at hsends
      have hi : 4 ≤ i := Nat.le_of_not_lt hsends.2
      have hdigit0 : hex.toNat / 16 ^ i % 16 = 0 := by
        have hzero := hsends.1
        rw [nibble_eq] at hzero
        replace hzero := congrArg UInt8.toNat hzero
        rw [UInt8.toNat_ofNat'] at hzero
        change _ = 0 at hzero
        omega
      rw [hex_from_skips hsends.1 hi, mod_pow_succ, hdigit0, Nat.zero_mul, Nat.zero_add]
      exact ⟨ih.1, by omega⟩

theorem decimal_first (hex : UInt32) (i : Nat) :
    ∃ d ds k, hex_from UNICODE_MODE_WINCOMPOSE hex (i + 1) true = d :: ds ∧ d.value = some k ∧
      k ≤ 9 := by
  induction i with
  | zero =>
    rw [hex_from_sends (.inr (by decide))]
    exact decimal_of_sends hex 0 _
  | succ i ih =>
    by_cases hsends : nibble hex (i + 1) ≠ 0 ∨ i + 1 < 4
    · rw [hex_from_sends hsends]
      exact decimal_of_sends hex (i + 1) _
    · rw [not_or, not_not] at hsends
      rw [hex_from_skips hsends.1 (Nat.le_of_not_lt hsends.2)]
      exact ih

theorem length_hex (hex : UInt32) (h : hex.toNat < 0x10000)
    (hmode : input_mode ≠ UNICODE_MODE_WINCOMPOSE) :
    (register_hex32 input_mode hex).length = 4 := by
  have hskip : ∀ i, 4 ≤ i →
      hex_from input_mode hex (i + 1) true = hex_from input_mode hex i true := by
    intro i hi
    refine hex_from_skips ?_ hi
    have hpow : 16 ^ 4 ≤ 16 ^ i := Nat.pow_le_pow_right (by decide) hi
    have hlt : hex.toNat < 16 ^ i := Nat.lt_of_lt_of_le h hpow
    rw [nibble_eq, Nat.div_eq_of_lt hlt]
    rfl
  unfold register_hex32
  rw [hskip 7 (by decide), hskip 6 (by decide), hskip 5 (by decide), hskip 4 (by decide),
    hex_from_sends (.inr (by decide))]
  unfold leading
  rw [if_neg fun h => hmode h.1, List.nil_append, List.length_cons, (denote_rest hex 3 0).2]

end

/-! ## Characters -/

def Denotes (input_mode : UInt8) (c : Char) (calls : List Call) : Prop :=
  if 0xFFFF < c.toNat ∧ input_mode = UNICODE_MODE_WINDOWS then calls = []
  else if 0xFFFF < c.toNat ∧ input_mode = UNICODE_MODE_MACOS then
    ∃ ds ds' hi lo, calls = .unicode_input_start :: (ds ++ ds').map .digit ++ [.unicode_input_finish] ∧
      ds.length = 4 ∧ ds'.length = 4 ∧ denote ds = some hi ∧ denote ds' = some lo ∧
      (0xD800 ≤ hi ∧ hi ≤ 0xDBFF) ∧ (0xDC00 ≤ lo ∧ lo ≤ 0xDFFF) ∧
      c.toNat = 0x10000 + (hi - 0xD800) * 0x400 + (lo - 0xDC00)
  else
    ∃ ds, calls = .unicode_input_start :: ds.map .digit ++ [.unicode_input_finish] ∧
      4 ≤ ds.length ∧ denote ds = some c.toNat ∧ (input_mode = UNICODE_MODE_WINCOMPOSE →
        ∃ d rest k, ds = d :: rest ∧ d.value = some k ∧ k ≤ 9)

/-- The bytes lie in the memory from a place on. -/
def Holds (mem : Nat → UInt8) (str : Nat) (bytes : List UInt8) : Prop :=
  ∀ i b, bytes[i]? = some b → mem (str + i) = b

theorem char_range (c : Char) : c.toNat < 0xD800 ∨ 0xDFFF < c.toNat ∧ c.toNat < 0x110000 := c.valid

theorem denotes_register_unicode (input_mode : UInt8) (c : Char) :
    Denotes input_mode c (register_unicode input_mode c.val) := by
  have hrange := char_range c
  have hvalue : c.val.toNat = c.toNat := rfl
  have hlarge : c.val > 0xFFFF ↔ 0xFFFF < c.toNat := UInt32.lt_iff_toNat_lt
  have hmax : ¬ c.val > 0x10FFFF := by
    change ¬ 0x10FFFF < c.toNat
    omega
  unfold Denotes register_unicode
  simp only [hmax, hlarge, false_or]
  split
  · rfl
  · split
    · rename_i hmac
      obtain ⟨hlt, hmode⟩ := hmac
      have hsub : (c.val - 0x10000).toNat = c.toNat - 0x10000 := by
        rw [UInt32.toNat_sub_of_le _ _ (by
          change 0x10000 ≤ c.toNat
          omega)]
        rfl
      have hlo : ((c.val - 0x10000) &&& 0x3FF).toNat = (c.toNat - 0x10000) % 1024 := by
        rw [UInt32.toNat_and, hsub]
        exact Nat.and_two_pow_sub_one_eq_mod _ 10
      have hhi : (((c.val - 0x10000) &&& 0xFFC00) >>> 10).toNat = (c.toNat - 0x10000) / 1024 := by
        rw [UInt32.toNat_shiftRight, UInt32.toNat_and, hsub]
        rw [Nat.shiftRight_and_distrib]
        change (c.toNat - 0x10000) >>> 10 &&& 2 ^ 10 - 1 = _
        rw [Nat.and_two_pow_sub_one_eq_mod, Nat.shiftRight_eq_div_pow]
        omega
      have hlo' : (((c.val - 0x10000) &&& 0x3FF) + 0xDC00).toNat =
          (c.toNat - 0x10000) % 1024 + 0xDC00 := by
        rw [UInt32.toNat_add, hlo]
        change (_ + 0xDC00) % 2 ^ 32 = _
        omega
      have hhi' : ((((c.val - 0x10000) &&& 0xFFC00) >>> 10) + 0xD800).toNat =
          (c.toNat - 0x10000) / 1024 + 0xD800 := by
        rw [UInt32.toNat_add, hhi]
        change (_ + 0xD800) % 2 ^ 32 = _
        omega
      have hcompose : input_mode ≠ UNICODE_MODE_WINCOMPOSE := by
        rw [hmode]
        decide
      have hdenote : ∀ hex : UInt32, hex.toNat < 0x10000 →
          denote (register_hex32 input_mode hex) = some hex.toNat := by
        intro hex hhex
        rw [register_hex32, (denote_hex hex 8).1, Nat.mod_eq_of_lt (by omega)]
      exact ⟨_, _, _, _, rfl, length_hex _ (by omega) hcompose, length_hex _ (by omega) hcompose,
        hdenote _ (by omega), hdenote _ (by omega), by omega, by omega, by omega⟩
    · rename_i hsmall hmac
      obtain ⟨hdenote, hlength⟩ := @denote_hex input_mode c.val 8
      refine ⟨_, rfl, hlength, ?_, ?_⟩
      · rw [Nat.mod_eq_of_lt (by rw [hvalue]; omega)] at hdenote
        exact hdenote
      · rintro rfl
        exact decimal_first c.val 7

/-! ## Encodings -/

theorem shift_or {a b k : Nat} (h : b < 2 ^ k) : a <<< k ||| b = a * 2 ^ k + b := by
  rw [← Nat.shiftLeft_add_eq_or_of_lt h, Nat.shiftLeft_eq]

theorem or_three {a b c : Nat} (hb : b < 64) (hc : c < 64) :
    a <<< 12 ||| b <<< 6 ||| c = a * 4096 + b * 64 + c := by
  have hgroup : a <<< 12 ||| b <<< 6 = (a * 64 + b) <<< 6 := by
    rw [shift_or (by rw [Nat.shiftLeft_eq]; omega), Nat.shiftLeft_eq, Nat.shiftLeft_eq]
    ring
  rw [hgroup, shift_or hc]
  ring

theorem or_four {a b c d : Nat} (hb : b < 64) (hc : c < 64) (hd : d < 64) :
    a <<< 18 ||| b <<< 12 ||| c <<< 6 ||| d = a * 262144 + b * 4096 + c * 64 + d := by
  have hgroup : a <<< 18 ||| b <<< 12 = (a * 64 + b) <<< 12 := by
    rw [shift_or (by rw [Nat.shiftLeft_eq]; omega), Nat.shiftLeft_eq, Nat.shiftLeft_eq]
    ring
  rw [hgroup, or_three hc hd]
  ring

theorem lead_two : ∀ x < 32, ¬ UInt8.ofNat (x + 0xC0) < 0x80 ∧
    UInt8.ofNat (x + 0xC0) &&& 0xE0 = 0xC0 ∧ (UInt8.ofNat (x + 0xC0) &&& 0x1F).toNat = x := by
  decide

theorem lead_three : ∀ x < 16, ¬ UInt8.ofNat (x + 0xE0) < 0x80 ∧
    ¬ UInt8.ofNat (x + 0xE0) &&& 0xE0 = 0xC0 ∧ UInt8.ofNat (x + 0xE0) &&& 0xF0 = 0xE0 ∧
    (UInt8.ofNat (x + 0xE0) &&& 0x0F).toNat = x := by
  decide

theorem lead_four : ∀ x < 5, ¬ UInt8.ofNat (x + 0xF0) < 0x80 ∧
    ¬ UInt8.ofNat (x + 0xF0) &&& 0xE0 = 0xC0 ∧ ¬ UInt8.ofNat (x + 0xF0) &&& 0xF0 = 0xE0 ∧
    (UInt8.ofNat (x + 0xF0) &&& 0xF8 = 0xF0 ∧ UInt8.ofNat (x + 0xF0) ≤ 0xF4) ∧
    (UInt8.ofNat (x + 0xF0) &&& 0x07).toNat = x := by
  decide

theorem tail_bits : ∀ x < 64, (UInt8.ofNat (x + 0x80) &&& 0x3F).toNat = x := by
  decide

/-- What the decoder makes of the encoding of a character. -/
structure Decodes (mem : Nat → UInt8) (str : Nat) (c : Char) : Prop where
  code_point : (decode_bytes mem str).code_point = c.toNat
  length : announced (mem str) = (String.utf8EncodeChar c).length
  ne_zero : c.toNat ≠ 0 → mem str ≠ 0

section

variable {mem : Nat → UInt8} {str : Nat} {c : Char}

theorem decodes_one (hc : c.toNat ≤ 0x7F) (h : Holds mem str (String.utf8EncodeChar c)) :
    Decodes mem str c := by
  have hencode : String.utf8EncodeChar c = [.ofNat c.toNat] := if_pos hc
  rw [hencode] at h
  have h0 : mem str = .ofNat c.toNat := h 0 _ rfl
  have hbyte : (UInt8.ofNat c.toNat).toNat = c.toNat := by
    rw [UInt8.toNat_ofNat']
    omega
  have hsmall : UInt8.ofNat c.toNat < 0x80 := by
    rw [UInt8.lt_iff_toNat_lt, hbyte]
    change c.toNat < 0x80
    omega
  refine ⟨?_, ?_, fun hne hzero => hne ?_⟩
  · unfold decode_bytes
    rw [h0, if_pos hsmall, hbyte]
  · unfold announced
    rw [h0, if_pos hsmall, hencode]
    rfl
  · rw [h0] at hzero
    replace hzero := congrArg UInt8.toNat hzero
    rw [hbyte] at hzero
    exact hzero

theorem decodes_two (hlow : ¬ c.toNat ≤ 0x7F) (hc : c.toNat ≤ 0x7FF)
    (h : Holds mem str (String.utf8EncodeChar c)) : Decodes mem str c := by
  have hencode : String.utf8EncodeChar c =
      [.ofNat (c.toNat / 64 % 0x20 + 0xC0), .ofNat (c.toNat % 0x40 + 0x80)] :=
    (if_neg hlow).trans (if_pos hc)
  rw [hencode] at h
  have h0 : mem str = .ofNat (c.toNat / 64 % 0x20 + 0xC0) := h 0 _ rfl
  have h1 : mem (str + 1) = .ofNat (c.toNat % 0x40 + 0x80) := h 1 _ rfl
  obtain ⟨hone, htwo, hbits⟩ := lead_two (c.toNat / 64 % 0x20) (Nat.mod_lt _ (by decide))
  have hbits1 := tail_bits (c.toNat % 0x40) (Nat.mod_lt _ (by decide))
  refine ⟨?_, ?_, fun _ hzero => ?_⟩
  · unfold decode_bytes bits
    rw [h0, h1, if_neg hone, if_pos htwo, hbits, hbits1, Nat.shiftLeft_zero, shift_or (by omega)]
    change ((_ : Nat) : Int) = _
    congr 1
    omega
  · unfold announced
    rw [h0, if_neg hone, if_pos htwo, hencode]
    rfl
  · rw [← h0, hzero] at hone
    exact hone (by decide)

theorem decodes_three (hlow : ¬ c.toNat ≤ 0x7FF) (hc : c.toNat ≤ 0xFFFF)
    (h : Holds mem str (String.utf8EncodeChar c)) : Decodes mem str c := by
  have hlow' : ¬ c.toNat ≤ 0x7F := by omega
  have hencode : String.utf8EncodeChar c = [.ofNat (c.toNat / 4096 % 0x10 + 0xE0),
      .ofNat (c.toNat / 64 % 0x40 + 0x80), .ofNat (c.toNat % 0x40 + 0x80)] :=
    (if_neg hlow').trans ((if_neg hlow).trans (if_pos hc))
  rw [hencode] at h
  have h0 : mem str = .ofNat (c.toNat / 4096 % 0x10 + 0xE0) := h 0 _ rfl
  have h1 : mem (str + 1) = .ofNat (c.toNat / 64 % 0x40 + 0x80) := h 1 _ rfl
  have h2 : mem (str + 2) = .ofNat (c.toNat % 0x40 + 0x80) := h 2 _ rfl
  obtain ⟨hone, htwo, hthree, hbits⟩ :=
    lead_three (c.toNat / 4096 % 0x10) (Nat.mod_lt _ (by decide))
  have hbits1 := tail_bits (c.toNat / 64 % 0x40) (Nat.mod_lt _ (by decide))
  have hbits2 := tail_bits (c.toNat % 0x40) (Nat.mod_lt _ (by decide))
  refine ⟨?_, ?_, fun _ hzero => ?_⟩
  · unfold decode_bytes bits
    rw [h0, h1, h2, if_neg hone, if_neg htwo, if_pos hthree, hbits, hbits1, hbits2,
      Nat.shiftLeft_zero, or_three (by omega) (by omega)]
    change ((_ : Nat) : Int) = _
    congr 1
    omega
  · unfold announced
    rw [h0, if_neg hone, if_neg htwo, if_pos hthree, hencode]
    rfl
  · rw [← h0, hzero] at hone
    exact hone (by decide)

theorem decodes_four (hlow : ¬ c.toNat ≤ 0xFFFF) (h : Holds mem str (String.utf8EncodeChar c)) :
    Decodes mem str c := by
  have hrange := char_range c
  have hlow' : ¬ c.toNat ≤ 0x7FF := by omega
  have hlow'' : ¬ c.toNat ≤ 0x7F := by omega
  have hencode : String.utf8EncodeChar c = [.ofNat (c.toNat / 262144 % 0x08 + 0xF0),
      .ofNat (c.toNat / 4096 % 0x40 + 0x80), .ofNat (c.toNat / 64 % 0x40 + 0x80),
      .ofNat (c.toNat % 0x40 + 0x80)] :=
    (if_neg hlow'').trans ((if_neg hlow').trans (if_neg hlow))
  rw [hencode] at h
  have h0 : mem str = .ofNat (c.toNat / 262144 % 0x08 + 0xF0) := h 0 _ rfl
  have h1 : mem (str + 1) = .ofNat (c.toNat / 4096 % 0x40 + 0x80) := h 1 _ rfl
  have h2 : mem (str + 2) = .ofNat (c.toNat / 64 % 0x40 + 0x80) := h 2 _ rfl
  have h3 : mem (str + 3) = .ofNat (c.toNat % 0x40 + 0x80) := h 3 _ rfl
  obtain ⟨hone, htwo, hthree, hfour, hbits⟩ := lead_four (c.toNat / 262144 % 0x08) (by omega)
  have hbits1 := tail_bits (c.toNat / 4096 % 0x40) (Nat.mod_lt _ (by decide))
  have hbits2 := tail_bits (c.toNat / 64 % 0x40) (Nat.mod_lt _ (by decide))
  have hbits3 := tail_bits (c.toNat % 0x40) (Nat.mod_lt _ (by decide))
  refine ⟨?_, ?_, fun _ hzero => ?_⟩
  · unfold decode_bytes bits
    rw [h0, h1, h2, h3, if_neg hone, if_neg htwo, if_neg hthree, if_pos hfour, hbits, hbits1, hbits2,
      hbits3, Nat.shiftLeft_zero, or_four (by omega) (by omega) (by omega)]
    change ((_ : Nat) : Int) = _
    congr 1
    omega
  · unfold announced
    rw [h0, if_neg hone, if_neg htwo, if_neg hthree, if_pos hfour, hencode]
    rfl
  · rw [← h0, hzero] at hone
    exact hone (by decide)

theorem decodes (h : Holds mem str (String.utf8EncodeChar c)) : Decodes mem str c := by
  by_cases h1 : c.toNat ≤ 0x7F
  · exact decodes_one h1 h
  · by_cases h2 : c.toNat ≤ 0x7FF
    · exact decodes_two h1 h2 h
    · by_cases h3 : c.toNat ≤ 0xFFFF
      · exact decodes_three h2 h3 h
      · exact decodes_four h3 h

theorem code_point_of_decodes (h : Decodes mem str c) :
    (decode_utf8 mem str).code_point = c.toNat := by
  have hrange := char_range c
  unfold decode_utf8
  dsimp only
  rw [h.code_point, if_neg (by omega)]
  exact h.code_point

theorem Holds.append {bytes bytes' : List UInt8} (h : Holds mem str (bytes ++ bytes')) :
    Holds mem str bytes ∧ Holds mem (str + bytes.length) bytes' := by
  constructor
  · intro i b hb
    refine h i b ?_
    rw [List.getElem?_append_left (List.getElem?_eq_some_iff.mp hb).1]
    exact hb
  · intro i b hb
    rw [Nat.add_assoc]
    refine h (bytes.length + i) b ?_
    rw [List.getElem?_append_right (Nat.le_add_right _ _), Nat.add_sub_cancel_left]
    exact hb

end

theorem send_chars {mem : Nat → UInt8} {chars : List Char} {str : Nat} (h0 : ∀ c ∈ chars, c.toNat ≠ 0)
    (h : Holds mem str (chars.flatMap String.utf8EncodeChar ++ [0])) :
    ∃ sent, send_from mem (chars.length + 1) str = some sent ∧
      sent.code_points = chars.map (·.val) := by
  induction chars generalizing str with
  | nil =>
    refine ⟨⟨[], [str], some str⟩, ?_, rfl⟩
    exact if_pos (h 0 0 rfl)
  | cons c chars ih =>
    obtain ⟨hne, hrest⟩ := List.forall_mem_cons.mp h0
    rw [List.flatMap_cons, List.append_assoc] at h
    obtain ⟨hc, hchars⟩ := h.append
    have hdecodes := decodes hc
    obtain ⟨sent, hsent, hpoints⟩ := ih hrest hchars
    have hcode := code_point_of_decodes hdecodes
    rw [List.length_cons, send_turn (hdecodes.ne_zero hne), hdecodes.length, hsent]
    refine ⟨_, rfl, ?_⟩
    dsimp only
    rw [hcode, if_pos (Int.natCast_nonneg _), hpoints, List.map_cons, Int.toNat_natCast,
      List.singleton_append]
    exact congrArg (· :: _) UInt32.ofNat_toNat

/-- The UTF-8 encoding of characters without U+0000 is sent as these characters, and
each is typed as digits that denote it, in every mode that can express it. -/
theorem unicode_strings_are_typed (chars : List Char) (mem : Nat → UInt8) (str : Nat)
    (h0 : ∀ c ∈ chars, c.toNat ≠ 0)
    (h : Holds mem str (chars.flatMap String.utf8EncodeChar ++ [0])) :
    (∃ turns sent, send_unicode_string mem turns (some str) = some sent ∧
      sent.code_points = chars.map (·.val)) ∧
      ∀ input_mode, ∀ c ∈ chars, Denotes input_mode c (register_unicode input_mode c.val) := by
  obtain ⟨sent, hsent, hpoints⟩ := send_chars h0 h
  exact ⟨⟨chars.length + 1, sent, hsent, hpoints⟩,
    fun input_mode c _ => denotes_register_unicode input_mode c⟩

theorem holds_getD (bytes : List UInt8) : Holds (fun i => bytes.getD i 0) 0 (bytes ++ [0]) := by
  intro i b hb
  rw [Nat.zero_add]
  beta_reduce
  rw [List.getD_eq_getElem?_getD]
  by_cases hi : i < bytes.length
  · rw [List.getElem?_append_left hi] at hb
    rw [hb]
    rfl
  · rw [List.getElem?_append_right (Nat.le_of_not_lt hi), List.getElem?_singleton] at hb
    rw [List.getElem?_eq_none (Nat.le_of_not_lt hi)]
    split at hb
    · exact Option.some.inj hb
    · cases hb

/-- The memory of `"né"`. -/
theorem a_string_is_typed :
    (∃ turns sent, send_unicode_string (fun i => [0x6E, 0xC3, 0xA9].getD i 0) turns (some 0) =
        some sent ∧ sent.code_points = [0x6E, 0xE9]) ∧
      ∀ input_mode, ∀ c ∈ [Char.ofNat 0x6E, Char.ofNat 0xE9],
        Denotes input_mode c (register_unicode input_mode c.val) := by
  refine unicode_strings_are_typed [Char.ofNat 0x6E, Char.ofNat 0xE9] _ 0
    (List.forall_mem_cons.mpr ⟨by decide, List.forall_mem_singleton.mpr (by decide)⟩) ?_
  have hbytes : [Char.ofNat 0x6E, Char.ofNat 0xE9].flatMap String.utf8EncodeChar =
      [0x6E, 0xC3, 0xA9] := by decide
  rw [hbytes]
  exact holds_getD _

end keychron_qmk.unicode
