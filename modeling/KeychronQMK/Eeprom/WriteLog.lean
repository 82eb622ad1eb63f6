-- The entries of the write log of the emulated EEPROM: the half-words that
-- a write appends, and the replay that reads them back.
import KeychronQMK.Eeprom.Funs
import Mathlib.Algebra.Ring.Nat

namespace keychron_qmk.emulated_flash

open memory

/-! ## Bits -/

theorem shiftLeft_or {a b i : Nat} (h : b < 2 ^ i) : b ||| a <<< i = a * 2 ^ i + b := by
  rw [Nat.or_comm, ← Nat.shiftLeft_add_eq_or_of_lt h, Nat.shiftLeft_eq]

theorem and_mask (x i j : Nat) : x &&& (2 ^ j - 1) <<< i = x / 2 ^ i % 2 ^ j * 2 ^ i := by
  have h : x &&& (2 ^ j - 1) <<< i = (x >>> i &&& (2 ^ j - 1)) <<< i := by
    apply Nat.eq_of_testBit_eq
    intro k
    simp only [Nat.testBit_and, Nat.testBit_shiftLeft, Nat.testBit_shiftRight]
    by_cases hk : i ≤ k
    · simp [hk]
    · simp [hk]
  rw [h, Nat.and_two_pow_sub_one_eq_mod, Nat.shiftRight_eq_div_pow, Nat.shiftLeft_eq]

theorem and_word_encoding (x : Nat) : x &&& FEE_WORD_ENCODING = x / 0x8000 % 2 * 0x8000 :=
  and_mask x 15 1

theorem and_value_next (x : Nat) : x &&& FEE_VALUE_NEXT = x / 0x2000 % 4 * 0x2000 :=
  and_mask x 13 2

theorem and_value_reserved (x : Nat) : x &&& FEE_VALUE_RESERVED = x / 0x4000 % 2 * 0x4000 :=
  and_mask x 14 1

theorem and_value_encoded (x : Nat) : x &&& FEE_VALUE_ENCODED = x / 0x2000 % 2 * 0x2000 :=
  and_mask x 13 1

theorem and_address (x : Nat) : x &&& 0x1FFF = x % 0x2000 := Nat.and_two_pow_sub_one_eq_mod x 13

theorem lowByte_toNat (w : UInt16) : (lowByte w).toNat = w.toNat % 256 := by
  simp [lowByte]

theorem highByte_toNat (w : UInt16) : (highByte w).toNat = w.toNat / 256 := by
  have := w.toNat_lt
  simp only [highByte, UInt16.toNat_toUInt8, UInt16.toNat_shiftRight]
  simp [Nat.shiftRight_eq_div_pow]
  omega

theorem halfWord_toNat (lo hi : UInt8) : (halfWord lo hi).toNat = hi.toNat * 256 + lo.toNat := by
  have hlo := lo.toNat_lt
  have hhi := hi.toNat_lt
  have hor : hi.toNat <<< 8 ||| lo.toNat = hi.toNat * 2 ^ 8 + lo.toNat := by
    rw [Nat.or_comm, shiftLeft_or (by omega)]
  simp only [halfWord, hor, UInt16.toNat_ofNat']
  omega

@[simp] theorem lowByte_halfWord (lo hi : UInt8) : lowByte (halfWord lo hi) = lo := by
  have := lo.toNat_lt
  rw [← UInt8.toNat_inj, lowByte_toNat, halfWord_toNat]
  omega

@[simp] theorem highByte_halfWord (lo hi : UInt8) : highByte (halfWord lo hi) = hi := by
  have := lo.toNat_lt
  rw [← UInt8.toNat_inj, highByte_toNat, halfWord_toNat]
  omega

@[simp] theorem halfWord_bytes (w : UInt16) : halfWord (lowByte w) (highByte w) = w := by
  rw [← UInt16.toNat_inj, halfWord_toNat, lowByte_toNat, highByte_toNat]
  omega

/-! ## Entries -/

inductive Entry (cfg : Config) where
  | byte (address : Nat) (value : UInt8) (low : address < FEE_BYTE_RANGE)
      (fits : address < cfg.FEE_DENSITY_BYTES)
  | word (address : Nat) (value : UInt16) (even : address % 2 = 0)
      (high : FEE_BYTE_RANGE ≤ address) (fits : address < cfg.FEE_DENSITY_BYTES)
      (reached : address < FEE_ADDRESS_MAX_SIZE)

namespace Entry

variable {cfg : Config}

def words : Entry cfg → List UInt16
  | byte a v .. => [.ofNat (a <<< 8 ||| v.toNat)]
  | word a v .. =>
    if v ≤ 1 then [.ofNat (a >>> 1 ||| (FEE_WORD_ENCODING ||| v.toNat <<< 13))]
    else [.ofNat ((a - FEE_BYTE_RANGE) >>> 1 ||| (FEE_WORD_ENCODING ||| FEE_VALUE_NEXT)), ~~~v]

/-- What the entry makes of the cache. -/
def apply (d : Nat → UInt8) : Entry cfg → Nat → UInt8
  | byte a v .. => Function.update d a v
  | word a v .. => putWord d a v

/-- The half-word of the cache that the entry is in. -/
def place : Entry cfg → Nat
  | byte a .. => a / 2
  | word a .. => a / 2

theorem apply_of_ne {e : Entry cfg} {d : Nat → UInt8} {a : Nat} (h : a / 2 ≠ e.place) :
    e.apply d a = d a := by
  cases e with
  | byte address value low fits =>
    simp only [place] at h
    exact Function.update_of_ne (fun ha => h (by rw [ha])) _ _
  | word address value even high fits reached =>
    simp only [place] at h
    simp only [apply, putWord]
    rw [Function.update_of_ne (by omega), Function.update_of_ne (by omega)]

end Entry

/-! ## Replay -/

theorem ne_empty_of_lt {entry : UInt16} (h : entry.toNat < 0xFFFF) : entry ≠ FEE_EMPTY_WORD := by
  rintro rfl
  exact absurd h (by decide)

section

variable {cfg : Config} {rest : List UInt16} {slot : Nat} {d : Nat → UInt8}

theorem replay_empty : replay cfg (FEE_EMPTY_WORD :: rest) slot d = (slot, d) := by
  rw [replay.eq_def]
  simp

variable {entry v : UInt16}

theorem replay_of_byte (hempty : entry.toNat < 0x8000) :
    replay cfg (entry :: rest) slot d =
      replay cfg rest (slot + 1) (Function.update d (entry.toNat >>> 8) entry.toUInt8) := by
  rw [replay.eq_def]
  dsimp only
  rw [if_neg (ne_empty_of_lt (by omega)), if_pos (by rw [and_word_encoding]; omega)]

theorem replay_of_word (h : 0x8000 ≤ entry.toNat) (h' : entry.toNat < 0xC000) :
    replay cfg (entry :: rest) slot d =
      replay cfg rest (slot + 1) (load_word cfg d ((entry.toNat &&& 0x1FFF) <<< 1)
        (.ofNat ((entry.toNat &&& FEE_VALUE_ENCODED) >>> 13))) := by
  rw [replay.eq_def]
  dsimp only
  rw [if_neg (ne_empty_of_lt (by omega)), if_neg (by rw [and_word_encoding]; omega),
    if_neg (by rw [and_value_next, FEE_VALUE_NEXT]; omega),
    if_neg (by rw [and_value_reserved]; omega)]

theorem replay_of_word_next {next : UInt16} (h : 0xE000 ≤ entry.toNat) (h' : entry.toNat < 0xFFFF)
    (hnext : ~~~next ≠ 0) :
    replay cfg (entry :: next :: rest) slot d =
      replay cfg rest (slot + 2)
        (load_word cfg d ((entry.toNat &&& 0x1FFF) <<< 1 + FEE_BYTE_RANGE) (~~~next)) := by
  rw [replay.eq_def]
  dsimp only
  rw [if_neg (ne_empty_of_lt h'), if_neg (by rw [and_word_encoding]; omega),
    if_pos (by rw [and_value_next, FEE_VALUE_NEXT]; omega), if_neg hnext]

variable {a : Nat}

theorem replay_byte (v : UInt8) (ha : a < FEE_BYTE_RANGE) :
    replay cfg (.ofNat (a <<< 8 ||| v.toNat) :: rest) slot d =
      replay cfg rest (slot + 1) (Function.update d a v) := by
  have hv := v.toNat_lt
  have hor : a <<< 8 ||| v.toNat = a * 2 ^ 8 + v.toNat := by
    rw [Nat.or_comm, shiftLeft_or (by omega)]
  simp only [FEE_BYTE_RANGE] at ha
  generalize hentry : UInt16.ofNat (a <<< 8 ||| v.toNat) = entry
  have hnat : entry.toNat = a * 256 + v.toNat := by
    rw [← hentry, UInt16.toNat_ofNat', hor]
    omega
  have haddress : entry.toNat >>> 8 = a := by
    omega
  have hvalue : entry.toUInt8 = v := by
    rw [← UInt8.toNat_inj, UInt16.toNat_toUInt8, hnat]
    omega
  rw [replay_of_byte (by omega), haddress, hvalue]

theorem replay_word (even : a % 2 = 0) (hv : v ≤ 1) (ha : a < FEE_ADDRESS_MAX_SIZE) :
    replay cfg (.ofNat (a >>> 1 ||| (FEE_WORD_ENCODING ||| v.toNat <<< 13)) :: rest) slot d =
      replay cfg rest (slot + 1) (load_word cfg d a v) := by
  simp only [FEE_ADDRESS_MAX_SIZE] at ha
  have hv : v.toNat ≤ 1 := hv
  have hencoding : FEE_WORD_ENCODING ||| v.toNat <<< 13 = (4 + v.toNat) <<< 13 := by
    have : v.toNat = 0 ∨ v.toNat = 1 := by omega
    rcases this with h | h <;> rw [h] <;> rfl
  have hor : a >>> 1 ||| (FEE_WORD_ENCODING ||| v.toNat <<< 13) =
      (4 + v.toNat) * 2 ^ 13 + a / 2 := by
    rw [hencoding, Nat.shiftRight_eq_div_pow, shiftLeft_or (by omega)]
  generalize hentry : UInt16.ofNat (a >>> 1 ||| (FEE_WORD_ENCODING ||| v.toNat <<< 13)) = entry
  have hnat : entry.toNat = (4 + v.toNat) * 0x2000 + a / 2 := by
    rw [← hentry, UInt16.toNat_ofNat', hor]
    omega
  have haddress : (entry.toNat &&& 0x1FFF) <<< 1 = a := by
    rw [and_address, hnat, Nat.shiftLeft_eq]
    omega
  have hvalue : UInt16.ofNat ((entry.toNat &&& FEE_VALUE_ENCODED) >>> 13) = v := by
    rw [← UInt16.toNat_inj, UInt16.toNat_ofNat', and_value_encoded, hnat,
      Nat.shiftRight_eq_div_pow]
    omega
  rw [replay_of_word (by omega) (by omega), haddress, hvalue]

theorem header_toNat (ha : a < FEE_ADDRESS_MAX_SIZE) :
    (UInt16.ofNat ((a - FEE_BYTE_RANGE) >>> 1 |||
      (FEE_WORD_ENCODING ||| FEE_VALUE_NEXT))).toNat = 7 * 0x2000 + (a - FEE_BYTE_RANGE) / 2 := by
  simp only [FEE_ADDRESS_MAX_SIZE] at ha
  have hencoding : FEE_WORD_ENCODING ||| FEE_VALUE_NEXT = 7 <<< 13 := rfl
  rw [hencoding, Nat.shiftRight_eq_div_pow, shiftLeft_or (by omega), UInt16.toNat_ofNat']
  omega

theorem replay_word_next (even : a % 2 = 0) (hv : ¬ v ≤ 1) (hlow : FEE_BYTE_RANGE ≤ a)
    (ha : a < FEE_ADDRESS_MAX_SIZE) :
    replay cfg (.ofNat ((a - FEE_BYTE_RANGE) >>> 1 ||| (FEE_WORD_ENCODING ||| FEE_VALUE_NEXT)) ::
        ~~~v :: rest) slot d =
      replay cfg rest (slot + 2) (load_word cfg d a v) := by
  have hnat := header_toNat ha
  simp only [FEE_ADDRESS_MAX_SIZE, FEE_BYTE_RANGE] at ha hlow hnat ⊢
  generalize UInt16.ofNat ((a - 0x80) >>> 1 ||| (FEE_WORD_ENCODING ||| FEE_VALUE_NEXT)) = entry
    at hnat ⊢
  have haddress : (entry.toNat &&& 0x1FFF) <<< 1 + FEE_BYTE_RANGE = a := by
    rw [and_address, hnat, Nat.shiftLeft_eq, FEE_BYTE_RANGE]
    omega
  have hvalue : ¬ v = 0 := by
    rintro rfl
    exact hv (by decide)
  rw [replay_of_word_next (by omega) (by omega) (by rwa [UInt16.not_not]), UInt16.not_not,
    haddress]

theorem replay_entry (e : Entry cfg) : replay cfg (e.words ++ rest) slot d =
    replay cfg rest (slot + e.words.length) (e.apply d) := by
  cases e with
  | byte a v low fits => exact replay_byte v low
  | word a v even high fits reached =>
    simp only [Entry.words, Entry.apply]
    split
    · rename_i hv
      simp only [List.cons_append, List.nil_append, List.length_singleton]
      rw [replay_word even hv reached, load_word, if_pos fits]
    · rename_i hv
      simp only [List.cons_append, List.nil_append, List.length_cons, List.length_nil]
      rw [replay_word_next even hv high reached, load_word, if_pos fits]

theorem replay_erased (n : Nat) :
    replay cfg (List.replicate n FEE_EMPTY_WORD) slot d = (slot, d) := by
  cases n with
  | zero => rfl
  | succ n => exact replay_empty

def logWords (E : List (Entry cfg)) : List UInt16 := E.flatMap Entry.words

/-- The cache after entries, in order. -/
def applyAll (E : List (Entry cfg)) (d : Nat → UInt8) : Nat → UInt8 :=
  E.foldl (fun d e => e.apply d) d

end

end keychron_qmk.emulated_flash
