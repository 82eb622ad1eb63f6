-- The three kinds of log entries: the bytes that the append writes, and the
-- decoder that reads them back on the same word boundaries.
import KeychronQMK.WearLeveling.Funs

namespace keychron_qmk.wear_leveling

open memory

/-! ## Entries -/

/-- The size in the store of a multi-byte entry of `l` bytes. -/
def multibyteSize (c : Config) (l : Nat) : Nat :=
  c.write_size + (if c.write_size = 2 then c.write_size else 0) +
    (if c.write_size = 2 ∧ l > 1 then c.write_size else 0) +
    (if c.write_size = 2 ∧ l > 3 then c.write_size else 0) +
    (if c.write_size = 4 ∧ l > 1 then c.write_size else 0)

inductive LogEntry (c : Config) where
  | multibyte (address : Nat) (value : List UInt8) (nonempty : 0 < value.length)
      (short : value.length ≤ 5) (fits : address + value.length ≤ c.logical_size)
  | optimized_64 (address : Nat) (value : UInt8) (two : c.write_size = 2)
      (low : address < 64) (fits : address < c.logical_size)
  | word_01 (address value : Nat) (two : c.write_size = 2) (even : address % 2 = 0)
      (low : address < 16384) (bit : value = 0 ∨ value = 1) (fits : address + 1 < c.logical_size)

namespace LogEntry

variable {c : Config}

def address : LogEntry c → Nat
  | multibyte a .. => a
  | optimized_64 a .. => a
  | word_01 a .. => a

/-- The logical bytes that the entry writes. -/
def value : LogEntry c → List UInt8
  | multibyte _ v .. => v
  | optimized_64 _ v .. => [v]
  | word_01 _ v .. => [UInt8.ofNat v, 0]

def bytes : LogEntry c → List UInt8
  | multibyte a v .. =>
    (LOG_ENTRY_MAKE_MULTIBYTE a v.length ++ v ++ List.replicate (5 - v.length) 0).take
      (multibyteSize c v.length)
  | optimized_64 a v .. => LOG_ENTRY_MAKE_OPTIMIZED_64 a v
  | word_01 a v .. => LOG_ENTRY_MAKE_WORD_01 a v

/-- What the entry makes of the logical data. -/
def apply (e : LogEntry c) (m : Nat → UInt8) : Nat → UInt8 := patch m e.address e.value

end LogEntry

theorem multibyteSize_le (c : Config) (l : Nat) : 3 + min l 5 ≤ multibyteSize c l ∧
    multibyteSize c l ≤ 8 := by
  unfold multibyteSize
  rcases c.write_size_valid with h | h | h <;> rw [h] <;> grind

/-- The logical data after the entries, in order. -/
def applyAll {c : Config} (E : List (LogEntry c)) (m : Nat → UInt8) : Nat → UInt8 :=
  E.foldl (fun m e => e.apply m) m

def logBytes {c : Config} (E : List (LogEntry c)) : List UInt8 := E.flatMap LogEntry.bytes

section

variable {c : Config}

@[simp] theorem applyAll_nil (m : Nat → UInt8) : applyAll ([] : List (LogEntry c)) m = m := rfl

@[simp] theorem applyAll_cons (e : LogEntry c) (E : List (LogEntry c)) (m : Nat → UInt8) :
    applyAll (e :: E) m = applyAll E (e.apply m) := rfl

theorem applyAll_append (E F : List (LogEntry c)) (m : Nat → UInt8) :
    applyAll (E ++ F) m = applyAll F (applyAll E m) := by
  simp [applyAll]

@[simp] theorem logBytes_nil : logBytes ([] : List (LogEntry c)) = [] := rfl

@[simp] theorem logBytes_cons (e : LogEntry c) (E : List (LogEntry c)) :
    logBytes (e :: E) = e.bytes ++ logBytes E := rfl

theorem logBytes_append (E F : List (LogEntry c)) :
    logBytes (E ++ F) = logBytes E ++ logBytes F := by
  simp [logBytes]

theorem eqBelow_applyAll {n : Nat} {m m' : Nat → UInt8} (h : EqBelow n m m')
    (E : List (LogEntry c)) : EqBelow n (applyAll E m) (applyAll E m') := by
  induction E generalizing m m' with
  | nil => exact h
  | cons e E ih => exact ih (h.patch _ _)

end

/-! ## The bits of the headers -/

theorem shiftLeft_or {a b i : Nat} (h : b < 2 ^ i) : a <<< i ||| b = a * 2 ^ i + b := by
  rw [← Nat.shiftLeft_add_eq_or_of_lt h, Nat.shiftLeft_eq]

theorem and_mask (x i : Nat) : x &&& (2 ^ i - 1) = x % 2 ^ i := Nat.and_two_pow_sub_one_eq_mod x i

theorem multibyte_header (a l : Nat) (ha : a < 2 ^ 19) (hl : l < 8) :
    LOG_ENTRY_MAKE_MULTIBYTE a l =
      [UInt8.ofNat (l * 8 + a / 65536), UInt8.ofNat (a / 256 % 256), UInt8.ofNat (a % 256)] := by
  have h7 : ∀ x : Nat, x &&& 7 = x % 8 := fun x => and_mask x 3
  have h255 : ∀ x : Nat, x &&& 255 = x % 256 := fun x => and_mask x 8
  have hor : (l % 8) <<< 3 ||| a / 65536 % 8 = l % 8 * 8 + a / 65536 % 8 :=
    shiftLeft_or (by omega)
  unfold LOG_ENTRY_MAKE_MULTIBYTE
  simp only [h7, h255, Nat.shiftRight_eq_div_pow, Nat.zero_and, Nat.zero_shiftLeft, Nat.zero_or,
    Nat.reducePow]
  rw [hor, Nat.mod_eq_of_lt hl, Nat.mod_eq_of_lt (by omega : a / 65536 < 8)]

/-- The first three bytes of a log entry. -/
def HasHeader (log : List UInt8) (b0 b1 b2 : Nat) : Prop :=
  (log.getD 0 0).toNat = b0 ∧ (log.getD 1 0).toNat = b1 ∧ (log.getD 2 0).toNat = b2

variable {log : List UInt8}

theorem get_multibyte {a l : Nat} (ha : a < 2 ^ 19) (hl : l < 8)
    (h : HasHeader log (l * 8 + a / 65536) (a / 256 % 256) (a % 256)) :
    LOG_ENTRY_GET_TYPE log = 0 ∧ LOG_ENTRY_MULTIBYTE_GET_LENGTH log = l ∧
      LOG_ENTRY_MULTIBYTE_GET_ADDRESS log = a := by
  obtain ⟨h0, h1, h2⟩ := h
  have h3 : ∀ x : Nat, x &&& 3 = x % 4 := fun x => and_mask x 2
  have h7 : ∀ x : Nat, x &&& 7 = x % 8 := fun x => and_mask x 3
  unfold LOG_ENTRY_GET_TYPE LOG_ENTRY_MULTIBYTE_GET_LENGTH LOG_ENTRY_MULTIBYTE_GET_ADDRESS
  rw [h0, h1, h2, h3, h7, h7]
  refine ⟨by omega, by omega, ?_⟩
  rw [Nat.or_assoc, shiftLeft_or (a := a / 256 % 256) (by omega), shiftLeft_or (by omega)]
  omega

theorem optimized_64_header (a : Nat) (v : UInt8) (ha : a < 64) :
    LOG_ENTRY_MAKE_OPTIMIZED_64 a v = [UInt8.ofNat (64 + a), v] := by
  have h63 : a &&& 63 = a % 64 := and_mask a 6
  have hor : 1 <<< 6 ||| a = 1 * 2 ^ 6 + a := shiftLeft_or (by omega)
  unfold LOG_ENTRY_MAKE_OPTIMIZED_64
  rw [h63, Nat.mod_eq_of_lt ha]
  simpa using congrArg UInt8.ofNat hor

theorem get_optimized_64 {a : Nat} (ha : a < 64) (h : (log.getD 0 0).toNat = 64 + a) :
    LOG_ENTRY_GET_TYPE log = 1 ∧ LOG_ENTRY_OPTIMIZED_64_GET_ADDRESS log = a := by
  have h3 : ∀ x : Nat, x &&& 3 = x % 4 := fun x => and_mask x 2
  have h63 : ∀ x : Nat, x &&& 63 = x % 64 := fun x => and_mask x 6
  unfold LOG_ENTRY_GET_TYPE LOG_ENTRY_OPTIMIZED_64_GET_ADDRESS
  rw [h, h3, h63, Nat.shiftRight_eq_div_pow]
  omega

theorem word_01_header (a v : Nat) (ha : a < 16384) (hv : v = 0 ∨ v = 1) :
    LOG_ENTRY_MAKE_WORD_01 a v =
      [UInt8.ofNat (128 + v * 32 + a / 512), UInt8.ofNat (a / 2 % 256)] := by
  have h31 : ∀ x : Nat, x &&& 31 = x % 32 := fun x => and_mask x 5
  have h255 : ∀ x : Nat, x &&& 255 = x % 256 := fun x => and_mask x 8
  have hor0 : 2 <<< 6 ||| a / 512 = 2 * 2 ^ 6 + a / 512 := shiftLeft_or (by omega)
  have hor1 : 5 <<< 5 ||| a / 512 = 5 * 2 ^ 5 + a / 512 := shiftLeft_or (by omega)
  unfold LOG_ENTRY_MAKE_WORD_01
  simp only [h31, h255, Nat.shiftRight_eq_div_pow, Nat.reducePow]
  rw [Nat.mod_eq_of_lt (by omega : a / 512 < 32)]
  rcases hv with rfl | rfl
  · simpa using congrArg UInt8.ofNat hor0
  · simpa using congrArg UInt8.ofNat hor1

theorem get_word_01 {a v : Nat} (ha : a < 16384) (he : a % 2 = 0) (hv : v = 0 ∨ v = 1)
    (h0 : (log.getD 0 0).toNat = 128 + v * 32 + a / 512) (h1 : (log.getD 1 0).toNat = a / 2 % 256) :
    LOG_ENTRY_GET_TYPE log = 2 ∧ LOG_ENTRY_WORD_01_GET_ADDRESS log = a ∧
      LOG_ENTRY_WORD_01_GET_VALUE log = UInt8.ofNat v := by
  have h3' : ∀ x : Nat, x &&& 3 = x % 4 := fun x => and_mask x 2
  have h31 : ∀ x : Nat, x &&& 31 = x % 32 := fun x => and_mask x 5
  have h1' : ∀ x : Nat, x &&& 1 = x % 2 := fun x => and_mask x 1
  unfold LOG_ENTRY_GET_TYPE LOG_ENTRY_WORD_01_GET_ADDRESS LOG_ENTRY_WORD_01_GET_VALUE
  rw [h0, h1, h3', h31, h1']
  refine ⟨by omega, ?_, by congr 1; omega⟩
  rw [Nat.shiftLeft_eq (a / 2 % 256), shiftLeft_or (by omega)]
  omega

end keychron_qmk.wear_leveling
