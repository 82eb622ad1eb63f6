-- The EEPROM that is emulated in flash, after
-- `eeprom_legacy_emulated_flash.c`: a cache in RAM, a compacted copy of it,
-- and a log of the writes since that copy.
import KeychronQMK.Lib.Memory
import Mathlib.Logic.Function.Basic

namespace keychron_qmk.emulated_flash

open memory

/-! ## The areas -/

def FEE_WORD_ENCODING : Nat := 0x8000

def FEE_VALUE_NEXT : Nat := 0x6000

def FEE_VALUE_RESERVED : Nat := 0x4000

def FEE_VALUE_ENCODED : Nat := 0x2000

def FEE_BYTE_RANGE : Nat := 0x80

def FEE_EMPTY_WORD : UInt16 := 0xFFFF

/-- The largest density that the addresses of the log entries reach. -/
def FEE_ADDRESS_MAX_SIZE : Nat := 0x4000

structure Config where
  FEE_PAGE_COUNT : Nat
  FEE_PAGE_SIZE : Nat
  FEE_DENSITY_BYTES : Nat
  FEE_WRITE_LOG_BYTES : Nat
  density_even : FEE_DENSITY_BYTES % 2 = 0
  log_even : FEE_WRITE_LOG_BYTES % 2 = 0
  fits : FEE_DENSITY_BYTES + FEE_WRITE_LOG_BYTES ≤ FEE_PAGE_COUNT * FEE_PAGE_SIZE

/-- The half-words of the compacted area, which the log follows. -/
def Config.log_base (cfg : Config) : Nat := cfg.FEE_DENSITY_BYTES / 2

def Config.log_last (cfg : Config) : Nat :=
  cfg.FEE_DENSITY_BYTES / 2 + cfg.FEE_WRITE_LOG_BYTES / 2

/-! ## Half-words -/

def lowByte (w : UInt16) : UInt8 := w.toUInt8

def highByte (w : UInt16) : UInt8 := (w >>> 8).toUInt8

def halfWord (lo hi : UInt8) : UInt16 := .ofNat (hi.toNat <<< 8 ||| lo.toNat)

def putWord (d : Nat → UInt8) (address : Nat) (w : UInt16) : Nat → UInt8 :=
  Function.update (Function.update d address (lowByte w)) (address + 1) (highByte w)

/-! ## The flash -/

inductive FLASH_Status
  /-- The value 0, which is none of the enumeration. -/
  | none
  | FLASH_COMPLETE
  | FLASH_BAD_ADDRESS
  deriving DecidableEq

/-- The flash in half-words from `FEE_PAGE_BASE_ADDRESS` on, the cache, and
the half-word for the next log entry. `programmed` are the half-words
programmed so far, each with what it held before. -/
structure Eeprom where
  flash : Nat → UInt16
  DataBuf : Nat → UInt8
  empty_slot : Nat
  programmed : List (Nat × UInt16)

/-- Programming only clears bits. -/
def FLASH_ProgramHalfWord (s : Eeprom) (i : Nat) (data : UInt16) : Eeprom :=
  { s with
    flash := Function.update s.flash i (s.flash i &&& data)
    programmed := s.programmed ++ [(i, s.flash i)] }

def FLASH_ErasePage (cfg : Config) (s : Eeprom) (page_num : Nat) : Eeprom :=
  { s with flash := fun i =>
      if page_num * cfg.FEE_PAGE_SIZE ≤ 2 * i ∧ 2 * i < (page_num + 1) * cfg.FEE_PAGE_SIZE then
        FEE_EMPTY_WORD
      else s.flash i }

/-! ## Initialisation -/

/-- The cache from the compacted area, which holds the complements. -/
def load_compacted (cfg : Config) (flash : Nat → UInt16) (d : Nat → UInt8) : Nat → UInt8 :=
  fun a =>
    if a < cfg.FEE_DENSITY_BYTES then
      if a % 2 = 0 then lowByte (~~~flash (a / 2)) else highByte (~~~flash (a / 2))
    else d a

def load_word (cfg : Config) (d : Nat → UInt8) (address : Nat) (wvalue : UInt16) : Nat → UInt8 :=
  if address < cfg.FEE_DENSITY_BYTES then putWord d address wvalue else d

/-- The replay of the half-words of the log from `log_addr` on. It gives the
slot that it stops at, and the cache. -/
def replay (cfg : Config) : List UInt16 → Nat → (Nat → UInt8) → Nat × (Nat → UInt8)
  | [], log_addr, d => (log_addr, d)
  | entry :: rest, log_addr, d =>
    let address := entry.toNat
    if entry = FEE_EMPTY_WORD then (log_addr, d)
    else if address &&& FEE_WORD_ENCODING = 0 then
      replay cfg rest (log_addr + 1) (Function.update d (address >>> 8) entry.toUInt8)
    else if address &&& FEE_VALUE_NEXT = FEE_VALUE_NEXT then
      match rest with
      | [] => (log_addr + 1, d)
      | next :: rest =>
        -- an incomplete write is passed over
        if ~~~next = 0 then replay cfg rest (log_addr + 2) d
        else replay cfg rest (log_addr + 2)
          (load_word cfg d ((address &&& 0x1FFF) <<< 1 + FEE_BYTE_RANGE) (~~~next))
    else if address &&& FEE_VALUE_RESERVED ≠ 0 then replay cfg rest (log_addr + 1) d
    else replay cfg rest (log_addr + 1)
      (load_word cfg d ((address &&& 0x1FFF) <<< 1)
        (.ofNat ((address &&& FEE_VALUE_ENCODED) >>> 13)))

def EEPROM_Init (cfg : Config) (s : Eeprom) : Eeprom :=
  let log := readBlock s.flash cfg.log_base (cfg.log_last - cfg.log_base)
  let r := replay cfg log cfg.log_base (load_compacted cfg s.flash s.DataBuf)
  { s with empty_slot := r.1, DataBuf := r.2 }

def eeprom_clear (cfg : Config) (s : Eeprom) : Eeprom :=
  { (List.range cfg.FEE_PAGE_COUNT).foldl (FLASH_ErasePage cfg) s with empty_slot := cfg.log_base }

def EEPROM_Erase (cfg : Config) (s : Eeprom) : Eeprom := EEPROM_Init cfg (eeprom_clear cfg s)

/-! ## Writes -/

def Eeprom.word (s : Eeprom) (k : Nat) : UInt16 := halfWord (s.DataBuf (2 * k)) (s.DataBuf (2 * k + 1))

def compact_word (s : Eeprom) (k : Nat) : Eeprom :=
  if s.word k ≠ 0 then FLASH_ProgramHalfWord s k (~~~s.word k) else s

def eeprom_compact (cfg : Config) (s : Eeprom) : Eeprom :=
  (List.range cfg.log_base).foldl compact_word (eeprom_clear cfg s)

/-- The half-word of the compacted area is programmed if it is erased. It is
none when it is not. -/
def eeprom_write_direct_entry (s : Eeprom) (Address : UInt16) : Option Eeprom :=
  let k := Address.toNat / 2
  if s.flash k = FEE_EMPTY_WORD then
    if ~~~s.word k = FEE_EMPTY_WORD then some s
    else some (FLASH_ProgramHalfWord s k (~~~s.word k))
  else none

def append (s : Eeprom) (data : UInt16) : Eeprom :=
  { FLASH_ProgramHalfWord s s.empty_slot data with empty_slot := s.empty_slot + 1 }

/-- The address is even. -/
def eeprom_write_log_word_entry (cfg : Config) (s : Eeprom) (Address : Nat) : Eeprom :=
  let value := s.word (Address / 2)
  if value ≤ 1 then
    if s.empty_slot + 1 > cfg.log_last then eeprom_compact cfg s
    else append s (.ofNat (Address >>> 1 ||| (FEE_WORD_ENCODING ||| value.toNat <<< 13)))
  else
    if s.empty_slot + 2 > cfg.log_last then eeprom_compact cfg s
    else
      let address := (Address - FEE_BYTE_RANGE) >>> 1
      append (append s (.ofNat (address ||| (FEE_WORD_ENCODING ||| FEE_VALUE_NEXT)))) (~~~value)

def eeprom_write_log_byte_entry (cfg : Config) (s : Eeprom) (Address : Nat) : Eeprom :=
  if s.empty_slot ≥ cfg.log_last then eeprom_compact cfg s
  else append s (.ofNat (Address <<< 8 ||| (s.DataBuf Address).toNat))

def EEPROM_WriteDataByte (cfg : Config) (s : Eeprom) (Address : UInt16) (DataByte : UInt8) :
    FLASH_Status × Eeprom :=
  let a := Address.toNat
  if a ≥ cfg.FEE_DENSITY_BYTES then (.FLASH_BAD_ADDRESS, s)
  else if s.DataBuf a = DataByte then (.none, s)
  else
    let s := { s with DataBuf := Function.update s.DataBuf a DataByte }
    match eeprom_write_direct_entry s Address with
    | some s => (.FLASH_COMPLETE, s)
    | none =>
      if a < FEE_BYTE_RANGE then (.FLASH_COMPLETE, eeprom_write_log_byte_entry cfg s a)
      else (.FLASH_COMPLETE, eeprom_write_log_word_entry cfg s (2 * (a / 2)))

/-- The part of `EEPROM_WriteDataWord` for an even address. -/
def write_aligned_word (cfg : Config) (s : Eeprom) (Address DataWord : UInt16) :
    FLASH_Status × Eeprom :=
  let a := Address.toNat
  let oldValue := s.word (a / 2)
  if oldValue = DataWord then (.none, s)
  else
    let s := { s with DataBuf := putWord s.DataBuf a DataWord }
    match eeprom_write_direct_entry s Address with
    | some s => (.FLASH_COMPLETE, s)
    | none =>
      if a < FEE_BYTE_RANGE then
        -- only the bytes that change are written
        let s := if lowByte oldValue ≠ lowByte DataWord then
            eeprom_write_log_byte_entry cfg s a else s
        let s := if highByte oldValue ≠ highByte DataWord then
            eeprom_write_log_byte_entry cfg s (a + 1) else s
        (.FLASH_COMPLETE, s)
      else (.FLASH_COMPLETE, eeprom_write_log_word_entry cfg s a)

def EEPROM_WriteDataWord (cfg : Config) (s : Eeprom) (Address DataWord : UInt16) :
    FLASH_Status × Eeprom :=
  if Address.toNat ≥ cfg.FEE_DENSITY_BYTES then (.FLASH_BAD_ADDRESS, s)
  else if Address.toNat % 2 ≠ 0 then
    let (final_status, s) := EEPROM_WriteDataByte cfg s Address (lowByte DataWord)
    let (status, s) := EEPROM_WriteDataByte cfg s (Address + 1) (highByte DataWord)
    (if status ≠ .FLASH_COMPLETE then status else final_status, s)
  else write_aligned_word cfg s Address DataWord

/-! ## Reads -/

def EEPROM_ReadDataByte (cfg : Config) (s : Eeprom) (Address : UInt16) : UInt8 :=
  if Address.toNat < cfg.FEE_DENSITY_BYTES then s.DataBuf Address.toNat else 0xFF

def EEPROM_ReadDataWord (cfg : Config) (s : Eeprom) (Address : UInt16) : UInt16 :=
  let a := Address.toNat
  if a + 1 < cfg.FEE_DENSITY_BYTES then
    if a % 2 ≠ 0 then halfWord (s.DataBuf a) (s.DataBuf (a + 1)) else s.word (a / 2)
  else 0xFFFF

/-! ## Blocks -/

/-- A write of a byte or of a word. -/
inductive Call
  | byte (Address : UInt16) (DataByte : UInt8)
  | word (Address DataWord : UInt16)

def Call.run (cfg : Config) (s : Eeprom) : Call → Eeprom
  | .byte Address DataByte => (EEPROM_WriteDataByte cfg s Address DataByte).2
  | .word Address DataWord => (EEPROM_WriteDataWord cfg s Address DataWord).2

/-- The calls of the loop of `eeprom_write_block`. The address of a call keeps
16 bits of the pointer. -/
def word_calls (dest : Nat) : List UInt8 → List Call
  | lo :: hi :: src => .word (.ofNat dest) (halfWord lo hi) :: word_calls (dest + 2) src
  | [b] => [.byte (.ofNat dest) b]
  | [] => []

def block_calls (dest : Nat) (src : List UInt8) : List Call :=
  match src with
  | [] => []
  | b :: rest =>
    if dest % 2 ≠ 0 then .byte (.ofNat dest) b :: word_calls (dest + 1) rest
    else word_calls dest src

def eeprom_write_block (cfg : Config) (s : Eeprom) (dest : Nat) (src : List UInt8) : Eeprom :=
  (block_calls dest src).foldl (Call.run cfg) s

def read_words (cfg : Config) (s : Eeprom) (src : Nat) : Nat → List UInt8
  | 0 => []
  | 1 => [EEPROM_ReadDataByte cfg s (.ofNat src)]
  | len + 2 =>
    let value := EEPROM_ReadDataWord cfg s (.ofNat src)
    lowByte value :: highByte value :: read_words cfg s (src + 2) len

def eeprom_read_block (cfg : Config) (s : Eeprom) (src len : Nat) : List UInt8 :=
  match len with
  | 0 => []
  | len + 1 =>
    if src % 2 ≠ 0 then EEPROM_ReadDataByte cfg s (.ofNat src) :: read_words cfg s (src + 1) len
    else read_words cfg s src (len + 1)

end keychron_qmk.emulated_flash
