-- The writes of the emulated EEPROM on a flash whose programs can fail, with
-- the statuses that `eeprom_legacy_emulated_flash.c` returns.
import KeychronQMK.Eeprom.Funs

namespace keychron_qmk.emulated_flash.failing

/-- A write returns 0, here `none`, or one of these. -/
inductive FLASH_Status
  | FLASH_BUSY
  | FLASH_ERROR_PG
  | FLASH_ERROR_WRP
  | FLASH_ERROR_OPT
  | FLASH_COMPLETE
  | FLASH_TIMEOUT
  | FLASH_BAD_ADDRESS
  deriving DecidableEq

/-- What a write can do wrong after a program that failed. -/
inductive Slip
  /-- A byte is left out as unchanged that the flash lacks. -/
  | skipped
  /-- A half-word is programmed into the log behind one that failed to start an entry. -/
  | behind_gap
  /-- The error of the first byte of a word gives way to the 0 of the second. -/
  | error_dropped
  deriving DecidableEq

/-- `fates` are the statuses of the programs to come. A program that does not
complete leaves its half-word as it was. The fields after it are history: the
bytes of the cache that were changed and not programmed since, whether the log
has a half-word before `empty_slot` that failed to start an entry, and of the
last call whether it compacted, and its slips. -/
structure Chip where
  eeprom : Eeprom
  fates : Nat → FLASH_Status
  ahead : Nat → Bool
  gap : Bool
  compacted : Bool
  slips : List Slip

namespace Chip

variable (cfg : Config) (c : Chip)

/-! ## History -/

def cache (a : Nat) (v : UInt8) : Chip :=
  { c with
    eeprom := { c.eeprom with DataBuf := Function.update c.eeprom.DataBuf a v }
    ahead := Function.update c.ahead a true }

def cache_word (a : Nat) (w : UInt16) : Chip :=
  { c with
    eeprom := { c.eeprom with DataBuf := putWord c.eeprom.DataBuf a w }
    ahead := fun b => c.ahead b || putWord c.eeprom.DataBuf a w b != c.eeprom.DataBuf b }

def in_flash (k : Nat) : Chip := { c with ahead := fun a => c.ahead a && a / 2 != k }

def slip (h : Bool) (e : Slip) : Chip := if h then { c with slips := e :: c.slips } else c

/-- A byte is left out as unchanged. -/
def skip (a : Nat) : Chip := c.slip (c.ahead a) .skipped

/-! ## The flash -/

def FLASH_ProgramHalfWord (i : Nat) (data : UInt16) : FLASH_Status × Chip :=
  let eeprom := if c.fates 0 = .FLASH_COMPLETE then
      emulated_flash.FLASH_ProgramHalfWord c.eeprom i data
    else c.eeprom
  (c.fates 0, { c with eeprom, fates := fun n => c.fates (n + 1) })

def EEPROM_Init : Chip :=
  { c with
    eeprom := emulated_flash.EEPROM_Init cfg c.eeprom
    ahead := fun _ => false
    gap := false }

def EEPROM_Erase : Chip :=
  { c with
    eeprom := emulated_flash.EEPROM_Erase cfg c.eeprom
    ahead := fun _ => false
    gap := false }

def compact_word (final_status : FLASH_Status) (k : Nat) : FLASH_Status × Chip :=
  if c.eeprom.word k ≠ 0 then
    let (status, c) := c.FLASH_ProgramHalfWord k (~~~c.eeprom.word k)
    if status ≠ .FLASH_COMPLETE then (status, c) else (final_status, c.in_flash k)
  else (final_status, c.in_flash k)

/-- Until it is programmed, every byte of the cache is ahead. -/
def eeprom_compact : FLASH_Status × Chip :=
  let cleared := { c with
    eeprom := eeprom_clear cfg c.eeprom
    ahead := fun _ => true
    gap := false
    compacted := true }
  (List.range cfg.log_base).foldl (fun r k => r.2.compact_word r.1 k) (.FLASH_COMPLETE, cleared)

/-! ## Entries -/

def eeprom_write_direct_entry (Address : UInt16) : Option FLASH_Status × Chip :=
  let k := Address.toNat / 2
  if c.eeprom.flash k = FEE_EMPTY_WORD then
    let value := ~~~c.eeprom.word k
    if value = FEE_EMPTY_WORD then (some .FLASH_COMPLETE, c.in_flash k)
    else
      let (status, c) := c.FLASH_ProgramHalfWord k value
      (some status, if status = .FLASH_COMPLETE then c.in_flash k else c)
  else (none, c)

def append (data : UInt16) : FLASH_Status × Chip :=
  let (status, c) := c.FLASH_ProgramHalfWord c.eeprom.empty_slot data
  (status, { c with eeprom := { c.eeprom with empty_slot := c.eeprom.empty_slot + 1 } }.slip
    (c.gap && status == FLASH_Status.FLASH_COMPLETE) .behind_gap)

/-- The half-word starts an entry. -/
def append_first (data : UInt16) : FLASH_Status × Chip :=
  let (status, c) := c.append data
  (status, { c with gap := c.gap || status != FLASH_Status.FLASH_COMPLETE })

/-- The address is even. -/
def eeprom_write_log_word_entry (Address : Nat) : FLASH_Status × Chip :=
  let value := c.eeprom.word (Address / 2)
  if value ≤ 1 then
    if c.eeprom.empty_slot + 1 > cfg.log_last then c.eeprom_compact cfg
    else
      let (final_status, c) :=
        c.append_first (.ofNat (Address >>> 1 ||| (FEE_WORD_ENCODING ||| value.toNat <<< 13)))
      (final_status, if final_status = .FLASH_COMPLETE then c.in_flash (Address / 2) else c)
  else
    if c.eeprom.empty_slot + 2 > cfg.log_last then c.eeprom_compact cfg
    else
      let address := (Address - FEE_BYTE_RANGE) >>> 1
      let (final_status, c) :=
        c.append_first (.ofNat (address ||| (FEE_WORD_ENCODING ||| FEE_VALUE_NEXT)))
      let (status, c) := c.append (~~~value)
      let final_status := if status ≠ .FLASH_COMPLETE then status else final_status
      (final_status, if final_status = .FLASH_COMPLETE then c.in_flash (Address / 2) else c)

def eeprom_write_log_byte_entry (Address : Nat) : FLASH_Status × Chip :=
  if c.eeprom.empty_slot ≥ cfg.log_last then c.eeprom_compact cfg
  else
    let (status, c) :=
      c.append_first (.ofNat (Address <<< 8 ||| (c.eeprom.DataBuf Address).toNat))
    (status, if status = .FLASH_COMPLETE then
      { c with ahead := Function.update c.ahead Address false } else c)

/-! ## Writes -/

def EEPROM_WriteDataByte (Address : UInt16) (DataByte : UInt8) : Option FLASH_Status × Chip :=
  let a := Address.toNat
  if a ≥ cfg.FEE_DENSITY_BYTES then (some .FLASH_BAD_ADDRESS, c)
  else if c.eeprom.DataBuf a = DataByte then (none, c.skip a)
  else
    let (status, c) := (c.cache a DataByte).eeprom_write_direct_entry Address
    match status with
    | some status => (some status, c)
    | none =>
      let (status, c) := if a < FEE_BYTE_RANGE then c.eeprom_write_log_byte_entry cfg a
        else c.eeprom_write_log_word_entry cfg (2 * (a / 2))
      (some status, c)

def write_changed_byte (changed : Bool) (a : Nat) : FLASH_Status × Chip :=
  if changed then c.eeprom_write_log_byte_entry cfg a else (.FLASH_COMPLETE, c.skip a)

/-- The part of `EEPROM_WriteDataWord` for an even address. -/
def write_aligned_word (Address DataWord : UInt16) : Option FLASH_Status × Chip :=
  let a := Address.toNat
  let oldValue := c.eeprom.word (a / 2)
  if oldValue = DataWord then (none, (c.skip a).skip (a + 1))
  else
    let lo := lowByte oldValue != lowByte DataWord
    let hi := highByte oldValue != highByte DataWord
    let (status, c) := (c.cache_word a DataWord).eeprom_write_direct_entry Address
    match status with
    | some status => (some status, c)
    | none =>
      if a < FEE_BYTE_RANGE then
        let (final_status, c) := c.write_changed_byte cfg lo a
        let (status, c) := c.write_changed_byte cfg hi (a + 1)
        (some (if status ≠ .FLASH_COMPLETE then status else final_status), c)
      else
        let (status, c) := c.eeprom_write_log_word_entry cfg a
        (some status, c)

/-- A write that returns one of these reports no error. -/
def succeeded (status : Option FLASH_Status) : Bool := status = none || status = some .FLASH_COMPLETE

def EEPROM_WriteDataWord (Address DataWord : UInt16) : Option FLASH_Status × Chip :=
  if Address.toNat ≥ cfg.FEE_DENSITY_BYTES then (some .FLASH_BAD_ADDRESS, c)
  else if Address.toNat % 2 ≠ 0 then
    let (final_status, c) := c.EEPROM_WriteDataByte cfg Address (lowByte DataWord)
    let (status, c) := c.EEPROM_WriteDataByte cfg (Address + 1) (highByte DataWord)
    (if status ≠ some .FLASH_COMPLETE then status else final_status,
      c.slip (status = none && !succeeded final_status) .error_dropped)
  else c.write_aligned_word cfg Address DataWord

/-- A call that starts with the history of its own empty. -/
def run (call : Call) (fates : Nat → FLASH_Status) : Option FLASH_Status × Chip :=
  let c := { c with fates, compacted := false, slips := [] }
  match call with
  | .byte Address DataByte => c.EEPROM_WriteDataByte cfg Address DataByte
  | .word Address DataWord => c.EEPROM_WriteDataWord cfg Address DataWord

end Chip

end keychron_qmk.emulated_flash.failing
