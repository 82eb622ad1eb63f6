-- The link between the halves of a split keyboard, after
-- `quantum/split_common/transactions.c`: a field of the shared memory that the
-- slave publishes with a checksum, and how the master reads it.
import Mathlib.Logic.Function.Iterate

namespace keychron_qmk.split

def FORCED_SYNC_THROTTLE_MS : UInt32 := 100

def timer_elapsed32 (now last : UInt32) : UInt32 := now - last

/-! ## Checksums -/

def crc8_shift (crc : UInt8) : UInt8 :=
  if crc &&& 0x80 ≠ 0 then crc <<< 1 ^^^ 0x31 else crc <<< 1

def crc8 (data : List UInt8) : UInt8 :=
  data.foldl (fun crc d => crc8_shift^[8] (crc ^^^ d)) 0xff

/-! ## Reads -/

/-- A field of the shared memory and its checksum. -/
structure Checked (α : Type) where
  checksum : UInt8
  data : α
  deriving DecidableEq

/-- What `read_if_checksum_mismatch` leaves. The destination is none where
nothing was written to it. -/
structure ReadResult (α : Type) where
  okay : Bool
  destination : Option α
  shmem : Checked α
  last_update : UInt32

/-- `checksum` and `data` are what the two transactions bring from the slave,
none where one fails. The second is made only on a mismatch, or once the last
update is old. -/
def read_if_checksum_mismatch {α : Type} (bytes : α → List UInt8) (now later : UInt32)
    (checksum : Option UInt8) (data : Option α) (last_update : UInt32) (shmem : Checked α) :
    ReadResult α :=
  match checksum with
  | none => ⟨false, some shmem.data, shmem, last_update⟩
  | some curr_checksum =>
    if FORCED_SYNC_THROTTLE_MS ≤ timer_elapsed32 now last_update ∨
        curr_checksum ≠ crc8 (bytes shmem.data) then
      match data with
      | none => ⟨false, none, ⟨curr_checksum, shmem.data⟩, last_update⟩
      | some read =>
        -- the read lands in the shared memory first, whatever its checksum
        if curr_checksum = crc8 (bytes read) then ⟨true, some read, ⟨curr_checksum, read⟩, later⟩
        else ⟨false, some read, ⟨curr_checksum, read⟩, last_update⟩
    else ⟨true, some shmem.data, ⟨curr_checksum, shmem.data⟩, last_update⟩

section

variable {α : Type} {bytes : α → List UInt8} {now later last_update : UInt32}
  {checksum : Option UInt8} {data : Option α} {shmem : Checked α}

variable (bytes now later last_update checksum data shmem) in
theorem read_keeps_or_reads :
    (read_if_checksum_mismatch bytes now later checksum data last_update shmem).shmem.data =
      shmem.data ∨
    data = some
      (read_if_checksum_mismatch bytes now later checksum data last_update shmem).shmem.data := by
  unfold read_if_checksum_mismatch
  split
  · exact .inl rfl
  · split
    · split
      · exact .inl rfl
      · split
        · exact .inr rfl
        · exact .inr rfl
    · exact .inl rfl

/-- A read that succeeds hands out the master's copy, under the checksum of
this attempt. -/
theorem read_okay
    (h : (read_if_checksum_mismatch bytes now later checksum data last_update shmem).okay = true) :
    (read_if_checksum_mismatch bytes now later checksum data last_update shmem).destination = some
      (read_if_checksum_mismatch bytes now later checksum data last_update shmem).shmem.data ∧
    checksum = some (crc8 (bytes
      (read_if_checksum_mismatch bytes now later checksum data last_update shmem).shmem.data)) := by
  unfold read_if_checksum_mismatch at h ⊢
  split at h
  · cases h
  · rename_i curr_checksum
    split at h
    · split at h
      · cases h
      · split at h
        · rename_i hdue _ read hcrc
          simp [hdue, ← hcrc]
        · cases h
    · rename_i hdue
      obtain ⟨-, hcrc⟩ := not_or.mp hdue
      simp only [if_neg hdue]
      exact ⟨trivial, congrArg some (not_not.mp hcrc)⟩

theorem read_checksum (curr_checksum : UInt8) :
    (read_if_checksum_mismatch bytes now later (some curr_checksum) data last_update
      shmem).shmem.checksum = curr_checksum := by
  unfold read_if_checksum_mismatch
  simp only
  split
  · split
    · rfl
    · split
      · rfl
      · rfl
  · rfl

/-- A read that finds a mismatch, or an old update, succeeds with the data of
this attempt only. -/
theorem read_okay_of_due {curr_checksum : UInt8}
    (hdue : FORCED_SYNC_THROTTLE_MS ≤ timer_elapsed32 now last_update ∨
      curr_checksum ≠ crc8 (bytes shmem.data))
    (h : (read_if_checksum_mismatch bytes now later (some curr_checksum) data last_update
      shmem).okay = true) :
    data = some (read_if_checksum_mismatch bytes now later (some curr_checksum) data last_update
      shmem).shmem.data := by
  unfold read_if_checksum_mismatch at h ⊢
  simp only [if_pos hdue] at h ⊢
  split at h
  · cases h
  · split at h
    · rename_i hcrc
      simp [hcrc]
    · cases h

end

end keychron_qmk.split
